import ArchiveCensus.Receiver

/-!
# Announcements

The receiver for a host that has none of its own: what it is told becomes lines
of a log. A line has words of its own in front of the attributes it shows, and
attributes that repeat one of these words cannot be shown at all. The log keeps some
names for itself besides, and no attribute can have one of these either. Which names
they are is a matter of the log: the usual one keeps `usualNames`.

A boundary is announced once when it starts and at most once when it ends. It
counts as ended from the first attempt on, also when its line cannot be
written.

## Main definitions

* `Announcement.usualNames`: The names that the usual log keeps.
* `Announcement.line?`: A line, unless names clash.
* `Announcement.Mark`: A boundary that is announced.
* `Announcement.Mark.finish`: Ending it.
* `Announcement.discovery?`: The line of an event.
* `Announcement.receiverOf`, `Announcement.receiver`: A receiver that announces its
  boundaries, with some log and with the usual one.
-/

namespace ArchiveCensus

namespace Announcement

/-- A line: what it is about under `event`, and all else it shows. -/
abbrev Line := Attributes

/-- The name of what a line is about. -/
def eventKey : Text := "event"

/-- The name of the boundary in a line. -/
def boundaryKey : Text := "scan_id"

/-- The name of the duration in a line. -/
def elapsedKey : Text := "elapsed"

/-- The name of an event in a line. -/
def nameKey : Text := "event_name"

/-- What the usual log keeps for itself: the name of what a line is about, and those of
    the log and of the level. -/
def usualNames : List Text :=
  [eventKey, "self", "method_name"]

/-- An attribute has one of the names that are taken. -/
def clashes (taken : List Text) (attributes : Attributes) : Bool :=
  attributes.any fun a => a.1 ∈ taken

/-- The line about `about` with its own words and attributes, unless names clash with
    these words or with what the log keeps. -/
def line? (about : Text) (own attributes : Attributes) (kept : List Text := usualNames) :
    Option Line :=
  if clashes (own.map Prod.fst ++ kept) attributes then none
  else some ((eventKey, .text about) :: own ++ attributes)

/-- A boundary that is announced. -/
structure Mark where
  id : Text
  attributes : Attributes
  /-- When it started, in seconds. -/
  startedAt : Number
  ended : Bool := false

namespace Mark

/-- The line at the start of a boundary. -/
def opening (m : Mark) : Line :=
  [(eventKey, .text "dependency.scan.started"), (boundaryKey, .text m.id)]

/-- Gives a boundary an attribute. -/
def set (m : Mark) (key : Text) (value : Value) : Mark :=
  { m with attributes := m.attributes.put key value }

/-- Seconds since the start, to the nearest thousandth. -/
def elapsed (m : Mark) (now : Number) : Number :=
  (now - m.startedAt).roundTo 3

/-- The line at the end of a boundary. -/
def closing? (m : Mark) (now : Number) (kept : List Text := usualNames) : Option Line :=
  line? "dependency.scan.ended"
    [(boundaryKey, .text m.id), (elapsedKey, .ofNumber (m.elapsed now))] m.attributes kept

/-- The names of the line's own words at the end of a boundary. -/
def closingNames : List Text :=
  [boundaryKey, elapsedKey]

/-- The line at the end of a boundary is missing exactly if an attribute has one
    of its names, or one that the log keeps. -/
theorem closing?_eq_none_iff (m : Mark) (now : Number) (kept : List Text) :
    m.closing? now kept = none ↔ clashes (closingNames ++ kept) m.attributes = true := by
  simp [closing?, line?, closingNames]

/-- What comes of ending a boundary. -/
inductive Ending where
  | written (line : Line)
  /-- It was ended before. -/
  | nothing
  /-- An attribute has a name that is taken. -/
  | clash

/-- Ends a boundary. -/
def finish (m : Mark) (now : Number) (kept : List Text := usualNames) : Ending × Mark :=
  if m.ended then (.nothing, m)
  else
    match m.closing? now kept with
    | some line => (.written line, { m with ended := true })
    | none => (.clash, { m with ended := true })

end Mark

/-- The line of an event under a boundary, unless names clash. -/
def discovery? (e : Event) (parent : Option Mark) (kept : List Text := usualNames) :
    Option Line :=
  line? "dependency.discovered"
    [(nameKey, .text e.name), (boundaryKey, parent.elim .null fun m => .text m.id)] e.attributes
    kept

/-- A receiver that announces the end of its boundaries, and complains when it
    cannot. It has ended the boundary by then. -/
def receiverOf (kept : List Text) : Receiver :=
  ⟨fun j r =>
    match r with
    | .finish b =>
      let taken := Mark.closingNames ++ kept
      if j.boundaries[b]?.any fun x => !x.ended && clashes taken x.attributes then .grudged
      else .granted
    | _ => .granted⟩

/-- Such a receiver with the usual log. -/
def receiver : Receiver :=
  receiverOf usualNames

/-- All boundaries that were announced, for a host that describes each with the
    same attributes to begin with. -/
structure Board where
  common : Attributes := []
  marks : List Mark := []

namespace Board

/-- Starts a boundary. -/
def start (b : Board) (now : Number) : Mark × Board :=
  let m : Mark := { id := Journal.idOf b.marks.length, attributes := b.common, startedAt := now }
  (m, { b with marks := b.marks ++ [m] })

end Board

end Announcement

end ArchiveCensus
