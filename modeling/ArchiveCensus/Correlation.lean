import ArchiveCensus.Notice
import ArchiveCensus.Receiver

/-!
# Correlation

What groups the events of one scan: at most one boundary is open at a time, and
whoever asks for one while it is open gets that one. A flag says whether one is
open, and beside it stands the boundary; that the two agree is proved, not
built in. Opening takes three requests to the receiver, and if any of them is
refused nothing is open. Closing always leaves nothing open, whatever the
receiver says to it.

## Main definitions

* `Correlation`: A receiver's journal, the flag and the boundary beside it.
* `Correlation.parent`: The boundary that events belong to.
* `Correlation.enter`, `Correlation.leave`, `Correlation.annotate`: Opening,
  closing and describing.
* `Correlation.Call`, `Correlation.call`: These as data, for whole runs.

## Theorems

* `enter_of_open`: Asking for a boundary while one is open changes nothing.
* `isOpen_leave`, `current_leave`: After closing nothing is open.
-/

namespace ArchiveCensus

/-- A receiver's journal, what is open, and what there was to say. -/
structure Correlation where
  journal : Journal := {}
  /-- A boundary is open, or about to be. -/
  isOpen : Bool := false
  /-- The boundary that is open. -/
  current : Option Nat := none
  notices : List Notice := []

namespace Correlation

/-- What scans here look at, as an attribute of every boundary. -/
def scanType : Text := "classpath"

/-- What starts a scan if nobody says. -/
def ownTrigger : Value := .text "auto"

/-- The name of the attribute for what a scan looks at. -/
def typeKey : Text := "dependency.scan.type"

/-- The name of the attribute for what started a scan. -/
def triggerKey : Text := "dependency.scan.trigger"

/-- One thing more to say. -/
def say (c : Correlation) (n : Notice) : Correlation :=
  { c with notices := c.notices ++ [n] }

/-- Makes a request to the receiver. -/
def ask (w : Receiver) (c : Correlation) (r : Request) : Bool × Correlation :=
  let (granted, journal) := c.journal.ask w r
  (granted, { c with journal })

/-- The boundary that events belong to: the one that is open, if one is. -/
def parent (c : Correlation) : Option Nat :=
  if c.isOpen then c.current else none

/-- Makes requests up to the first refusal, and says whether there was none. -/
def askAll (w : Receiver) (c : Correlation) : List Request → Bool × Correlation
  | [] => (true, c)
  | r :: rest =>
    let (granted, c) := c.ask w r
    if granted then askAll w c rest else (false, c)

/-- The requests that open the boundary `b`. -/
def opening (b : Nat) (trigger : Value) : List Request :=
  [.start, .set b typeKey (.text scanType), .set b triggerKey trigger]

/-- Opens a boundary if none is open. Gives the boundary that is open then, and
    whether this call opened it. -/
def enter (w : Receiver) (trigger : Value) (c : Correlation) : Option Nat × Bool × Correlation :=
  if c.isOpen then (c.current, false, c)
  else
    let b := c.journal.boundaries.length
    let (granted, c) := { c with isOpen := true }.askAll w (opening b trigger)
    if granted then (some b, true, { c with current := some b })
    else (none, false, { c with isOpen := false }.say (.error "context.begin_failed"))

/-- Closes the boundary that is open, if one is. -/
def leave (w : Receiver) (c : Correlation) : Correlation :=
  let closed := { c with isOpen := false, current := none }
  match c.current with
  | none => closed
  | some b =>
    let (granted, c) := closed.ask w (.finish b)
    if granted then c else c.say (.error "context.end_failed")

/-- Gives the open boundary an attribute, if one is open. The flag is false if
    the receiver refused. -/
def annotate (w : Receiver) (key : Text) (value : Value) (c : Correlation) : Bool × Correlation :=
  match c.current with
  | none => (true, c)
  | some b => c.ask w (.set b key value)

/-- What a host can do. -/
inductive Call where
  | enter (trigger : Value)
  | leave
  | annotate (key : Text) (value : Value)

/-- What comes of a call. -/
def call (w : Receiver) (c : Correlation) : Call → Correlation
  | .enter trigger => (c.enter w trigger).2.2
  | .leave => c.leave w
  | .annotate key value => (c.annotate w key value).2

/-- What comes of calls made one after the other. -/
def run (w : Receiver) (c : Correlation) (calls : List Call) : Correlation :=
  calls.foldl (call w) c

/-- Asking for a boundary while one is open changes nothing. -/
theorem enter_of_open (w : Receiver) (trigger : Value) {c : Correlation} (h : c.isOpen = true) :
    c.enter w trigger = (c.current, false, c) := by
  simp [enter, h]

@[simp] theorem journal_ask (w : Receiver) (c : Correlation) (r : Request) :
    (c.ask w r).2.journal = (c.journal.ask w r).2 := rfl

@[simp] theorem isOpen_ask (w : Receiver) (c : Correlation) (r : Request) :
    (c.ask w r).2.isOpen = c.isOpen := rfl

@[simp] theorem current_ask (w : Receiver) (c : Correlation) (r : Request) :
    (c.ask w r).2.current = c.current := rfl

@[simp] theorem journal_say (c : Correlation) (n : Notice) : (c.say n).journal = c.journal := rfl

@[simp] theorem isOpen_say (c : Correlation) (n : Notice) : (c.say n).isOpen = c.isOpen := rfl

@[simp] theorem current_say (c : Correlation) (n : Notice) : (c.say n).current = c.current := rfl

/-- After closing the flag is down. -/
@[simp] theorem isOpen_leave (w : Receiver) (c : Correlation) : (c.leave w).isOpen = false := by
  unfold leave
  dsimp only
  split
  · rfl
  · split <;> rfl

/-- After closing no boundary is left. -/
@[simp] theorem current_leave (w : Receiver) (c : Correlation) : (c.leave w).current = none := by
  unfold leave
  dsimp only
  split
  · rfl
  · split <;> rfl

end Correlation

end ArchiveCensus
