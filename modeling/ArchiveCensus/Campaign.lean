import ArchiveCensus.Delivery

/-!
# Campaigns

A campaign delivers all records of a scan. If it opens the boundary itself, it
says at the start how many records there are and at the end how long their
delivery took, and closes the boundary. If a boundary is open already, the
campaign joins it and leaves it as it is.

The receiver may refuse what the campaign says about its own boundary. Then the
campaign fails, and if it was the last thing said, the boundary stays open. The
same happens if the clock shows nothing from which a duration can be told.

## Main definitions

* `Campaign.Report`: What came of a campaign.
* `Campaign.tell`, `Campaign.close`: The two halves of a campaign with a boundary
  of its own; the second is never left out.
* `Campaign.run`: One campaign.
-/

namespace ArchiveCensus

namespace Campaign

/-- What came of a campaign. -/
structure Report where
  /-- How many records there were. -/
  discovered : Nat
  /-- How many of them arrived. -/
  emitted : Nat
  /-- How many milliseconds their delivery took. -/
  duration : Int
  /-- A boundary was open. -/
  correlated : Bool

/-- Why a campaign fails. -/
inductive Fault where
  /-- There is nobody to tell. -/
  | noReceiver
  /-- The receiver refused an attribute of the campaign's boundary. -/
  | refused
  /-- The duration is no number of milliseconds. -/
  | timeless (f : Number.Fault)
deriving DecidableEq

/-- The wording of a fault that is the campaign's own. -/
def Fault.message? : Fault → Option Text
  | .noReceiver => some "no sink bound; call bind_sink() first"
  | .refused | .timeless _ => none

/-- The name of the attribute for the number of records. -/
def countKey : Text := "dependency.total.count"

/-- The name of the attribute for the duration. -/
def durationKey : Text := "dependency.scan.duration.ms"

/-- The whole milliseconds between two readings of a clock in seconds. -/
def milliseconds (start stop : Number) : Except Fault Int :=
  match ((stop - start).scale 1000).truncate? with
  | .ok n => .ok n
  | .error f => .error (.timeless f)

/-- Says about the boundary `b` how many records there are, and delivers them.
    Gives how many arrived, or nothing if the receiver refused the number. -/
def tell (w : Receiver) (maker : PackageUrl.Maker) (records : List Record) (b : Nat)
    (c : Correlation) : Option Nat × Correlation :=
  let (counted, c) := c.ask w (.set b countKey (.int records.length))
  if counted then
    let (emitted, c) := Delivery.deliverAll w maker (records.map some) c
    (some emitted, c)
  else (none, c)

/-- Says about the boundary `b` how long the delivery took, and closes it if the
    receiver takes that. -/
def close (w : Receiver) (elapsed : Except Fault Int) (b : Nat) (c : Correlation) :
    Except Fault Int × Correlation :=
  match elapsed with
  | .error f => (.error f, c)
  | .ok n =>
    let (timed, c) := c.ask w (.set b durationKey (.int n))
    if timed then (.ok n, c.leave w) else (.error .refused, c)

/-- What came of a campaign with a boundary of its own. A fault at its closing
    hides one that came before. -/
def reportOwn (records : List Record) : (emitted : Option Nat) → (duration : Except Fault Int) →
    Except Fault Report
  | _, .error f => .error f
  | none, .ok _ => .error .refused
  | some emitted, .ok n => .ok ⟨records.length, emitted, n, true⟩

/-- Delivers records under the boundary `b`, which the campaign opened. -/
def runOwn (w : Receiver) (maker : PackageUrl.Maker) (records : List Record)
    (elapsed : Except Fault Int) (b : Nat) (c : Correlation) : Except Fault Report × Correlation :=
  let (emitted, c) := tell w maker records b c
  let (duration, c) := close w elapsed b c
  (reportOwn records emitted duration, c)

/-- Delivers records under the boundary of somebody else, or under none. -/
def runJoined (w : Receiver) (maker : PackageUrl.Maker) (records : List Record)
    (correlated : Bool) (c : Correlation) : Report × Correlation :=
  let (emitted, c) := Delivery.deliverAll w maker (records.map some) c
  (⟨records.length, emitted, 0, correlated⟩, c)

/-- Delivers the records of a scan; `elapsed` is how long it takes if the
    boundary is the campaign's own. -/
def run (w : Receiver) (maker : PackageUrl.Maker) (records : List Record)
    (elapsed : Except Fault Int) (c : Correlation) : Except Fault Report × Correlation :=
  let c := c.say (.info "processor.campaign_started")
  match c.enter w Correlation.ownTrigger with
  | (some b, true, c) => runOwn w maker records elapsed b c
  | (b, _, c) =>
    let (report, c) := runJoined w maker records b.isSome c
    (.ok report, c)

end Campaign

end ArchiveCensus
