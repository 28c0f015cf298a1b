import ArchiveCensus.Cadence

/-!
# A Cadence on a Clock

A cadence whose moves are made as soon as they are possible, and whose time
passes only when nothing else can happen. This is the run that a host sees
whose calls are far apart compared to the time a turn takes to change hands.

Campaigns take no time, unless there is a gate that holds each until it is let
through.

## Main definitions

* `Timeline`: A cadence, its clock and its gate.
* `Timeline.settle`: All moves that are possible now.
* `Timeline.pass`: Time passes.
* `Timeline.awaitBegun`, `Timeline.awaitCompleted`: Time passes until something
  has happened.
* `Timeline.shutdown`: All moves of a shutdown.
-/

namespace ArchiveCensus

/-- A cadence, its clock and its gate. -/
structure Timeline where
  cadence : Cadence
  /-- Seconds before the first campaign. -/
  delay : Float
  /-- Seconds before each further one. -/
  interval : Float
  /-- How campaigns end, in the order in which they begin; the others succeed. -/
  outcomes : List Bool := []
  /-- Campaigns wait at a gate. -/
  gated : Bool := false
  /-- How many campaigns may pass the gate. -/
  passes : Nat := 0
  now : Float := 0.0
  /-- When the running timer ends. -/
  due : Option Float := none

namespace Timeline

/-- A cadence before its start. Delays below zero are no delays, and intervals
    that are not above zero are none. -/
def make (delay interval : Float) : Timeline :=
  { cadence := .idle !(interval ≤ 0.0)
    delay := if 0.0 < delay then delay else 0.0
    interval }

/-- When a timer ends that starts now. -/
def dueFor (t : Timeline) : Trigger → Float
  | .periodic => t.now + t.interval
  | _ => t.now + t.delay

/-- Makes a move. A timer that starts by it is due later. -/
def move (t : Timeline) (m : Cadence.Move) : Timeline :=
  let next := t.cadence.step m
  let due :=
    if next.timer = t.cadence.timer then t.due
    else next.timer.map t.dueFor
  { t with cadence := next, due }

/-- How the campaign ends that began last. -/
def outcome (t : Timeline) : Bool :=
  (t.outcomes[t.cadence.begun.length - 1]?).getD true

/-- A timer is due. -/
def isDue (t : Timeline) : Bool :=
  t.due.any (· ≤ t.now)

/-- A campaign may pass the gate. -/
def isOpen (t : Timeline) : Bool :=
  !t.gated || 0 < t.passes

/-- One campaign passes the gate. -/
def letOne (t : Timeline) : Timeline :=
  { t with passes := t.passes - 1 }

/-- The next move that is possible now, already made. -/
def advance? (t : Timeline) : Option Timeline :=
  if !t.cadence.strays.isEmpty && t.isOpen then some (t.letOne.move .strayEnds)
  else if t.cadence.waiting.isSome then some (t.move .call)
  else if t.cadence.active.isSome then
    if t.isOpen then some (t.letOne.move (.finish t.outcome)) else none
  else if !t.cadence.line.isEmpty then some (t.move .turn)
  else if t.cadence.timer.isSome && t.isDue then some (t.move .elapse)
  else none

/-- Makes moves as long as any is possible, `fuel` at most. -/
def settleFor : Nat → Timeline → Timeline
  | 0, t => t
  | fuel + 1, t =>
    match t.advance? with
    | some t => settleFor fuel t
    | none => t

/-- Makes all moves that are possible now. Each ticket in line needs three, the
    timer one, and the ticket that it draws three more. -/
def settle (t : Timeline) : Timeline :=
  settleFor (3 * t.cadence.line.length + t.cadence.strays.length + 12) t

/-- A host makes a move. -/
def host (t : Timeline) (m : Cadence.Move) : Timeline :=
  (t.move m).settle

/-- Goes to the end of the running timer if it comes before `limit`. -/
def nextTimer? (t : Timeline) (limit : Option Float) : Option Timeline :=
  match t.due with
  | some due =>
    if limit.all (due ≤ ·) then some { t with now := if t.now < due then due else t.now }.settle
    else none
  | none => none

/-- Time passes up to `limit`, over `fuel` timers at most. -/
def passTo (limit : Float) : Nat → Timeline → Timeline
  | 0, t => { t with now := limit }
  | fuel + 1, t =>
    match t.nextTimer? (some limit) with
    | some t => passTo limit fuel t
    | none => { t with now := limit }

/-- How many timers may end within a duration. -/
def timersIn (t : Timeline) (duration : Float) : Nat :=
  (duration / t.interval).toUInt32.toNat + 2

/-- Time passes. -/
def pass (t : Timeline) (duration : Float) : Timeline :=
  passTo (t.now + duration) (t.timersIn duration) t

/-- Time passes until `happened`, over `fuel` timers at most; says whether it
    did. -/
def await (happened : Cadence → Bool) : Nat → Timeline → Bool × Timeline
  | 0, t => (happened t.cadence, t)
  | fuel + 1, t =>
    if happened t.cadence then (true, t)
    else
      match t.nextTimer? none with
      | some t => await happened fuel t
      | none => (false, t)

/-- Time passes until `n` campaigns have begun. -/
def awaitBegun (t : Timeline) (n : Nat) : Bool × Timeline :=
  await (fun c => n ≤ c.begun.length) (n + 2) t

/-- Time passes until `n` turns are over and nobody has one. -/
def awaitCompleted (t : Timeline) (n : Nat) : Bool × Timeline :=
  await (fun c => n ≤ c.completed && c.active.isNone) (n + 2) t

/-- One more campaign may pass the gate. -/
def release (t : Timeline) : Timeline :=
  { t with passes := t.passes + 1 }.settle

/-- Shuts the cadence down and says whether everything ended within `grace`
    seconds, during which campaigns may pass the gate as `during` says. A cadence
    that runs does not end in no time. -/
def shutdown (t : Timeline) (grace : Float) (during : Timeline → Timeline) : Bool × Timeline :=
  if t.cadence.closed then (true, during t)
  else
    let t := t.host .close
    if !t.cadence.started then (true, during t)
    else
      let t := during (t.host .announce)
      if t.cadence.isQuiet then (0.0 < grace, t)
      else (false, t.host .giveUp)

/-- The grace period of a shutdown, in seconds, if nobody says. -/
def usualGrace : Float := 5.0

end Timeline

end ArchiveCensus
