/-!
# The Cadence of Campaigns

When campaigns run: one after a delay, then, if wanted, one after each interval
that follows the end of the last, and one more whenever somebody forces it.
Campaigns take turns. Whoever wants one draws a ticket and waits in line.

A turn does not run a campaign by itself. It hands the campaign to a pool of
workers, and one of them calls it a little later. What may happen in between
happens here as well: the stop may be announced, and the grace period may end.

Shutting down happens in steps, because the outside world can look in between.
First the cadence closes, so that nobody can start or force anything. Then the
stop is announced: timers end, and tickets whose turn comes go away without a
campaign. A campaign that was handed over before that is called all the same.
When the grace period is over, the turn is taken from the campaign that has it.
If a worker has called the campaign it is given up and may go on running, and if
not it is withdrawn and never called. The line is sent away.

A cadence is a state and moves on it, without a clock. A move that is not
possible changes nothing, so every list of moves is a run, and what holds of
all runs holds of every way in which hosts, timers and campaigns can interleave.

## Main definitions

* `Ticket`: A campaign that is asked for.
* `Cadence`: The state.
* `Cadence.Move`, `Cadence.step`, `Cadence.run`: What can happen, one move and
  many.
* `Cadence.stage`: What a host sees.
* `Cadence.waiting`, `Cadence.underway`: The campaign that has its turn, before and
  after a worker has called it.
* `Cadence.running`, `Cadence.inFlight`: The campaigns that are running, and with
  them the one that is going to.
-/

namespace ArchiveCensus

/-- What asks for a campaign. -/
inductive Trigger where
  /-- The delay after the start. -/
  | initial
  /-- The interval after a campaign of the cadence. -/
  | periodic
  /-- A host. -/
  | forced
deriving DecidableEq

namespace Trigger

/-- The word for a trigger. -/
def name : Trigger → String
  | initial => "initial"
  | periodic => "periodic"
  | forced => "forced"

end Trigger

/-- A campaign that is asked for. -/
structure Ticket where
  /-- Which one it is, in the order in which they were drawn. -/
  number : Nat
  trigger : Trigger
deriving DecidableEq

/-- When campaigns run. -/
structure Cadence where
  /-- Campaigns of the cadence repeat. -/
  repeats : Bool
  started : Bool := false
  /-- A shutdown has begun. -/
  closed : Bool := false
  /-- The stop was announced. -/
  stopping : Bool := false
  /-- What the running timer asks for when it ends. -/
  timer : Option Trigger := none
  /-- How many tickets were drawn. -/
  drawn : Nat := 0
  /-- Tickets that wait for their turn. -/
  line : List Ticket := []
  /-- The ticket that has its turn. -/
  active : Option Ticket := none
  /-- Its campaign was handed to the workers and not called yet. -/
  pending : Bool := false
  /-- Campaigns that were given up and are still running. -/
  strays : List Ticket := []
  /-- Campaigns that were given up before a worker called them. -/
  withdrawn : List Ticket := []
  /-- All campaigns that were handed to the workers, in order. -/
  handed : List Ticket := []
  /-- All campaigns that a worker has called, in order. -/
  begun : List Ticket := []
  /-- The campaigns that ended in their turn, in order, and whether they
      succeeded. -/
  ended : List (Ticket × Bool) := []
  /-- How many turns are over. -/
  completed : Nat := 0

namespace Cadence

/-- What a host sees. -/
inductive Stage where
  | idle
  | scheduled
  | running
  | waiting
  | stopped
deriving DecidableEq

/-- The word for a stage. -/
def Stage.name : Stage → String
  | idle => "idle"
  | scheduled => "scheduled"
  | running => "running"
  | waiting => "waiting"
  | stopped => "stopped"

/-- What a host sees of a cadence. -/
def stage (c : Cadence) : Stage :=
  if c.closed then .stopped
  else if !c.started then .idle
  else if c.active.isSome then .running
  else if c.completed = 0 then .scheduled
  else .waiting

/-- What can happen. -/
inductive Move where
  /-- A host starts the cadence. -/
  | start
  /-- A host forces a campaign. -/
  | force
  /-- A host begins a shutdown. -/
  | close
  /-- The stop is announced. -/
  | announce
  /-- The timer ends. -/
  | elapse
  /-- The next in line gets its turn. -/
  | turn
  /-- A worker calls the campaign that has its turn. -/
  | call
  /-- The campaign that has its turn ends. -/
  | finish (success : Bool)
  /-- The grace period is over. -/
  | giveUp
  /-- A campaign that was given up ends after all. -/
  | strayEnds
deriving DecidableEq

/-- The cadence can be started, and starting it answers yes. -/
def canStart (c : Cadence) : Bool :=
  !c.started && !c.closed

/-- One more in line. -/
def draw (c : Cadence) (t : Trigger) : Cadence :=
  { c with line := c.line ++ [⟨c.drawn, t⟩], drawn := c.drawn + 1 }

/-- The campaign that has its turn and waits for a worker. -/
def waiting (c : Cadence) : Option Ticket :=
  if c.pending then c.active else none

/-- The campaign that has its turn and was called by a worker. -/
def underway (c : Cadence) : Option Ticket :=
  if c.pending then none else c.active

/-- The timer that runs after a campaign. -/
def timerAfter (c : Cadence) (t : Ticket) : Option Trigger :=
  if t.trigger = .forced then c.timer
  else if c.repeats && !c.stopping then some .periodic
  else none

/-- What a move leads to. -/
def step (c : Cadence) : Move → Cadence
  | .start => if c.canStart then { c with started := true, timer := some .initial } else c
  | .force =>
    -- The first to force a campaign starts the cadence and does no more.
    if c.canStart then { c with started := true, timer := some .initial }
    else if c.closed then c
    else c.draw .forced
  | .close => { c with closed := true }
  | .announce =>
    if c.closed && c.started then { c with stopping := true, timer := none } else c
  | .elapse =>
    match c.timer with
    | some t => { c.draw t with timer := none }
    | none => c
  | .turn =>
    match c.active, c.line with
    | none, t :: rest =>
      if c.stopping then { c with line := rest }
      else { c with line := rest, active := some t, pending := true, handed := c.handed ++ [t] }
    | _, _ => c
  | .call =>
    match c.waiting with
    | some t => { c with pending := false, begun := c.begun ++ [t] }
    | none => c
  | .finish success =>
    match c.underway with
    | some t =>
      { c with
        active := none
        timer := c.timerAfter t
        ended := c.ended ++ [(t, success)]
        completed := c.completed + 1 }
    | none => c
  | .giveUp =>
    if c.stopping then
      { c with
        line := []
        active := none
        pending := false
        strays := c.strays ++ c.underway.toList
        withdrawn := c.withdrawn ++ c.waiting.toList
        completed := c.completed + c.active.toList.length }
    else c
  | .strayEnds => { c with strays := c.strays.tail }

/-- What moves lead to, one after the other. -/
def run (c : Cadence) (moves : List Move) : Cadence :=
  moves.foldl step c

/-- A cadence that was not started. -/
def idle (repeats : Bool) : Cadence :=
  { repeats }

/-- The campaigns that are running. -/
def running (c : Cadence) : List Ticket :=
  c.underway.toList ++ c.strays

/-- The campaigns that are running or wait for a worker. -/
def inFlight (c : Cadence) : List Ticket :=
  c.active.toList ++ c.strays

/-- Nobody has or awaits a turn, and no timer runs. -/
def isQuiet (c : Cadence) : Bool :=
  c.active.isNone && c.line.isEmpty && c.timer.isNone

/-- How many campaigns there may be at once, by the number of processors. -/
def workers (processors : Option Int) : Int :=
  let n := processors.getD 1
  max 1 (min 4 (if n = 0 then 1 else n))

/-- How many campaigns there may be at once if a host asks for a number. Zero asks
    for none in particular, and no number below zero can be met. -/
def pool? (asked processors : Option Int) : Option Int :=
  match asked.filter (· ≠ 0) with
  | none => some (workers processors)
  | some n => if n < 0 then none else some n

end Cadence

end ArchiveCensus
