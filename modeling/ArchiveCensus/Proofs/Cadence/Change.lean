import ArchiveCensus.Cadence
import Mathlib.Data.List.Basic
import Mathlib.Data.List.Induction

/-!
# What a Move Changes

One inversion for all invariants of a cadence. `Change` has a case for each thing
that a move can do, with what it takes and with the whole state behind it, and
`step_change` says that there is no other. An invariant is then one short case for
each, and no proof looks into a move again.

With each change goes what it means to the outside: the requests that it adds to
the line, the tickets that it sends away without a campaign, and the campaigns that
return by it. What there is to tell of single moves is told of a run with `along`.

## Main definitions

* `along`: What there is to tell of each move of a run.
* `asking`: The requests that a move adds to the line.
* `dismissing`: The tickets that a move sends away.
* `returning`, `returned`: The campaigns that return by one move and by many.
* `Change`: What a move can do.

## Theorems

* `waiting_eq_some_iff`, `underway_eq_some_iff`: The campaign that has its turn
  either waits for a worker or is underway.
* `change_force`, `change_turn`, `step_change`: Every move is one of the changes.
-/

namespace ArchiveCensus

namespace Cadence

variable {c : Cadence} {t : Ticket}

theorem run_append (c : Cadence) (moves more : List Move) :
    c.run (moves ++ more) = (c.run moves).run more :=
  List.foldl_append

theorem run_concat (c : Cadence) (moves : List Move) (m : Move) :
    c.run (moves ++ [m]) = (c.run moves).step m :=
  run_append c moves [m]

/-- What `tell` says of each move, one move after the other. -/
def along {α : Type} (tell : Cadence → Move → List α) (c : Cadence) : List Move → List α
  | [] => []
  | m :: rest => tell c m ++ (c.step m).along tell rest

theorem along_append {α : Type} (tell : Cadence → Move → List α) (c : Cadence)
    (moves more : List Move) :
    c.along tell (moves ++ more) = c.along tell moves ++ (c.run moves).along tell more := by
  induction moves generalizing c with
  | nil => rfl
  | cons m rest ih =>
      rw [List.cons_append, along, along, ih, List.append_assoc]
      rfl

theorem along_concat {α : Type} (tell : Cadence → Move → List α) (c : Cadence)
    (moves : List Move) (m : Move) :
    c.along tell (moves ++ [m]) = c.along tell moves ++ tell (c.run moves) m := by
  rw [along_append, along, along, List.append_nil]

theorem waiting_eq_some_iff : c.waiting = some t ↔ c.pending = true ∧ c.active = some t := by
  rw [waiting]
  split <;> simp_all only [Bool.false_eq_true, false_and, true_and, reduceCtorEq]

theorem underway_eq_some_iff : c.underway = some t ↔ c.pending = false ∧ c.active = some t := by
  rw [underway]
  split <;> simp_all only [Bool.true_eq_false, false_and, true_and, reduceCtorEq]

theorem waiting_of_free (h : c.active = none) : c.waiting = none := by
  rw [waiting, h, ite_self]

theorem underway_of_free (h : c.active = none) : c.underway = none := by
  rw [underway, h, ite_self]

theorem underway_of_waiting (h : c.waiting = some t) : c.underway = none := by
  rw [underway, if_pos (waiting_eq_some_iff.mp h).1]

theorem waiting_of_underway (h : c.underway = some t) : c.waiting = none := by
  rw [waiting, (underway_eq_some_iff.mp h).1]
  rfl

/-- What a worker calls is underway. -/
theorem underway_called (h : c.waiting = some t) :
    underway { c with pending := false, begun := c.begun ++ [t] } = some t :=
  underway_eq_some_iff.mpr ⟨rfl, (waiting_eq_some_iff.mp h).2⟩

/-- The campaign that has its turn either waits for a worker or is underway. -/
theorem toList_active (c : Cadence) : c.active.toList = c.waiting.toList ++ c.underway.toList := by
  rw [waiting, underway]
  split
  · exact (List.append_nil _).symm
  · rfl

theorem length_toList_active (c : Cadence) :
    c.active.toList.length = c.waiting.toList.length + c.underway.toList.length := by
  rw [toList_active, List.length_append]

/-- The requests that a move adds to the line: a host's, if the cadence was
    started and is open, and that of a wait that elapses. -/
def asking (c : Cadence) : Move → List Trigger
  | .force => if c.started && !c.closed then [.forced] else []
  | .elapse => c.timer.toList
  | _ => []

/-- The tickets that a move sends away without a campaign: one whose turn comes
    behind the stop, and all that are in line when the grace period is over. -/
def dismissing (c : Cadence) : Move → List Ticket
  | .turn =>
    match c.active, c.line with
    | none, t :: _ => if c.stopping then [t] else []
    | _, _ => []
  | .giveUp => if c.stopping then c.line else []
  | _ => []

/-- The campaigns that return or fail by a move. -/
def returning (c : Cadence) : Move → List Ticket
  | .finish _ => c.underway.toList
  | .strayEnds => c.strays.head?.toList
  | _ => []

/-- The campaigns that return or fail by moves, in order. -/
def returned (c : Cadence) (moves : List Move) : List Ticket :=
  c.along returning moves

/-- What a move can do to a cadence, with the requests that it adds to the line, the
    tickets that it sends away and the campaigns that return by it. -/
inductive Change (c : Cadence) :
    Move → List Trigger → List Ticket → List Ticket → Cadence → Prop
  | stays {m : Move} : Change c m [] [] [] c
  | starts {m : Move} (hm : m = .start ∨ m = .force) (hstart : c.started = false)
      (hopen : c.closed = false) :
      Change c m [] [] [] { c with started := true, timer := some .initial }
  | forces (hstart : c.started = true) (hopen : c.closed = false) :
      Change c .force [.forced] [] [] (c.draw .forced)
  | closes : Change c .close [] [] [] { c with closed := true }
  | announces (hclosed : c.closed = true) :
      Change c .announce [] [] [] { c with stopping := true, timer := none }
  | elapses {t : Trigger} (htimer : c.timer = some t) :
      Change c .elapse [t] [] [] { c.draw t with timer := none }
  | dismisses {t : Ticket} {rest : List Ticket} (hstop : c.stopping = true)
      (hfree : c.active = none) (hline : c.line = t :: rest) :
      Change c .turn [] [t] [] { c with line := rest }
  | hands {t : Ticket} {rest : List Ticket} (hgo : c.stopping = false)
      (hfree : c.active = none) (hline : c.line = t :: rest) :
      Change c .turn [] [] []
        { c with line := rest, active := some t, pending := true, handed := c.handed ++ [t] }
  | calls {t : Ticket} (hwait : c.waiting = some t) :
      Change c .call [] [] [] { c with pending := false, begun := c.begun ++ [t] }
  | finishes {t : Ticket} (success : Bool) (hturn : c.underway = some t) :
      Change c (.finish success) [] [] [t]
        { c with
          active := none
          timer := c.timerAfter t
          ended := c.ended ++ [(t, success)]
          completed := c.completed + 1 }
  | givesUp (hstop : c.stopping = true) :
      Change c .giveUp [] c.line []
        { c with
          line := []
          active := none
          pending := false
          strays := c.strays ++ c.underway.toList
          withdrawn := c.withdrawn ++ c.waiting.toList
          completed := c.completed + c.active.toList.length }
  | strayEnds :
      Change c .strayEnds [] [] c.strays.head?.toList { c with strays := c.strays.tail }

theorem step_turn_hands {rest : List Ticket} (hgo : c.stopping = false)
    (hfree : c.active = none) (hline : c.line = t :: rest) :
    c.step .turn =
      { c with line := rest, active := some t, pending := true, handed := c.handed ++ [t] } := by
  rw [step, hfree, hline]
  simp only [hgo, Bool.false_eq_true, if_false]

theorem step_turn_dismisses {rest : List Ticket} (hstop : c.stopping = true)
    (hfree : c.active = none) (hline : c.line = t :: rest) :
    c.step .turn = { c with line := rest } := by
  rw [step, hfree, hline]
  simp only [hstop, if_true]

theorem step_call_waiting (hwait : c.waiting = some t) :
    c.step .call = { c with pending := false, begun := c.begun ++ [t] } := by
  rw [step, hwait]

theorem step_finish_underway (success : Bool) (hturn : c.underway = some t) :
    c.step (.finish success) =
      { c with
        active := none
        timer := c.timerAfter t
        ended := c.ended ++ [(t, success)]
        completed := c.completed + 1 } := by
  rw [step, hturn]

/-- Forcing a campaign starts the cadence, or is a request, or comes too late. -/
theorem change_force (c : Cadence) :
    Change c .force (c.asking .force) [] [] (c.step .force) := by
  rw [step]
  split
  · rename_i hstart
    simp only [canStart, Bool.and_eq_true, Bool.not_eq_true'] at hstart
    have hnone : c.asking .force = [] := by simp [asking, hstart.1]
    rw [hnone]
    exact .starts (Or.inr rfl) hstart.1 hstart.2
  · rename_i hstart
    split
    · rename_i hclosed
      have hnone : c.asking .force = [] := by simp [asking, hclosed]
      rw [hnone]
      exact .stays
    · rename_i hopen
      rw [Bool.not_eq_true] at hopen
      have hstarted : c.started = true := by simpa [canStart, hopen] using hstart
      have hone : c.asking .force = [.forced] := by simp [asking, hstarted, hopen]
      rw [hone]
      exact .forces hstarted hopen

/-- A turn is for the first in line, if there is one and nobody has the turn. -/
theorem change_turn (c : Cadence) :
    Change c .turn [] (c.dismissing .turn) [] (c.step .turn) := by
  rw [dismissing]
  cases hfree : c.active with
  | some t =>
      rw [step, hfree]
      exact .stays
  | none =>
      cases hline : c.line with
      | nil =>
          rw [step, hfree, hline]
          exact .stays
      | cons t rest =>
          by_cases hstop : c.stopping = true
          · rw [step_turn_dismisses hstop hfree hline]
            simp only [if_pos hstop]
            exact .dismisses hstop hfree hline
          · have hgo : c.stopping = false := Bool.eq_false_iff.mpr hstop
            rw [step_turn_hands hgo hfree hline]
            simp only [if_neg hstop]
            exact .hands hgo hfree hline

/-- Every move is one of the changes. -/
theorem step_change (c : Cadence) (m : Move) :
    Change c m (c.asking m) (c.dismissing m) (c.returning m) (c.step m) := by
  cases m with
  | start =>
      rw [step]
      split
      · rename_i hstart
        simp only [canStart, Bool.and_eq_true, Bool.not_eq_true'] at hstart
        exact .starts (Or.inl rfl) hstart.1 hstart.2
      · exact .stays
  | force => exact change_force c
  | close => exact .closes
  | announce =>
      rw [step]
      split
      · rename_i hclosing
        rw [Bool.and_eq_true] at hclosing
        exact .announces hclosing.1
      · exact .stays
  | elapse =>
      rw [step, asking]
      split
      · rename_i t htimer
        rw [htimer]
        exact .elapses htimer
      · rename_i htimer
        rw [htimer]
        exact .stays
  | turn => exact change_turn c
  | call =>
      cases hwait : c.waiting with
      | none =>
          rw [step, hwait]
          exact .stays
      | some t =>
          rw [step_call_waiting hwait]
          exact .calls hwait
  | finish success =>
      rw [returning]
      cases hturn : c.underway with
      | none =>
          rw [step, hturn]
          exact .stays
      | some t =>
          rw [step_finish_underway success hturn]
          exact .finishes success hturn
  | giveUp =>
      rw [step, dismissing]
      split
      · rename_i hstop
        exact .givesUp hstop
      · exact .stays
  | strayEnds => exact .strayEnds

end Cadence

end ArchiveCensus
