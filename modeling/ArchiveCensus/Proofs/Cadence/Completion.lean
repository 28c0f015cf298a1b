import ArchiveCensus.Proofs.Cadence

/-!
# What a Count of Turns Says About Campaigns

`completed` goes up when a turn ends, and a turn ends in two ways: the campaign
returns or fails, or the turn is taken from it when the grace period is over. So the
count is not the number of campaigns that have returned. It is ahead of it by the
campaigns that were given up and are still running, and agrees with it in these when
they return. It is ahead by the withdrawn ones as well, and these were never called, so
for them it stays ahead.

Two accounts give the exact difference. By turns, each campaign that was handed over
has its turn or was counted. By campaigns, each of them has returned or is running,
waits for a worker or was withdrawn.

## Theorems

* `counted_run`: Every campaign that was handed over has its turn or was counted.
* `completed_eq_returned_iff`: The count and the number of campaigns that have
  returned, for every run.
* `not_forall_completed`: They are not always the same.
-/

namespace ArchiveCensus

namespace Cadence

variable {c c' : Cadence} {m : Move} {asked : List Trigger} {gone back : List Ticket}

theorem Change.counted (hc : Change c m asked gone back c')
    (h : c.completed + c.active.toList.length = c.handed.length) :
    c'.completed + c'.active.toList.length = c'.handed.length := by
  cases hc with
  | stays | starts | forces | closes | announces | elapses | dismisses | calls | givesUp
  | strayEnds => exact h
  | hands hgo hfree hline =>
      rw [hfree, Option.toList_none, List.length_nil, Nat.add_zero] at h
      change c.completed + 1 = (c.handed ++ [_]).length
      rw [List.length_append, List.length_singleton, h]
  | finishes success hturn =>
      rw [(underway_eq_some_iff.mp hturn).2, Option.toList_some, List.length_singleton] at h
      exact h

/-- Every campaign that was handed over has its turn or was counted. -/
theorem counted_run (repeats : Bool) (moves : List Move) :
    ((idle repeats).run moves).completed + ((idle repeats).run moves).active.toList.length =
      ((idle repeats).run moves).handed.length := by
  induction moves using List.reverseRecOn with
  | nil => rfl
  | append_singleton moves m ih =>
      rw [run_concat]
      exact (step_change _ m).counted ih

/-- In every run the count is the number of campaigns that have returned or failed, of
    those that were given up and are still running, and of those that were withdrawn. So
    it is the number of those that have returned or failed exactly while none that was
    given up goes on and none was withdrawn. -/
theorem completed_eq_returned_iff (repeats : Bool) (moves : List Move) :
    ((idle repeats).run moves).completed =
        ((idle repeats).returned moves).length + ((idle repeats).run moves).strays.length +
          ((idle repeats).run moves).withdrawn.length ∧
      (((idle repeats).run moves).completed = ((idle repeats).returned moves).length ↔
        ((idle repeats).run moves).strays = [] ∧ ((idle repeats).run moves).withdrawn = []) := by
  have hturns := counted_run repeats moves
  have hcampaigns := (begun_run repeats moves).length_eq
  have hhanded := congrArg List.length (exclusive_run (exclusive_idle repeats) moves).inOrder
  rw [running, List.length_append, List.length_append] at hcampaigns
  rw [List.length_append, List.length_append] at hhanded
  rw [length_toList_active] at hturns
  have hcount : ((idle repeats).run moves).completed =
      ((idle repeats).returned moves).length + ((idle repeats).run moves).strays.length +
        ((idle repeats).run moves).withdrawn.length := by
    omega
  refine ⟨hcount, ?_⟩
  rw [← List.length_eq_zero_iff, ← List.length_eq_zero_iff]
  omega

/-- A campaign that is given up counts although it has not returned. -/
theorem not_forall_completed :
    ¬ ∀ (repeats : Bool) (moves : List Move),
      ((idle repeats).run moves).completed = ((idle repeats).returned moves).length := by
  intro h
  have hgivenUp := h false [.start, .elapse, .turn, .call, .close, .announce, .giveUp]
  exact absurd hgivenUp (by decide)

end Cadence

end ArchiveCensus
