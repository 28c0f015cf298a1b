import ArchiveCensus.Proofs.Cadence.Completion

/-!
# Stages Only Go Forward

A stage is not stored. It is read off four fields that change at different
moments: whether a start and a shutdown were asked for, who has the turn, and how
many turns are over. Nothing but the order of these changes keeps the stage from
falling back. If a turn were freed before it is counted, somebody who looks in
between would see the first campaign scheduled again after it ran.

That moment lies inside a move, so the states between two moves are not enough to
speak about it. `passing?` is the state in the middle of a move that writes two
of the four fields, and `readings` are all stages that can be read in a run, in
the middle of its moves as well.

`Later` is what never goes back, field by field. A turn that was given may be
taken away without being counted, but only from somebody whose turn came behind
the stop, and then the cadence is closed.

## Main definitions

* `Stage.rank`: How far a stage is. Running and waiting take turns.
* `passing?`: The state in the middle of a move.
* `readings`: The stages that can be read in a run.
* `answering`: What a call to start answers.
* `Consistent`: What the fields say about each other.
* `Later`: What never goes back.

## Theorems

* `later_step`, `later_passing`: Every move goes forward, by way of its middle.
* `pairwise_readings`: No reading is behind an earlier one.
* `run_forward`: Stages and answers, for every run.
-/

namespace ArchiveCensus

namespace Cadence

variable {c c' d e : Cadence} {m : Move} {asked : List Trigger} {gone back : List Ticket}

/-- How far a stage is. -/
def Stage.rank : Stage → Nat
  | idle => 0
  | scheduled => 1
  | running | waiting => 2
  | stopped => 3

/-- The state in the middle of a move that writes two of the fields a stage is
    read off: a turn is taken before the campaign is handed over, and is counted
    before it is free again. -/
def passing? (c : Cadence) : Move → Option Cadence
  | .turn =>
    match c.active, c.line with
    | none, t :: rest => some { c with line := rest, active := some t }
    | _, _ => none
  | .finish success =>
    match c.underway with
    | some t => some { c with ended := c.ended ++ [(t, success)], completed := c.completed + 1 }
    | none => none
  | .giveUp =>
    if c.stopping then some { c with completed := c.completed + c.active.toList.length } else none
  | _ => none

/-- The stages that can be read in a run, in order: before each move, in the
    middle of it, and behind the last one. -/
def readings (c : Cadence) : List Move → List Stage
  | [] => [c.stage]
  | m :: rest => c.stage :: ((c.passing? m).toList.map stage ++ (c.step m).readings rest)

/-- What the call to start answers that a move makes. Forcing a campaign makes
    one too. -/
def answering (c : Cadence) : Move → List Bool
  | .start | .force => [c.canStart]
  | _ => []

/-- What the fields say about each other between two moves. -/
structure Consistent (c : Cadence) : Prop where
  asleep : c.started = false → c.timer = none ∧ c.line = [] ∧ c.handed = []
  halted : c.stopping = true → c.closed = true ∧ c.timer = none
  counted : c.completed + c.active.toList.length = c.handed.length

theorem consistent_idle (repeats : Bool) : (idle repeats).Consistent :=
  ⟨fun _ => ⟨rfl, rfl, rfl⟩, fun h => Bool.noConfusion h, rfl⟩

theorem Consistent.open_of_going (h : c.Consistent) (hopen : c.closed = false) :
    c.stopping = false := by
  rw [Bool.eq_false_iff]
  intro hstop
  exact absurd (h.halted hstop).1 (Bool.eq_false_iff.mp hopen)

theorem Consistent.started_of_timer (h : c.Consistent) {t : Trigger} (htimer : c.timer = some t) :
    c.started = true := by
  by_contra hno
  have hnone := (h.asleep (Bool.eq_false_iff.mpr hno)).1
  rw [htimer] at hnone
  exact absurd hnone (by simp only [reduceCtorEq, not_false_eq_true])

theorem Consistent.started_of_line (h : c.Consistent) {t : Ticket} {rest : List Ticket}
    (hline : c.line = t :: rest) : c.started = true := by
  by_contra hno
  have hnil := (h.asleep (Bool.eq_false_iff.mpr hno)).2.1
  rw [hline] at hnil
  exact absurd hnil (by simp only [reduceCtorEq, not_false_eq_true])

theorem Consistent.started_of_handed (h : c.Consistent) (hhanded : c.handed ≠ []) :
    c.started = true := by
  by_contra hno
  exact hhanded (h.asleep (Bool.eq_false_iff.mpr hno)).2.2

theorem Consistent.handed_of_turn (h : c.Consistent) {t : Ticket} (hturn : c.active = some t) :
    c.handed ≠ [] := by
  intro hnil
  have hcounted := h.counted
  rw [hturn, hnil, Option.toList_some, List.length_singleton, List.length_nil] at hcounted
  omega

-- What makes a case impossible is always a start: without one there is no timer, no line
-- and nobody who has a turn.
theorem Change.consistent (hc : Change c m asked gone back c') (h : c.Consistent) :
    c'.Consistent := by
  have hcounted := hc.counted h.counted
  have hawake : ∀ {P : Prop}, c.started = true → c.started = false → P := fun hyes hno =>
    absurd hno (by rw [hyes]; exact Bool.noConfusion)
  cases hc with
  | stays => exact h
  | starts hm hstart hopen =>
      refine ⟨fun hno => Bool.noConfusion hno, fun hstop => ?_, hcounted⟩
      exact absurd hstop (Bool.eq_false_iff.mp (h.open_of_going hopen))
  | forces hstart hopen => exact ⟨hawake hstart, h.halted, hcounted⟩
  | closes => exact ⟨h.asleep, fun hstop => ⟨rfl, (h.halted hstop).2⟩, hcounted⟩
  | announces hclosed =>
      exact ⟨fun hno => ⟨rfl, (h.asleep hno).2⟩, fun _ => ⟨hclosed, rfl⟩, hcounted⟩
  | elapses htimer =>
      refine ⟨hawake (h.started_of_timer htimer), fun hstop => ?_, hcounted⟩
      exact ⟨(h.halted hstop).1, rfl⟩
  | dismisses hstop hfree hline => exact ⟨hawake (h.started_of_line hline), h.halted, hcounted⟩
  | hands hgo hfree hline => exact ⟨hawake (h.started_of_line hline), h.halted, hcounted⟩
  | calls hwait => exact ⟨h.asleep, h.halted, hcounted⟩
  | @finishes t success hturn =>
      have hactive := (underway_eq_some_iff.mp hturn).2
      refine ⟨hawake (h.started_of_handed (h.handed_of_turn hactive)), fun hstop => ?_, hcounted⟩
      have hstop : c.stopping = true := hstop
      have hnone := (h.halted hstop).2
      refine ⟨(h.halted hstop).1, ?_⟩
      change c.timerAfter t = none
      simp only [timerAfter, hstop, hnone, Bool.not_true, Bool.and_false, Bool.false_eq_true,
        if_false, ite_self]
  | givesUp hstop =>
      exact ⟨fun hno => ⟨(h.asleep hno).1, rfl, (h.asleep hno).2.2⟩, h.halted, hcounted⟩
  | strayEnds => exact ⟨h.asleep, h.halted, hcounted⟩

theorem consistent_step (h : c.Consistent) (m : Move) : (c.step m).Consistent :=
  (step_change c m).consistent h

theorem consistent_run (repeats : Bool) (moves : List Move) :
    ((idle repeats).run moves).Consistent := by
  induction moves using List.reverseRecOn with
  | nil => exact consistent_idle repeats
  | append_singleton moves m ih =>
      rw [run_concat]
      exact consistent_step ih m

/-- Somebody has the turn, or a turn is over. -/
def turned (c : Cadence) : Bool :=
  c.active.isSome || c.completed != 0

/-- What never goes back. A turn that was given stays given unless the cadence is
    closed. -/
structure Later (c d : Cadence) : Prop where
  started : c.started = true → d.started = true
  closed : c.closed = true → d.closed = true
  turned : c.turned = true → d.turned = true ∨ d.closed = true

theorem Later.trans (h : Later c d) (h' : Later d e) : Later c e := by
  refine ⟨fun hs => h'.started (h.started hs), fun hs => h'.closed (h.closed hs), fun ht => ?_⟩
  rcases h.turned ht with ht | hs
  · exact h'.turned ht
  · exact Or.inr (h'.closed hs)

/-- The stage as the three facts that `Later` speaks about decide it. -/
theorem rank_stage (c : Cadence) :
    c.stage.rank =
      if c.closed then 3 else if c.started then (if c.turned then 2 else 1) else 0 := by
  cases hclosed : c.closed <;> cases hstarted : c.started <;> cases hactive : c.active <;>
    by_cases hzero : c.completed = 0 <;>
    simp [stage, turned, Stage.rank, hclosed, hstarted, hactive, hzero]

theorem Later.rank_le (h : Later c d) : c.stage.rank ≤ d.stage.rank := by
  rw [rank_stage, rank_stage]
  have hstarted := h.started
  have hclosed := h.closed
  have hturned := h.turned
  cases hc : c.closed <;> cases hs : c.started <;> cases ht : c.turned <;>
    cases hc' : d.closed <;> cases hs' : d.started <;> cases ht' : d.turned <;>
    simp_all

theorem Change.later (hc : Change c m asked gone back c') (h : c.Consistent) : Later c c' := by
  cases hc with
  | stays | forces | elapses | dismisses | calls | strayEnds => exact ⟨id, id, Or.inl⟩
  | starts => exact ⟨fun _ => rfl, id, Or.inl⟩
  | closes => exact ⟨id, fun _ => rfl, Or.inl⟩
  | announces => exact ⟨id, id, Or.inl⟩
  | hands => exact ⟨id, id, fun _ => Or.inl rfl⟩
  | finishes => exact ⟨id, id, fun _ => Or.inl rfl⟩
  | givesUp hstop => exact ⟨id, id, fun _ => Or.inr (h.halted hstop).1⟩

/-- Every move goes forward. -/
theorem later_step (h : c.Consistent) (m : Move) : Later c (c.step m) :=
  (step_change c m).later h

/-- Every move goes forward by way of its middle. This is where it matters that a
    turn is counted before it is free. -/
theorem later_passing (h : c.Consistent) {m : Move} (hd : c.passing? m = some d) :
    Later c d ∧ Later d (c.step m) := by
  cases m with
  | turn =>
      rw [passing?] at hd
      cases hfree : c.active with
      | some t =>
          rw [hfree] at hd
          exact absurd hd (by simp only [reduceCtorEq, not_false_eq_true])
      | none =>
          cases hline : c.line with
          | nil =>
              rw [hfree, hline] at hd
              exact absurd hd (by simp only [reduceCtorEq, not_false_eq_true])
          | cons t rest =>
              rw [hfree, hline] at hd
              rw [← Option.some.inj hd]
              refine ⟨⟨id, id, fun _ => Or.inl rfl⟩, ?_⟩
              by_cases hstop : c.stopping = true
              · rw [step_turn_dismisses hstop hfree hline]
                exact ⟨id, id, fun _ => Or.inr (h.halted hstop).1⟩
              · rw [step_turn_hands (Bool.eq_false_iff.mpr hstop) hfree hline]
                exact ⟨id, id, fun _ => Or.inl rfl⟩
  | finish success =>
      rw [passing?] at hd
      rw [step]
      cases hturn : c.underway with
      | none =>
          rw [hturn] at hd
          exact absurd hd (by simp only [reduceCtorEq, not_false_eq_true])
      | some t =>
          simp only [hturn, Option.some.injEq] at hd
          rw [← hd]
          have hcounted : ∀ n : Nat, (n + 1 != 0) = true := fun n => rfl
          refine ⟨⟨id, id, fun _ => Or.inl ?_⟩, id, id, fun _ => Or.inl ?_⟩
          · simp only [turned, hcounted, Bool.or_true]
          · simp only [turned, hcounted, Bool.or_true]
  | giveUp =>
      rw [passing?] at hd
      rw [step]
      by_cases hstop : c.stopping = true
      · have hclosed := (h.halted hstop).1
        rw [if_pos hstop] at hd ⊢
        rw [← Option.some.inj hd]
        exact ⟨⟨id, id, fun _ => Or.inr hclosed⟩, id, id, fun _ => Or.inr hclosed⟩
      · rw [if_neg hstop] at hd
        exact absurd hd (by simp only [reduceCtorEq, not_false_eq_true])
  | start | force | close | announce | elapse | call | strayEnds =>
      exact absurd hd (by simp only [passing?, reduceCtorEq, not_false_eq_true])

theorem later_run (h : c.Consistent) (moves : List Move) : Later c (c.run moves) := by
  induction moves generalizing c with
  | nil => exact ⟨id, id, Or.inl⟩
  | cons m rest ih => exact (later_step h m).trans (ih (consistent_step h m))

/-- What is read in a run belongs to a state that is later than the first. -/
theorem later_of_mem_readings (h : c.Consistent) {moves : List Move} {s : Stage}
    (hs : s ∈ c.readings moves) : ∃ d, Later c d ∧ s = d.stage := by
  induction moves generalizing c with
  | nil => exact ⟨c, ⟨id, id, Or.inl⟩, List.mem_singleton.mp hs⟩
  | cons m rest ih =>
      rw [readings, List.mem_cons, List.mem_append, List.mem_map] at hs
      rcases hs with hs | ⟨d, hd, hs⟩ | hs
      · exact ⟨c, ⟨id, id, Or.inl⟩, hs⟩
      · exact ⟨d, (later_passing h (Option.mem_toList.mp hd)).1, hs.symm⟩
      · rcases ih (consistent_step h m) hs with ⟨d, hd, hs⟩
        exact ⟨d, (later_step h m).trans hd, hs⟩

theorem rank_le_of_mem_readings (h : c.Consistent) {moves : List Move} {s : Stage}
    (hs : s ∈ c.readings moves) : c.stage.rank ≤ s.rank := by
  rcases later_of_mem_readings h hs with ⟨d, hd, rfl⟩
  exact hd.rank_le

/-- No reading is behind an earlier one. -/
theorem pairwise_readings (h : c.Consistent) (moves : List Move) :
    (c.readings moves).Pairwise fun s t => s.rank ≤ t.rank := by
  induction moves generalizing c with
  | nil => exact List.pairwise_singleton _ _
  | cons m rest ih =>
      have hrest := ih (consistent_step h m)
      rw [readings, List.pairwise_cons, List.pairwise_append]
      refine ⟨fun s hs => ?_, ?_, hrest, ?_⟩
      · have hmem : s ∈ c.readings (m :: rest) := List.mem_cons_of_mem _ hs
        exact rank_le_of_mem_readings h hmem
      · -- A move has one middle at most.
        cases c.passing? m with
        | none => exact List.Pairwise.nil
        | some d => exact List.pairwise_singleton _ _
      · intro s hs t ht
        rcases List.mem_map.mp hs with ⟨d, hd, rfl⟩
        rcases later_of_mem_readings (consistent_step h m) ht with ⟨e, he, rfl⟩
        exact ((later_passing h (Option.mem_toList.mp hd)).2.trans he).rank_le

theorem canStart_eq_false_iff : c.canStart = false ↔ c.started = true ∨ c.closed = true := by
  simp only [canStart, Bool.and_eq_false_iff, Bool.not_eq_false']

/-- Once a cadence was started or closed, no start answers yes. -/
theorem true_not_mem_answering (h : c.Consistent) (hno : c.canStart = false)
    (moves : List Move) : true ∉ c.along answering moves := by
  induction moves generalizing c with
  | nil => exact List.not_mem_nil
  | cons m rest ih =>
      have hstep : (c.step m).canStart = false := by
        have hlater := later_step h m
        rw [canStart_eq_false_iff] at hno ⊢
        exact hno.imp hlater.started hlater.closed
      rw [along, List.mem_append, not_or]
      refine ⟨?_, ih (consistent_step h m) hstep⟩
      cases m <;> simp only [answering, hno, List.mem_singleton, List.not_mem_nil,
        Bool.true_eq_false, not_false_eq_true]

/-- At most one start answers yes. -/
theorem count_true_answering (h : c.Consistent) (moves : List Move) :
    (c.along answering moves).count true ≤ 1 := by
  induction moves generalizing c with
  | nil => exact Nat.zero_le 1
  | cons m rest ih =>
      by_cases hyes : c.answering m = [true]
      · -- The one yes starts the cadence.
        have hstarted : (c.step m).canStart = false := by
          cases m with
          | start | force =>
              simp only [answering, List.cons.injEq, and_true] at hyes
              rw [step, if_pos hyes, canStart_eq_false_iff]
              exact Or.inl rfl
          | close | announce | elapse | turn | call | finish success | giveUp | strayEnds =>
              exact absurd hyes (by simp only [answering, reduceCtorEq, not_false_eq_true])
        have hnone := true_not_mem_answering (consistent_step h m) hstarted rest
        rw [along, hyes, List.count_append, List.count_eq_zero.mpr hnone]
        exact Nat.le_refl 1
      · have hzero : (c.answering m).count true = 0 := by
          cases m <;> simp_all [answering]
        rw [along, List.count_append, hzero, Nat.zero_add]
        exact ih (consistent_step h m)

theorem closed_of_mem (h : c.Consistent) {moves : List Move} (hclose : .close ∈ moves) :
    (c.run moves).closed = true := by
  induction moves generalizing c with
  | nil => exact absurd hclose List.not_mem_nil
  | cons m rest ih =>
      rcases List.mem_cons.mp hclose with rfl | hclose
      · exact (later_run (consistent_step h .close) rest).closed rfl
      · exact ih (consistent_step h m) hclose

theorem turned_of_handed (h : c.Consistent) (hhanded : c.handed ≠ []) : c.turned = true := by
  have hcounted := h.counted
  have hpos : 0 < c.handed.length := List.length_pos_iff.mpr hhanded
  cases hactive : c.active with
  | some t => rw [turned, hactive, Option.isSome_some, Bool.true_or]
  | none =>
      rw [hactive, Option.toList_none, List.length_nil] at hcounted
      have hne : c.completed ≠ 0 := by omega
      rw [turned, bne_iff_ne.mpr hne, Bool.or_true]

theorem one_le_rank (h : c.started = true ∨ c.closed = true) : 1 ≤ c.stage.rank := by
  rw [rank_stage]
  rcases h with hstarted | hclosed
  · rw [if_pos hstarted]
    split
    · omega
    · split <;> omega
  · rw [if_pos hclosed]
    omega

theorem two_le_rank (hstarted : c.started = true) (hturned : c.turned = true) :
    2 ≤ c.stage.rank := by
  rw [rank_stage, if_pos hstarted, if_pos hturned]
  split <;> omega

theorem handed_ne_nil_of_begun (repeats : Bool) (moves : List Move)
    (hbegun : ((idle repeats).run moves).begun ≠ []) : ((idle repeats).run moves).handed ≠ [] := by
  rw [(exclusive_run (exclusive_idle repeats) moves).inOrder, List.append_assoc]
  exact List.append_ne_nil_of_left_ne_nil hbegun _

/-- What is promised of starts and stages, after some moves and whatever comes
    then. -/
structure Forward (repeats : Bool) (moves : List Move) : Prop where
  /-- One start answers yes at most. -/
  once : ((idle repeats).along answering moves).count true ≤ 1
  /-- Behind a shutdown none does. -/
  never : .close ∈ moves → ∀ more, true ∉ ((idle repeats).run moves).along answering more
  /-- A cadence that was started or closed is not read as idle again. -/
  awake : ((idle repeats).run moves).started = true ∨ ((idle repeats).run moves).closed = true →
    ∀ more, .idle ∉ ((idle repeats).run moves).readings more
  /-- Once a campaign was handed over or has begun, the cadence is not read as scheduled
      again. -/
  begun : ((idle repeats).run moves).handed ≠ [] ∨ ((idle repeats).run moves).begun ≠ [] →
    ∀ more, .scheduled ∉ ((idle repeats).run moves).readings more
  /-- Once it is read as stopped, it is read as nothing else. -/
  stopped : ((idle repeats).run moves).stage = .stopped →
    ∀ more, ∀ s ∈ ((idle repeats).run moves).readings more, s = .stopped
  /-- No reading is behind an earlier one. -/
  onward : ((idle repeats).readings moves).Pairwise fun s t => s.rank ≤ t.rank

/-- In every run at most one start answers yes, and none behind a shutdown; and the
    stages that are read, in the middle of moves as well, never go back. -/
theorem run_forward (repeats : Bool) (moves : List Move) : Forward repeats moves := by
  have h := consistent_run repeats moves
  have hidle := consistent_idle repeats
  refine ⟨count_true_answering hidle moves, ?_, ?_, ?_, ?_, pairwise_readings hidle moves⟩
  · intro hclose more
    have hno := canStart_eq_false_iff.mpr (Or.inr (closed_of_mem hidle hclose))
    exact true_not_mem_answering h hno more
  · intro hawake more hidle
    have hle := Nat.le_trans (one_le_rank hawake) (rank_le_of_mem_readings h hidle)
    exact absurd hle (by decide)
  · intro hbegun more hscheduled
    have hhanded := hbegun.elim id (handed_ne_nil_of_begun repeats moves)
    have hrank := two_le_rank (h.started_of_handed hhanded) (turned_of_handed h hhanded)
    exact absurd (Nat.le_trans hrank (rank_le_of_mem_readings h hscheduled)) (by decide)
  · intro hstopped more s hs
    have hle := rank_le_of_mem_readings h hs
    rw [hstopped] at hle
    cases s with
    | stopped => rfl
    | idle | scheduled | running | waiting => exact absurd hle (by decide)

end Cadence

end ArchiveCensus
