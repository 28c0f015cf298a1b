import ArchiveCensus.Proofs.Cadence.Stages

/-!
# The Cadence Keeps Its Pace

What the cadence itself asks for passes from a timer to a ticket in line, to the one
that has its turn, and back to a timer. `coming` lists where it is. There is one
place at most, so no campaign of the cadence is doubled. And as long as there are
campaigns to come there is one, so the cadence neither ends by a failure nor misses
a wait because of what hosts force in between.

The waits that elapse are the initial one and then intervals, and none of these if
campaigns do not repeat. This needs that a timer for an interval never runs before
the initial wait is over, which again is a matter of what is coming.

## Main definitions

* `own`, `ownIn`: What no host forced, among requests and among tickets.
* `coming`: What the cadence has coming.
* `Paced`: The invariant.

## Theorems

* `paced_run`: The invariant holds in every run.
-/

namespace ArchiveCensus

namespace Cadence

variable {c c' : Cadence} {m : Move} {asked waits : List Trigger} {gone back : List Ticket}

/-- The requests that no host forced. -/
def own (asked : List Trigger) : List Trigger :=
  asked.filter (· ≠ .forced)

/-- What no host forced, among tickets. -/
def ownIn (ts : List Ticket) : List Trigger :=
  own (ts.map Ticket.trigger)

theorem own_append (asked more : List Trigger) : own (asked ++ more) = own asked ++ own more :=
  List.filter_append _ _

theorem ownIn_append (ts us : List Ticket) : ownIn (ts ++ us) = ownIn ts ++ ownIn us := by
  rw [ownIn, List.map_append, own_append]
  rfl

theorem ownIn_cons_own {t : Ticket} (h : t.trigger ≠ .forced) (ts : List Ticket) :
    ownIn (t :: ts) = t.trigger :: ownIn ts := by
  rw [ownIn, List.map_cons, own, List.filter_cons_of_pos (by simpa using h)]
  rfl

theorem ownIn_cons_forced {t : Ticket} (h : t.trigger = .forced) (ts : List Ticket) :
    ownIn (t :: ts) = ownIn ts := by
  rw [ownIn, List.map_cons, own, List.filter_cons_of_neg (by simp [h])]
  rfl

/-- What the cadence has coming: the wait of its timer, and its tickets with the turn
    and in line. -/
def coming (c : Cadence) : List Trigger :=
  c.timer.toList ++ ownIn (c.active.toList ++ c.line)

/-- How the cadence stands, given the waits that have elapsed. -/
structure Paced (waits : List Trigger) (c : Cadence) : Prop where
  single : c.coming.length ≤ 1
  unforced : c.timer ≠ some .forced
  first : c.timer = some .initial → waits = []
  later : c.timer ≠ some .initial → c.coming ≠ [] → waits ≠ []
  repeating : c.timer = some .periodic → c.repeats = true
  fresh : c.started = false → waits = []
  shape : waits = [] ∨ ∃ n, waits = .initial :: List.replicate n .periodic ∧
    (c.repeats = false → n = 0)
  alive : c.started = true → c.stopping = false →
    (c.repeats = true ∨ ownIn (c.ended.map Prod.fst) = []) → c.coming.length = 1

theorem Consistent.coming_of_asleep (h : c.Consistent) (hno : c.started = false) :
    c.coming = [] := by
  have hactive : c.active = none := by
    cases hactive : c.active with
    | none => rfl
    | some t => exact absurd (h.asleep hno).2.2 (h.handed_of_turn hactive)
  rw [coming, (h.asleep hno).1, (h.asleep hno).2.1, hactive]
  rfl

-- A move that puts an end to the timer, and what it asks for instead.
theorem Paced.of_silent (hfresh : c'.started = false → waits = [])
    (htimer : c'.timer = none) (hsingle : c'.coming.length ≤ 1)
    (hlater : c'.coming ≠ [] → waits ≠ [])
    (hshape : waits = [] ∨ ∃ n, waits = .initial :: List.replicate n .periodic ∧
      (c'.repeats = false → n = 0))
    (halive : c'.started = true → c'.stopping = false →
      (c'.repeats = true ∨ ownIn (c'.ended.map Prod.fst) = []) → c'.coming.length = 1) :
    Paced waits c' where
  single := hsingle
  unforced := by simp only [htimer, ne_eq, reduceCtorEq, not_false_eq_true]
  first := fun h => absurd h (by simp only [htimer, reduceCtorEq, not_false_eq_true])
  later := fun _ => hlater
  repeating := fun h => absurd h (by simp only [htimer, reduceCtorEq, not_false_eq_true])
  fresh := hfresh
  shape := hshape
  alive := halive

theorem Paced.shape_concat (hp : Paced waits c) {t : Trigger}
    (htimer : c.timer = some t) :
    ∃ n, waits ++ [t] = .initial :: List.replicate n .periodic ∧ (c.repeats = false → n = 0) := by
  cases t with
  | forced => exact absurd htimer hp.unforced
  | initial => exact ⟨0, by rw [hp.first htimer]; rfl, fun _ => rfl⟩
  | periodic =>
      have hne : waits ≠ [] := by
        refine hp.later ?_ ?_
        · simp only [htimer, ne_eq, Option.some.injEq, reduceCtorEq, not_false_eq_true]
        · rw [coming, htimer]
          exact List.cons_ne_nil _ _
      rcases hp.shape with hnil | ⟨n, heq, -⟩
      · exact absurd hnil hne
      · refine ⟨n + 1, ?_, fun hno => ?_⟩
        · rw [heq, List.cons_append, List.replicate_succ']
        · rw [hp.repeating htimer] at hno
          exact Bool.noConfusion hno

theorem Paced.start (hp : Paced waits c) (h : c.Consistent)
    (hstart : c.started = false) :
    Paced waits { c with started := true, timer := some .initial } := by
  have hnil := h.coming_of_asleep hstart
  rw [coming, (h.asleep hstart).1] at hnil
  have hone : coming { c with started := true, timer := some .initial } = [.initial] := by
    change .initial :: ownIn (c.active.toList ++ c.line) = _
    rw [← List.nil_append (ownIn _)]
    exact congrArg _ hnil
  rw [hp.fresh hstart]
  exact
    { single := by rw [hone]; exact Nat.le_refl 1
      unforced := by simp only [ne_eq, Option.some.injEq, reduceCtorEq, not_false_eq_true]
      first := fun _ => rfl
      later := fun hne => absurd rfl hne
      repeating := fun heq => absurd heq (by simp only [Option.some.injEq, reduceCtorEq,
        not_false_eq_true])
      fresh := fun _ => rfl
      shape := Or.inl rfl
      alive := by intro _ _ _; rw [hone]; rfl }

theorem Paced.announce (hp : Paced waits c) :
    Paced waits { c with stopping := true, timer := none } := by
  have hsingle := hp.single
  rw [coming, List.length_append] at hsingle
  have htickets : coming { c with stopping := true, timer := none } =
      ownIn (c.active.toList ++ c.line) := rfl
  refine .of_silent hp.fresh rfl (by rw [htickets]; omega) ?_ hp.shape
    fun _ hgo => Bool.noConfusion hgo
  -- What is coming is a ticket, so there was no timer before either.
  rw [htickets]
  intro hsome
  have hpos := List.length_pos_iff.mpr hsome
  have hnone : c.timer = none := by
    rw [← Option.toList_eq_nil_iff, ← List.length_eq_zero_iff]
    omega
  refine hp.later (by simp only [hnone, ne_eq, reduceCtorEq, not_false_eq_true]) ?_
  rw [coming, hnone]
  exact hsome

theorem Paced.elapse (hp : Paced waits c) (h : c.Consistent)
    {t : Trigger} (htimer : c.timer = some t) :
    Paced (waits ++ [t]) { c.draw t with timer := none } := by
  have hown : t ≠ .forced := fun heq => hp.unforced (heq ▸ htimer)
  have hlength : (coming { c.draw t with timer := none }).length = c.coming.length := by
    change (ownIn (c.active.toList ++ (c.line ++ [⟨c.drawn, t⟩]))).length = _
    rw [← List.append_assoc, ownIn_append, ownIn_cons_own hown, coming, htimer,
      List.length_append, List.length_append, Nat.add_comm]
    rfl
  refine .of_silent (fun hno => ?_) rfl (hlength ▸ hp.single) (fun _ => ?_)
    (Or.inr (hp.shape_concat htimer)) fun hs hgo hmore => hlength.trans (hp.alive hs hgo hmore)
  · have hno : c.started = false := hno
    rw [h.started_of_timer htimer] at hno
    exact Bool.noConfusion hno
  · exact List.append_ne_nil_of_right_ne_nil _ (List.cons_ne_nil _ _)

-- While a ticket of the cadence has its turn no other one is coming, and a wait has elapsed.
theorem Paced.alone (hp : Paced waits c) {t : Ticket} (hactive : c.active = some t)
    (hown : t.trigger ≠ .forced) : ownIn c.line = [] ∧ waits ≠ [] := by
  have hcoming : c.coming = c.timer.toList ++ t.trigger :: ownIn c.line := by
    rw [coming, hactive, Option.toList_some, List.singleton_append, ownIn_cons_own hown]
  have hsingle := hp.single
  rw [hcoming, List.length_append, List.length_cons] at hsingle
  have hnone : c.timer = none := by
    rw [← Option.toList_eq_nil_iff, ← List.length_eq_zero_iff]
    omega
  refine ⟨by rw [← List.length_eq_zero_iff]; omega, ?_⟩
  refine hp.later (by simp only [hnone, ne_eq, reduceCtorEq, not_false_eq_true]) ?_
  rw [hcoming]
  exact List.append_ne_nil_of_right_ne_nil _ (List.cons_ne_nil _ _)

end Cadence

end ArchiveCensus
