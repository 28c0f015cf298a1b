import ArchiveCensus.Proofs.Cadence.Pace

/-!
# Forced and Failing Campaigns Leave the Cadence Alone

Two runs are compared. In the second one no host forces anything and no campaign
fails: `unforced` leaves out the moves that serve a forced campaign only, and lets
the others succeed. All waits elapse as before, and starts and shutdowns come where
they came. `Shadows` ties the two runs together move by move. What they have in
common is everything that the cadence asked for; the second run has nothing else, so
it is the first one with the forced tickets taken out.

A turn that goes to a forced ticket has no counterpart. Neither has a turn that
nobody can take, for where a forced campaign is in the way in the first run, nothing
is in the second.

## Main definitions

* `unforce`, `unforced`: What is left of a move and of a run.
* `isUnforced`, `isFixed`: What the second run is free of, and what it has in common
  with the first.
* `Shadows`: One cadence is the other without what was forced.

## Theorems

* `shadows_step`, `shadows_run`: Every move keeps the two together.
* `ownIn_handed_unforced`, `ownIn_begun_unforced`: The same campaigns of the cadence are
  handed over and begin in both.
-/

namespace ArchiveCensus

namespace Cadence

variable {c d : Cadence}

/-- What is left of a move if nothing is forced and nothing fails. The first to force a
    campaign starts the cadence. -/
def unforce (c : Cadence) : Move → List Move
  | .force => if c.canStart then [.start] else []
  | .turn =>
    match c.active, c.line with
    | none, t :: _ => if t.trigger = .forced then [] else [.turn]
    | _, _ => []
  | .call =>
    match c.waiting with
    | some t => if t.trigger = .forced then [] else [.call]
    | none => []
  | .finish _ =>
    match c.underway with
    | some t => if t.trigger = .forced then [] else [.finish true]
    | none => []
  | .strayEnds =>
    match c.strays with
    | t :: _ => if t.trigger = .forced then [] else [.strayEnds]
    | [] => []
  | m => [m]

/-- What is left of a run if nothing is forced and nothing fails. -/
def unforced (c : Cadence) (moves : List Move) : List Move :=
  c.along unforce moves

/-- The triggers of tickets. -/
def triggers (ts : List Ticket) : List Trigger :=
  ts.map Ticket.trigger

/-- The cadence `d` is `c` without what was forced. -/
structure Shadows (c d : Cadence) : Prop where
  repeats : d.repeats = c.repeats
  started : d.started = c.started
  closed : d.closed = c.closed
  stopping : d.stopping = c.stopping
  timer : d.timer = c.timer
  line : triggers d.line = ownIn c.line
  waiting : triggers d.waiting.toList = ownIn c.waiting.toList
  underway : triggers d.underway.toList = ownIn c.underway.toList
  strays : triggers d.strays = ownIn c.strays
  handed : triggers d.handed = ownIn c.handed
  begun : triggers d.begun = ownIn c.begun

theorem Shadows.canStart (h : Shadows c d) : d.canStart = c.canStart := by
  rw [Cadence.canStart, h.started, h.closed]
  rfl

-- A list whose first ticket is the cadence's has a shadow with a first ticket.
theorem exists_of_triggers_eq {ts rest : List Ticket} {t : Ticket}
    (h : triggers ts = ownIn (t :: rest)) (hown : t.trigger ≠ .forced) :
    ∃ u us, ts = u :: us ∧ u.trigger = t.trigger ∧ triggers us = ownIn rest := by
  rw [ownIn_cons_own hown] at h
  rcases List.map_eq_cons_iff.mp h with ⟨u, us, rfl, hu, hus⟩
  exact ⟨u, us, rfl, hu, hus⟩

theorem triggers_append (ts us : List Ticket) :
    triggers (ts ++ us) = triggers ts ++ triggers us :=
  List.map_append

theorem eq_none_of_triggers {t : Option Ticket} (h : triggers t.toList = []) : t = none := by
  cases t with
  | none => rfl
  | some t => exact absurd h (List.cons_ne_nil _ _)

theorem exists_of_triggers_toList {o : Option Ticket} {t : Ticket}
    (h : triggers o.toList = ownIn [t]) (hown : t.trigger ≠ .forced) :
    ∃ u, o = some u ∧ u.trigger = t.trigger := by
  rcases exists_of_triggers_eq h hown with ⟨u, us, hus, hu, -⟩
  cases o with
  | none =>
      rw [Option.toList_none] at hus
      exact absurd hus (List.cons_ne_nil _ _).symm
  | some v =>
      rw [Option.toList_some, List.cons.injEq] at hus
      exact ⟨u, by rw [hus.1], hu⟩

theorem ownIn_singleton_forced {t : Ticket} (hforced : t.trigger = .forced) : ownIn [t] = [] :=
  ownIn_cons_forced hforced []

theorem triggers_singleton_own {u t : Ticket} (hown : t.trigger ≠ .forced)
    (hu : u.trigger = t.trigger) : triggers [u] = ownIn [t] := by
  rw [ownIn_cons_own hown, ← hu]
  rfl

theorem triggers_concat_own {us ts : List Ticket} {u t : Ticket} (h : triggers us = ownIn ts)
    (hown : t.trigger ≠ .forced) (hu : u.trigger = t.trigger) :
    triggers (us ++ [u]) = ownIn (ts ++ [t]) := by
  rw [triggers_append, ownIn_append, triggers_singleton_own hown hu, h]

theorem triggers_eq_concat_forced {us ts : List Ticket} {t : Ticket}
    (h : triggers us = ownIn ts) (hforced : t.trigger = .forced) :
    triggers us = ownIn (ts ++ [t]) := by
  rw [ownIn_append, ownIn_singleton_forced hforced, h, List.append_nil]

theorem Shadows.active (h : Shadows c d) : triggers d.active.toList = ownIn c.active.toList := by
  rw [toList_active, toList_active, triggers_append, ownIn_append, h.waiting, h.underway]

-- A turn of a forced ticket has no counterpart.
theorem Shadows.turn_forced (h : Shadows c d) {t : Ticket} {rest : List Ticket}
    (hfree : c.active = none) (hline : c.line = t :: rest) (hforced : t.trigger = .forced) :
    Shadows (c.step .turn) d := by
  have hlines := h.line
  rw [hline, ownIn_cons_forced hforced] at hlines
  by_cases hstop : c.stopping = true
  · rw [step_turn_dismisses hstop hfree hline]
    exact { h with line := hlines }
  · have hwaiting := h.waiting
    have hunderway := h.underway
    rw [waiting_of_free hfree] at hwaiting
    rw [underway_of_free hfree] at hunderway
    rw [step_turn_hands (Bool.eq_false_iff.mpr hstop) hfree hline]
    exact
      { h with
        line := hlines
        waiting := hwaiting.trans (ownIn_singleton_forced hforced).symm
        underway := hunderway
        handed := triggers_eq_concat_forced h.handed hforced }

theorem Shadows.turn_own (h : Shadows c d) {t : Ticket} {rest : List Ticket}
    (hfree : c.active = none) (hline : c.line = t :: rest) (hown : t.trigger ≠ .forced) :
    Shadows (c.step .turn) (d.step .turn) := by
  have hlines := h.line
  have hactive := h.active
  rw [hline] at hlines
  rw [hfree] at hactive
  rcases exists_of_triggers_eq hlines hown with ⟨u, us, hus, hu, hrest⟩
  have hfree' := eq_none_of_triggers hactive
  by_cases hstop : c.stopping = true
  · have hstop' := h.stopping.trans hstop
    rw [step_turn_dismisses hstop hfree hline, step_turn_dismisses hstop' hfree' hus]
    refine { h with line := hrest, waiting := ?_, underway := ?_ }
    · exact h.waiting
    · exact h.underway
  · have hgo : c.stopping = false := Bool.eq_false_iff.mpr hstop
    rw [step_turn_hands hgo hfree hline, step_turn_hands (h.stopping.trans hgo) hfree' hus]
    exact
      { h with
        line := hrest
        waiting := triggers_singleton_own hown hu
        underway := rfl
        handed := triggers_concat_own h.handed hown hu }

theorem Shadows.turn (h : Shadows c d) :
    Shadows (c.step .turn) (d.run (c.unforce .turn)) := by
  rw [unforce]
  cases hfree : c.active with
  | some t =>
      rw [step, hfree]
      exact h
  | none =>
      cases hline : c.line with
      | nil =>
          rw [step, hfree, hline]
          exact h
      | cons t rest =>
          by_cases hforced : t.trigger = .forced
          · simp only [if_pos hforced]
            exact h.turn_forced hfree hline hforced
          · simp only [if_neg hforced]
            exact h.turn_own hfree hline hforced

theorem Shadows.call (h : Shadows c d) :
    Shadows (c.step .call) (d.run (c.unforce .call)) := by
  rw [unforce]
  cases hwait : c.waiting with
  | none =>
      rw [step, hwait]
      exact h
  | some t =>
      have hwaiting := h.waiting
      have hunderway := h.underway
      rw [hwait, Option.toList_some] at hwaiting
      rw [underway_of_waiting hwait] at hunderway
      rw [step_call_waiting hwait]
      by_cases hforced : t.trigger = .forced
      · simp only [if_pos hforced]
        refine
          { h with
            waiting := hwaiting.trans (ownIn_singleton_forced hforced)
            underway := hunderway.trans ?_
            begun := triggers_eq_concat_forced h.begun hforced }
        rw [underway_called hwait]
        exact (ownIn_singleton_forced hforced).symm
      · simp only [if_neg hforced]
        change Shadows _ (d.step .call)
        rcases exists_of_triggers_toList hwaiting hforced with ⟨u, hwait', hu⟩
        rw [step_call_waiting hwait']
        refine
          { h with
            waiting := rfl
            underway := ?_
            begun := triggers_concat_own h.begun hforced hu }
        rw [underway_called hwait, underway_called hwait']
        exact triggers_singleton_own hforced hu

theorem Shadows.finish (h : Shadows c d) (success : Bool) :
    Shadows (c.step (.finish success)) (d.run (c.unforce (.finish success))) := by
  rw [unforce]
  cases hturn : c.underway with
  | none =>
      rw [step, hturn]
      exact h
  | some t =>
      have hwaiting := h.waiting
      have hunderway := h.underway
      rw [waiting_of_underway hturn] at hwaiting
      rw [hturn, Option.toList_some] at hunderway
      rw [step_finish_underway success hturn]
      by_cases hforced : t.trigger = .forced
      · simp only [if_pos hforced]
        change Shadows _ d
        refine
          { h with
            timer := h.timer.trans (if_pos hforced).symm
            waiting := hwaiting.trans ?_
            underway := hunderway.trans ?_ }
        · rw [waiting_of_free rfl]
        · rw [underway_of_free rfl]
          exact ownIn_singleton_forced hforced
      · simp only [if_neg hforced]
        change Shadows _ (d.step (.finish true))
        rcases exists_of_triggers_toList hunderway hforced with ⟨u, hturn', hu⟩
        rw [step_finish_underway true hturn']
        refine { h with timer := ?_, waiting := ?_, underway := ?_ }
        · change d.timerAfter u = c.timerAfter t
          rw [timerAfter, timerAfter, hu, h.repeats, h.stopping, h.timer]
        · rw [waiting_of_free rfl, waiting_of_free rfl]
          rfl
        · rw [underway_of_free rfl, underway_of_free rfl]
          rfl

theorem Shadows.strayEnds (h : Shadows c d) :
    Shadows (c.step .strayEnds) (d.run (c.unforce .strayEnds)) := by
  rw [step, unforce]
  have hstrays := h.strays
  cases hall : c.strays with
  | nil => exact { h with strays := by rw [hall] at hstrays; exact hstrays }
  | cons t rest =>
      rw [hall] at hstrays
      by_cases hforced : t.trigger = .forced
      · simp only [if_pos hforced]
        rw [ownIn_cons_forced hforced] at hstrays
        exact { h with strays := hstrays }
      · simp only [if_neg hforced]
        change Shadows _ (d.step .strayEnds)
        rcases exists_of_triggers_eq hstrays hforced with ⟨u, us, hus, -, hrest⟩
        rw [step]
        refine { h with strays := ?_ }
        change triggers d.strays.tail = ownIn rest
        rw [hus]
        exact hrest

end Cadence

end ArchiveCensus
