import ArchiveCensus.Proofs.Correlation

/-!
# Boundaries Left Behind

Which boundaries are never ended. Opening takes three requests, and by the time
the second or third is refused the receiver has already handed a boundary over.
The correlation then forgets it: nothing is open, nobody was given the boundary,
and no later call can reach it.

So the plain law, that everything handed over is ended once nothing is open, is
false at the first opening that is cut short after its start. `Settled` is the
law that holds instead, and it is exact: among the boundaries of the past, those
that were ended are those that got both attributes of their opening. The two
halves lean on each other. A boundary can be described later than at its
opening, but only while it is open, and it is open only if its opening went
through.

## Main definitions

* `Complete`: A boundary got both attributes of an opening.
* `Settled`: What became of the boundaries of the past.

## Theorems

* `settled_run`: The invariant holds after any calls.
* `endings_pos_iff`: What was handed over is ended exactly if it is complete.
* `not_forall_ended`: Not everything that is handed over is ended.
-/

namespace ArchiveCensus

namespace Correlation

/-- The boundary `b` got both attributes of an opening. -/
def Complete (l : Log) (b : Nat) : Prop :=
  l.describes b typeKey = true ∧ l.describes b triggerKey = true

theorem complete_append_left {xs : Log} {b : Nat} (h : Complete xs b) (ys : Log) :
    Complete (xs ++ ys) b := by
  refine ⟨?_, ?_⟩
  · rw [Log.describes_append, h.1, Bool.true_or]
  · rw [Log.describes_append, h.2, Bool.true_or]

theorem complete_append_right (xs : Log) {ys : Log} {b : Nat} (h : Complete ys b) :
    Complete (xs ++ ys) b := by
  refine ⟨?_, ?_⟩
  · rw [Log.describes_append, h.1, Bool.or_true]
  · rw [Log.describes_append, h.2, Bool.or_true]

theorem complete_append_iff {xs ys : Log} {b : Nat} (h : ∀ key, ys.describes b key = false) :
    Complete (xs ++ ys) b ↔ Complete xs b := by
  unfold Complete
  rw [Log.describes_append, Log.describes_append, h, h, Bool.or_false, Bool.or_false]

theorem typeKey_ne_triggerKey : typeKey ≠ triggerKey := by
  decide

-- An opening describes its own boundary only, and only if it started one.
theorem Answered.of_describes_opening {n b : Nat} {trigger : Value} {ok : Bool} {xs : Log}
    {key : Text} (h : Answered (opening n trigger) ok xs) (hd : xs.describes b key = true) :
    b = n ∧ 0 < xs.starts := by
  refine ⟨?_, ?_⟩
  · rcases List.any_eq_true.mp hd with ⟨x, hx, hdx⟩
    have hr := h.request_mem x hx
    simp only [opening, List.mem_cons, List.not_mem_nil, or_false] at hr
    unfold Exchange.describes at hdx
    rcases hr with hr | hr | hr <;> rw [hr] at hdx <;>
      simp only [Request.describes, Bool.false_and, Bool.false_eq_true, Bool.and_eq_true,
        decide_eq_true_eq] at hdx
    · exact hdx.1.1.symm
    · exact hdx.1.1.symm
  · cases h with
    | granted _ =>
        have hstart : (Exchange.granted .start).starts = true := rfl
        rw [Log.starts_cons, if_pos hstart]
        omega
    | refused _ => exact absurd hd Bool.false_ne_true

theorem Answered.complete_opening {n : Nat} {trigger : Value} {xs : Log}
    (h : Answered (opening n trigger) true xs) : Complete xs n := by
  rw [h.eq_of_true]
  unfold Complete
  simp only [opening, List.map_cons, List.map_nil, Log.describes_cons, Exchange.describes,
    Exchange.granted, Request.describes, Response.isGranted, decide_true, Bool.and_true,
    Bool.true_or, Bool.or_true, and_self]

-- The requests of an opening are made in order, so a refusal leaves one of the
-- two attributes out.
theorem Answered.not_complete_opening {n : Nat} {trigger : Value} {xs : Log}
    (h : Answered (opening n trigger) false xs) : ¬ Complete xs n := by
  rintro ⟨htype, htrigger⟩
  cases h with
  | refused _ => exact absurd htype Bool.false_ne_true
  | granted h =>
      cases h with
      | refused ha =>
          -- Started, but without the first attribute.
          simp only [Log.describes_cons, Log.describes_nil, Exchange.describes, Exchange.granted,
            Request.describes, ha, Bool.and_false, Bool.false_and, Bool.or_false,
            Bool.false_eq_true] at htype
      | granted h =>
          cases h with
          | refused ha =>
              -- With the first attribute, but without the second.
              simp only [Log.describes_cons, Log.describes_nil, Exchange.describes,
                Exchange.granted, Request.describes, ha, typeKey_ne_triggerKey, decide_false,
                Bool.and_false, Bool.false_and, Bool.or_false, Bool.false_eq_true] at htrigger
          | granted h => cases h

-- A turn describes the boundary that is open, or the one that it starts.
theorem Turn.of_describes {c : Correlation} {xs : Log} {next : Option Nat} (h : Turn c xs next)
    {b : Nat} {key : Text} (hd : xs.describes b key = true) :
    c.current = some b ∨ (b = c.journal.boundaries.length ∧ 0 < xs.starts) := by
  cases h with
  | silent => exact absurd hd Bool.false_ne_true
  | opened _ ans => exact Or.inr (ans.of_describes_opening hd)
  | cut _ ans => exact Or.inr (ans.of_describes_opening hd)
  | @described b' key' value a hcur =>
      left
      simp only [Log.describes_cons, Log.describes_nil, Exchange.describes, Request.describes,
        Bool.or_false, Bool.and_eq_true, decide_eq_true_eq] at hd
      rw [hcur, hd.1.1]
  | closed _ => exact absurd hd Bool.false_ne_true

/-- What became of the boundaries of the past. -/
structure Settled (c : Correlation) : Prop where
  /-- No boundary that is yet to be started has an attribute. -/
  fresh : ∀ b key, c.journal.log.starts ≤ b → c.journal.log.describes b key = false
  running : ∀ b, c.current = some b → Complete c.journal.log b
  past : ∀ b ∈ c.journal.log.handed, c.current ≠ some b →
    (0 < c.journal.log.endings b ↔ Complete c.journal.log b)

theorem settled_empty : Settled {} where
  fresh := fun _ _ _ => rfl
  running := fun b h => absurd h (by simp only [reduceCtorEq, not_false_eq_true])
  past := fun b hb => absurd hb List.not_mem_nil

section Turning

variable {c : Correlation} {xs : Log} {next : Option Nat}

theorem Turn.running (hturn : Turn c xs next) (h : c.Settled) {b : Nat} (hb : next = some b) :
    Complete (c.journal.log ++ xs) b := by
  cases hturn with
  | silent => exact complete_append_left (h.running b hb) _
  | opened _ ans =>
      rw [← Option.some.inj hb]
      exact complete_append_right _ ans.complete_opening
  | cut _ _ => exact absurd hb (by simp only [reduceCtorEq, not_false_eq_true])
  | described hcur => exact complete_append_left (h.running b (hcur.trans hb)) _
  | closed _ => exact absurd hb (by simp only [reduceCtorEq, not_false_eq_true])

variable (hturn : Turn c xs next) (hs : c.Sound) (h : c.Settled)

include hturn hs h

theorem Turn.fresh {b : Nat} (key : Text) (hb : Log.starts (c.journal.log ++ xs) ≤ b) :
    Log.describes (c.journal.log ++ xs) b key = false := by
  have hn : c.journal.boundaries.length = c.journal.log.starts := hs.counted
  rw [Log.starts_append] at hb
  rw [Log.describes_append, h.fresh b key (by omega), Bool.false_or, ← Bool.not_eq_true]
  intro hd
  rcases hturn.of_describes hd with hcur | ⟨hnew, hpos⟩
  · have := (hs.running b hcur).1
    omega
  · omega

-- A boundary that was handed over before the call.
theorem Turn.past {b : Nat} (hb : b ∈ c.journal.log.handed) (hnext : next ≠ some b) :
    0 < Log.endings (c.journal.log ++ xs) b ↔ Complete (c.journal.log ++ xs) b := by
  have hlt := Log.lt_of_mem_handed hb
  have hn : c.journal.boundaries.length = c.journal.log.starts := hs.counted
  by_cases hcur : c.current = some b
  · -- It was open and is not any more, so this call closed it.
    have hopen : c.isOpen = true := by rw [hs.flag, hcur]; rfl
    cases hturn with
    | silent => exact absurd hcur hnext
    | opened hclosed _ => exact absurd (hopen.symm.trans hclosed) Bool.noConfusion
    | cut hclosed _ => exact absurd (hopen.symm.trans hclosed) Bool.noConfusion
    | described hcur' => exact absurd (hcur'.symm.trans hcur) hnext
    | @closed b' a hcur' =>
        have hbb : b' = b := Option.some.inj (hcur'.symm.trans hcur)
        refine ⟨fun _ => complete_append_left (h.running b hcur) _, fun _ => ?_⟩
        rw [Log.endings_append, Log.endings_cons, hbb, Request.finishes, decide_eq_true rfl,
          if_pos rfl]
        omega
  · -- It was not open, so this call was not about it.
    have hdesc : ∀ key, xs.describes b key = false := by
      intro key
      rw [← Bool.not_eq_true]
      intro hd
      rcases hturn.of_describes hd with hc | ⟨hnew, _⟩
      · exact hcur hc
      · omega
    have hend : xs.endings b = 0 := by
      rcases hturn.endings b with h0 | ⟨_, hc, _⟩
      · exact h0
      · exact absurd hc hcur
    rw [Log.endings_append, hend, complete_append_iff hdesc]
    exact h.past b hb hcur

-- A boundary that the call itself was handed and then lost: its opening was cut
-- short, and nothing in the log before is about it.
theorem Turn.lost {b : Nat} (hb : b ∈ Log.handedFrom c.journal.log.starts xs)
    (hnext : next ≠ some b) :
    0 < Log.endings (c.journal.log ++ xs) b ↔ Complete (c.journal.log ++ xs) b := by
  have hn : c.journal.boundaries.length = c.journal.log.starts := hs.counted
  have hle := (Log.bounds_of_mem_handedFrom hb).1
  cases hturn with
  | silent => exact absurd hb List.not_mem_nil
  | opened _ ans =>
      rw [ans.eq_of_true, ← hn] at hb
      exact absurd (congrArg some (List.mem_singleton.mp hb).symm) hnext
  | cut _ ans =>
      have hend : Log.endings (c.journal.log ++ xs) b = 0 := by
        rw [Log.endings_append, hs.fresh b hle, ans.endings_opening]
      have hno : ¬ Complete (c.journal.log ++ xs) b := by
        rintro ⟨htype, htrigger⟩
        rw [Log.describes_append, h.fresh b _ hle, Bool.false_or] at htype htrigger
        have hbn := (ans.of_describes_opening htype).1
        rw [hbn] at htype htrigger
        exact ans.not_complete_opening ⟨htype, htrigger⟩
      rw [hend]
      exact ⟨fun hpos => absurd hpos (Nat.lt_irrefl 0), fun hc => absurd hc hno⟩
  | described _ => exact absurd hb List.not_mem_nil
  | closed _ => exact absurd hb List.not_mem_nil

end Turning

-- The invariant survives any call.
theorem settled_call (w : Receiver) {c : Correlation} (hs : c.Sound) (h : c.Settled) (k : Call) :
    (c.call w k).Settled := by
  rcases call_turn w hs.flag k with ⟨xs, hlog, hturn, _⟩
  refine ⟨fun b key hb => ?_, fun b hb => ?_, fun b hb hnext => ?_⟩
  · rw [hlog] at hb ⊢
    exact hturn.fresh hs h key hb
  · rw [hlog]
    exact hturn.running h hb
  · rw [hlog, Log.handed_append, List.mem_append] at hb
    rw [hlog]
    rcases hb with hb | hb
    · exact hturn.past hs h hb hnext
    · exact hturn.lost hs h hb hnext

-- `Sound` comes along: which number an opening takes is known from there.
theorem settled_run (w : Receiver) (calls : List Call) : (run w {} calls).Settled :=
  (run_of (P := fun c => c.Sound ∧ c.Settled)
    (fun _ k hc => ⟨sound_call w hc.1 k, settled_call w hc.1 hc.2 k⟩)
    ⟨sound_empty, settled_empty⟩ calls).2

/-- Once nothing is open, exactly those boundaries were asked to end that got
    both attributes of their opening, of all that the receiver handed over. -/
theorem endings_pos_iff (w : Receiver) (calls : List Call)
    (h : (run w {} calls).isOpen = false) :
    ∀ b ∈ (run w {} calls).journal.log.handed,
      0 < (run w {} calls).journal.log.endings b ↔ Complete (run w {} calls).journal.log b := by
  intro b hb
  refine (settled_run w calls).past b hb ?_
  rw [current_eq_none (sound_run w calls).flag h]
  simp only [reduceCtorEq, not_false_eq_true, ne_eq]

/-- A receiver that refuses what it is asked after `n` other requests, and
    nothing else. -/
def refusingAfter (n : Nat) : Receiver :=
  ⟨fun j _ => if j.log.length = n then .refused else .granted⟩

/-- The first opening is cut short after two of its requests, and its boundary
    is left behind; the second goes through, and its boundary is ended. -/
theorem endings_pos_iff_second_opening :
    let c := run (refusingAfter 2) {} [.enter ownTrigger, .enter ownTrigger, .leave]
    c.isOpen = false ∧ c.journal.log.handed = [0, 1] ∧
      (c.journal.log.endings 0 = 0 ∧ ¬ Complete c.journal.log 0) ∧
      c.journal.log.endings 1 = 1 ∧ Complete c.journal.log 1 := by
  have hall := endings_pos_iff (refusingAfter 2) [.enter ownTrigger, .enter ownTrigger, .leave] rfl
  have h0 : Log.endings (run (refusingAfter 2) {} [.enter ownTrigger, .enter ownTrigger, .leave]
    ).journal.log 0 = 0 := by decide
  have h1 : Log.endings (run (refusingAfter 2) {} [.enter ownTrigger, .enter ownTrigger, .leave]
    ).journal.log 1 = 1 := by decide
  refine ⟨rfl, by decide, ⟨h0, fun hc => ?_⟩, h1, ?_⟩
  · have := (hall 0 (by decide)).mpr hc
    omega
  · exact (hall 1 (by decide)).mp (by omega)

/-- Not everything that is handed over is ended: one opening that is cut short
    is enough. -/
theorem not_forall_ended :
    ¬ ∀ (w : Receiver) (calls : List Call), (run w {} calls).isOpen = false →
      ∀ b ∈ (run w {} calls).journal.log.handed, 0 < (run w {} calls).journal.log.endings b := by
  intro h
  have hpos := h (refusingAfter 2) [.enter ownTrigger] rfl 0 (by decide)
  exact absurd hpos (by decide)

end Correlation

end ArchiveCensus
