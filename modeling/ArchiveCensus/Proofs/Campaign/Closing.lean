import ArchiveCensus.Proofs.Campaign

/-!
# Campaigns That Close Their Boundary

A campaign that opened a boundary closes it again, whatever goes wrong with the
number of records or with any event. One request comes in between: the duration
is said before the boundary is closed, and a receiver that refuses to hear it
keeps the campaign from closing anything.

So a campaign closes its own boundary exactly if the log shows that the boundary
got a duration. If it did not, the boundary stays open for good, as far as
campaigns are concerned: every later one joins it.

## Main definitions

* `refusingKey`: A receiver that takes all attributes but one.

## Theorems

* `log_tell`: Telling about the records ends nothing and gives no duration.
* `log_close`: A boundary is closed exactly if it gets its duration.
* `run_closes_own`: What becomes of a campaign's own boundary.
* `not_forall_closed`: A campaign may leave its own boundary open.
-/

namespace ArchiveCensus

namespace Campaign

theorem describes_count (b : Nat) (v : Value) (a : Response) :
    Log.describes [⟨.set b countKey v, a⟩] b durationKey = false := by
  have hkey : countKey ≠ durationKey := by decide
  simp only [Log.describes_cons, Log.describes_nil, Exchange.describes, Request.describes, hkey,
    decide_false, Bool.and_false, Bool.false_and, Bool.or_false]

-- Telling about the records ends nothing and gives no duration, and leaves open
-- what is open, whether or not the receiver wanted the number.
theorem log_tell (w : Receiver) (maker : PackageUrl.Maker) (records : List Record) (b : Nat)
    (c : Correlation) : ∃ xs, (tell w maker records b c).2.journal.log = c.journal.log ++ xs ∧
      xs.endings b = 0 ∧ xs.describes b durationKey = false ∧
      (tell w maker records b c).2.isOpen = c.isOpen ∧
      (tell w maker records b c).2.current = c.current := by
  have hlog := Journal.log_ask w c.journal (.set b countKey (.int records.length))
  unfold tell
  dsimp only
  split
  · rcases Delivery.deliverAll_offers w maker records
      (c.ask w (.set b countKey (.int records.length))).2 with ⟨answers, _, hall, _⟩
    rw [Correlation.journal_ask, hlog, List.append_assoc] at hall
    refine ⟨_, hall, ?_, ?_, Delivery.isOpen_deliverAll .., Delivery.current_deliverAll ..⟩
    · rw [Log.endings_append, Delivery.endings_offers]
      rfl
    · rw [Log.describes_append, Delivery.describes_offers, describes_count]
      rfl
  · -- The number is refused, and no record is offered.
    exact ⟨_, hlog, rfl, describes_count .., rfl, rfl⟩

/-- A boundary is closed exactly if it gets its duration. -/
theorem log_close (w : Receiver) (elapsed : Except Fault Int) {b : Nat} {c : Correlation}
    (hcur : c.current = some b) :
    ∃ xs, (close w elapsed b c).2.journal.log = c.journal.log ++ xs ∧
      ((xs.describes b durationKey = true ∧ xs.endings b = 1 ∧
          (close w elapsed b c).2.isOpen = false ∧ (close w elapsed b c).2.current = none) ∨
        (xs.describes b durationKey = false ∧ xs.endings b = 0 ∧
          (close w elapsed b c).2.isOpen = c.isOpen ∧
          (close w elapsed b c).2.current = some b)) := by
  unfold close
  cases elapsed with
  | error f =>
      -- There is no duration to tell, and the boundary is not even mentioned.
      exact ⟨[], (List.append_nil _).symm, Or.inr ⟨rfl, rfl, rfl, hcur⟩⟩
  | ok n =>
      have hlog := Journal.log_ask w c.journal (.set b durationKey (.int n))
      dsimp only
      split
      · rename_i hg
        rw [Correlation.ask_fst] at hg
        have hleave := Correlation.log_leave w (c := (c.ask w (.set b durationKey (.int n))).2) hcur
        rw [Correlation.journal_ask, hlog, List.append_assoc] at hleave
        refine ⟨_, hleave, Or.inl ⟨?_, ?_, Correlation.isOpen_leave ..,
          Correlation.current_leave ..⟩⟩
        · simp only [Log.describes_append, Log.describes_cons, Exchange.describes,
            Request.describes, hg, decide_true, Bool.and_true, Bool.true_or]
        · simp only [Log.endings_append, Log.endings_cons, Log.endings_nil, Request.finishes,
            decide_true, if_true, Bool.false_eq_true, if_false]
      · rename_i hg
        rw [Correlation.ask_fst, Bool.not_eq_true] at hg
        refine ⟨_, hlog, Or.inr ⟨?_, rfl, rfl, hcur⟩⟩
        simp only [Log.describes_cons, Log.describes_nil, Exchange.describes, hg, Bool.and_false,
          Bool.or_false]

theorem describes_opening {b : Nat} {trigger : Value} {ok : Bool} {xs : Log}
    (h : Correlation.Answered (Correlation.opening b trigger) ok xs) :
    xs.describes b durationKey = false := by
  have htype : Correlation.typeKey ≠ durationKey := by decide
  have htrigger : Correlation.triggerKey ≠ durationKey := by decide
  rw [Log.describes, List.any_eq_false]
  intro x hx
  have hr := h.request_mem x hx
  simp only [Correlation.opening, List.mem_cons, List.not_mem_nil, or_false] at hr
  rcases hr with hr | hr | hr <;> rw [Exchange.describes, hr] <;>
    simp only [Request.describes, htype, htrigger, decide_false, Bool.and_false, Bool.false_and,
      Bool.false_eq_true, not_false_eq_true]

-- A campaign that opens a boundary goes on with that boundary open.
theorem run_of_owner (w : Receiver) (maker : PackageUrl.Maker) (records : List Record)
    (elapsed : Except Fault Int) {c c₁ : Correlation} {b : Nat}
    (h : c.enter w Correlation.ownTrigger = (some b, true, c₁)) :
    ∃ c₂ xs, run w maker records elapsed c = runOwn w maker records elapsed b c₂ ∧
      c₂.journal.log = c.journal.log ++ xs ∧
      Correlation.Answered (Correlation.opening b Correlation.ownTrigger) true xs ∧
      c₂.isOpen = true ∧ c₂.current = some b := by
  rcases Correlation.enter_own h with ⟨_, _, hopen, hcur, xs, hlog, hans⟩
  -- The campaign says that it starts before it asks for the boundary.
  have hsaid := Correlation.enter_say h (.info "processor.campaign_started")
  exact ⟨_, xs, run_of_enter_own w maker records elapsed hsaid, hlog, hans, hopen, hcur⟩

/-- What becomes of the boundary `b` that a campaign opened. It is asked to end
    and nothing is open after the campaign, exactly if it got its duration.
    Then the next campaign asks for a boundary of its own. Otherwise nobody asks
    `b` to end, and whoever asks for a boundary next is given `b`. -/
theorem run_closes_own (w : Receiver) (maker : PackageUrl.Maker) (records : List Record)
    (elapsed : Except Fault Int) {c c₁ : Correlation} {b : Nat}
    (h : c.enter w Correlation.ownTrigger = (some b, true, c₁)) :
    let c' := (run w maker records elapsed c).2
    ∃ xs, c'.journal.log = c.journal.log ++ xs ∧
      (0 < xs.endings b ∧ c'.isOpen = false ∧ c'.current = none ↔
        xs.describes b durationKey = true) ∧
      (xs.describes b durationKey = true → ∀ w' trigger, ∃ a ys,
        (c'.enter w' trigger).2.2.journal.log = c'.journal.log ++ ⟨.start, a⟩ :: ys) ∧
      (xs.describes b durationKey = false → xs.endings b = 0 ∧
        ∀ w' trigger, c'.enter w' trigger = (some b, false, c')) := by
  intro c'
  rcases run_of_owner w maker records elapsed h with ⟨c₂, xs, hrun, hxs, hans, hopen, hcur⟩
  rcases log_tell w maker records b c₂ with ⟨ys, hys, hyend, hydesc, hyopen, hycur⟩
  rw [hcur] at hycur
  rw [hopen] at hyopen
  rcases log_close w elapsed hycur with ⟨zs, hzs, hclose⟩
  have hc' : c' = (close w elapsed b (tell w maker records b c₂).2).2 := congrArg Prod.snd hrun
  rw [hys, hxs, List.append_assoc, List.append_assoc] at hzs
  -- What the log says about the boundary is said by the closing alone.
  have hend : Log.endings (xs ++ (ys ++ zs)) b = zs.endings b := by
    rw [Log.endings_append, Log.endings_append, hans.endings_opening, hyend]
    omega
  have hdesc : Log.describes (xs ++ (ys ++ zs)) b durationKey = zs.describes b durationKey := by
    rw [Log.describes_append, Log.describes_append, describes_opening hans, hydesc]
    rfl
  refine ⟨xs ++ (ys ++ zs), by rw [hc', hzs], ?_⟩
  rw [hend, hdesc, hc']
  rcases hclose with ⟨hd, he, hdown, hnone⟩ | ⟨hd, he, hup, hsome⟩
  · rw [hd, he, hdown, hnone]
    refine ⟨⟨fun _ => rfl, fun _ => ⟨Nat.one_pos, rfl, rfl⟩⟩, fun _ w' trigger => ?_, ?_⟩
    · exact Correlation.enter_asks_start w' trigger hdown
    · exact fun hno => absurd hno.symm Bool.false_ne_true
  · rw [hd, he]
    refine ⟨⟨fun hpos => absurd hpos.1 (Nat.lt_irrefl 0), ?_⟩, ?_, fun _ => ⟨rfl, ?_⟩⟩
    · exact fun hno => absurd hno Bool.false_ne_true
    · exact fun hno => absurd hno Bool.false_ne_true
    · intro w' trigger
      rw [Correlation.enter_of_open w' trigger (hup.trans hyopen), hsome]

/-- A receiver that takes every attribute but those of the name `key`. -/
def refusingKey (key : Text) : Receiver :=
  ⟨fun _ r => match r with
    | .set _ key' _ => if key' = key then .refused else .granted
    | _ => .granted⟩

/-- A receiver that does not want the number of records is told the duration all
    the same, and the boundary is closed. -/
theorem run_closes_own_uncounted :
    (Correlation.enter (refusingKey countKey) Correlation.ownTrigger {}).2.1 = true ∧
      (run (refusingKey countKey) {} [] (.ok 7) {}).1 = .error .refused ∧
      0 < (run (refusingKey countKey) {} [] (.ok 7) {}).2.journal.log.endings 0 ∧
      (run (refusingKey countKey) {} [] (.ok 7) {}).2.isOpen = false ∧
      (run (refusingKey countKey) {} [] (.ok 7) {}).2.current = none := by
  rcases run_closes_own (refusingKey countKey) {} [] (.ok 7) (c := {}) (b := 0) rfl with
    ⟨xs, hxs, hiff, _, _⟩
  have htimed : xs.describes 0 durationKey = true := by
    rw [List.nil_append] at hxs
    rw [← hxs]
    rfl
  refine ⟨rfl, rfl, ?_⟩
  rw [hxs]
  exact hiff.mpr htimed

/-- A campaign may leave its own boundary open for good. -/
theorem not_forall_closed :
    ¬ ∀ (w : Receiver) (maker : PackageUrl.Maker) (records : List Record) (n : Int)
      (c c₁ : Correlation) (b : Nat),
      c.enter w Correlation.ownTrigger = (some b, true, c₁) →
      let c' := (run w maker records (.ok n) c).2
      0 < c'.journal.log.endings b ∧ c'.isOpen = false ∧ c'.current = none := by
  intro h
  have hopen := (h (refusingKey durationKey) {} [] 7 {} _ 0 rfl).2.1
  exact absurd hopen (by decide)

end Campaign

end ArchiveCensus
