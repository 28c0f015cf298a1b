import ArchiveCensus.Proofs.Campaign
import Mathlib.Data.List.Induction
import Mathlib.Logic.Function.Iterate

/-!
# Campaigns at the Same Time

Several campaigns may run at the same time and share one correlation. Each makes
its requests one after the other, and between any two of them the others may
make any number of theirs. A campaign is therefore taken apart into steps that
nobody can interrupt, a schedule says whose step comes next, and nothing is
assumed about schedules or receivers.

`Move` says once what a step can do, as `Turn` does for calls, and `Orderly` is
the invariant. Two of its clauses carry the rest. Whoever owns a boundary finds
it open, so there is at most one owner; and a boundary that was given to
somebody and is no longer open has been asked to end, so nobody loses it without
a trace in the log.

## Main definitions

* `Plan`, `Stage`, `advance`: A campaign in steps.
* `Crowd`, `step`, `interleave`: Campaigns at the same time.
* `Offer`: An event that a campaign offers, and its place in the log.
* `Move`: What a step can do.
* `Orderly`: The invariant of the boundaries that campaigns hold.

## Theorems

* `exists_iterate_advance`: The steps of one campaign make up the campaign.
* `advance_move`: Every step is a move.
* `orderly_step`, `orderly_interleave`: The boundaries stay in order after any
  schedule.
-/

namespace ArchiveCensus

namespace Correlation

variable {c c' : Correlation}

theorem sound_say (h : c.Sound) (n : Notice) : (c.say n).Sound :=
  ⟨h.flag, h.counted, h.fresh, h.running, h.once⟩

-- Requests that neither start nor end a boundary keep the invariant.
theorem Sound.of_quiet (h : c.Sound) {xs : Log} (hlog : c'.journal.log = c.journal.log ++ xs)
    (hstarts : xs.starts = 0) (hends : ∀ b, xs.endings b = 0) (hcounted : c'.journal.Counted)
    (hopen : c'.isOpen = c.isOpen) (hcur : c'.current = c.current) : c'.Sound := by
  have hs : c'.journal.log.starts = c.journal.log.starts := by
    rw [hlog, Log.starts_append, hstarts, Nat.add_zero]
  have he : ∀ b, c'.journal.log.endings b = c.journal.log.endings b := by
    intro b
    rw [hlog, Log.endings_append, hends, Nat.add_zero]
  refine ⟨?_, hcounted, fun b hb => ?_, fun b hb => ?_, fun b => ?_⟩
  · rw [hopen, hcur]
    exact h.flag
  · rw [he]
    exact h.fresh b (hs ▸ hb)
  · rw [he, hs]
    exact h.running b (hcur ▸ hb)
  · rw [he]
    exact h.once b

theorem sound_ask (w : Receiver) (h : c.Sound) {r : Request} (hstart : r.isStart = false)
    (hend : ∀ b, r.finishes b = false) : (c.ask w r).2.Sound := by
  refine h.of_quiet (Journal.log_ask w c.journal r) ?_ (fun b => ?_)
    (Journal.counted_ask w r h.counted) rfl rfl
  · rw [Log.starts_cons, Exchange.starts, hstart]
    rfl
  · exact Log.endings_eq_zero fun x hx => List.mem_singleton.mp hx ▸ hend b

theorem parent_eq_current (h : c.Sound) : c.parent = c.current := by
  unfold parent
  split
  · rfl
  · rename_i hclosed
    rw [Bool.not_eq_true] at hclosed
    exact (current_eq_none h.flag hclosed).symm

end Correlation

namespace Campaign

open Correlation Delivery

/-- What a campaign delivers, and how long that takes. -/
structure Plan where
  records : List Record
  elapsed : Except Fault Int := .ok 0

/-- How far a campaign has come. -/
inductive Stage where
  /-- It has asked for nothing yet. -/
  | waiting
  /-- It opened the boundary `b` and is about to say how many records there are. -/
  | counting (b : Nat)
  /-- It has these records left. It was given a boundary or none, and `own` says
      that it opened the boundary. -/
  | delivering (given : Option Nat) (own : Bool) (rest : List Record)
  /-- It has said how long it took and is about to close the boundary `b`. -/
  | closing (b : Nat)
  | through

namespace Stage

/-- The boundary that the campaign was given. -/
def given? : Stage → Option Nat
  | counting b | closing b => some b
  | delivering given _ _ => given
  | waiting | through => none

/-- The campaign opened the boundary that it was given. -/
def owns : Stage → Bool
  | counting _ | closing _ => true
  | delivering _ own _ => own
  | waiting | through => false

end Stage

/-- The next step of a campaign, which nobody can interrupt. -/
def advance (w : Receiver) (maker : PackageUrl.Maker) (p : Plan) :
    Stage → Correlation → Stage × Correlation
  | .waiting, c =>
    match (c.say (.info "processor.campaign_started")).enter w ownTrigger with
    | (some b, true, c) => (.counting b, c)
    | (given, _, c) => (.delivering given false p.records, c)
  | .counting b, c =>
    let (counted, c) := c.ask w (.set b countKey (.int p.records.length))
    (.delivering (some b) true (if counted then p.records else []), c)
  | .delivering given own (r :: rest), c =>
    (.delivering given own rest, (deliver w maker (some r) c).2)
  | .delivering (some b) true [], c =>
    match p.elapsed with
    | .error _ => (.through, c)
    | .ok n =>
      let (timed, c) := c.ask w (.set b durationKey (.int n))
      (if timed then .closing b else .through, c)
  | .delivering _ _ [], c => (.through, c)
  | .closing _, c => (.through, c.leave w)
  | .through, c => (.through, c)

section Waiting

variable {w : Receiver} {maker : PackageUrl.Maker} {p : Plan} {c c₁ : Correlation}

theorem advance_waiting_own {b : Nat}
    (h : (c.say (.info "processor.campaign_started")).enter w ownTrigger = (some b, true, c₁)) :
    advance w maker p .waiting c = (.counting b, c₁) := by
  simp only [advance, h]

theorem advance_waiting_joined {given : Option Nat}
    (h : (c.say (.info "processor.campaign_started")).enter w ownTrigger = (given, false, c₁)) :
    advance w maker p .waiting c = (.delivering given false p.records, c₁) := by
  simp only [advance, h]

end Waiting

-- Whoever owns a boundary is given one.
theorem enter_own_isSome {w : Receiver} {trigger : Value} {c c₁ : Correlation}
    {given : Option Nat} (h : c.enter w trigger = (given, true, c₁)) : ∃ b, given = some b := by
  cases hopen : c.isOpen with
  | true =>
      rw [enter_of_open w trigger hopen] at h
      exact absurd (congrArg (fun x => x.2.1) h) Bool.false_ne_true
  | false =>
      rcases enter_of_closed w trigger hopen with ⟨_, _, _, ⟨_, heq, _⟩ | ⟨_, heq, _⟩⟩
      · exact ⟨_, (congrArg Prod.fst (h.symm.trans heq))⟩
      · exact absurd (congrArg (fun x => x.2.1) (h.symm.trans heq)) Bool.noConfusion

section Alone

variable (w : Receiver) (maker : PackageUrl.Maker) (p : Plan)

/-- The next step of a campaign that nobody else interferes with. -/
def advanceAlone (x : Stage × Correlation) : Stage × Correlation :=
  advance w maker p x.1 x.2

theorem iterate_delivering (given : Option Nat) (own : Bool) (rest : List Record)
    (c : Correlation) : (advanceAlone w maker p)^[rest.length] (.delivering given own rest, c) =
      (.delivering given own [], (deliverAll w maker (rest.map some) c).2) := by
  induction rest generalizing c with
  | nil => rfl
  | cons r rest ih =>
      rw [List.length_cons, Function.iterate_succ_apply]
      exact ih (deliver w maker (some r) c).2

theorem exists_iterate_close (b : Nat) (c : Correlation) :
    ∃ n, (advanceAlone w maker p)^[n] (.delivering (some b) true [], c) =
      (.through, (close w p.elapsed b c).2) := by
  unfold close
  cases he : p.elapsed with
  | error f =>
      refine ⟨1, ?_⟩
      simp only [Function.iterate_one, advanceAlone, advance, he]
  | ok n =>
      cases hg : (c.ask w (.set b durationKey (.int n))).1 with
      | false =>
          refine ⟨1, ?_⟩
          simp only [Function.iterate_one, advanceAlone, advance, he, hg, Bool.false_eq_true,
            if_false]
      | true =>
          refine ⟨2, ?_⟩
          simp only [Function.iterate_succ_apply, Function.iterate_zero_apply, advanceAlone,
            advance, he, hg, if_true]

/-- A campaign that is never interrupted makes all its steps, and what comes of
    them is what comes of the campaign as a whole. -/
theorem exists_iterate_advance (c : Correlation) :
    ∃ n, (advanceAlone w maker p)^[n] (.waiting, c) =
      (.through, (run w maker p.records p.elapsed c).2) := by
  rcases henter : (c.say (.info "processor.campaign_started")).enter w ownTrigger
    with ⟨given, own, c₁⟩
  cases own with
  | true =>
      -- A boundary of its own: counting, delivering, closing.
      rcases enter_own_isSome henter with ⟨b, rfl⟩
      rw [run_of_enter_own w maker p.records p.elapsed henter]
      have htell : ∃ n, (advanceAlone w maker p)^[n] (.counting b, c₁) =
          (.delivering (some b) true [], (tell w maker p.records b c₁).2) := by
        unfold tell
        cases hg : (c₁.ask w (.set b countKey (.int p.records.length))).1 with
        | false =>
            refine ⟨1, ?_⟩
            simp only [Function.iterate_one, advanceAlone, advance, hg, Bool.false_eq_true,
              if_false]
        | true =>
            refine ⟨p.records.length + 1, ?_⟩
            rw [Function.iterate_succ_apply]
            simp only [advanceAlone, advance, hg, if_true]
            exact iterate_delivering w maker p (some b) true p.records _
      rcases htell with ⟨n, hn⟩
      rcases exists_iterate_close w maker p b (tell w maker p.records b c₁).2 with ⟨m, hm⟩
      refine ⟨m + n + 1, ?_⟩
      have hwait : advanceAlone w maker p (.waiting, c) = (.counting b, c₁) :=
        advance_waiting_own henter
      rw [Function.iterate_succ_apply, hwait, Function.iterate_add_apply, hn, hm]
      rfl
  | false =>
      rw [run_of_enter_joined w maker p.records p.elapsed henter]
      have hwait : advanceAlone w maker p (.waiting, c) = (.delivering given false p.records, c₁) :=
        advance_waiting_joined henter
      refine ⟨1 + p.records.length + 1, ?_⟩
      rw [Function.iterate_succ_apply, hwait, Function.iterate_add_apply, iterate_delivering]
      cases given <;> rfl

end Alone

/-- A record that a campaign offers. -/
structure Offer where
  record : Record
  /-- The boundary that this campaign was given. -/
  given : Option Nat
  /-- This campaign opened that boundary. -/
  own : Bool
  /-- How many requests were made before this one. -/
  place : Nat

/-- Campaigns that share a correlation, and the events that they have offered. -/
structure Crowd where
  correlation : Correlation := {}
  stage : Nat → Stage := fun _ => .waiting
  offers : List Offer := []

/-- The log of the receiver that all campaigns share. -/
def Crowd.log (s : Crowd) : Log :=
  s.correlation.journal.log

/-- The offer that a campaign at this stage makes next, if it makes one. -/
def offerAt (place : Nat) : Stage → List Offer
  | .delivering given own (r :: _) => [⟨r, given, own, place⟩]
  | _ => []

/-- The campaign `i` makes a step. -/
def step (w : Receiver) (maker : PackageUrl.Maker) (plans : Nat → Plan) (s : Crowd) (i : Nat) :
    Crowd :=
  let (stage, c) := advance w maker (plans i) (s.stage i) s.correlation
  { correlation := c
    stage := Function.update s.stage i stage
    offers := s.offers ++ offerAt s.correlation.journal.log.length (s.stage i) }

/-- What comes of steps made in the order of a schedule. -/
def interleave (w : Receiver) (maker : PackageUrl.Maker) (plans : Nat → Plan)
    (schedule : List Nat) : Crowd :=
  schedule.foldl (step w maker plans) {}

/-- What a step of a campaign can do to `c`: what it adds to the log, where the
    campaign stands after it, and which boundary is open then. -/
inductive Move (maker : PackageUrl.Maker) (c : Correlation) :
    Stage → Log → Stage → Option Nat → Prop where
  | opened {xs} (h : c.isOpen = false)
      (ans : Answered (opening c.journal.boundaries.length ownTrigger) true xs) :
      Move maker c .waiting xs (.counting c.journal.boundaries.length)
        (some c.journal.boundaries.length)
  | joined {rest} (h : c.isOpen = true) :
      Move maker c .waiting [] (.delivering c.current false rest) c.current
  /-- An opening is cut short. -/
  | cut {xs rest} (h : c.isOpen = false)
      (ans : Answered (opening c.journal.boundaries.length ownTrigger) false xs) :
      Move maker c .waiting xs (.delivering none false rest) none
  /-- The owner gives its boundary an attribute. -/
  | described {stage stage' b key value a} (h : stage.owns = true) (hb : stage.given? = some b)
      (hnone : ∀ n, offerAt n stage = [])
      (h' : stage' = .through ∨ (stage'.owns = true ∧ stage'.given? = some b)) :
      Move maker c stage [⟨.set b key value, a⟩] stage' c.current
  | offered {given own r rest a} : Move maker c (.delivering given own (r :: rest))
      [⟨.record (Event.ofRecord maker r).1 c.current, a⟩] (.delivering given own rest) c.current
  | closed {b a} (h : c.current = some b) : Move maker c (.closing b) [⟨.finish b, a⟩] .through none
  /-- The receiver is asked nothing. -/
  | finished {stage} (hnone : ∀ n, offerAt n stage = []) :
      Move maker c stage [] .through c.current

-- Every step is a move. The owner of a boundary finds it open, by the invariant
-- below; otherwise closing might close somebody else's.
theorem advance_move (w : Receiver) (maker : PackageUrl.Maker) (p : Plan) {c : Correlation}
    (hs : c.Sound) {stage : Stage}
    (hown : stage.owns = true → stage.given? = c.current) :
    ∃ xs, (advance w maker p stage c).2.journal.log = c.journal.log ++ xs ∧
      Move maker c stage xs (advance w maker p stage c).1 (advance w maker p stage c).2.current ∧
      (advance w maker p stage c).2.Sound := by
  have hsilent : c.journal.log = c.journal.log ++ [] := (List.append_nil _).symm
  have hset : ∀ b key value, (c.ask w (.set b key value)).2.Sound := fun b key value =>
    sound_ask w hs rfl fun _ => rfl
  cases stage with
  | waiting =>
      have hs₁ := sound_say hs (.info "processor.campaign_started")
      have hcall := sound_call w hs₁ (.enter ownTrigger)
      simp only [call] at hcall
      cases hopen : c.isOpen with
      | true =>
          rw [advance_waiting_joined (enter_of_open w ownTrigger
            (c := c.say (.info "processor.campaign_started")) hopen)]
          exact ⟨[], hsilent, .joined hopen, hs₁⟩
      | false =>
          have hnone := current_eq_none hs.flag hopen
          rcases enter_of_closed w ownTrigger (c := c.say (.info "processor.campaign_started"))
            hopen with ⟨xs, c', hlog, ⟨hans, heq, hup, hcur⟩ | ⟨hans, heq, hdown, hcur⟩⟩
          · rw [heq] at hcall
            rw [advance_waiting_own heq]
            refine ⟨xs, hlog, ?_, hcall⟩
            dsimp only
            rw [hcur]
            exact .opened hopen hans
          · rw [heq] at hcall
            rw [advance_waiting_joined heq]
            refine ⟨xs, hlog, ?_, hcall⟩
            dsimp only
            rw [hcur, current_say, hnone]
            exact .cut hopen hans
  | counting b =>
      exact ⟨_, Journal.log_ask w c.journal _, .described rfl rfl (fun _ => rfl)
        (Or.inr ⟨rfl, rfl⟩), hset ..⟩
  | delivering given own rest =>
      cases rest with
      | cons r rest =>
          have hlog := Journal.log_ask w c.journal (.record (Event.ofRecord maker r).1 c.parent)
          have hcounted := Journal.counted_ask w (.record (Event.ofRecord maker r).1 c.parent)
            hs.counted
          refine ⟨_, hlog, ?_, hs.of_quiet hlog rfl (fun _ => rfl) hcounted
            (isOpen_deliver ..) (current_deliver ..)⟩
          simp only [advance, current_deliver, parent_eq_current hs]
          exact .offered
      | nil =>
          have hover : Move maker c (.delivering given own []) [] .through c.current :=
            .finished fun _ => rfl
          cases given with
          | none => exact ⟨[], hsilent, hover, hs⟩
          | some b =>
              cases own with
              | false => exact ⟨[], hsilent, hover, hs⟩
              | true =>
                  unfold advance
                  cases he : p.elapsed with
                  | error f => exact ⟨[], hsilent, hover, hs⟩
                  | ok n =>
                      refine ⟨_, Journal.log_ask w c.journal (.set b durationKey (.int n)),
                        .described rfl rfl (fun _ => rfl) ?_, hset ..⟩
                      dsimp only
                      split
                      · exact Or.inr ⟨rfl, rfl⟩
                      · exact Or.inl rfl
  | closing b =>
      have hcur : c.current = some b := (hown rfl).symm
      refine ⟨_, log_leave w hcur, ?_, sound_call w hs .leave⟩
      simp only [advance, current_leave]
      exact .closed hcur
  | through =>
      exact ⟨[], hsilent, .finished fun _ => rfl, hs⟩

section Moving

variable {maker : PackageUrl.Maker} {c : Correlation} {stage stage' : Stage} {xs : Log}
  {next : Option Nat} (h : Move maker c stage xs stage' next) (hs : c.Sound)

include h hs

-- What was open stays open, unless the owner closes it.
theorem Move.next_eq {b : Nat} (hb : c.current = some b) :
    next = some b ∨ (stage = .closing b ∧ next = none ∧ 0 < xs.endings b) := by
  have hopen : c.isOpen = true := by
    rw [hs.flag, hb]
    rfl
  cases h with
  | opened hclosed _ => exact absurd (hopen.symm.trans hclosed) Bool.noConfusion
  | joined _ => exact Or.inl hb
  | cut hclosed _ => exact absurd (hopen.symm.trans hclosed) Bool.noConfusion
  | described _ _ _ _ => exact Or.inl hb
  | offered => exact Or.inl hb
  | @closed b' a hcur =>
      obtain rfl : b' = b := Option.some.inj (hcur.symm.trans hb)
      refine Or.inr ⟨rfl, rfl, ?_⟩
      rw [Log.endings_cons, Request.finishes, decide_eq_true rfl, if_pos rfl]
      omega
  | finished _ => exact Or.inl hb

theorem Move.held {b : Nat} (hb : c.current = some b ∨ 0 < c.journal.log.endings b) :
    next = some b ∨ 0 < Log.endings (c.journal.log ++ xs) b := by
  rw [Log.endings_append]
  rcases hb with hcur | hpos
  · rcases h.next_eq hs hcur with hnext | ⟨_, _, hends⟩
    · exact Or.inl hnext
    · exact Or.inr (by omega)
  · exact Or.inr (by omega)

-- A boundary that the campaign is given is open at that moment.
theorem Move.given {b : Nat} (hb : stage'.given? = some b) :
    stage.given? = some b ∨ (next = some b ∧ b < Log.starts (c.journal.log ++ xs)) := by
  rw [Log.starts_append]
  cases h with
  | opened _ ans =>
      obtain rfl : c.journal.boundaries.length = b := Option.some.inj hb
      have hcounted : c.journal.boundaries.length = c.journal.log.starts := hs.counted
      rw [ans.starts_opening]
      exact Or.inr ⟨rfl, by omega⟩
  | joined _ =>
      have hlt := (hs.running b hb).1
      exact Or.inr ⟨hb, by omega⟩
  | cut _ _ => exact absurd hb (by simp only [Stage.given?, reduceCtorEq, not_false_eq_true])
  | described _ hgiven _ h' =>
      rcases h' with rfl | ⟨_, hgiven'⟩
      · exact absurd hb (by simp only [Stage.given?, reduceCtorEq, not_false_eq_true])
      · exact Or.inl (hgiven.trans (hgiven'.symm.trans hb))
  | offered => exact Or.inl hb
  | closed _ => exact absurd hb (by simp only [Stage.given?, reduceCtorEq, not_false_eq_true])
  | finished _ => exact absurd hb (by simp only [Stage.given?, reduceCtorEq, not_false_eq_true])

-- A campaign comes to own a boundary only while nothing is open.
theorem Move.owns (hown : stage'.owns = true) :
    (stage.owns = true ∧ stage'.given? = stage.given? ∧ next = c.current) ∨
      (c.current = none ∧ ∃ b, stage'.given? = some b ∧ next = some b) := by
  cases h with
  | opened hclosed _ => exact Or.inr ⟨current_eq_none hs.flag hclosed, _, rfl, rfl⟩
  | joined _ => exact absurd hown Bool.false_ne_true
  | cut _ _ => exact absurd hown Bool.false_ne_true
  | described hstage hgiven _ h' =>
      rcases h' with rfl | ⟨_, hgiven'⟩
      · exact absurd hown Bool.false_ne_true
      · exact Or.inl ⟨hstage, hgiven'.trans hgiven.symm, rfl⟩
  | offered => exact Or.inl ⟨hown, rfl, rfl⟩
  | closed _ => exact absurd hown Bool.false_ne_true
  | finished _ => exact absurd hown Bool.false_ne_true

end Moving

/-- The boundaries that campaigns hold. -/
structure Orderly (s : Crowd) : Prop where
  sound : s.correlation.Sound
  /-- A boundary that somebody was given is open, or was asked to end. -/
  held : ∀ i b, (s.stage i).given? = some b → b < s.correlation.journal.log.starts ∧
    (s.correlation.current = some b ∨ 0 < s.correlation.journal.log.endings b)
  /-- An owner finds its boundary open. -/
  own : ∀ i, (s.stage i).owns = true →
    ∃ b, (s.stage i).given? = some b ∧ s.correlation.current = some b
  alone : ∀ i j, (s.stage i).owns = true → (s.stage j).owns = true → i = j

theorem orderly_empty : Orderly {} where
  sound := sound_empty
  held := fun _ _ h => absurd h (by simp only [Stage.given?, reduceCtorEq, not_false_eq_true])
  own := fun _ h => absurd h Bool.false_ne_true
  alone := fun _ _ h _ => absurd h Bool.false_ne_true

theorem Orderly.given_eq {s : Crowd} (h : Orderly s) {i : Nat} (hown : (s.stage i).owns = true) :
    (s.stage i).given? = s.correlation.current := by
  rcases h.own i hown with ⟨b, hgiven, hcur⟩
  rw [hgiven, hcur]

section Interleaving

variable (w : Receiver) (maker : PackageUrl.Maker) (plans : Nat → Plan) (s : Crowd) (i : Nat)

theorem correlation_step : (step w maker plans s i).correlation =
    (advance w maker (plans i) (s.stage i) s.correlation).2 := rfl

theorem stage_step_self : (step w maker plans s i).stage i =
    (advance w maker (plans i) (s.stage i) s.correlation).1 :=
  Function.update_self i _ s.stage

theorem stage_step_of_ne {j : Nat} (h : j ≠ i) : (step w maker plans s i).stage j = s.stage j :=
  Function.update_of_ne h _ s.stage

variable {s}

-- The invariant survives any step of any campaign.
theorem orderly_step (h : Orderly s) : Orderly (step w maker plans s i) := by
  rcases advance_move w maker (plans i) h.sound h.given_eq with ⟨xs, hlog, hmove, hsound⟩
  rw [← correlation_step, ← stage_step_self] at hmove
  rw [← correlation_step] at hlog hsound
  -- What a campaign holds after the step it held before, or was just given.
  have hheld : ∀ {b}, b < s.correlation.journal.log.starts ∧ (s.correlation.current = some b ∨
      0 < s.correlation.journal.log.endings b) →
      b < (step w maker plans s i).correlation.journal.log.starts ∧
        ((step w maker plans s i).correlation.current = some b ∨
          0 < (step w maker plans s i).correlation.journal.log.endings b) := by
    intro b hb
    rw [hlog, Log.starts_append]
    exact ⟨by omega, hmove.held h.sound hb.2⟩
  -- Another campaign that owns a boundary keeps it: only its owner closes it.
  have hothers : ∀ j, j ≠ i → (s.stage j).owns = true → ∃ b, (s.stage j).given? = some b ∧
      (step w maker plans s i).correlation.current = some b := by
    intro j hj hown
    rcases h.own j hown with ⟨b, hgiven, hcur⟩
    rcases hmove.next_eq h.sound hcur with hnext | ⟨hclosing, _, _⟩
    · exact ⟨b, hgiven, hnext⟩
    · exact absurd (h.alone j i hown (by rw [hclosing]; rfl)) hj
  -- A new owner opened its boundary while nobody owned one.
  have halone : ∀ j, j ≠ i → ((step w maker plans s i).stage i).owns = true →
      (s.stage j).owns = false := by
    intro j hj hown
    rw [← Bool.not_eq_true]
    intro hjown
    rcases hmove.owns h.sound hown with ⟨hiown, _, _⟩ | ⟨hnone, _⟩
    · exact hj (h.alone j i hjown hiown)
    · rcases h.own j hjown with ⟨b, _, hcur⟩
      rw [hnone] at hcur
      exact absurd hcur (by simp only [reduceCtorEq, not_false_eq_true])
  refine ⟨hsound, fun j b hb => ?_, fun j hown => ?_, fun j k hj hk => ?_⟩
  · by_cases hji : j = i
    · subst hji
      rcases hmove.given h.sound hb with hbefore | ⟨hnext, hlt⟩
      · exact hheld (h.held j b hbefore)
      · exact ⟨hlog ▸ hlt, Or.inl hnext⟩
    · rw [stage_step_of_ne _ _ _ _ _ hji] at hb
      exact hheld (h.held j b hb)
  · by_cases hji : j = i
    · subst hji
      rcases hmove.owns h.sound hown with ⟨hbefore, hgiven, hnext⟩ | ⟨_, b, hgiven, hnext⟩
      · rcases h.own j hbefore with ⟨b, hb, hcur⟩
        exact ⟨b, hgiven.trans hb, hnext.trans hcur⟩
      · exact ⟨b, hgiven, hnext⟩
    · rw [stage_step_of_ne _ _ _ _ _ hji] at hown ⊢
      exact hothers j hji hown
  · by_cases hji : j = i <;> by_cases hki : k = i
    · rw [hji, hki]
    · rw [stage_step_of_ne _ _ _ _ _ hki, halone k hki (hji ▸ hj)] at hk
      exact absurd hk Bool.false_ne_true
    · rw [stage_step_of_ne _ _ _ _ _ hji, halone j hji (hki ▸ hk)] at hj
      exact absurd hj Bool.false_ne_true
    · rw [stage_step_of_ne _ _ _ _ _ hji] at hj
      rw [stage_step_of_ne _ _ _ _ _ hki] at hk
      exact h.alone j k hj hk

theorem interleave_concat (schedule : List Nat) (i : Nat) :
    interleave w maker plans (schedule ++ [i]) =
      step w maker plans (interleave w maker plans schedule) i :=
  List.foldl_concat _ _ i schedule

theorem orderly_interleave (schedule : List Nat) : Orderly (interleave w maker plans schedule) := by
  induction schedule using List.reverseRecOn with
  | nil => exact orderly_empty
  | append_singleton before i ih =>
      rw [interleave_concat]
      exact orderly_step w maker plans i ih

end Interleaving

end Campaign

end ArchiveCensus
