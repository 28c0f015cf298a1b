import ArchiveCensus.Correlation
import ArchiveCensus.Proofs.Log

/-!
# Boundaries over Whole Runs

What holds of a correlation after any calls, whatever the receiver refuses.

A call makes at most three requests, and the receiver may cut an opening short
after any of them. `Turn` says once what a call can add to the log and which
boundary is open after it. Everything after that is about turns: `Sound` is the
invariant, `sound_call` shows that a turn keeps it, and the run is an induction
on the calls that looks at nothing else.

Freshness is what makes the induction go through. A boundary gets its number
from the journal, and nothing but the invariant says that no request has named
that number before; without it an opening could hand out a boundary that was
ended long ago.

## Main definitions

* `Answered`: How requests made up to the first refusal end up in the log.
* `Turn`: What one call can do.
* `Sound`: The flag, the boundary and the log agree.

## Theorems

* `log_askAll`: Requests up to the first refusal are noted as `Answered` says.
* `enter_of_closed`: What comes of asking for a boundary while none is open.
* `enter_answered`: Which requests that makes.
* `call_turn`: Every call is a turn.
* `sound_run`: The invariant holds after any calls.
* `run_lawful`: What a host can rely on after any calls.
-/

namespace ArchiveCensus

namespace Correlation

/-- How requests that are made up to the first refusal end up in the log; the
    flag says that there was none. -/
inductive Answered : List Request → Bool → Log → Prop where
  | done : Answered [] true []
  | granted {r rs ok xs} (rest : Answered rs ok xs) :
      Answered (r :: rs) ok (Exchange.granted r :: xs)
  | refused {r rs} {a : Response} (h : a.isGranted = false) : Answered (r :: rs) false [⟨r, a⟩]

theorem Answered.eq_of_true {rs : List Request} {xs : Log} (h : Answered rs true xs) :
    xs = rs.map Exchange.granted := by
  generalize hok : true = ok at h
  induction h with
  | done => rfl
  | granted _ ih => rw [List.map_cons, ih hok]
  | refused _ => exact absurd hok (by simp only [reduceCtorEq, not_false_eq_true])

theorem Answered.exists_of_false {rs : List Request} {xs : Log} (h : Answered rs false xs) :
    ∃ x ∈ xs, x.response.isGranted = false := by
  generalize hok : false = ok at h
  induction h with
  | done => exact absurd hok (by simp only [reduceCtorEq, not_false_eq_true])
  | granted _ ih =>
      rcases ih hok with ⟨x, hx, hg⟩
      exact ⟨x, List.mem_cons_of_mem _ hx, hg⟩
  | refused ha => exact ⟨_, List.mem_singleton_self _, ha⟩

theorem Answered.request_mem {rs : List Request} {ok : Bool} {xs : Log} (h : Answered rs ok xs) :
    ∀ x ∈ xs, x.request ∈ rs := by
  induction h with
  | done => exact fun x hx => absurd hx List.not_mem_nil
  | granted _ ih =>
      intro x hx
      rcases List.mem_cons.mp hx with rfl | hx
      · exact List.mem_cons_self
      · exact List.mem_cons_of_mem _ (ih x hx)
  | refused _ =>
      intro x hx
      rw [List.mem_singleton] at hx
      rw [hx]
      exact List.mem_cons_self

theorem isGranted_eq_true_iff (a : Response) : a.isGranted = true ↔ a = .granted := by
  cases a <;> simp [Response.isGranted]

theorem ask_fst (w : Receiver) (c : Correlation) (r : Request) :
    (c.ask w r).1 = (w.respond c.journal r).isGranted := rfl

@[simp] theorem isOpen_askAll (w : Receiver) (c : Correlation) (rs : List Request) :
    (c.askAll w rs).2.isOpen = c.isOpen := by
  induction rs generalizing c with
  | nil => rfl
  | cons r rest ih =>
      unfold askAll
      dsimp only
      split
      · rw [ih, isOpen_ask]
      · rfl

@[simp] theorem current_askAll (w : Receiver) (c : Correlation) (rs : List Request) :
    (c.askAll w rs).2.current = c.current := by
  induction rs generalizing c with
  | nil => rfl
  | cons r rest ih =>
      unfold askAll
      dsimp only
      split
      · rw [ih, current_ask]
      · rfl

-- Induction on the requests: the log after one of them is what the rest adds to.
theorem log_askAll (w : Receiver) (c : Correlation) (rs : List Request) :
    ∃ xs, (c.askAll w rs).2.journal.log = c.journal.log ++ xs ∧
      Answered rs (c.askAll w rs).1 xs := by
  induction rs generalizing c with
  | nil => exact ⟨[], (List.append_nil _).symm, .done⟩
  | cons r rest ih =>
      unfold askAll
      dsimp only
      split
      · rename_i hg
        rw [ask_fst, isGranted_eq_true_iff] at hg
        rcases ih (c.ask w r).2 with ⟨xs, hxs, hans⟩
        refine ⟨Exchange.granted r :: xs, ?_, .granted hans⟩
        rw [hxs, journal_ask, Journal.log_ask, hg, List.append_assoc]
        rfl
      · -- The refused request is in the log too; the rest is never made.
        rename_i hg
        rw [ask_fst, Bool.not_eq_true] at hg
        exact ⟨_, Journal.log_ask w c.journal r, .refused hg⟩

/-- What comes of asking for a boundary while none is open: either all three
    requests are granted and a boundary with the next number is open, or nothing
    is open and nobody is given anything. -/
theorem enter_of_closed (w : Receiver) (trigger : Value) {c : Correlation}
    (h : c.isOpen = false) :
    ∃ xs c', c'.journal.log = c.journal.log ++ xs ∧
      ((Answered (opening c.journal.boundaries.length trigger) true xs ∧
          c.enter w trigger = (some c.journal.boundaries.length, true, c') ∧
          c'.isOpen = true ∧ c'.current = some c.journal.boundaries.length) ∨
        (Answered (opening c.journal.boundaries.length trigger) false xs ∧
          c.enter w trigger = (none, false, c') ∧
          c'.isOpen = false ∧ c'.current = c.current)) := by
  have hlog := log_askAll w { c with isOpen := true } (opening c.journal.boundaries.length trigger)
  have hcur := current_askAll w { c with isOpen := true }
    (opening c.journal.boundaries.length trigger)
  have hopen := isOpen_askAll w { c with isOpen := true }
    (opening c.journal.boundaries.length trigger)
  rcases hask : askAll w { c with isOpen := true } (opening c.journal.boundaries.length trigger)
    with ⟨ok, c'⟩
  rw [hask] at hlog hcur hopen
  rcases hlog with ⟨xs, hlog, hans⟩
  cases ok with
  | true =>
      -- Only the boundary is filled in, so the log is that of the requests.
      refine ⟨xs, { c' with current := some c.journal.boundaries.length }, hlog, Or.inl
        ⟨hans, ?_, hopen, rfl⟩⟩
      simp only [enter, h, hask, Bool.false_eq_true, if_false, if_true]
  | false =>
      -- The flag went up before the first request and comes down again.
      refine ⟨xs, { c' with isOpen := false }.say (.error "context.begin_failed"), hlog, Or.inr
        ⟨hans, ?_, rfl, hcur⟩⟩
      simp only [enter, h, hask, Bool.false_eq_true, if_false]

theorem askAll_say (w : Receiver) (c : Correlation) (n : Notice) (rs : List Request) :
    (c.say n).askAll w rs = ((c.askAll w rs).1, (c.askAll w rs).2.say n) := by
  induction rs generalizing c with
  | nil => rfl
  | cons r rest ih =>
      have hask : (c.say n).ask w r = ((c.ask w r).1, (c.ask w r).2.say n) := rfl
      unfold askAll
      rw [hask]
      dsimp only
      split
      · exact ih _
      · rfl

/-- What is known of a call that opened a boundary: none was open before, the
    boundary has the next number, and its opening is all that was asked. -/
theorem enter_own {w : Receiver} {trigger : Value} {c c' : Correlation} {b : Nat}
    (h : c.enter w trigger = (some b, true, c')) :
    c.isOpen = false ∧ b = c.journal.boundaries.length ∧ c'.isOpen = true ∧ c'.current = some b ∧
      ∃ xs, c'.journal.log = c.journal.log ++ xs ∧ Answered (opening b trigger) true xs := by
  cases hopen : c.isOpen with
  | true =>
      rw [enter_of_open w trigger hopen] at h
      exact absurd (congrArg (fun x => x.2.1) h) Bool.false_ne_true
  | false =>
      rcases enter_of_closed w trigger hopen with ⟨xs, c₁, hlog, hres | hres⟩
      · rcases hres with ⟨hans, heq, hup, hcur⟩
        rw [h] at heq
        obtain ⟨rfl, rfl⟩ : b = c.journal.boundaries.length ∧ c' = c₁ := by
          simpa only [Prod.mk.injEq, Option.some.injEq, true_and] using heq
        exact ⟨rfl, rfl, hup, hcur, xs, hlog, hans⟩
      · rw [h] at hres
        exact absurd (congrArg (fun x => x.2.1) hres.2.1) Bool.noConfusion

-- The receiver answers by its journal, and what there was to say is not in it.
theorem enter_say {w : Receiver} {trigger : Value} {c c' : Correlation} {b : Nat}
    (h : c.enter w trigger = (some b, true, c')) (n : Notice) :
    (c.say n).enter w trigger = (some b, true, c'.say n) := by
  have hopen := (enter_own h).1
  have hsay := askAll_say w { c with isOpen := true } n
    (opening c.journal.boundaries.length trigger)
  rcases hask : askAll w { c with isOpen := true } (opening c.journal.boundaries.length trigger)
    with ⟨ok, c₁⟩
  rw [hask] at hsay
  cases ok with
  | true =>
      simp only [enter, hopen, hask, Bool.false_eq_true, if_false, if_true, Prod.mk.injEq,
        Option.some.injEq, true_and] at h
      rw [← h.1, ← h.2]
      have hsay' : askAll w { c.say n with isOpen := true }
        (opening (c.say n).journal.boundaries.length trigger) = (true, c₁.say n) := hsay
      simp only [enter, isOpen_say, hopen, hsay', Bool.false_eq_true, if_false, if_true]
      rfl
  | false =>
      simp only [enter, hopen, hask, Bool.false_eq_true, if_false, Prod.mk.injEq, reduceCtorEq,
        false_and] at h

/-- What one call can do to `c`: what it adds to the log, and which boundary is
    open after it. -/
inductive Turn (c : Correlation) : Log → Option Nat → Prop where
  /-- The receiver is asked nothing. -/
  | silent : Turn c [] c.current
  | opened {trigger xs} (h : c.isOpen = false)
      (ans : Answered (opening c.journal.boundaries.length trigger) true xs) :
      Turn c xs (some c.journal.boundaries.length)
  /-- An opening is cut short. -/
  | cut {trigger xs} (h : c.isOpen = false)
      (ans : Answered (opening c.journal.boundaries.length trigger) false xs) : Turn c xs none
  | described {b key value a} (h : c.current = some b) : Turn c [⟨.set b key value, a⟩] (some b)
  | closed {b a} (h : c.current = some b) : Turn c [⟨.finish b, a⟩] none

theorem log_leave (w : Receiver) {c : Correlation} {b : Nat} (h : c.current = some b) :
    (c.leave w).journal.log =
      c.journal.log ++ [⟨.finish b, w.respond c.journal (.finish b)⟩] := by
  have hlog := Journal.log_ask w c.journal (.finish b)
  unfold leave
  rw [h]
  dsimp only
  split <;> exact hlog

theorem current_eq_none {c : Correlation} (hflag : c.isOpen = c.current.isSome)
    (h : c.isOpen = false) : c.current = none := by
  rw [h] at hflag
  rw [← Option.isNone_iff_eq_none, ← Option.isSome_eq_false_iff, ← hflag]

-- Every call is a turn. That the flag goes with the boundary is shown along with
-- it, since an opening that is cut short relies on nothing being left over.
theorem call_turn (w : Receiver) {c : Correlation} (hflag : c.isOpen = c.current.isSome)
    (k : Call) :
    ∃ xs, (c.call w k).journal.log = c.journal.log ++ xs ∧ Turn c xs (c.call w k).current ∧
      (c.call w k).isOpen = (c.call w k).current.isSome := by
  have hsilent : c.journal.log = c.journal.log ++ [] := (List.append_nil _).symm
  cases k with
  | enter trigger =>
      simp only [call]
      cases hopen : c.isOpen with
      | true =>
          rw [enter_of_open w trigger hopen]
          exact ⟨[], hsilent, .silent, hflag⟩
      | false =>
          rcases enter_of_closed w trigger hopen with ⟨xs, c', hlog, hres | hres⟩
          · rcases hres with ⟨hans, heq, hup, hcur⟩
            rw [heq]
            dsimp only
            rw [hcur, hup]
            exact ⟨xs, hlog, .opened hopen hans, rfl⟩
          · rcases hres with ⟨hans, heq, hdown, hcur⟩
            -- Nothing was open, so nothing is left over from before.
            have hnone := current_eq_none hflag hopen
            rw [heq]
            dsimp only
            rw [hcur, hdown, hnone]
            exact ⟨xs, hlog, .cut hopen hans, rfl⟩
  | leave =>
      simp only [call, isOpen_leave, current_leave, Option.isSome_none, and_true]
      cases hcur : c.current with
      | none =>
          refine ⟨[], ?_, ?_⟩
          · unfold leave
            rw [hcur]
            exact hsilent
          · rw [← hcur]
            exact .silent
      | some b => exact ⟨_, log_leave w hcur, .closed hcur⟩
  | annotate key value =>
      simp only [call]
      unfold annotate
      cases hcur : c.current with
      | none =>
          -- There is nothing to describe, so nobody is asked.
          rw [hcur] at hflag
          refine ⟨[], hsilent, ?_, ?_⟩
          · exact .silent
          · dsimp only
            rw [hcur, hflag]
      | some b =>
          refine ⟨_, Journal.log_ask w c.journal (.set b key value), ?_, ?_⟩
          · rw [current_ask, hcur]
            exact .described hcur
          · rw [isOpen_ask, current_ask, hflag]

section Keeping

variable {w : Receiver} {P : Journal → Prop} (hask : ∀ j r, P j → P (j.ask w r).2)

include hask

theorem journal_askAll_of (c : Correlation) (rs : List Request) (h : P c.journal) :
    P (c.askAll w rs).2.journal := by
  induction rs generalizing c with
  | nil => exact h
  | cons r rest ih =>
      have hr : P (c.ask w r).2.journal := hask c.journal r h
      unfold askAll
      dsimp only
      split
      · exact ih _ hr
      · exact hr

theorem journal_enter_of (c : Correlation) (trigger : Value) (h : P c.journal) :
    P (c.enter w trigger).2.2.journal := by
  have hall := journal_askAll_of hask { c with isOpen := true }
    (opening c.journal.boundaries.length trigger) h
  unfold enter
  split
  · exact h
  · dsimp only
    split <;> exact hall

theorem journal_leave_of (c : Correlation) (h : P c.journal) : P (c.leave w).journal := by
  unfold leave
  dsimp only
  split
  · exact h
  · rename_i b _
    have hr := hask c.journal (.finish b) h
    split <;> exact hr

-- A call reaches the journal through requests only, so what every request
-- keeps, every call keeps.
theorem journal_call_of (c : Correlation) (k : Call) (h : P c.journal) :
    P (c.call w k).journal := by
  cases k with
  | enter trigger => exact journal_enter_of hask c trigger h
  | leave => exact journal_leave_of hask c h
  | annotate key value =>
      simp only [call]
      unfold annotate
      split
      · exact h
      · exact hask _ _ h

end Keeping

/-- The flag, the boundary and the log agree. -/
structure Sound (c : Correlation) : Prop where
  flag : c.isOpen = c.current.isSome
  counted : c.journal.Counted
  /-- Nobody has asked for the end of a boundary that is yet to be started. -/
  fresh : ∀ b, c.journal.log.starts ≤ b → c.journal.log.endings b = 0
  running : ∀ b, c.current = some b → b < c.journal.log.starts ∧ c.journal.log.endings b = 0
  once : ∀ b, c.journal.log.endings b ≤ 1

theorem sound_empty : Sound {} where
  flag := rfl
  counted := rfl
  fresh := fun _ _ => rfl
  running := fun b h => absurd h (by simp only [reduceCtorEq, not_false_eq_true])
  once := fun _ => Nat.zero_le 1

theorem Answered.endings_opening {n : Nat} {trigger : Value} {ok : Bool} {xs : Log}
    (h : Answered (opening n trigger) ok xs) (b : Nat) : xs.endings b = 0 := by
  refine Log.endings_eq_zero fun x hx => ?_
  have hr := h.request_mem x hx
  simp only [opening, List.mem_cons, List.not_mem_nil, or_false] at hr
  rcases hr with hr | hr | hr <;> rw [hr] <;> rfl

theorem Answered.starts_opening {n : Nat} {trigger : Value} {xs : Log}
    (h : Answered (opening n trigger) true xs) : xs.starts = 1 := by
  rw [h.eq_of_true]
  rfl

theorem Answered.offers_opening {n : Nat} {trigger : Value} {ok : Bool} {xs : Log}
    (h : Answered (opening n trigger) ok xs) : ∀ x ∈ xs, x.offers = false := by
  intro x hx
  have hr := h.request_mem x hx
  simp only [opening, List.mem_cons, List.not_mem_nil, or_false] at hr
  rcases hr with hr | hr | hr <;> rw [Exchange.offers, hr] <;> rfl

theorem Answered.exists_cons_opening {n : Nat} {trigger : Value} {ok : Bool} {xs : Log}
    (h : Answered (opening n trigger) ok xs) : ∃ a ys, xs = ⟨.start, a⟩ :: ys := by
  cases h with
  | granted _ => exact ⟨_, _, rfl⟩
  | refused _ => exact ⟨_, _, rfl⟩

-- Only a closing ends a boundary, namely the one that is open until then.
theorem Turn.endings {c : Correlation} {xs : Log} {next : Option Nat} (h : Turn c xs next)
    (b : Nat) : xs.endings b = 0 ∨ (xs.endings b = 1 ∧ c.current = some b ∧ next = none) := by
  cases h with
  | silent => exact Or.inl rfl
  | opened _ ans => exact Or.inl (ans.endings_opening b)
  | cut _ ans => exact Or.inl (ans.endings_opening b)
  | described _ => exact Or.inl rfl
  | @closed b' a hcur =>
      by_cases hb : b' = b
      · right
        rw [← hb]
        refine ⟨?_, hcur, rfl⟩
        simp only [Log.endings_cons, Log.endings_nil, Request.finishes, decide_true, if_true]
      · left
        simp only [Log.endings_cons, Log.endings_nil, Request.finishes, hb, decide_false,
          Bool.false_eq_true, if_false]

-- A boundary that is open after a call was open before, or is the next one.
theorem Turn.next {c : Correlation} {xs : Log} {next : Option Nat} (h : Turn c xs next)
    {b : Nat} (hb : next = some b) :
    c.current = some b ∨ (b = c.journal.boundaries.length ∧ xs.starts = 1) := by
  cases h with
  | silent => exact Or.inl hb
  | opened _ ans => exact Or.inr ⟨(Option.some.inj hb).symm, ans.starts_opening⟩
  | cut _ _ => exact absurd hb (by simp only [reduceCtorEq, not_false_eq_true])
  | described hcur => exact Or.inl (hcur.trans hb)
  | closed _ => exact absurd hb (by simp only [reduceCtorEq, not_false_eq_true])

-- The invariant survives any call.
theorem sound_call (w : Receiver) {c : Correlation} (h : c.Sound) (k : Call) :
    (c.call w k).Sound := by
  rcases call_turn w h.flag k with ⟨xs, hlog, hturn, hflag⟩
  have hcounted := journal_call_of (fun j r => Journal.counted_ask w r) c k h.counted
  refine ⟨hflag, hcounted, fun b hb => ?_, fun b hb => ?_, fun b => ?_⟩
  · -- A boundary yet to be started: what was open is older than that.
    rw [hlog, Log.starts_append] at hb
    rw [hlog, Log.endings_append, h.fresh b (by omega), Nat.zero_add]
    rcases hturn.endings b with h0 | ⟨_, hcur, _⟩
    · exact h0
    · have := (h.running b hcur).1
      omega
  · -- The boundary that is open after the call: a call that ends one leaves none.
    have h0 : xs.endings b = 0 := by
      rcases hturn.endings b with h0 | ⟨_, _, hnone⟩
      · exact h0
      · rw [hb] at hnone
        exact absurd hnone (by simp only [reduceCtorEq, not_false_eq_true])
    rw [hlog, Log.starts_append, Log.endings_append, h0]
    rcases hturn.next hb with hcur | ⟨hn, hstart⟩
    · rcases h.running b hcur with ⟨hlt, hend⟩
      exact ⟨by omega, hend⟩
    · -- The number is new, so the log before the call cannot have an end of it.
      have hfresh : c.journal.log.starts = b := by rw [hn, h.counted]
      exact ⟨by omega, h.fresh b (by omega)⟩
  · -- A second end would be that of the open boundary, which has none so far.
    rw [hlog, Log.endings_append]
    rcases hturn.endings b with h0 | ⟨h1, hcur, _⟩
    · rw [h0]
      exact h.once b
    · have := (h.running b hcur).2
      omega

theorem run_of {w : Receiver} {P : Correlation → Prop} (hcall : ∀ c k, P c → P (c.call w k))
    {c : Correlation} (h : P c) (calls : List Call) : P (c.run w calls) := by
  induction calls generalizing c with
  | nil => exact h
  | cons k rest ih => exact ih (hcall c k h)

theorem sound_run (w : Receiver) (calls : List Call) : (run w {} calls).Sound :=
  run_of (P := Sound) (fun _ k hc => sound_call w hc k) sound_empty calls

/-- A call owns the boundary it is given exactly if none was open and all three
    requests of an opening were granted to it. -/
theorem enter_owner_iff (w : Receiver) (trigger : Value) (c : Correlation) :
    (c.enter w trigger).2.1 = true ↔ c.isOpen = false ∧ ∃ b,
      (c.enter w trigger).2.2.journal.log =
        c.journal.log ++ (opening b trigger).map Exchange.granted := by
  cases hopen : c.isOpen with
  | true =>
      rw [enter_of_open w trigger hopen]
      simp only [Bool.false_eq_true, Bool.true_eq_false, false_and]
  | false =>
      rcases enter_of_closed w trigger hopen with ⟨xs, c', hlog, hres | hres⟩
      · rcases hres with ⟨hans, heq, _⟩
        rw [heq]
        exact ⟨fun _ => ⟨rfl, _, by rw [hlog, hans.eq_of_true]⟩, fun _ => rfl⟩
      · rcases hres with ⟨hans, heq, _⟩
        rw [heq]
        refine ⟨fun h => absurd h Bool.false_ne_true, ?_⟩
        rintro ⟨_, b, hb⟩
        -- The log would hold grants only, but the opening ended with a refusal.
        rcases hans.exists_of_false with ⟨x, hx, hno⟩
        rw [List.append_cancel_left (hlog.symm.trans hb), List.mem_map] at hx
        rcases hx with ⟨r, _, rfl⟩
        exact absurd hno (by simp only [Exchange.granted, Response.isGranted, Bool.true_eq_false,
          not_false_eq_true])

/-- While none is open, a call makes the requests of an opening up to the first refusal,
    and owns a boundary exactly if there was none. -/
theorem enter_answered (w : Receiver) (trigger : Value) {c : Correlation}
    (h : c.isOpen = false) :
    ∃ b xs, (c.enter w trigger).2.2.journal.log = c.journal.log ++ xs ∧
      Answered (opening b trigger) (c.enter w trigger).2.1 xs := by
  rcases enter_of_closed w trigger h with ⟨xs, c', hlog, ⟨hans, heq, _⟩ | ⟨hans, heq, _⟩⟩ <;>
    rw [heq] <;> exact ⟨_, xs, hlog, hans⟩

-- So the receiver is asked for a new boundary.
theorem enter_asks_start (w : Receiver) (trigger : Value) {c : Correlation}
    (h : c.isOpen = false) :
    ∃ a ys, (c.enter w trigger).2.2.journal.log = c.journal.log ++ ⟨.start, a⟩ :: ys := by
  rcases enter_answered w trigger h with ⟨_, xs, hlog, hans⟩
  rcases hans.exists_cons_opening with ⟨a, ys, rfl⟩
  exact ⟨a, ys, hlog⟩

/-- Whoever owns a boundary is given one that was not handed over before. -/
theorem handed_enter (w : Receiver) (trigger : Value) {c : Correlation} (h : c.Sound)
    (howner : (c.enter w trigger).2.1 = true) :
    ∃ b, (c.enter w trigger).1 = some b ∧ b ∉ c.journal.log.handed ∧
      (c.enter w trigger).2.2.journal.log.handed = c.journal.log.handed ++ [b] := by
  have hopen := ((enter_owner_iff w trigger c).mp howner).1
  rcases enter_of_closed w trigger hopen with ⟨xs, c', hlog, hres | hres⟩
  · rcases hres with ⟨hans, heq, _⟩
    have hn : c.journal.boundaries.length = c.journal.log.starts := h.counted
    rw [heq]
    refine ⟨_, rfl, fun hmem => ?_, ?_⟩
    · -- What was handed over was started, and the new number is the count of those.
      have := Log.lt_of_mem_handed hmem
      omega
    · rw [hlog, Log.handed_append, hans.eq_of_true, hn]
      rfl
  · rw [hres.2.1] at howner
    exact absurd howner Bool.false_ne_true

/-- What a host can rely on after any calls, whatever the receiver refuses: the
    flag goes with the boundary; the boundary that is open was never asked to
    end; a call owns what it is given exactly if none was open and the opening
    went through, and then it is a boundary that nobody was given before; while
    none is open, a call asks the receiver for one, and makes the requests of an
    opening up to the first refusal; while one is open, a call gets that one and
    the receiver is not asked; closing leaves nothing open; and no boundary was
    asked to end twice. -/
theorem run_lawful (w : Receiver) (calls : List Call) :
    let c := run w {} calls
    (c.isOpen = true ↔ c.current ≠ none) ∧
      (∀ b, c.current = some b → c.journal.log.endings b = 0) ∧
      (∀ trigger, (c.enter w trigger).2.1 = true ↔ c.isOpen = false ∧ ∃ b,
        (c.enter w trigger).2.2.journal.log =
          c.journal.log ++ (opening b trigger).map Exchange.granted) ∧
      (∀ trigger, (c.enter w trigger).2.1 = true → ∃ b,
        (c.enter w trigger).1 = some b ∧ b ∉ c.journal.log.handed ∧
          (c.enter w trigger).2.2.journal.log.handed = c.journal.log.handed ++ [b]) ∧
      (∀ trigger, c.isOpen = false →
        (∃ a ys, (c.enter w trigger).2.2.journal.log = c.journal.log ++ ⟨.start, a⟩ :: ys) ∧
          ∃ b xs, (c.enter w trigger).2.2.journal.log = c.journal.log ++ xs ∧
            Answered (opening b trigger) (c.enter w trigger).2.1 xs) ∧
      (∀ trigger, c.isOpen = true → c.enter w trigger = (c.current, false, c)) ∧
      ((c.leave w).isOpen = false ∧ (c.leave w).current = none) ∧
      ∀ b, c.journal.log.endings b ≤ 1 := by
  intro c
  have hsound : c.Sound := sound_run w calls
  refine ⟨?_, fun b hb => (hsound.running b hb).2, fun trigger => enter_owner_iff w trigger c,
    fun trigger => handed_enter w trigger hsound,
    fun trigger hclosed => ⟨enter_asks_start w trigger hclosed, enter_answered w trigger hclosed⟩,
    fun trigger => enter_of_open w trigger, ⟨isOpen_leave w c, current_leave w c⟩, hsound.once⟩
  rw [hsound.flag, Option.isSome_iff_ne_none]

end Correlation

end ArchiveCensus
