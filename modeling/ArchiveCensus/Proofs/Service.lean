import ArchiveCensus.Proofs.Campaign
import ArchiveCensus.Service

/-!
# The First Receiver Stays

A service may be built before there is anybody to tell. Whatever a host does then,
binding receivers and asking for campaigns in any order, there is one moment that
matters, the first binding. Until then nothing happens: each campaign fails before
it surveys anything, so neither the memory nor any receiver shows that it was
asked for. From then on the service is what it would be if it had been built with
that receiver and never been asked to bind another one; all later bindings leave
is a remark.

The parts of a service switch together at that moment. There is never an emitter without
a correlation, and none of another receiver than the one that was bound.

That a service tells its receiver everything is said of one campaign at a time, at
any moment of a run. The log of the bound receiver grows by what the campaign
asks, which is an event for each record of the survey in its order, under the
boundary that the campaign was given, and a start if no boundary was open. The
journals of all others stay what they are.

## Main definitions

* `Campaign.Tells`: What a campaign asks in order to tell of records.
* `Service.Unwired`, `Service.WiredTo`: No part is there, and all are for one receiver.
* `Service.TellsOnly`: A campaign tells one receiver and nobody else.
* `Service.Step`, `Service.performAll`: What a host does, and what comes of it.
* `Service.quiet`: A service apart from what it had to say.

## Theorems

* `run_asks`: What a campaign asks its receiver, whatever that refuses.
* `performAll_of_unwired`: Without a receiver nothing happens.
* `performAll_of_wiredTo`: With one, bindings make no difference.
* `performAll_tells_first`: All is told to the receiver that is bound first.
-/

namespace ArchiveCensus

namespace Correlation

/-- Closing what is open offers nothing. -/
theorem leave_asks (w : Receiver) (c : Correlation) : ∃ xs,
    (c.leave w).journal.log = c.journal.log ++ xs ∧ xs.offers = [] := by
  cases hcur : c.current with
  | none =>
      refine ⟨[], ?_, rfl⟩
      rw [leave, hcur]
      exact (List.append_nil _).symm
  | some b => exact ⟨_, log_leave w hcur, rfl⟩

/-- Opening offers nothing, and what is offered next is under the boundary that it
    gives. If none was open it asks for a new one first of all. -/
theorem enter_asks (w : Receiver) (trigger : Value) (c : Correlation) : ∃ xs,
    (c.enter w trigger).2.2.journal.log = c.journal.log ++ xs ∧ xs.offers = [] ∧
      (c.enter w trigger).2.2.parent = (c.enter w trigger).1 ∧
      (c.isOpen = false → ∃ a ys, xs = ⟨.start, a⟩ :: ys) := by
  cases hopen : c.isOpen with
  | true =>
      rw [enter_of_open w trigger hopen]
      refine ⟨[], (List.append_nil _).symm, rfl, ?_, fun h => absurd h.symm Bool.false_ne_true⟩
      rw [parent, hopen, if_pos rfl]
  | false =>
      rcases enter_of_closed w trigger hopen with
        ⟨xs, c', hlog, ⟨hans, heq, hup, hcur⟩ | ⟨hans, heq, hdown, -⟩⟩
      · refine ⟨xs, by rw [heq, hlog], Log.offers_eq_nil hans.offers_opening, ?_,
          fun _ => hans.exists_cons_opening⟩
        rw [heq, parent, hup, if_pos rfl, hcur]
      · refine ⟨xs, by rw [heq, hlog], Log.offers_eq_nil hans.offers_opening, ?_,
          fun _ => hans.exists_cons_opening⟩
        rw [heq, parent, hdown, if_neg Bool.false_ne_true]

theorem enter_fst_of_closed (w : Receiver) (trigger : Value) {c : Correlation}
    (h : c.isOpen = false) :
    let b := c.journal.boundaries.length
    (c.enter w trigger).1 =
      if (askAll w { c with isOpen := true } (opening b trigger)).1 then some b else none := by
  simp only [enter, h, Bool.false_eq_true, if_false]
  split <;> rfl

/-- Which boundary an opening gives does not depend on what there was to say. -/
theorem enter_fst_say (w : Receiver) (trigger : Value) (c : Correlation) (n : Notice) :
    ((c.say n).enter w trigger).1 = (c.enter w trigger).1 := by
  cases hopen : c.isOpen with
  | true =>
      have hsaid : (c.say n).isOpen = true := hopen
      rw [enter_of_open w trigger hopen, enter_of_open w trigger hsaid, current_say]
  | false =>
      have hsaid : (c.say n).isOpen = false := hopen
      have hsame : (askAll w { c.say n with isOpen := true }
          (opening (c.say n).journal.boundaries.length trigger)).1 = _ :=
        congrArg Prod.fst (askAll_say w { c with isOpen := true } n
          (opening c.journal.boundaries.length trigger))
      rw [enter_fst_of_closed w trigger hopen, enter_fst_of_closed w trigger hsaid, hsame]
      rfl

end Correlation

namespace Campaign

open Correlation Delivery

variable (w : Receiver) (maker : PackageUrl.Maker) (records : List Record)

/-- What is asked offers each of the records in their order, all of them under the
    same boundary or none. If the receiver refused their number it offers nothing. -/
def Tells (maker : PackageUrl.Maker) (records : List Record) (parent : Option Nat) (xs : Log) :
    Prop :=
  (∃ answers, answers.length = records.length ∧
      xs.offers = offers maker parent records answers) ∨
    xs.offers = [] ∧
      ∃ b a, ⟨.set b countKey (.int records.length), a⟩ ∈ xs ∧ a.isGranted = false

variable {maker records} in
theorem Tells.append {parent : Option Nat} {xs ys zs : Log} (hxs : xs.offers = [])
    (h : Tells maker records parent ys) (hzs : zs.offers = []) :
    Tells maker records parent (xs ++ (ys ++ zs)) := by
  have hoffers : Log.offers (xs ++ (ys ++ zs)) = ys.offers := by
    rw [Log.offers_append, Log.offers_append, hxs, hzs, List.nil_append, List.append_nil]
  unfold Tells
  rw [hoffers]
  refine h.imp_right fun ⟨hnone, b, a, hmem, ha⟩ => ⟨hnone, b, a, ?_, ha⟩
  exact List.mem_append_right _ (List.mem_append_left _ hmem)

theorem tell_asks (b : Nat) (c : Correlation) : ∃ xs,
    (tell w maker records b c).2.journal.log = c.journal.log ++ xs ∧
      Tells maker records c.parent xs := by
  have hlog := Journal.log_ask w c.journal (.set b countKey (.int records.length))
  unfold tell
  dsimp only
  split
  · rcases deliverAll_offers w maker records
      (c.ask w (.set b countKey (.int records.length))).2 with ⟨answers, hlen, hall, _⟩
    rw [Correlation.journal_ask, hlog, List.append_assoc] at hall
    refine ⟨_, hall, .inl ⟨answers, hlen, ?_⟩⟩
    rw [Log.offers_append, offers_offers]
    rfl
  · rename_i hrefused
    rw [ask_fst, Bool.not_eq_true] at hrefused
    exact ⟨_, hlog, .inr ⟨rfl, b, _, List.mem_singleton_self _, hrefused⟩⟩

/-- Closing a boundary offers nothing. -/
theorem close_asks (elapsed : Except Fault Int) (b : Nat) (c : Correlation) : ∃ xs,
    (close w elapsed b c).2.journal.log = c.journal.log ++ xs ∧ xs.offers = [] := by
  cases elapsed with
  | error f => exact ⟨[], (List.append_nil _).symm, rfl⟩
  | ok n =>
      have hlog := Journal.log_ask w c.journal (.set b durationKey (.int n))
      unfold close
      dsimp only
      split
      · rcases leave_asks w (c.ask w (.set b durationKey (.int n))).2 with ⟨xs, hxs, hnone⟩
        rw [journal_ask, hlog, List.append_assoc] at hxs
        refine ⟨_, hxs, ?_⟩
        rw [Log.offers_append, hnone]
        rfl
      · exact ⟨_, hlog, rfl⟩

/-- A campaign has its own boundary, or it goes on under what it was given. -/
theorem run_own_or_joined (elapsed : Except Fault Int) (c : Correlation) :
    let opened := (c.say (.info "processor.campaign_started")).enter w ownTrigger
    (∃ b, opened.1 = some b ∧
        run w maker records elapsed c = runOwn w maker records elapsed b opened.2.2) ∨
      run w maker records elapsed c =
        (.ok (runJoined w maker records opened.1.isSome opened.2.2).1,
          (runJoined w maker records opened.1.isSome opened.2.2).2) := by
  unfold run
  dsimp only
  rcases (c.say (.info "processor.campaign_started")).enter w ownTrigger with ⟨b, owner, c₁⟩
  cases b with
  | none => exact .inr rfl
  | some b =>
      cases owner with
      | true => exact .inl ⟨b, rfl, rfl⟩
      | false => exact .inr rfl

/-- What a campaign asks its receiver, whatever is refused: it tells of the records
    under the boundary that it was given, and asks for one first of all if none was
    open. -/
theorem run_asks (elapsed : Except Fault Int) (c : Correlation) : ∃ xs,
    (run w maker records elapsed c).2.journal.log = c.journal.log ++ xs ∧
      Tells maker records (c.enter w ownTrigger).1 xs ∧
      (c.isOpen = false → ∃ a ys, xs = ⟨.start, a⟩ :: ys) := by
  have hrun := run_own_or_joined w maker records elapsed c
  rcases enter_asks w ownTrigger (c.say (.info "processor.campaign_started")) with
    ⟨xs, hxs, hquiet, hparent, hfirst⟩
  rw [enter_fst_say] at hparent
  dsimp only at hrun
  generalize (c.say (.info "processor.campaign_started")).enter w ownTrigger = opened
    at hrun hxs hparent
  -- The opening comes first, then the telling, and the closing if there is one.
  have hrest : ∃ ys zs,
      (run w maker records elapsed c).2.journal.log = opened.2.2.journal.log ++ (ys ++ zs) ∧
        Tells maker records opened.2.2.parent ys ∧ zs.offers = [] := by
    rcases hrun with ⟨b, -, hrun⟩ | hrun
    · rcases tell_asks w maker records b opened.2.2 with ⟨ys, hys, htold⟩
      rcases close_asks w elapsed b (tell w maker records b opened.2.2).2 with ⟨zs, hzs, hclosed⟩
      rw [hys, List.append_assoc] at hzs
      refine ⟨ys, zs, ?_, htold, hclosed⟩
      rw [hrun]
      exact hzs
    · rcases runJoined_offers (w := w) maker records opened.1.isSome opened.2.2 with
        ⟨answers, c', hlen, hjoined, hlog, _⟩
      refine ⟨_, [], ?_, .inl ⟨answers, hlen, offers_offers ..⟩, rfl⟩
      rw [hrun, hjoined, List.append_nil]
      exact hlog
  rcases hrest with ⟨ys, zs, hall, htold, hclosed⟩
  rw [hxs, List.append_assoc] at hall
  refine ⟨xs ++ (ys ++ zs), hall, ?_, fun hopen => ?_⟩
  · rw [← hparent]
    exact htold.append hquiet hclosed
  · rcases hfirst hopen with ⟨a, front, rfl⟩
    exact ⟨a, front ++ (ys ++ zs), rfl⟩

end Campaign

namespace Service

variable {τ : Type}

/-- A service apart from what it had to say. -/
def quiet (s : Service τ) : Service τ :=
  { s with notices := [] }

/-- No part is made for anybody. -/
structure Unwired (s : Service τ) : Prop where
  sink : s.sink = none
  context : s.context = none
  emitter : s.emitter = none

/-- All parts are made for one receiver. -/
structure WiredTo (s : Service τ) (id : ReceiverId) : Prop where
  sink : s.sink = some id
  context : s.context = some id
  emitter : s.emitter = some id

theorem WiredTo.isReady {s : Service τ} {id : ReceiverId} (h : s.WiredTo id) :
    s.isReady = true := by
  rw [Service.isReady, h.emitter, Option.isSome_some]

theorem WiredTo.told {s : Service τ} {id : ReceiverId} (h : s.WiredTo id) :
    s.told = some id := by
  rw [Service.told, h.emitter, h.context]

theorem bind_of_unwired {s : Service τ} (h : s.Unwired) (id : ReceiverId) :
    (s.bind id).WiredTo id ∧ (s.bind id).quiet = (s.wire id).quiet := by
  rw [bind, h.sink]
  exact ⟨⟨rfl, rfl, rfl⟩, rfl⟩

/-- A later binding leaves a remark and nothing else. -/
theorem bind_of_wiredTo {s : Service τ} {first : ReceiverId} (h : s.WiredTo first)
    (id : ReceiverId) : (s.bind id).WiredTo first ∧ (s.bind id).quiet = s.quiet := by
  rw [bind_of_bound s id h.sink]
  exact ⟨⟨h.sink, h.context, h.emitter⟩, rfl⟩

/-- What a host does. -/
inductive Step where
  | bind (id : ReceiverId)
  /-- A campaign whose telling takes so many milliseconds. -/
  | campaign (elapsed : Except Campaign.Fault Int)

/-- The step is a campaign. -/
def Step.isCampaign : Step → Bool
  | campaign _ => true
  | bind _ => false

variable [Add τ] [LT τ] [DecidableRel (α := τ) (· < ·)]

/-- Makes steps one after the other. Gives the answers to the campaigns. -/
def performAll (w : Setting τ) (s : Service τ) :
    List Step → List (Except Campaign.Fault Campaign.Report) × Service τ
  | [] => ([], s)
  | .bind id :: rest => performAll w (s.bind id) rest
  | .campaign elapsed :: rest =>
    let (answer, s) := s.campaign w elapsed
    let (answers, s) := performAll w s rest
    (answer :: answers, s)

variable {w : Setting τ} {s t : Service τ} {first : ReceiverId}

/-- A campaign does not look at what there was to say before. -/
theorem campaign_congr (h : s.quiet = t.quiet) (elapsed : Except Campaign.Fault Int) :
    (s.campaign w elapsed).1 = (t.campaign w elapsed).1 ∧
      (s.campaign w elapsed).2.quiet = (t.campaign w elapsed).2.quiet := by
  have hquiet : ∀ s : Service τ, (s.campaign w elapsed).1 = (s.quiet.campaign w elapsed).1 ∧
      (s.campaign w elapsed).2.quiet = (s.quiet.campaign w elapsed).2.quiet := by
    intro s
    unfold campaign
    rw [show s.quiet.told = s.told from rfl]
    cases s.told with
    | none => exact ⟨rfl, rfl⟩
    | some id => exact ⟨rfl, rfl⟩
  rw [(hquiet s).1, (hquiet s).2, h]
  exact ⟨(hquiet t).1.symm, (hquiet t).2.symm⟩

/-- A campaign tells the receiver `first` and nobody else. It tells that one of all
    surveyed records, under the boundary that it is given, and asks for one first of
    all if none is open. -/
def TellsOnly (w : Setting τ) (s : Service τ) (first : ReceiverId)
    (elapsed : Except Campaign.Fault Int) : Prop :=
  let t := (s.campaign w elapsed).2
  let parent := ((s.correlation first).enter (w.receivers first) Correlation.ownTrigger).1
  (∀ id, id ≠ first → t.journals id = s.journals id) ∧
    ∃ xs, (t.journals first).log = (s.journals first).log ++ xs ∧
      Campaign.Tells w.maker (s.survey w).1 parent xs ∧
      (s.isOpen = false → ∃ a ys, xs = ⟨.start, a⟩ :: ys)

/-- What comes of a campaign when a receiver is bound. -/
theorem campaign_of_wiredTo (h : s.WiredTo first) (elapsed : Except Campaign.Fault Int) :
    s.campaign w elapsed =
      let run := Campaign.run (w.receivers first) w.maker (s.survey w).1 elapsed
        (s.correlation first)
      (run.1, (s.survey w).2.resume first run.2) := by
  unfold campaign
  rw [h.told]
  rfl

theorem wiredTo_campaign (h : s.WiredTo first) (elapsed : Except Campaign.Fault Int) :
    (s.campaign w elapsed).2.WiredTo first := by
  rw [campaign_of_wiredTo h]
  exact ⟨h.sink, h.context, h.emitter⟩

/-- The bound receiver is told, and nobody else. -/
theorem tellsOnly_of_wiredTo (h : s.WiredTo first) (elapsed : Except Campaign.Fault Int) :
    s.TellsOnly w first elapsed := by
  rcases Campaign.run_asks (w.receivers first) w.maker (s.survey w).1 elapsed (s.correlation first)
    with ⟨xs, hxs, htold, hstart⟩
  unfold TellsOnly
  rw [campaign_of_wiredTo h]
  refine ⟨fun id hid => if_neg hid, xs, ?_, htold, hstart⟩
  exact (congrArg Journal.log (if_pos rfl)).trans hxs

/-- Without a receiver nothing happens. -/
theorem performAll_of_unwired (h : s.Unwired) {steps : List Step}
    (hsteps : ∀ id, .bind id ∉ steps) :
    performAll w s steps = (List.replicate steps.length (.error .noReceiver), s) := by
  induction steps with
  | nil => rfl
  | cons step rest ih =>
      have hrest : ∀ id, .bind id ∉ rest := fun id hid => hsteps id (List.mem_cons_of_mem _ hid)
      cases step with
      | bind id => exact absurd List.mem_cons_self (hsteps id)
      | campaign elapsed =>
          rw [performAll, campaign_of_unbound w elapsed s h.emitter]
          dsimp only
          rw [ih hrest]
          rfl

/-- With a receiver, bindings make no difference but for what there is to say. -/
theorem performAll_of_wiredTo (h : s.WiredTo first) (hst : s.quiet = t.quiet)
    (steps : List Step) :
    (performAll w s steps).1 = (performAll w t (steps.filter Step.isCampaign)).1 ∧
      (performAll w s steps).2.quiet = (performAll w t (steps.filter Step.isCampaign)).2.quiet := by
  induction steps generalizing s t with
  | nil => exact ⟨rfl, hst⟩
  | cons step rest ih =>
      cases step with
      | bind id =>
          rcases bind_of_wiredTo h id with ⟨hstays, hquiet⟩
          exact ih hstays (hquiet.trans hst)
      | campaign elapsed =>
          rcases campaign_congr (w := w) hst elapsed with ⟨hanswer, hnext⟩
          rcases ih (wiredTo_campaign h elapsed) hnext with ⟨hanswers, hend⟩
          exact ⟨congrArg₂ List.cons hanswer hanswers, hend⟩

/-- The receiver that is bound stays, and the journals of all others stay the same. -/
theorem journals_performAll (h : s.WiredTo first) (steps : List Step) :
    (performAll w s steps).2.WiredTo first ∧
      ∀ id, id ≠ first → (performAll w s steps).2.journals id = s.journals id := by
  induction steps generalizing s with
  | nil => exact ⟨h, fun _ _ => rfl⟩
  | cons step rest ih =>
      cases step with
      | bind id =>
          rcases bind_of_wiredTo h id with ⟨hstays, hquiet⟩
          rcases ih hstays with ⟨hwired, hothers⟩
          have hsame : (s.bind id).quiet.journals = s.quiet.journals := congrArg journals hquiet
          exact ⟨hwired, fun other hne => (hothers other hne).trans (congrFun hsame other)⟩
      | campaign elapsed =>
          rcases ih (wiredTo_campaign (w := w) h elapsed) with ⟨hwired, hothers⟩
          refine ⟨hwired, fun other hne => (hothers other hne).trans ?_⟩
          exact (tellsOnly_of_wiredTo h elapsed).1 other hne

theorem performAll_campaign (w : Setting τ) (s : Service τ) (elapsed : Except Campaign.Fault Int)
    (rest : List Step) :
    performAll w s (.campaign elapsed :: rest) =
      ((s.campaign w elapsed).1 :: (performAll w (s.campaign w elapsed).2 rest).1,
        (performAll w (s.campaign w elapsed).2 rest).2) :=
  rfl

theorem performAll_append (w : Setting τ) (s : Service τ) (before after : List Step) :
    performAll w s (before ++ after) =
      ((performAll w s before).1 ++ (performAll w (performAll w s before).2 after).1,
        (performAll w (performAll w s before).2 after).2) := by
  induction before generalizing s with
  | nil => rfl
  | cons step rest ih =>
      cases step with
      | bind id => exact ih (s.bind id)
      | campaign elapsed =>
          rw [List.cons_append, performAll_campaign, performAll_campaign, ih]
          rfl

/-- What comes of any bindings and campaigns, in any order, if a service is built
    without a receiver. While none is bound each campaign fails, and the service stays
    what it is, without any of its parts. Behind the first binding all is as if the
    service had been built with that receiver and never been asked to bind another one:
    the answers, and the service but for what there was to say. All parts are and stay
    that receiver's, nobody else's journal changes, and the campaign that is next tells
    that receiver of all that it surveys. -/
theorem performAll_tells_first (w : Setting τ) (memory : Survey.Memory τ) (cadence : Cadence)
    (journals : ReceiverId → Journal) (steps : List Step) :
    let s : Service τ := { memory, cadence, journals }
    let t := (performAll w s steps).2
    ((∀ id, .bind id ∉ steps) →
      performAll w s steps = (List.replicate steps.length (.error .noReceiver), s) ∧
        t.Unwired ∧ t.isReady = false) ∧
      ∀ before first after, steps = before ++ .bind first :: after → (∀ id, .bind id ∉ before) →
        let built := performAll w (s.wire first) (after.filter Step.isCampaign)
        (performAll w s steps).1 = List.replicate before.length (.error .noReceiver) ++ built.1 ∧
          t.quiet = built.2.quiet ∧ t.WiredTo first ∧ t.isReady = true ∧
          (∀ id, id ≠ first → t.journals id = journals id) ∧
          ∀ elapsed, t.TellsOnly w first elapsed := by
  intro s t
  have hbare : s.Unwired := ⟨rfl, rfl, rfl⟩
  refine ⟨fun hnone => ?_, ?_⟩
  · have hsame := performAll_of_unwired (w := w) hbare hnone
    have ht : t = s := congrArg Prod.snd hsame
    rw [ht]
    exact ⟨hsame, hbare, rfl⟩
  · rintro before first after rfl hbefore
    rcases bind_of_unwired hbare first with ⟨hwired, hbuilt⟩
    have hrun : performAll w s (before ++ .bind first :: after) =
        (List.replicate before.length (.error .noReceiver) ++
            (performAll w (s.bind first) after).1,
          (performAll w (s.bind first) after).2) := by
      rw [performAll_append, performAll_of_unwired hbare hbefore]
      rfl
    have ht : (performAll w s (before ++ .bind first :: after)).2 =
        (performAll w (s.bind first) after).2 := by
      rw [hrun]
    rcases performAll_of_wiredTo (w := w) hwired hbuilt after with ⟨hanswers, hend⟩
    rcases journals_performAll (w := w) hwired after with ⟨hstays, hothers⟩
    rw [← ht] at hend hstays hothers
    refine ⟨?_, hend, hstays, hstays.isReady, hothers, tellsOnly_of_wiredTo hstays⟩
    rw [hrun, hanswers]

/-- One archive is surveyed by three campaigns: without a receiver, for the receiver 1,
    and for that one still when 0 is bound as well. -/
example :
    let w : Setting Nat :=
      { site :=
          { disk := Disk.put ⟨[], ["home"]⟩ ["home", "a.jar"] (.file ⟨#[80, 75, 5, 6, 0, 0, 0, 0,
              0, 0, 0, 0, 0, 0, 0, 0, 0, 0, 0, 0, 0, 0]⟩)
            clock := id }
        scene := { sources := fun _ => { offer := .items [some "file:a.jar"] }, extra := [some 0] }
        receivers := fun _ => .willing }
    let s : Service Nat := { memory := { store := ⟨100, 2, []⟩ }, cadence := { repeats := false } }
    let t := (performAll w s
      [.campaign (.ok 0), .bind 1, .campaign (.ok 0), .bind 0, .campaign (.ok 0)]).2
    ((t.journals 1).events.length, (t.journals 0).log.length) = (2, 0) := by
  decide +kernel

end Service

end ArchiveCensus
