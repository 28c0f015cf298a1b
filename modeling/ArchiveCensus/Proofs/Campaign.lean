import ArchiveCensus.Campaign
import ArchiveCensus.Proofs.Correlation
import ArchiveCensus.Proofs.Delivery

/-!
# What a Campaign Delivers

A campaign meets one of three situations, and they differ in the boundary that
its events belong to: one of its own, one that somebody else opened, or none
because the receiver would not start one. What happens to the records is the
same in all three.

Each situation gets its own lemma, which says what the whole log is afterwards.
They rest on a receiver that is `Steady`: it may refuse to start a boundary, and
it may refuse any event, but it grants what is said about a boundary that is
there. For such a receiver opening, describing and closing have one outcome
each, and all that the receiver decides is which events arrive.

## Main definitions

* `Receiver.Steady`: Nothing that is said about a boundary is refused.
* `Journal.granting`: What a journal becomes when a request is granted.
* `closedBoundary`: What a receiver keeps of a campaign's own boundary.
* `taking`: A receiver that takes so many events and no more.

## Theorems

* `enter_of_started`, `enter_of_unstarted`: Asking for a boundary while none is
  open.
* `tell_of_steady`, `close_of_steady`: The two halves of a campaign with a
  boundary of its own.
* `run_of_started`: A campaign with a boundary of its own.
* `run_of_open`: A campaign that joins an open boundary.
* `run_of_unstarted`: A campaign that gets no boundary.
* `run_delivers`: What arrives, what is counted, and what it belongs to.
-/

namespace ArchiveCensus

/-- Nothing that is said about a boundary is refused. Starting one may be, and so
    may any event. -/
structure Receiver.Steady (w : Receiver) : Prop where
  set : ∀ j b key value, w.respond j (.set b key value) = .granted
  finish : ∀ j b, w.respond j (.finish b) = .granted

namespace Journal

/-- What a journal becomes when a request is granted. -/
def granting (j : Journal) (r : Request) : Journal :=
  (j.note r .granted).grant r

theorem ask_of_granted {w : Receiver} {j : Journal} {r : Request}
    (h : w.respond j r = .granted) : j.ask w r = (true, j.granting r) := by
  unfold ask
  rw [h]
  rfl

@[simp] theorem log_granting (j : Journal) (r : Request) :
    (j.granting r).log = j.log ++ [Exchange.granted r] := by
  rw [granting, log_grant]
  rfl

theorem log_foldl_granting (j : Journal) (rs : List Request) :
    (rs.foldl granting j).log = j.log ++ rs.map Exchange.granted := by
  induction rs generalizing j with
  | nil => exact (List.append_nil _).symm
  | cons r rest ih =>
      rw [List.foldl_cons, ih, log_granting, List.append_assoc]
      rfl

end Journal

namespace Correlation

theorem ask_of_granted {w : Receiver} {c : Correlation} {r : Request}
    (h : w.respond c.journal r = .granted) :
    c.ask w r = (true, { c with journal := c.journal.granting r }) := by
  unfold ask
  rw [Journal.ask_of_granted h]

variable {w : Receiver}

theorem enter_of_started (hw : w.Steady) (trigger : Value) {c : Correlation}
    (h : c.isOpen = false) (hs : w.respond c.journal .start = .granted) :
    let b := c.journal.boundaries.length
    ∃ c', c.enter w trigger = (some b, true, c') ∧
      c'.journal = (opening b trigger).foldl .granting c.journal ∧
      c'.isOpen = true ∧ c'.current = some b := by
  intro b
  refine ⟨{ c with
    isOpen := true
    current := some b
    journal := (opening b trigger).foldl .granting c.journal }, ?_, rfl, rfl, rfl⟩
  unfold enter opening
  rw [if_neg (by simp only [h, Bool.false_eq_true, not_false_eq_true])]
  simp only [askAll, ask_of_granted (c := { c with isOpen := true }) hs, ask_of_granted (hw.set ..),
    if_true, List.foldl_cons, List.foldl_nil]
  rfl

-- Nothing is opened if the start is not granted, also if it had its effect.
theorem enter_of_unstarted (trigger : Value) {c : Correlation} (h : c.isOpen = false)
    (hs : (w.respond c.journal .start).isGranted = false) :
    ∃ c', c.enter w trigger = (none, false, c') ∧
      c'.journal = (c.journal.ask w .start).2 ∧ c'.isOpen = false ∧ c'.current = c.current := by
  have hask : ({ c with isOpen := true } : Correlation).ask w .start =
      (false, { c with isOpen := true, journal := (c.journal.ask w .start).2 }) :=
    Prod.ext hs rfl
  refine ⟨{ c with isOpen := false, journal := (c.journal.ask w .start).2 }.say
    (.error "context.begin_failed"), ?_, rfl, rfl, rfl⟩
  unfold enter opening
  rw [if_neg (by simp only [h, Bool.false_eq_true, not_false_eq_true])]
  simp only [askAll, hask, Bool.false_eq_true, if_false]

theorem leave_of_steady (hw : w.Steady) {c : Correlation} {b : Nat} (h : c.current = some b) :
    (c.leave w).journal = c.journal.granting (.finish b) := by
  unfold leave
  rw [h]
  simp only [ask_of_granted (hw.finish ..), if_true]

end Correlation

namespace Campaign

open Correlation Delivery

/-- What a receiver keeps of a campaign's own boundary once it is closed. -/
def closedBoundary (count : Nat) (duration : Int) : Boundary where
  attributes := [(typeKey, .text scanType), (triggerKey, ownTrigger), (countKey, .int count),
    (durationKey, .int duration)]
  ended := true

theorem run_of_enter_own (w : Receiver) (maker : PackageUrl.Maker) (records : List Record)
    (elapsed : Except Fault Int) {c c₁ : Correlation} {b : Nat}
    (h : (c.say (.info "processor.campaign_started")).enter w ownTrigger = (some b, true, c₁)) :
    run w maker records elapsed c = runOwn w maker records elapsed b c₁ := by
  unfold run
  dsimp only
  rw [h]

theorem run_of_enter_joined (w : Receiver) (maker : PackageUrl.Maker) (records : List Record)
    (elapsed : Except Fault Int) {c c₁ : Correlation} {b : Option Nat}
    (h : (c.say (.info "processor.campaign_started")).enter w ownTrigger = (b, false, c₁)) :
    run w maker records elapsed c =
      (.ok (runJoined w maker records b.isSome c₁).1,
        (runJoined w maker records b.isSome c₁).2) := by
  unfold run
  dsimp only
  rw [h]
  cases b <;> rfl

-- A boundary that was started last is changed where it stands.
theorem modify_concat {α : Type} (l : List α) (x : α) (f : α → α) :
    (l ++ [x]).modify l.length f = l ++ [f x] := by
  rw [List.modify_eq_take_drop, List.take_left, List.drop_left]
  rfl

variable {w : Receiver} (maker : PackageUrl.Maker) (records : List Record)

theorem runJoined_offers (correlated : Bool) (c : Correlation) :
    ∃ answers c', answers.length = records.length ∧
      runJoined w maker records correlated c =
        (⟨records.length, (accepted records answers).length, 0, correlated⟩, c') ∧
      c'.journal.log = c.journal.log ++ offers maker c.parent records answers ∧
      c'.journal.boundaries = c.journal.boundaries ∧
      c'.isOpen = c.isOpen ∧ c'.current = c.current ∧
      ((∀ a ∈ answers, a ≠ .grudged) → c'.journal.events = c.journal.events ++
        (accepted records answers).map fun r => ((Event.ofRecord maker r).1, c.parent)) := by
  rcases deliverAll_offers w maker records c with ⟨answers, hlen, hlog, hnum, hbound, hkept⟩
  refine ⟨answers, _, hlen, ?_, hlog, hbound, isOpen_deliverAll .., current_deliverAll .., hkept⟩
  unfold runJoined
  rw [← hnum]

/-- A campaign that joins an open boundary makes its offers under it and no other
    request. -/
theorem run_of_open (elapsed : Except Fault Int) {c : Correlation} (h : c.isOpen = true) :
    ∃ answers c', answers.length = records.length ∧
      run w maker records elapsed c =
        (.ok ⟨records.length, (accepted records answers).length, 0, c.current.isSome⟩, c') ∧
      c'.journal.log = c.journal.log ++ offers maker c.current records answers ∧
      c'.journal.boundaries = c.journal.boundaries ∧
      c'.isOpen = true ∧ c'.current = c.current ∧
      ((∀ a ∈ answers, a ≠ .grudged) → c'.journal.events = c.journal.events ++
        (accepted records answers).map fun r => ((Event.ofRecord maker r).1, c.current)) := by
  have hparent : (c.say (.info "processor.campaign_started")).parent = c.current := by
    rw [parent, isOpen_say, h, if_pos rfl, current_say]
  rcases runJoined_offers maker records c.current.isSome
    (c.say (.info "processor.campaign_started"))
    with ⟨answers, c', hlen, hrun, hlog, hbound, hopen, hcur, hkept⟩
  rw [hparent] at hlog hkept
  refine ⟨answers, c', hlen, ?_, hlog, hbound, hopen.trans h, hcur, hkept⟩
  rw [run_of_enter_joined w maker records elapsed (enter_of_open w ownTrigger
    (c := c.say (.info "processor.campaign_started")) h), current_say, hrun]

/-- A campaign whose boundary is not started makes its offers under none. -/
theorem run_of_unstarted (elapsed : Except Fault Int) {c : Correlation} (h : c.isOpen = false)
    (hs : (w.respond c.journal .start).isGranted = false) :
    ∃ answers c', answers.length = records.length ∧
      run w maker records elapsed c =
        (.ok ⟨records.length, (accepted records answers).length, 0, false⟩, c') ∧
      c'.journal.log = c.journal.log ++
        (⟨.start, w.respond c.journal .start⟩ :: offers maker none records answers) ∧
      c'.journal.boundaries = (c.journal.ask w .start).2.boundaries ∧
      c'.isOpen = false ∧ c'.current = c.current ∧
      ((∀ a ∈ answers, a ≠ .grudged) → c'.journal.events = c.journal.events ++
        (accepted records answers).map fun r => ((Event.ofRecord maker r).1, none)) := by
  rcases enter_of_unstarted ownTrigger (c := c.say (.info "processor.campaign_started")) h hs
    with ⟨c₁, henter, hj₁, hdown, hcur₁⟩
  have hparent : c₁.parent = none := by
    rw [parent, hdown, if_neg Bool.false_ne_true]
  have hevents : c₁.journal.events = c.journal.events := by
    rw [hj₁]
    unfold Journal.ask
    dsimp only
    split <;> rfl
  rcases runJoined_offers maker records false c₁
    with ⟨answers, c', hlen, hrun, hlog, hbound, hopen, hcur, hkept⟩
  rw [hparent] at hlog hkept
  refine ⟨answers, c', hlen, ?_, ?_, ?_, hopen.trans hdown, hcur.trans hcur₁, ?_⟩
  · rw [run_of_enter_joined w maker records elapsed henter, Option.isSome_none, hrun]
  · rw [hlog, hj₁, Journal.log_ask, List.append_assoc]
    rfl
  · rw [hbound, hj₁]
    rfl
  · rw [← hevents]
    exact hkept

-- What arrives can be told from what is offered.
theorem arrivals_of_offers_eq {maker : PackageUrl.Maker} {parent : Option Nat}
    {records : List Record} {answers : List Response} {l l' : Log}
    (h : l'.offers = l.offers ++ offers maker parent records answers) :
    l'.arrivals = l.arrivals ++
      (accepted records answers).map fun r => ((Event.ofRecord maker r).1, parent) := by
  rw [← Log.arrivals_of_offers, h, Log.arrivals_append, Log.arrivals_of_offers, arrivals_offers]

section Steady

variable (hw : w.Steady) (n : Int)

include hw

theorem tell_of_steady (b : Nat) (c : Correlation) :
    ∃ answers c', answers.length = records.length ∧
      tell w maker records b c = (some (accepted records answers).length, c') ∧
      c'.journal.log = c.journal.log ++ (Exchange.granted (.set b countKey (.int records.length)) ::
        offers maker c.parent records answers) ∧
      c'.journal.boundaries =
        (c.journal.granting (.set b countKey (.int records.length))).boundaries ∧
      c'.isOpen = c.isOpen ∧ c'.current = c.current ∧
      ((∀ a ∈ answers, a ≠ .grudged) → c'.journal.events = c.journal.events ++
        (accepted records answers).map fun r => ((Event.ofRecord maker r).1, c.parent)) := by
  rcases deliverAll_offers w maker records
    { c with journal := c.journal.granting (.set b countKey (.int records.length)) }
    with ⟨answers, hlen, hlog, hnum, hbound, hkept⟩
  refine ⟨answers, _, hlen, ?_, ?_, hbound, isOpen_deliverAll .., current_deliverAll .., hkept⟩
  · unfold tell
    rw [ask_of_granted (hw.set ..), ← hnum]
    rfl
  · rw [hlog, Journal.log_granting, List.append_assoc]
    rfl

theorem close_of_steady {b : Nat} {c : Correlation} (h : c.current = some b) :
    ∃ c', close w (.ok n) b c = (.ok n, c') ∧
      c'.journal = (c.journal.granting (.set b durationKey (.int n))).granting (.finish b) ∧
      c'.isOpen = false ∧ c'.current = none := by
  refine ⟨_, ?_, leave_of_steady hw (c := { c with
    journal := c.journal.granting (.set b durationKey (.int n)) }) h, isOpen_leave ..,
    current_leave ..⟩
  unfold close
  dsimp only
  rw [ask_of_granted (hw.set ..)]
  simp only [if_true]

/-- A campaign with a boundary of its own says everything about it and closes it
    after the last event. -/
theorem run_of_started {c : Correlation} (h : c.isOpen = false)
    (hs : w.respond c.journal .start = .granted) :
    let b := c.journal.boundaries.length
    ∃ answers c', answers.length = records.length ∧
      run w maker records (.ok n) c =
        (.ok ⟨records.length, (accepted records answers).length, n, true⟩, c') ∧
      c'.journal.log = c.journal.log ++
        ((opening b ownTrigger ++ [Request.set b countKey (.int records.length)]).map
            Exchange.granted ++
          offers maker (some b) records answers ++
          [Request.set b durationKey (.int n), .finish b].map Exchange.granted) ∧
      c'.journal.boundaries = c.journal.boundaries ++ [closedBoundary records.length n] ∧
      c'.isOpen = false ∧ c'.current = none ∧
      ((∀ a ∈ answers, a ≠ .grudged) → c'.journal.events = c.journal.events ++
        (accepted records answers).map fun r => ((Event.ofRecord maker r).1, some b)) := by
  intro b
  have henter : ∃ c₁, (c.say (.info "processor.campaign_started")).enter w ownTrigger =
      (some b, true, c₁) ∧ c₁.journal = (opening b ownTrigger).foldl .granting c.journal ∧
      c₁.isOpen = true ∧ c₁.current = some b :=
    enter_of_started hw ownTrigger (c := c.say (.info "processor.campaign_started")) h hs
  rcases henter with ⟨c₁, henter, hj₁, hopen, hcur⟩
  have hparent : c₁.parent = some b := by rw [parent, hopen, if_pos rfl, hcur]
  rcases tell_of_steady maker records hw b c₁
    with ⟨answers, c₂, hlen, htell, hlog, hbound, hopen₂, hcur₂, hkept⟩
  rcases close_of_steady hw n (hcur₂.trans hcur) with ⟨c₃, hclose, hj₃, hdown, hnone⟩
  rw [hparent] at hlog hkept
  rw [hj₁] at hlog hbound hkept
  -- Opening, telling and closing follow one another, so their logs are joined.
  refine ⟨answers, c₃, hlen, ?_, ?_, ?_, hdown, hnone, ?_⟩
  · rw [run_of_enter_own w maker records (.ok n) henter]
    unfold runOwn
    rw [htell]
    dsimp only
    rw [hclose]
    rfl
  · rw [hj₃, Journal.log_granting, Journal.log_granting, hlog, Journal.log_foldl_granting]
    simp only [List.map_append, List.map_cons, List.map_nil, List.append_assoc, List.cons_append,
      List.nil_append]
  · -- The boundary is the last of the list while all four attributes are given.
    rw [hj₃]
    simp only [Journal.granting, Journal.note, Journal.grant, hbound, opening, List.foldl_cons,
      List.foldl_nil]
    rw [modify_concat, modify_concat, modify_concat, modify_concat, modify_concat]
    rfl
  · intro hall
    rw [hj₃]
    exact hkept hall

/-- What comes of a campaign, whatever was open before and whichever events are
    refused. Each record is offered once, those that are accepted arrive, with
    the package URL made for them, and nothing else arrives. A campaign that
    starts a boundary is alone with it and closes it; one that finds a boundary
    open leaves it as it was; and if none can be started, the events belong to
    nothing. -/
theorem run_delivers (c : Correlation) :
    ∃ answers parent report c', run w maker records (.ok n) c = (.ok report, c') ∧
      answers.length = records.length ∧
      c'.journal.log.offers = c.journal.log.offers ++ offers maker parent records answers ∧
      c'.journal.log.arrivals = c.journal.log.arrivals ++
        (accepted records answers).map (fun r => ((Event.ofRecord maker r).1, parent)) ∧
      (∀ r, (Event.ofRecord maker r).1.purl = (maker.generate (some r)).1) ∧
      ((∀ a ∈ answers, a ≠ .grudged) → c'.journal.events = c.journal.events ++
        (accepted records answers).map fun r => ((Event.ofRecord maker r).1, parent)) ∧
      report.discovered = records.length ∧
      report.emitted = (accepted records answers).length ∧
      report.correlated = parent.isSome ∧
      (c.isOpen = false → w.respond c.journal .start = .granted →
        parent = some c.journal.boundaries.length ∧
        c'.journal.log.starts = c.journal.log.starts + 1 ∧
        c'.journal.boundaries = c.journal.boundaries ++ [closedBoundary records.length n] ∧
        c'.journal.log.getLast? = some (Exchange.granted (.finish c.journal.boundaries.length)) ∧
        c'.isOpen = false ∧ c'.current = none) ∧
      (c.isOpen = true →
        parent = c.current ∧
        c'.journal.log.starts = c.journal.log.starts ∧
        (∀ b, c'.journal.log.endings b = c.journal.log.endings b) ∧
        c'.journal.boundaries = c.journal.boundaries ∧
        c'.isOpen = true ∧ c'.current = c.current) ∧
      (c.isOpen = false → w.respond c.journal .start ≠ .granted →
        parent = none ∧ c'.isOpen = false) := by
  cases hopen : c.isOpen with
  | true =>
      rcases run_of_open (w := w) maker records (.ok n) hopen
        with ⟨answers, c', hlen, hrun, hlog, hbound, hup, hcur, hkept⟩
      have hoffers : c'.journal.log.offers =
          c.journal.log.offers ++ offers maker c.current records answers := by
        rw [hlog, Log.offers_append, offers_offers]
      refine ⟨answers, c.current, _, c', hrun, hlen, hoffers, arrivals_of_offers_eq hoffers,
        fun _ => rfl, hkept, rfl, rfl, rfl, fun h => absurd h Bool.noConfusion, fun _ => ?_,
        fun h => absurd h Bool.noConfusion⟩
      refine ⟨rfl, ?_, fun b => ?_, hbound, hup, hcur⟩
      · rw [hlog, Log.starts_append, starts_offers, Nat.add_zero]
      · rw [hlog, Log.endings_append, endings_offers, Nat.add_zero]
  | false =>
      by_cases hs : w.respond c.journal .start = .granted
      · rcases run_of_started maker records hw n hopen hs
          with ⟨answers, c', hlen, hrun, hlog, hbound, hdown, hnone, hkept⟩
        have hoffers : c'.journal.log.offers = c.journal.log.offers ++
            offers maker (some c.journal.boundaries.length) records answers := by
          rw [hlog, Log.offers_append, Log.offers_append, Log.offers_append, offers_offers]
          exact congrArg _ (List.append_nil _)
        refine ⟨answers, _, _, c', hrun, hlen, hoffers, arrivals_of_offers_eq hoffers,
          fun _ => rfl, hkept, rfl, rfl, rfl, fun _ _ => ?_, fun h => absurd h Bool.noConfusion,
          fun _ h => absurd hs h⟩
        refine ⟨rfl, ?_, hbound, ?_, hdown, hnone⟩
        · rw [hlog, Log.starts_append, Log.starts_append, Log.starts_append, starts_offers]
          rfl
        · rw [hlog, List.getLast?_append, List.getLast?_append]
          rfl
      · -- A complaint counts as a refusal, whatever the receiver did.
        have hno : (w.respond c.journal .start).isGranted = false := by
          rw [← Bool.not_eq_true, isGranted_eq_true_iff]
          exact hs
        rcases run_of_unstarted maker records (.ok n) hopen hno
          with ⟨answers, c', hlen, hrun, hlog, _, hdown, _, hkept⟩
        have hoffers : c'.journal.log.offers =
            c.journal.log.offers ++ offers maker none records answers := by
          rw [hlog, Log.offers_append, Log.offers_cons, offers_offers]
          rfl
        exact ⟨answers, none, _, c', hrun, hlen, hoffers, arrivals_of_offers_eq hoffers,
          fun _ => rfl, hkept, rfl, rfl, rfl, fun _ h => absurd h hs,
          fun h => absurd h Bool.noConfusion, fun _ _ => ⟨rfl, hdown⟩⟩

end Steady

/-- A receiver that takes `limit` events and no more. -/
def taking (limit : Nat) : Receiver :=
  ⟨fun j r => if r.isRecord && limit ≤ j.events.length then .refused else .granted⟩

theorem steady_taking (limit : Nat) : (taking limit).Steady where
  set := fun _ _ _ _ => rfl
  finish := fun _ _ => rfl

/-- The second of two records is refused; both are counted on the boundary, and
    it is closed all the same. -/
theorem run_delivers_one_of_two :
    ∃ answers report c', run (taking 1) {} [{}, {}] (.ok 7) {} = (.ok report, c') ∧
      answers.length = 2 ∧ report.discovered = 2 ∧ report.emitted = 1 ∧
      (accepted [{}, {}] answers).length = 1 ∧ report.correlated = true ∧
      c'.journal.boundaries = [closedBoundary 2 7] ∧ c'.isOpen = false := by
  rcases run_delivers {} [{}, {}] (steady_taking 1) 7 {} with
    ⟨answers, parent, report, c', hrun, hlen, _, _, _, _, hdiscovered, hemitted, hcorrelated,
      hstarted, _, _⟩
  rcases hstarted rfl rfl with ⟨hparent, _, hbound, _, hdown, _⟩
  have hfst : (run (taking 1) {} [{}, {}] (.ok 7) {}).1 = .ok ⟨2, 1, 7, true⟩ := rfl
  have hone : report.emitted = 1 := by
    rw [hrun] at hfst
    rw [Except.ok.inj hfst]
  refine ⟨answers, report, c', hrun, hlen, hdiscovered, hone, hemitted ▸ hone, ?_, hbound, hdown⟩
  rw [hcorrelated, hparent]
  rfl

end Campaign

end ArchiveCensus
