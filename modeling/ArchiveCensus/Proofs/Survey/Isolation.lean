import ArchiveCensus.Proofs.Survey.Transparency

/-!
# A Scan Finds All That Can Be Found

A scan starts from sources of four kinds and passes along which ones it asked
already. A source may turn up in several of these roles, and in the chains of
other sources' parents; chains may run into each other, close in a circle, or
never end. Whatever fails on the way costs what failed and nothing else.

So the records of a scan are told without following it: they are the records of
all URLs of all sources that can be reached and that give their lists. `Reachable`
says which sources these are, and it speaks of no order and of no source that was
passed over. The step to it is `Covers`: asking more sources adds exactly the
records of those that were not asked before, and passing one over loses nothing,
as its records were found when it was asked, while its parents are still
followed.

This needs that every source can be asked, for its list as for its parent. A
source may have no list, and may fail to give it. For a single chain it is enough
that its own sources can be asked (`chainFrom_covers`), and of them only the parent
matters of those that were asked before.

## Main definitions

* `Readable`: Every source can be asked.
* `Askable`: One source can be asked, by a scan that has asked some before.
* `ancestor`, `Scene.Reachable`: The sources that a scan gets to.
* `Gives`: The records that a source makes available, location by location.
* `Covers`: What asking some more sources has to give.

## Theorems

* `Covers.append`: Asking some and then others is asking all of them.
* `source_covers`, `chainFrom_covers`, `inTurn_covers`: Every way of asking
  covers the sources that it is about.
* `mem_scanAll_iff`: The records of a whole scan.
-/

namespace ArchiveCensus

namespace Survey

/-- Every source can be asked whether it has a list, and for its parent. -/
structure Readable (sources : Sources) : Prop where
  offer : ∀ id, (sources id).offer ≠ .unreadable
  parent : ∀ id, (sources id).parent ≠ .unreadable

/-- A scan that has asked the sources `visited` can look up the parent of the source,
    and whether it has a list if that is still to be asked. -/
structure Askable (sources : Sources) (visited : List SourceId) (id : SourceId) : Prop where
  offer : id ∉ visited → (sources id).offer ≠ .unreadable
  parent : (sources id).parent ≠ .unreadable

/-- The parent of a source, if it has one. -/
def parentOf (sources : Sources) (id : SourceId) : Option SourceId :=
  match (sources id).parent with
  | .parent next => some next
  | .root | .unreadable => none

/-- The parent of the parent and so on, `n` times. -/
def ancestor (sources : Sources) : Nat → Option SourceId → Option SourceId
  | 0, id => id
  | n + 1, id => ancestor sources n (id.bind (parentOf sources))

/-- The sources that a scan gets to: the one of the process, those of the running
    threads, and the extra ones with their parents, so many of them in each
    chain. -/
inductive Scene.Reachable (c : Scene) (id : SourceId) : Prop
  | system (h : c.system = .source id)
  | own (h : c.roster.sourceOf c.caller = some id)
  | other {thread : ThreadId} {name : Text} (h : (thread, name, some id) ∈ c.roster.running)
      (hother : thread ≠ c.caller)
  | extra {start : Option SourceId} {n : Nat} (h : start ∈ c.extra) (hn : n < longestChain)
      (hid : ancestor c.sources n start = some id)

/-- The record is that of one of the URLs that the source lists. -/
def Gives (w : Surroundings) (sources : Sources) (id : SourceId) (r : Record) : Prop :=
  ∃ urls, (sources id).offer = .items urls ∧
    ∃ u, some u ∈ urls ∧ Afresh.url w u = .ok (some r)

/-- Asking the sources `P` has found what it has to, if the sources `before` were
    asked before: all these sources are asked now, and the records are those of
    the ones among them that were not. -/
structure Covers (w : Surroundings) (sources : Sources) (P : SourceId → Prop)
    (before : List SourceId) (found : Finset Record) (after : List SourceId) : Prop where
  asked : ∀ id, id ∈ after ↔ id ∈ before ∨ P id
  found : ∀ r, r ∈ found ↔ ∃ id, P id ∧ id ∉ before ∧ Gives w sources id r

variable {w : Surroundings} {sources : Sources} {P Q : SourceId → Prop}
  {before between after : List SourceId} {found more : Finset Record}

theorem covers_none : Covers w sources (fun _ => False) before ∅ before :=
  ⟨fun _ => (or_iff_left not_false).symm, fun _ =>
    ⟨fun h => absurd h (Finset.notMem_empty _), fun ⟨_, h, _⟩ => h.elim⟩⟩

theorem Covers.congr (h : Covers w sources P before found after) (hPQ : ∀ id, P id ↔ Q id) :
    Covers w sources Q before found after := by
  have hsame : P = Q := funext fun id => propext (hPQ id)
  exact hsame ▸ h

/-- Asking some and then others is asking all of them: what was asked before the
    others is passed over, and has been found. -/
theorem Covers.append (h : Covers w sources P before found between)
    (h' : Covers w sources Q between more after) :
    Covers w sources (fun id => P id ∨ Q id) before (found ∪ more) after := by
  refine ⟨fun id => ?_, fun r => ?_⟩
  · rw [h'.asked, h.asked, or_assoc]
  · rw [Finset.mem_union, h.found, h'.found]
    constructor
    · rintro (⟨id, hP, hnew, hr⟩ | ⟨id, hQ, hnew, hr⟩)
      · exact ⟨id, Or.inl hP, hnew, hr⟩
      · exact ⟨id, Or.inr hQ, fun hb => hnew ((h.asked id).mpr (Or.inl hb)), hr⟩
    · rintro ⟨id, hP | hQ, hnew, hr⟩
      · exact Or.inl ⟨id, hP, hnew, hr⟩
      · by_cases hP : P id
        · exact Or.inl ⟨id, hP, hnew, hr⟩
        · exact Or.inr ⟨id, hQ, fun hb => ((h.asked id).mp hb).elim hnew hP, hr⟩

theorem Readable.askable (hs : Readable sources) (before : List SourceId) (id : SourceId) :
    Askable sources before id :=
  ⟨fun _ => hs.offer id, hs.parent id⟩

theorem Askable.mono {visited visited' : List SourceId} {id : SourceId}
    (h : Askable sources visited id) (hsub : visited ⊆ visited') : Askable sources visited' id where
  offer := fun hnew => h.offer fun hold => hnew (hsub hold)
  parent := h.parent

theorem source_covers {id : SourceId} (h : id ∉ before → (sources id).offer ≠ .unreadable) :
    ∃ found after, Afresh.source w sources id before = (.ok found, after) ∧
      Covers w sources (fun x => x = id) before found after := by
  unfold Afresh.source
  by_cases hid : id ∈ before
  · -- Passed over: nothing is found, and nothing had to be.
    refine ⟨∅, before, if_pos hid, fun x => ?_, fun r => ?_⟩
    · exact ⟨Or.inl, fun h => h.elim (fun h => h) fun h => h ▸ hid⟩
    · refine ⟨fun h => absurd h (Finset.notMem_empty _), ?_⟩
      rintro ⟨x, rfl, hnew, _⟩
      exact absurd hid hnew
  · have hoffered : ∃ found, Afresh.offered w sources id = .ok found ∧
        ∀ r, r ∈ found ↔ Gives w sources id r := by
      have hno : ∀ {o : Offer}, (sources id).offer = o → (∀ urls, o ≠ .items urls) →
          ∀ r, r ∈ (∅ : Finset Record) ↔ Gives w sources id r := by
        intro o ho hnot r
        refine ⟨fun h => absurd h (Finset.notMem_empty _), ?_⟩
        rintro ⟨urls, hurls, _⟩
        exact absurd (ho.symm.trans hurls) (hnot urls)
      unfold Afresh.offered
      cases ho : (sources id).offer with
      | nothing => exact ⟨∅, rfl, hno ho fun _ => Offer.noConfusion⟩
      | unreadable => exact absurd ho (h hid)
      | failing => exact ⟨∅, rfl, hno ho fun _ => Offer.noConfusion⟩
      | items urls =>
          refine ⟨Afresh.items w urls, rfl, fun r => ?_⟩
          rw [Afresh.mem_items, Gives, ho]
          simp only [Offer.items.injEq, exists_eq_left']
    rcases hoffered with ⟨found, hfound, hgives⟩
    refine ⟨found, id :: before, by rw [if_neg hid, hfound], fun x => ?_, fun r => ?_⟩
    · rw [List.mem_cons, or_comm]
    · rw [hgives]
      exact ⟨fun h => ⟨id, rfl, hid, h⟩, fun ⟨x, hx, _, h⟩ => hx ▸ h⟩

theorem sourceIf_covers (hs : Readable sources) (id : Option SourceId) (before : List SourceId) :
    ∃ found after, Afresh.sourceIf w sources id before = (.ok found, after) ∧
      Covers w sources (fun x => id = some x) before found after := by
  cases id with
  | none => exact ⟨∅, before, rfl, covers_none.congr fun x => by simp only [reduceCtorEq]⟩
  | some id =>
      rcases source_covers (w := w) (hs.askable before id).offer with ⟨found, after, heq, hcov⟩
      exact ⟨found, after, heq, hcov.congr fun x => by rw [Option.some.injEq, eq_comm]⟩

theorem ancestor_none (sources : Sources) (n : Nat) : ancestor sources n none = none := by
  induction n with
  | zero => rfl
  | succ n ih => exact ih

theorem exists_ancestor_some_iff (sources : Sources) (fuel : Nat) (id x : SourceId) :
    (∃ n < fuel + 1, ancestor sources n (some id) = some x) ↔
      x = id ∨ ∃ n < fuel, ancestor sources n (parentOf sources id) = some x := by
  rw [Nat.exists_lt_succ_left, ancestor, Option.some.injEq, eq_comm]
  rfl

theorem not_exists_ancestor_none (sources : Sources) (fuel : Nat) (x : SourceId) :
    (∃ n < fuel, ancestor sources n none = some x) ↔ False := by
  simp only [ancestor_none, reduceCtorEq, and_false, exists_false]

-- A chain goes on behind a source that was passed over just as behind any other.
theorem chainFrom_covers (fuel : Nat) (id : Option SourceId) (before : List SourceId)
    (h : ∀ x, (∃ n < fuel, ancestor sources n id = some x) → Askable sources before x) :
    ∃ found after, Afresh.chainFrom w sources fuel id before = (.ok found, after) ∧
      Covers w sources (fun x => ∃ n < fuel, ancestor sources n id = some x) before found
        after := by
  induction fuel generalizing id before with
  | zero =>
      refine ⟨∅, before, by cases id <;> rfl, covers_none.congr fun x => ?_⟩
      simp only [Nat.not_lt_zero, false_and, exists_false]
  | succ fuel ih =>
      cases id with
      | none =>
          exact ⟨∅, before, rfl, covers_none.congr fun x =>
            (not_exists_ancestor_none sources _ x).symm⟩
      | some id =>
          have hhere := h id ((exists_ancestor_some_iff sources fuel id id).mpr (Or.inl rfl))
          rcases source_covers (w := w) hhere.offer with ⟨found, between, hone, hfound⟩
          have hgrow : before ⊆ between := fun x hx => (hfound.asked x).mpr (Or.inl hx)
          rw [Afresh.chainFrom, hone]
          cases hparent : (sources id).parent with
          | root =>
              have hnone : parentOf sources id = none := by rw [parentOf, hparent]
              refine ⟨found, between, rfl, hfound.congr fun x => ?_⟩
              rw [exists_ancestor_some_iff, hnone, not_exists_ancestor_none, or_false]
          | unreadable => exact absurd hparent hhere.parent
          | parent next =>
              have hsome : parentOf sources id = some next := by rw [parentOf, hparent]
              have hrest : ∀ x, (∃ n < fuel, ancestor sources n (some next) = some x) →
                  Askable sources between x := by
                refine fun x hx => (h x ?_).mono hgrow
                rw [exists_ancestor_some_iff, hsome]
                exact Or.inr hx
              rcases ih (some next) between hrest with ⟨more, after, habove, hmore⟩
              refine ⟨found ∪ more, after, ?_, (hfound.append hmore).congr fun x => ?_⟩
              · simp only [habove]
                rfl
              · rw [exists_ancestor_some_iff, hsome]

theorem inTurn_covers {ask : Option SourceId → List SourceId → Afresh.Outcome × List SourceId}
    {P : Option SourceId → SourceId → Prop}
    (hask : ∀ id before, ∃ found after, ask id before = (.ok found, after) ∧
      Covers w sources (P id) before found after)
    (ids : List (Option SourceId)) (before : List SourceId) :
    ∃ found after, Afresh.inTurn ask ids before = (found, none, after) ∧
      Covers w sources (fun x => ∃ id ∈ ids, P id x) before found after := by
  induction ids generalizing before with
  | nil =>
      refine ⟨∅, before, rfl, covers_none.congr fun x => ?_⟩
      simp only [List.not_mem_nil, false_and, exists_false]
  | cons id rest ih =>
      rcases hask id before with ⟨found, between, hone, hfound⟩
      rcases ih between with ⟨more, after, hrest, hmore⟩
      refine ⟨found ∪ more, after, ?_, (hfound.append hmore).congr fun x => ?_⟩
      · rw [Afresh.inTurn, hone]
        simp only [hrest]
      · simp only [List.mem_cons, exists_eq_or_imp]

theorem system_covers {c : Scene} (hs : Readable c.sources) (before : List SourceId) :
    ∃ found after, Afresh.system w c before = (.ok found, after) ∧
      Covers w c.sources (fun x => c.system = .source x) before found after := by
  unfold Afresh.system
  cases c.system with
  | absent => exact ⟨∅, before, rfl, covers_none.congr fun x => by simp only [reduceCtorEq]⟩
  | failing => exact ⟨∅, before, rfl, covers_none.congr fun x => by simp only [reduceCtorEq]⟩
  | source id =>
      rcases source_covers (w := w) (hs.askable before id).offer with ⟨found, after, heq, hcov⟩
      exact ⟨found, after, heq, hcov.congr fun x => by
        rw [SystemSource.source.injEq, eq_comm]⟩

/-- The sources that are asked in one of the four roles are those that a scan
    gets to. A thread with the same source as the scanning one is not asked, and
    need not be. -/
theorem reachable_iff (c : Scene) (id : SourceId) :
    (((c.system = .source id ∨ c.roster.sourceOf c.caller = some id) ∨
          ∃ x ∈ othersOf c, x = some id) ∨
        ∃ start ∈ c.extra, ∃ n < longestChain, ancestor c.sources n start = some id) ↔
      c.Reachable id := by
  constructor
  · rintro (((h | h) | ⟨x, hx, rfl⟩) | ⟨start, hstart, n, hn, hid⟩)
    · exact .system h
    · exact .own h
    · rcases List.mem_map.mp hx with ⟨⟨thread, name, source⟩, hmem, rfl⟩
      rcases List.mem_filter.mp hmem with ⟨hrunning, hkept⟩
      rw [Bool.and_eq_true, decide_eq_true_eq] at hkept
      exact .other hrunning hkept.1
    · exact .extra hstart hn hid
  · intro h
    cases h with
    | system h => exact Or.inl (Or.inl (Or.inl h))
    | own h => exact Or.inl (Or.inl (Or.inr h))
    | @other thread name h hother =>
        -- Threads that share the caller's source are left out, as it was asked for the caller.
        by_cases hsame : c.roster.sourceOf c.caller = some id
        · exact Or.inl (Or.inl (Or.inr hsame))
        · refine Or.inl (Or.inr ⟨some id, List.mem_map.mpr ⟨(thread, name, some id), ?_, rfl⟩, rfl⟩)
          refine List.mem_filter.mpr ⟨h, ?_⟩
          rw [Bool.and_eq_true, decide_eq_true_eq, decide_eq_true_eq]
          exact ⟨hother, fun h' => hsame h'.symm⟩
    | extra h hn hid => exact Or.inr ⟨_, h, _, hn, hid⟩

theorem stages_covers {c : Scene} (hs : Readable c.sources) :
    ∃ found after, Afresh.stages w c = (found, none, after) ∧
      Covers w c.sources c.Reachable [] found after := by
  rcases system_covers (w := w) hs [] with ⟨first, after₁, hone, hfirst⟩
  rcases sourceIf_covers (w := w) hs (c.roster.sourceOf c.caller) after₁
    with ⟨second, after₂, htwo, hsecond⟩
  rcases inTurn_covers (sourceIf_covers (w := w) hs) (othersOf c) after₂
    with ⟨third, after₃, hthree, hthird⟩
  rcases inTurn_covers (fun id before => chainFrom_covers (w := w) longestChain id before
      fun x _ => hs.askable before x) c.extra after₃
    with ⟨fourth, after₄, hfour, hfourth⟩
  refine ⟨_, after₄, ?_, (((hfirst.append hsecond).append hthird).append hfourth).congr
    (reachable_iff c)⟩
  rw [Afresh.stages, hone]
  simp only [Afresh.own, htwo, hthree]
  have hchains : Afresh.inTurn (Afresh.chain w c.sources) c.extra after₃ = (fourth, none, after₄) :=
    hfour
  rw [hchains]

variable {τ : Type} [Add τ] [LT τ] [DecidableRel (α := τ) (· < ·)]

/-- The records of a whole scan, whatever was asked before it. Nothing gets past
    the part of the scan in which it fails, so the scan reports what it
    discovered, and that are the records of all URLs of all sources that can be
    reached and give their lists, except for the URLs that lead nowhere. -/
theorem mem_scanAll_iff (w : Site τ) (hd : w.disk.Sound) (hi : w.inspector.Blind) (lifetime : τ)
    (capacity : Nat) (calls : List Call) (c : Scene) (hs : Readable c.sources) :
    (scanStages w c { memory := (performAll w calls (.empty lifetime capacity)).2 }).2.1 = none ∧
      (scanAll w c (performAll w calls (.empty lifetime capacity)).2).2.notices.getLast? =
        some (.info "enumerator.discovered") ∧
      ∀ r, r ∈ shown (scanAll w c (performAll w calls (.empty lifetime capacity)).2).1 ↔
        ∃ id, c.Reachable id ∧ Gives w.toSurroundings c.sources id r := by
  rcases performAll_afresh hd hi (recalls_empty w.toSurroundings lifetime capacity) calls
    with ⟨made, _, hrecalls, _⟩
  rcases scanStages_toured hd hi c hrecalls with ⟨_, _, htour⟩
  rcases stages_covers (w := w.toSurroundings) hs with ⟨found, after, hstages, hcov⟩
  rw [hstages] at htour
  have hnone := congrArg (fun x => x.2.1) htour.agrees
  refine ⟨hnone, ?_⟩
  unfold scanAll
  rcases hscan : scanStages w c { memory := (performAll w calls (.empty lifetime capacity)).2 }
    with ⟨records, fault, k⟩
  rw [hscan] at htour hnone
  have hfault : fault = none := hnone
  subst hfault
  refine ⟨List.getLast?_concat, fun r => ?_⟩
  have hshown : shown records = found := congrArg Prod.fst htour.agrees
  rw [hshown, hcov.found]
  simp only [List.not_mem_nil, not_false_eq_true, true_and]

/-- Sources whose parents close in a circle. One of them fails to give its list,
    and another one lists what leads nowhere. -/
def circle : Sources
  | 0 => { offer := .items [some "file:a.jar", none, some "file:b.jar", some "jar:file:a.jar"]
           parent := .parent 1 }
  | 1 => { offer := .failing, parent := .parent 2 }
  | 2 => { offer := .items [some "jar:file:a.jar!/b.jar"], parent := .parent 0 }
  | _ => {}

theorem readable_circle : Readable circle := by
  refine ⟨fun id => ?_, fun id => ?_⟩ <;>
    rcases id with _ | _ | _ | id <;> simp only [circle, ne_eq, reduceCtorEq, not_false_eq_true]

/-- The circle is asked from a source that the scanning thread has asked already,
    and the source of the process cannot be made. -/
def circleScene : Scene :=
  { sources := circle, system := .failing, roster := Roster.initial.assign 0 (some 1)
    extra := [none, some 1] }

/-- A scan of the circle, after a scan of the same and calls for the member: it
    finds the archive and its member, and nothing else. -/
theorem mem_scanAll_iff_circle :
    nestingSite.disk.Sound ∧ nestingSite.inspector.Blind ∧ Readable circleScene.sources ∧
      (shown (scanAll nestingSite circleScene (performAll nestingSite
        (.all circleScene :: nestingCalls) (.empty 100 2)).2).1).card = 2 ∧
      ∀ r, r ∈ shown (scanAll nestingSite circleScene (performAll nestingSite
          (.all circleScene :: nestingCalls) (.empty 100 2)).2).1 ↔
        ∃ id, circleScene.Reachable id ∧ Gives nestingSite.toSurroundings circle id r :=
  ⟨sound_nestingSite, blind_nestingSite, readable_circle, by decide +kernel,
    (mem_scanAll_iff nestingSite sound_nestingSite blind_nestingSite 100 2
      (.all circleScene :: nestingCalls) circleScene readable_circle).2.2⟩

end Survey

end ArchiveCensus
