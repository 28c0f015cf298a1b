import ArchiveCensus.Proofs.Survey.Lineage

/-!
# Chains That Break

A source that fails to give its list costs its own records and no others. A source
that cannot be asked, for its list or for its parent, costs more: the scan of its
chain ends without an answer, so that what was found in the chain is lost, and with
it ends the whole scan, so that the chains behind it are never begun.

Which records are left can be told beforehand. Whether a chain breaks depends on
its own sources, on those that were asked before the first chain, and on nothing
else: a source that a chain asks on its way to its end can be asked, and makes no
difference to the next (`inTurn_chain_covers`). So the records of a scan are those
that it has when it comes to the chains, and those of the chains in front of the
first one that breaks.

What was asked before the chains was found before them, even if the scan of the
threads has failed (`stages_cases`). This is why the records of a chain may be told
without those sources.

## Main definitions

* `Breaks`, `Finishes`: Chains that cannot be asked to their end, and chains that
  are.
* `Walked`: The sources of a chain up to the first that cannot be asked.
* `Keeps`: What was asked was found.
* `Used`: A memory that some calls have left.
* `Completes`: A scan that reports what it discovered.
* `askedFirst`: The sources that are asked before the chains.

## Theorems

* `chainFrom_breaks`: A chain that breaks gives no answer.
* `inTurn_chain_covers`: The chains in front of the first one that breaks.
* `stages_cases`: What a scan has when it comes to the chains.
* `mem_scanAll_iff_of_breaks`: The records of a whole scan.
* `not_forall_found`: They are not those of all sources that were walked.
-/

namespace ArchiveCensus

namespace Survey

/-- Some source of the chain cannot be asked, by a scan that has asked the sources
    `asked`. -/
def Breaks (sources : Sources) (asked : List SourceId) (start : Option SourceId) : Prop :=
  ∃ id, NearAncestor sources start id ∧ ¬Askable sources asked id

/-- Of chains in this order, neither that of `start` breaks nor one before it. -/
def Finishes (sources : Sources) (asked : List SourceId) (starts : List (Option SourceId))
    (start : Option SourceId) : Prop :=
  ∃ chains, chains <+: starts ∧ start ∈ chains ∧ ∀ s ∈ chains, ¬Breaks sources asked s

/-- The source is in the chain, and all those in front of it can be asked. -/
def Walked (sources : Sources) (asked : List SourceId) (start : Option SourceId)
    (id : SourceId) : Prop :=
  ∃ n < longestChain, ancestor sources n start = some id ∧
    ∀ i < n, ∀ x, ancestor sources i start = some x → Askable sources asked x

/-- The records of an outcome, none if it is a fault. -/
def Afresh.Outcome.records (o : Afresh.Outcome) : Finset Record :=
  o.toOption.getD ∅

/-- What the sources list that were asked since `before` was found. -/
def Keeps (w : Surroundings) (sources : Sources) (before : List SourceId) (found : Finset Record)
    (after : List SourceId) : Prop :=
  ∀ id ∈ after, id ∈ before ∨ ∀ r, Gives w sources id r → r ∈ found

section Chains

variable {w : Surroundings} {sources : Sources} {asked before between after : List SourceId}
  {first start : Option SourceId} {rest : List (Option SourceId)} {found more : Finset Record}

theorem not_finishes_of_breaks (h : Breaks sources asked first) :
    ¬Finishes sources asked (first :: rest) start := by
  rintro ⟨chains, hprefix, hmem, hwhole⟩
  rcases List.prefix_cons_iff.mp hprefix with rfl | ⟨chains, rfl, _⟩
  · exact absurd hmem List.not_mem_nil
  · exact hwhole first List.mem_cons_self h

theorem finishes_cons_iff (h : ¬Breaks sources asked first) :
    Finishes sources asked (first :: rest) start ↔
      start = first ∨ Finishes sources asked rest start := by
  constructor
  · rintro ⟨chains, hprefix, hmem, hwhole⟩
    rcases List.prefix_cons_iff.mp hprefix with rfl | ⟨chains, rfl, hrest⟩
    · exact absurd hmem List.not_mem_nil
    · rcases List.mem_cons.mp hmem with rfl | hmem
      · exact Or.inl rfl
      · exact Or.inr ⟨chains, hrest, hmem, fun s hs => hwhole s (List.mem_cons_of_mem _ hs)⟩
  · rintro (rfl | ⟨chains, hprefix, hmem, hwhole⟩)
    · refine ⟨[start], ⟨rest, rfl⟩, List.mem_singleton_self _, fun s hs => ?_⟩
      rwa [List.mem_singleton.mp hs]
    · exact ⟨first :: chains, List.cons_prefix_cons.mpr ⟨rfl, hprefix⟩,
        List.mem_cons_of_mem _ hmem, List.forall_mem_cons.mpr ⟨h, hwhole⟩⟩

/-- Whether a source can be asked depends only on whether it was asked before, and
    on that only if it is one that cannot be asked for its list. -/
theorem askable_congr (hsame : ∀ id, (sources id).offer = .unreadable → (id ∈ before ↔ id ∈ asked))
    {id : SourceId} : Askable sources before id ↔ Askable sources asked id := by
  constructor
  · exact fun h => ⟨fun hnew ho => h.offer (fun hold => hnew ((hsame id ho).mp hold)) ho, h.parent⟩
  · exact fun h => ⟨fun hnew ho => h.offer (fun hold => hnew ((hsame id ho).mpr hold)) ho, h.parent⟩

/-- A chain with a source that cannot be asked gives no answer. -/
theorem chainFrom_breaks (fuel : Nat) (id : Option SourceId) (before : List SourceId)
    (h : ∃ x, (∃ n < fuel, ancestor sources n id = some x) ∧ ¬Askable sources before x) :
    ∃ f, (Afresh.chainFrom w sources fuel id before).1 = .error f := by
  -- By induction on the fuel: the chain breaks at its first source, or behind it.
  induction fuel generalizing id before with
  | zero =>
      rcases h with ⟨x, ⟨n, hn, _⟩, _⟩
      exact absurd hn (Nat.not_lt_zero n)
  | succ fuel ih =>
      rcases h with ⟨x, hx, hnot⟩
      cases id with
      | none => exact ((not_exists_ancestor_none sources _ x).mp hx).elim
      | some id =>
          rw [Afresh.chainFrom]
          by_cases hhere : Askable sources before id
          · rcases source_covers (w := w) hhere.offer with ⟨found, between, hone, hfound⟩
            have hne : x ≠ id := fun heq => hnot (heq ▸ hhere)
            rw [exists_ancestor_some_iff] at hx
            have habove := hx.resolve_left hne
            -- It is no easier to ask behind this source, as it is another one.
            have hstill : ¬Askable sources between x := by
              refine fun hx => hnot ⟨fun hnew => hx.offer fun hold => ?_, hx.parent⟩
              exact ((hfound.asked x).mp hold).elim hnew hne
            rw [hone]
            cases hparent : (sources id).parent with
            | root =>
                rw [parentOf, hparent] at habove
                exact ((not_exists_ancestor_none sources _ x).mp habove).elim
            | unreadable => exact ⟨_, rfl⟩
            | parent next =>
                rw [parentOf, hparent] at habove
                rcases ih (some next) between ⟨x, habove, hstill⟩ with ⟨f, hf⟩
                refine ⟨f, ?_⟩
                simp only [hf, Except.map]
          · rcases hone : Afresh.source w sources id before with ⟨f | found, between⟩
            · exact ⟨f, rfl⟩
            · -- It was asked for its list, so its parent is what it cannot be asked for.
              have hparent : (sources id).parent = .unreadable := by
                by_contra hparent
                refine hhere ⟨fun hnew ho => ?_, hparent⟩
                rw [Afresh.source, if_neg hnew, Afresh.offered, ho] at hone
                cases hone
              rw [hparent]
              exact ⟨_, rfl⟩

/-- Asking chains in turn finds what those list that are in front of the first one
    that breaks, and fails if there is one. -/
theorem inTurn_chain_covers (w : Surroundings) (sources : Sources) (asked : List SourceId)
    (starts : List (Option SourceId)) (before : List SourceId)
    (hsame : ∀ id, (sources id).offer = .unreadable → (id ∈ before ↔ id ∈ asked)) :
    (∃ reached, Covers w sources
        (fun x => ∃ start, Finishes sources asked starts start ∧ NearAncestor sources start x)
        before (Afresh.inTurn (Afresh.chain w sources) starts before).1 reached) ∧
      ((Afresh.inTurn (Afresh.chain w sources) starts before).2.1 = none ↔
        ∀ start ∈ starts, ¬Breaks sources asked start) := by
  -- What is asked on the way changes, but not which of the sources were asked that cannot
  -- be asked for their lists. This is all that `Breaks` depends on.
  induction starts generalizing before with
  | nil =>
      refine ⟨⟨before, covers_none.congr fun x => ⟨False.elim, ?_⟩⟩, fun _ _ h => ?_, fun _ => rfl⟩
      · rintro ⟨start, ⟨chains, hprefix, hmem, _⟩, _⟩
        rw [List.prefix_nil.mp hprefix] at hmem
        exact absurd hmem List.not_mem_nil
      · exact absurd h List.not_mem_nil
  | cons first rest ih =>
      rw [Afresh.inTurn]
      by_cases hbreak : Breaks sources asked first
      · have hbroken : ∃ f, (Afresh.chain w sources first before).1 = .error f := by
          rcases hbreak with ⟨x, hnear, hnot⟩
          exact chainFrom_breaks longestChain first before
            ⟨x, hnear, fun h => hnot ((askable_congr hsame).mp h)⟩
        rcases hbroken with ⟨f, hf⟩
        rcases hone : Afresh.chain w sources first before with ⟨f' | found, after⟩
        · refine ⟨⟨before, covers_none.congr fun x => ⟨False.elim, ?_⟩⟩, fun h => ?_, fun h => ?_⟩
          · rintro ⟨start, hfinishes, _⟩
            exact not_finishes_of_breaks hbreak hfinishes
          · cases h
          · exact absurd hbreak (h first List.mem_cons_self)
        · rw [hone] at hf
          cases hf
      · have hask : ∀ x, NearAncestor sources first x → Askable sources asked x :=
          fun x hx => Classical.by_contradiction fun hnot => hbreak ⟨x, hx, hnot⟩
        rcases chainFrom_covers (w := w) longestChain first before
          (fun x hx => (askable_congr hsame).mpr (hask x hx)) with ⟨found, between, hone, hfound⟩
        -- What this chain has asked is nothing that could not be asked.
        have hsame' : ∀ id, (sources id).offer = .unreadable → (id ∈ between ↔ id ∈ asked) := by
          intro id ho
          rw [hfound.asked, hsame id ho]
          refine or_iff_left_of_imp fun hnear => ?_
          by_contra hnew
          exact (hask id hnear).offer hnew ho
        rcases ih between hsame' with ⟨⟨reached, hmore⟩, hnone⟩
        rw [Afresh.chain, hone]
        refine ⟨⟨reached, (hfound.append hmore).congr fun x => ?_⟩, hnone.trans ?_⟩
        · simp only [finishes_cons_iff hbreak, or_and_right, exists_or, exists_eq_left]
          rfl
        · rw [List.forall_mem_cons]
          exact (and_iff_right hbreak).symm

theorem Keeps.append (h : Keeps w sources before found between)
    (h' : Keeps w sources between more after) : Keeps w sources before (found ∪ more) after := by
  intro id hid
  rcases h' id hid with hid | hmore
  · exact (h id hid).imp_right fun hfound r hr => Finset.mem_union_left _ (hfound r hr)
  · exact Or.inr fun r hr => Finset.mem_union_right _ (hmore r hr)

theorem keeps_refl : Keeps w sources before ∅ before :=
  fun _ hid => Or.inl hid

theorem keeps_source (w : Surroundings) (sources : Sources) (id : SourceId)
    (before : List SourceId) :
    Keeps w sources before (Afresh.source w sources id before).1.records
      (Afresh.source w sources id before).2 := by
  unfold Afresh.source
  split
  · exact keeps_refl
  · intro x hx
    rcases List.mem_cons.mp hx with rfl | hx
    · refine Or.inr ?_
      rintro r ⟨urls, hurls, hr⟩
      rw [Afresh.offered, hurls]
      exact Afresh.mem_items.mpr hr
    · exact Or.inl hx

theorem keeps_sourceIf (w : Surroundings) (sources : Sources) (id : Option SourceId)
    (before : List SourceId) :
    Keeps w sources before (Afresh.sourceIf w sources id before).1.records
      (Afresh.sourceIf w sources id before).2 := by
  cases id with
  | none => exact keeps_refl
  | some id => exact keeps_source w sources id before

/-- One after the other, also if the last of them fails. -/
theorem keeps_inTurn {ask : Option SourceId → List SourceId → Afresh.Outcome × List SourceId}
    (hask : ∀ id before, Keeps w sources before (ask id before).1.records (ask id before).2)
    (ids : List (Option SourceId)) (before : List SourceId) :
    Keeps w sources before (Afresh.inTurn ask ids before).1 (Afresh.inTurn ask ids before).2.2 := by
  induction ids generalizing before with
  | nil => exact keeps_refl
  | cons id rest ih =>
      have hone := hask id before
      rw [Afresh.inTurn]
      rcases hscan : ask id before with ⟨f | here, between⟩
      · rw [hscan] at hone
        exact hone
      · rw [hscan] at hone
        exact hone.append (ih between)

end Chains

/-- The scene without its extra sources. -/
def Scene.withoutExtra (c : Scene) : Scene :=
  { c with extra := [] }

section Stages

theorem keeps_system (w : Surroundings) (c : Scene) (before : List SourceId) :
    Keeps w c.sources before (Afresh.system w c before).1.records
      (Afresh.system w c before).2 := by
  unfold Afresh.system
  split
  · exact keeps_source w c.sources _ before
  · exact keeps_refl
  · exact keeps_refl

/-- A scan fails before it comes to the chains, or it goes on with what it has found by
    then, and that is what was listed by the sources that it has asked. -/
theorem stages_cases (w : Surroundings) (c : Scene) :
    (∃ f, (Afresh.stages w c.withoutExtra).2.1 = some f ∧
        Afresh.stages w c = Afresh.stages w c.withoutExtra) ∨
      ∃ found visited, Afresh.stages w c.withoutExtra = (found, none, visited) ∧
        Keeps w c.sources [] found visited ∧
        Afresh.stages w c =
          (found ∪ (Afresh.inTurn (Afresh.chain w c.sources) c.extra visited).1,
            (Afresh.inTurn (Afresh.chain w c.sources) c.extra visited).2) := by
  have hsystem : Afresh.system w c.withoutExtra [] = Afresh.system w c [] := rfl
  have hown : Afresh.own w c.withoutExtra = Afresh.own w c := rfl
  have hothers : othersOf c.withoutExtra = othersOf c := rfl
  have hsources : c.withoutExtra.sources = c.sources := rfl
  have hextra : ∀ ask visited,
      Afresh.inTurn ask c.withoutExtra.extra visited = (∅, none, visited) := fun _ _ => rfl
  -- A fault of the first two stages ends the scan with the chains as without them. The
  -- third one, of the other threads, has its faults for itself.
  have hfirst := keeps_system w c []
  rcases hone : Afresh.system w c [] with ⟨f | first, visited₁⟩
  · refine Or.inl ⟨f, ?_, ?_⟩ <;> simp only [Afresh.stages, hsystem, hone]
  have hsecond : Keeps w c.sources visited₁ (Afresh.own w c visited₁).1.records
      (Afresh.own w c visited₁).2 := keeps_sourceIf w c.sources _ visited₁
  rcases htwo : Afresh.own w c visited₁ with ⟨f | second, visited₂⟩
  · refine Or.inl ⟨f, ?_, ?_⟩ <;> simp only [Afresh.stages, hsystem, hown, hone, htwo]
  rw [hone] at hfirst
  rw [htwo] at hsecond
  have hthird := keeps_inTurn (keeps_sourceIf w c.sources) (othersOf c) visited₂
  refine Or.inr ⟨first ∪ second ∪
      (Afresh.inTurn (Afresh.sourceIf w c.sources) (othersOf c) visited₂).1,
    (Afresh.inTurn (Afresh.sourceIf w c.sources) (othersOf c) visited₂).2.2, ?_,
    (hfirst.append hsecond).append hthird, ?_⟩
  · simp only [Afresh.stages, hsystem, hown, hothers, hsources, hextra, hone, htwo,
      Finset.union_empty]
  · simp only [Afresh.stages, hone, htwo]

end Stages

section Scans

variable {τ : Type} [Add τ] [LT τ] [DecidableRel (α := τ) (· < ·)]

/-- The memory of a survey that has answered some calls. -/
def Used (w : Site τ) (m : Memory τ) : Prop :=
  ∃ lifetime capacity calls, (performAll w calls (.empty lifetime capacity)).2 = m

/-- A scan of the scene reports what it discovered. -/
def Completes (w : Site τ) (c : Scene) (m : Memory τ) : Prop :=
  (scanAll w c m).2.notices.getLast? = some (.info "enumerator.discovered")

/-- The sources that a scan has asked when it comes to the chains. -/
def askedFirst (w : Site τ) (c : Scene) (m : Memory τ) : List SourceId :=
  (scanStages w c.withoutExtra { memory := m }).2.2.visited

variable {w : Site τ} {m : Memory τ}

theorem completes_iff (c : Scene) :
    Completes w c m ↔ (scanStages w c { memory := m }).2.1 = none := by
  unfold Completes scanAll
  rcases scanStages w c { memory := m } with ⟨records, _ | f, k⟩
  · exact iff_of_true List.getLast?_concat rfl
  · refine iff_of_false (fun h => ?_) nofun
    have hlast := List.getLast?_concat.symm.trans h
    simp [Notice.info, Notice.error] at hlast

/-- A scan of a used memory is one without a memory. -/
theorem scanStages_afresh (hd : w.disk.Sound) (hi : w.inspector.Blind) (hm : Used w m)
    (c : Scene) :
    shown (scanAll w c m).1 = (Afresh.stages w.toSurroundings c).1 ∧
      (scanStages w c { memory := m }).2.1 = (Afresh.stages w.toSurroundings c).2.1 ∧
      (scanStages w c { memory := m }).2.2.visited = (Afresh.stages w.toSurroundings c).2.2 := by
  rcases hm with ⟨lifetime, capacity, calls, rfl⟩
  rcases performAll_afresh hd hi (recalls_empty w.toSurroundings lifetime capacity) calls
    with ⟨made, _, hrecalls, _⟩
  rcases scanStages_toured hd hi c hrecalls with ⟨_, _, htour⟩
  rcases scanAll_shown hd hi c hrecalls with ⟨_, _, _, hshown⟩
  exact ⟨hshown, congrArg (fun x => x.2.1) htour.agrees, congrArg (fun x => x.2.2) htour.agrees⟩

/-- A scan completes exactly if it comes to the chains and none of them breaks. The
    records that it gives are those that it has without the chains, and those of all
    URLs of all sources of the chains in front of the first one that breaks; what a
    chain that breaks has found is not among them, nor is what the chains behind it
    would find. -/
theorem mem_scanAll_iff_of_breaks (w : Site τ) (hd : w.disk.Sound) (hi : w.inspector.Blind)
    (m : Memory τ) (hm : Used w m) (c : Scene) :
    (Completes w c m ↔ Completes w c.withoutExtra m ∧
        ∀ start ∈ c.extra, ¬Breaks c.sources (askedFirst w c m) start) ∧
      ∀ r, r ∈ shown (scanAll w c m).1 ↔
        r ∈ shown (scanAll w c.withoutExtra m).1 ∨
          Completes w c.withoutExtra m ∧ ∃ start id,
            Finishes c.sources (askedFirst w c m) c.extra start ∧
              NearAncestor c.sources start id ∧ Gives w.toSurroundings c.sources id r := by
  rcases scanStages_afresh hd hi hm c with ⟨hshown, hfault, _⟩
  rcases scanStages_afresh hd hi hm c.withoutExtra with ⟨hshown', hfault', hasked⟩
  rw [completes_iff, completes_iff, hshown, hshown', hfault, hfault', askedFirst, hasked]
  rcases stages_cases w.toSurroundings c
    with ⟨f, hf, hsame⟩ | ⟨found, visited, hfirst, hkeeps, hrest⟩
  · rw [hsame, hf]
    simp only [reduceCtorEq, false_and, or_false, implies_true, and_self]
  · rw [hrest, hfirst]
    rcases inTurn_chain_covers w.toSurroundings c.sources visited c.extra visited
      (fun _ _ => Iff.rfl) with ⟨⟨reached, hcov⟩, hnone⟩
    refine ⟨hnone.trans (and_iff_right rfl).symm, fun r => ?_⟩
    rw [Finset.mem_union, hcov.found, and_iff_right rfl]
    constructor
    · rintro (hr | ⟨id, ⟨start, hfinishes, hnear⟩, _, hgives⟩)
      · exact Or.inl hr
      · exact Or.inr ⟨start, id, hfinishes, hnear, hgives⟩
    · rintro (hr | ⟨start, id, hfinishes, hnear, hgives⟩)
      · exact Or.inl hr
      · by_cases hold : id ∈ visited
        · exact Or.inl ((hkeeps id hold).resolve_left List.not_mem_nil r hgives)
        · exact Or.inr ⟨id, ⟨start, hfinishes, hnear⟩, hold, hgives⟩

/-- One source lists an archive and cannot be asked for its parent, another one lists
    the member of that archive. -/
def unparented : Sources
  | 0 => { offer := .items [some "file:a.jar"], parent := .unreadable }
  | 1 => { offer := .items [some "jar:file:a.jar!/b.jar"] }
  | _ => {}

def unparentedScene (extra : List (Option SourceId)) : Scene :=
  { sources := unparented, extra }

/-- The member is found if its chain comes first, and the archive is not. -/
theorem mem_scanAll_iff_unparented :
    nestingSite.disk.Sound ∧ nestingSite.inspector.Blind ∧ Used nestingSite (.empty 100 2) ∧
      (shown (scanAll nestingSite (unparentedScene [some 1, some 0]) (.empty 100 2)).1).card = 1 ∧
      (Completes nestingSite (unparentedScene [some 1, some 0]) (.empty 100 2) ↔
        Completes nestingSite (unparentedScene []) (.empty 100 2) ∧
          ∀ start ∈ [some 1, some 0], ¬Breaks unparented
            (askedFirst nestingSite (unparentedScene [some 1, some 0]) (.empty 100 2)) start) ∧
      ∀ r, r ∈ shown (scanAll nestingSite (unparentedScene [some 1, some 0]) (.empty 100 2)).1 ↔
        r ∈ shown (scanAll nestingSite (unparentedScene []) (.empty 100 2)).1 ∨
          Completes nestingSite (unparentedScene []) (.empty 100 2) ∧ ∃ start id,
            Finishes unparented
                (askedFirst nestingSite (unparentedScene [some 1, some 0]) (.empty 100 2))
                [some 1, some 0] start ∧
              NearAncestor unparented start id ∧
              Gives nestingSite.toSurroundings unparented id r :=
  ⟨sound_nestingSite, blind_nestingSite, ⟨100, 2, [], rfl⟩, by decide +kernel,
    mem_scanAll_iff_of_breaks nestingSite sound_nestingSite blind_nestingSite (.empty 100 2)
      ⟨100, 2, [], rfl⟩ (unparentedScene [some 1, some 0])⟩

/-- If the chain that breaks comes first, nothing is found: not the archive, which was
    walked before its source was asked for its parent, nor the other chain's member. -/
theorem not_forall_found :
    ¬∀ (w : Site Nat) (m : Memory Nat) (c : Scene), w.disk.Sound → Used w m →
      ∀ start ∈ c.extra, ∀ id, Walked c.sources (askedFirst w c m) start id →
        ∀ r, Gives w.toSurroundings c.sources id r → r ∈ shown (scanAll w c m).1 := by
  intro h
  have hsome : (Afresh.url nestingSite.toSurroundings "file:a.jar").toOption.join.isSome := by
    decide +kernel
  rcases Option.isSome_iff_exists.mp hsome with ⟨r, hr⟩
  have hitem := Afresh.item_eq_some_iff (w := nestingSite.toSurroundings)
    (x := some "file:a.jar") (r := r)
  rcases hitem.mp hr with ⟨u, hu, hurl⟩
  have hmem := h nestingSite (.empty 100 2) (unparentedScene [some 0, some 1])
    sound_nestingSite ⟨100, 2, [], rfl⟩ (some 0) List.mem_cons_self 0
    ⟨0, by decide, rfl, fun i hi => absurd hi (Nat.not_lt_zero i)⟩ r
    ⟨_, rfl, u, hu ▸ List.mem_singleton_self _, hurl⟩
  have hempty : shown (scanAll nestingSite (unparentedScene [some 0, some 1])
      (.empty 100 2)).1 = ∅ := by
    decide +kernel
  rw [hempty] at hmem
  exact absurd hmem (Finset.notMem_empty r)

end Scans

end Survey

end ArchiveCensus
