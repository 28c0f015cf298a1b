import ArchiveCensus.Proofs.Survey.Gathering

/-!
# Sources by Way of the Memory

A source is asked for its list, and a chain for the lists of a source and its
parents; a scan asks one after the other and passes along which were asked. All
this is compared with the survey that remembers nothing: the same records up to
the numbers of copies, the same fault if there is one, and the same sources
asked. The last is what makes the comparison go on, as it decides what is passed
over next.

Sources of threads and chains are asked in turn in the same way and differ only
in how one of them is asked, so the induction over turns is made once
(`takeTurns`).

## Main definitions

* `Asked`: What one source or chain gave, compared with the survey that
  remembers nothing.
* `takeTurns`: One after the other until one fails.
* `Toured`: What came of the turns, compared in the same way.

## Theorems

* `scanSource_asked`, `scanChainFrom_asked`: One source, and one with its parents.
* `takeTurns_toured`: Turns agree if every single one does.
* `scanStages_toured`: A whole scan.
-/

namespace ArchiveCensus

namespace Survey

variable {τ : Type} {made : List Text}

/-- What asking sources gave: the memory stays as it was, the outcome is the one
    without a memory, up to the numbers of copies, and the same sources were
    asked. -/
structure Asked (w : Surroundings) (made : List Text) (k : Walk τ)
    (answer : Except Resolution.Fault RecordSet) (fresh : Afresh.Outcome × List SourceId) :
    Prop where
  recalls : Recalls w made k.memory
  backed : ∀ s, answer = .ok s → AllBacked w made s
  agrees : (answer.map shown, k.visited) = fresh

theorem asked_ok {w : Surroundings} {k : Walk τ} (h : Recalls w made k.memory) {s : RecordSet}
    (hs : AllBacked w made s) : Asked w made k (.ok s) (.ok (shown s), k.visited) :=
  ⟨h, fun _ hs' => Except.ok.inj hs' ▸ hs, rfl⟩

theorem asked_error {w : Surroundings} {k : Walk τ} (h : Recalls w made k.memory)
    (f : Resolution.Fault) : Asked w made k (.error f) (.error f, k.visited) :=
  ⟨h, fun _ hs => absurd hs (by simp only [reduceCtorEq, not_false_eq_true]), rfl⟩

/-- Adds what sources give, one after the other until one fails. -/
def takeTurns (scan : Option SourceId → Walk τ → Except Resolution.Fault RecordSet × Walk τ)
    (records : RecordSet) :
    List (Option SourceId) → Walk τ → RecordSet × Option Resolution.Fault × Walk τ
  | [], k => (records, none, k)
  | id :: rest, k =>
    match scan id k with
    | (.error f, k) => (records, some f, k)
    | (.ok more, k) => takeTurns scan (records.union more) rest k

/-- What asking one source after the other gave, compared in the same way. -/
structure Toured (w : Surroundings) (made : List Text)
    (out : RecordSet × Option Resolution.Fault × Walk τ)
    (fresh : Finset Record × Option Resolution.Fault × List SourceId) : Prop where
  recalls : Recalls w made out.2.2.memory
  backed : AllBacked w made out.1
  agrees : (shown out.1, out.2.1, out.2.2.visited) = fresh

theorem takeTurns_toured {w : Surroundings} (hd : w.disk.Sound)
    {scan : Option SourceId → Walk τ → Except Resolution.Fault RecordSet × Walk τ}
    {ask : Option SourceId → List SourceId → Afresh.Outcome × List SourceId}
    (hscan : ∀ {made : List Text} (id : Option SourceId) {k : Walk τ},
      Recalls w made k.memory → ∃ made', made <+: made' ∧
        Asked w made' (scan id k).2 (scan id k).1 (ask id k.visited))
    (ids : List (Option SourceId)) {records : RecordSet} {k : Walk τ}
    (hs : AllBacked w made records) (h : Recalls w made k.memory) :
    ∃ made', made <+: made' ∧
      Toured w made' (takeTurns scan records ids k)
        (shown records ∪ (Afresh.inTurn ask ids k.visited).1,
          (Afresh.inTurn ask ids k.visited).2) := by
  induction ids generalizing records k made with
  | nil =>
      refine ⟨made, List.prefix_refl _, h, hs, ?_⟩
      rw [Afresh.inTurn, Finset.union_empty]
      rfl
  | cons id rest ih =>
      rcases hscan id h with ⟨made₁, hmade₁, hasked⟩
      rw [takeTurns, Afresh.inTurn, ← hasked.agrees]
      rcases hone : scan id k with ⟨f | more, k'⟩
      · -- The rest is not asked, and the records so far stay.
        rw [hone] at hasked
        refine ⟨made₁, hmade₁, hasked.recalls, hs.mono hmade₁, ?_⟩
        exact congrArg (fun s => (s, some f, k'.visited)) (Finset.union_empty _).symm
      · rw [hone] at hasked
        have hmore := hasked.backed more rfl
        rcases ih ((hs.mono hmade₁).union hmore) hasked.recalls with ⟨made₂, hmade₂, hrest⟩
        refine ⟨made₂, hmade₁.trans hmade₂, hrest.recalls, hrest.backed, hrest.agrees.trans ?_⟩
        rw [shown_union hd (hs.mono hmade₁) hmore]
        exact congrArg (fun s => (s, _)) (Finset.union_assoc _ _ _)

variable [Add τ] [LT τ] [DecidableRel (α := τ) (· < ·)] {w : Site τ}

theorem scanSource_asked (hd : w.disk.Sound) (hi : w.inspector.Blind) (sources : Sources)
    (id : SourceId) {k : Walk τ} (h : Recalls w.toSurroundings made k.memory) :
    ∃ made', made <+: made' ∧
      Asked w.toSurroundings made' (scanSource w sources id k).2 (scanSource w sources id k).1
        (Afresh.source w.toSurroundings sources id k.visited) := by
  have hk : Recalls w.toSurroundings made ({ k with visited := id :: k.visited } : Walk τ).memory :=
    h
  unfold scanSource Afresh.source
  split
  · exact ⟨made, List.prefix_refl _, asked_ok h allBacked_nil⟩
  · unfold Afresh.offered
    cases (sources id).offer with
    | nothing => exact ⟨made, List.prefix_refl _, asked_ok hk allBacked_nil⟩
    | unreadable => exact ⟨made, List.prefix_refl _, asked_error hk _⟩
    | failing => exact ⟨made, List.prefix_refl _, asked_ok (hk.say _) allBacked_nil⟩
    | items urls =>
        rcases scanItems_gathered hd hi urls ⟨h, allBacked_nil, rfl⟩ with ⟨made', hmade, hgath⟩
        refine ⟨made', hmade, hgath.recalls, fun s hs => ?_, ?_⟩
        · rw [← Except.ok.inj hs]
          exact hgath.backed
        · rw [shown_nil, Finset.empty_union] at hgath
          exact congrArg (fun s => (Except.ok s, id :: k.visited)) hgath.shown

theorem scanChainFrom_asked (hd : w.disk.Sound) (hi : w.inspector.Blind) (sources : Sources)
    (fuel : Nat) (id : Option SourceId) {records : RecordSet} {k : Walk τ}
    (hs : AllBacked w.toSurroundings made records) (h : Recalls w.toSurroundings made k.memory) :
    ∃ made', made <+: made' ∧
      Asked w.toSurroundings made' (scanChainFrom w sources fuel records id k).2
        (scanChainFrom w sources fuel records id k).1
        ((Afresh.chainFrom w.toSurroundings sources fuel id k.visited).1.map (shown records ∪ ·),
          (Afresh.chainFrom w.toSurroundings sources fuel id k.visited).2) := by
  -- A chain that has ended gives what was found so far.
  have hstop : ∀ {made : List Text} {records : RecordSet} {k : Walk τ},
      AllBacked w.toSurroundings made records → Recalls w.toSurroundings made k.memory →
      Asked w.toSurroundings made k (.ok records) (.ok (shown records ∪ ∅), k.visited) := by
    intro made records k hs h
    rw [Finset.union_empty]
    exact asked_ok h hs
  induction fuel generalizing id records k made with
  | zero =>
      cases id with
      | none => exact ⟨made, List.prefix_refl _, hstop hs h⟩
      | some id => exact ⟨made, List.prefix_refl _, hstop hs (h.say _)⟩
  | succ fuel ih =>
      cases id with
      | none => exact ⟨made, List.prefix_refl _, hstop hs h⟩
      | some id =>
          rcases scanSource_asked hd hi sources id h with ⟨made₁, hmade₁, hasked⟩
          rw [scanChainFrom, Afresh.chainFrom, ← hasked.agrees]
          rcases hscan : scanSource w sources id k with ⟨f | more, k'⟩
          · rw [hscan] at hasked
            exact ⟨made₁, hmade₁, asked_error hasked.recalls f⟩
          · rw [hscan] at hasked
            have hmore := hasked.backed more rfl
            have hall := (hs.mono hmade₁).union hmore
            have hunion := shown_union hd (hs.mono hmade₁) hmore
            cases hparent : (sources id).parent with
            | root =>
                have hend := asked_ok hasked.recalls hall
                rw [hunion] at hend
                exact ⟨made₁, hmade₁, hend⟩
            | unreadable => exact ⟨made₁, hmade₁, asked_error hasked.recalls _⟩
            | parent next =>
                rcases ih (some next) hall hasked.recalls with ⟨made₂, hmade₂, habove⟩
                refine ⟨made₂, hmade₁.trans hmade₂, habove.recalls, habove.backed,
                  habove.agrees.trans ?_⟩
                rw [hunion]
                simp only [Except.map]
                rcases Afresh.chainFrom w.toSurroundings sources fuel (some next) k'.visited
                  with ⟨f | above, visited⟩
                · rfl
                · exact congrArg (fun s => (Except.ok s, visited)) (Finset.union_assoc _ _ _)

theorem scanChain_asked (hd : w.disk.Sound) (hi : w.inspector.Blind) (sources : Sources)
    (id : Option SourceId) {k : Walk τ} (h : Recalls w.toSurroundings made k.memory) :
    ∃ made', made <+: made' ∧
      Asked w.toSurroundings made' (scanChain w sources id k).2 (scanChain w sources id k).1
        (Afresh.chain w.toSurroundings sources id k.visited) := by
  rcases scanChainFrom_asked hd hi sources longestChain id allBacked_nil h
    with ⟨made', hmade, hasked⟩
  refine ⟨made', hmade, hasked.recalls, hasked.backed, hasked.agrees.trans ?_⟩
  rw [Afresh.chain, shown_nil]
  rcases Afresh.chainFrom w.toSurroundings sources longestChain id k.visited
    with ⟨f | found, visited⟩
  · rfl
  · exact congrArg (fun s => (Except.ok s, visited)) (Finset.empty_union _)

theorem scanIf_asked (hd : w.disk.Sound) (hi : w.inspector.Blind) (sources : Sources)
    (id : Option SourceId) {k : Walk τ} (h : Recalls w.toSurroundings made k.memory) :
    ∃ made', made <+: made' ∧
      Asked w.toSurroundings made' (scanIf w sources id k).2 (scanIf w sources id k).1
        (Afresh.sourceIf w.toSurroundings sources id k.visited) := by
  cases id with
  | none => exact ⟨made, List.prefix_refl _, asked_ok h allBacked_nil⟩
  | some id => exact scanSource_asked hd hi sources id h

theorem scanSystem_asked (hd : w.disk.Sound) (hi : w.inspector.Blind) (c : Scene) {k : Walk τ}
    (h : Recalls w.toSurroundings made k.memory) :
    ∃ made', made <+: made' ∧
      Asked w.toSurroundings made' (scanSystem w c k).2 (scanSystem w c k).1
        (Afresh.system w.toSurroundings c k.visited) := by
  unfold scanSystem Afresh.system
  cases c.system with
  | absent => exact ⟨made, List.prefix_refl _, asked_ok h allBacked_nil⟩
  | failing => exact ⟨made, List.prefix_refl _, asked_ok (h.say _) allBacked_nil⟩
  | source id => exact scanSource_asked hd hi c.sources id h

theorem scanEach_eq_takeTurns (sources : Sources) (records : RecordSet)
    (ids : List (Option SourceId)) (k : Walk τ) :
    scanEach w sources records ids k = takeTurns (scanIf w sources) records ids k := by
  induction ids generalizing records k with
  | nil => rfl
  | cons id rest ih =>
      rw [scanEach, takeTurns]
      rcases scanIf w sources id k with ⟨f | more, k'⟩
      · rfl
      · exact ih _ _

theorem scanChains_eq_takeTurns (sources : Sources) (records : RecordSet)
    (ids : List (Option SourceId)) (k : Walk τ) :
    scanChains w sources records ids k = takeTurns (scanChain w sources) records ids k := by
  induction ids generalizing records k with
  | nil => rfl
  | cons id rest ih =>
      rw [scanChains, takeTurns]
      rcases scanChain w sources id k with ⟨f | more, k'⟩
      · rfl
      · exact ih _ _

theorem scanOthers_toured (hd : w.disk.Sound) (hi : w.inspector.Blind) (c : Scene) {k : Walk τ}
    (h : Recalls w.toSurroundings made k.memory) :
    ∃ made', made <+: made' ∧ Recalls w.toSurroundings made' (scanOthers w c k).2.memory ∧
      AllBacked w.toSurroundings made' (scanOthers w c k).1 ∧
      (shown (scanOthers w c k).1, (scanOthers w c k).2.visited) =
        ((Afresh.inTurn (Afresh.sourceIf w.toSurroundings c.sources) (othersOf c) k.visited).1,
          (Afresh.inTurn (Afresh.sourceIf w.toSurroundings c.sources) (othersOf c)
            k.visited).2.2) := by
  rcases takeTurns_toured hd (fun id _ hk => scanIf_asked hd hi c.sources id hk) (othersOf c)
    allBacked_nil h with ⟨made', hmade, htour⟩
  rw [← scanEach_eq_takeTurns, shown_nil, Finset.empty_union] at htour
  refine ⟨made', hmade, ?_⟩
  rw [← congrArg Prod.fst htour.agrees, ← congrArg (fun x => x.2.2) htour.agrees]
  unfold scanOthers
  rcases hturns : scanEach w c.sources [] (othersOf c) k with ⟨records, fault, k'⟩
  rw [hturns] at htour
  cases fault with
  | none => exact ⟨htour.recalls, htour.backed, rfl⟩
  | some f => exact ⟨htour.recalls.say _, htour.backed, rfl⟩

/-- A whole scan, up to the report of its outcome. -/
theorem scanStages_toured (hd : w.disk.Sound) (hi : w.inspector.Blind) (c : Scene) {m : Memory τ}
    (h : Recalls w.toSurroundings made m) :
    ∃ made', made <+: made' ∧
      Toured w.toSurroundings made' (scanStages w c { memory := m })
        (Afresh.stages w.toSurroundings c) := by
  have hstart : Recalls w.toSurroundings made ({ memory := m } : Walk τ).memory := h
  -- Both scans fail in the same stage, so after each stage the failing case is over
  -- at once and the other one goes on with the records and the sources so far.
  rcases scanSystem_asked hd hi c hstart with ⟨made₁, hmade₁, hsystem⟩
  rw [scanStages, Afresh.stages, ← hsystem.agrees]
  rcases hone : scanSystem w c { memory := m } with ⟨f | system, k₁⟩
  · rw [hone] at hsystem
    exact ⟨made₁, hmade₁, hsystem.recalls, allBacked_nil, rfl⟩
  rw [hone] at hsystem
  have hk₁ : Recalls w.toSurroundings made₁ k₁.memory := hsystem.recalls
  have hfirst := allBacked_nil.union (hsystem.backed system rfl)
  have hfirstShown := shown_union hd allBacked_nil (hsystem.backed system rfl)
  rw [shown_nil, Finset.empty_union] at hfirstShown
  rcases scanIf_asked hd hi c.sources (c.roster.sourceOf c.caller) hk₁
    with ⟨made₂, hmade₂, hown⟩
  simp only [Except.map, scanOwn, Afresh.own]
  rw [← hown.agrees]
  rcases htwo : scanIf w c.sources (c.roster.sourceOf c.caller) k₁ with ⟨f | own, k₂⟩
  · rw [htwo] at hown
    refine ⟨made₂, hmade₁.trans hmade₂, hown.recalls, hfirst.mono hmade₂, ?_⟩
    exact congrArg (fun s => (s, some f, k₂.visited)) hfirstShown
  rw [htwo] at hown
  have hk₂ : Recalls w.toSurroundings made₂ k₂.memory := hown.recalls
  have hsecond := (hfirst.mono hmade₂).union (hown.backed own rfl)
  have hsecondShown := shown_union hd (hfirst.mono hmade₂) (hown.backed own rfl)
  rw [hfirstShown] at hsecondShown
  -- A failure among the other threads does not end the scan: no failing case here.
  rcases scanOthers_toured hd hi c hk₂ with ⟨made₃, hmade₃, hrecalls, hbacked, hagrees⟩
  have hthird := (hsecond.mono hmade₃).union hbacked
  have hthirdShown := shown_union hd (hsecond.mono hmade₃) hbacked
  rcases Prod.mk.inj hagrees with ⟨hothersShown, hvisited⟩
  rw [hsecondShown, hothersShown] at hthirdShown
  rcases takeTurns_toured hd (fun id _ hk => scanChain_asked hd hi c.sources id hk) c.extra
    hthird hrecalls with ⟨made₄, hmade₄, htour⟩
  rw [← scanChains_eq_takeTurns, hthirdShown, hvisited] at htour
  exact ⟨made₄, hmade₁.trans (hmade₂.trans (hmade₃.trans hmade₄)), htour⟩

end Survey

end ArchiveCensus
