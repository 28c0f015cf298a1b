import ArchiveCensus.Proofs.Survey.Round

/-!
# Chains of Parents

A chain of parents may end, run into a circle, or go on without end, and parts of
it may have been asked before. Two things keep a scan of it finite and its answer
whole, and they must not be mixed up. How far it goes is a matter of counting: each
source on the way counts, asked before or not, so a circle is left after so many
steps. Which sources it asks is a matter of the list of those asked before, and
that decides nothing about the way: behind a source that is passed over the chain
goes on.

That it goes no farther cannot be seen in the answer. It is said here by putting
other sources in the place of those beyond the bound: the scan does the same.

The list is shared by scans of every kind, so that what one has asked is passed
over by the next. `Tour` says this for any number of them, each on a disk and with
sources of its own.

## Main definitions

* `NearAncestor`: One of the first sources of a chain.
* `Alike`: What a scan can tell about a source.
* `Ascent`: What a scan of a chain does.
* `Scan`, `runAll`: Scans that share what was asked.
* `Tour`: What scans ask, one after the other.

## Theorems

* `scanChainFrom_alike`: A chain depends on its first sources only.
* `scanChainFrom_eq_ok`: A chain of sources that can be asked gives an answer.
* `scanChain_ascent`: A whole chain.
* `runAll_tour`: Any scans.
-/

namespace ArchiveCensus

namespace Survey

/-- The source is one of the first in the chain of parents of `start`, which
    belongs to them; circles and chains without end have as many places as any. -/
def NearAncestor (sources : Sources) (start : Option SourceId) (id : SourceId) : Prop :=
  ∃ n < longestChain, ancestor sources n start = some id

/-- To a scan that has asked the sources `visited`, a source is like the one of the
    same number among others: it has the same parent, and offers the same if that
    is still to be asked. -/
structure Alike (sources sources' : Sources) (visited : List SourceId) (id : SourceId) : Prop where
  offer : id ∉ visited → (sources' id).offer = (sources id).offer
  parent : (sources' id).parent = (sources id).parent

section Chains

variable {τ : Type} [Add τ] [LT τ] [DecidableRel (α := τ) (· < ·)] {w : Site τ}
  {sources sources' : Sources} {id : SourceId} {k k' : Walk τ} {ids : List SourceId}
  {l : List (Lead × Option Record)}

theorem Alike.mono {visited visited' : List SourceId} (h : Alike sources sources' visited id)
    (hsub : visited ⊆ visited') : Alike sources sources' visited' id where
  offer := fun hnew => h.offer fun hold => hnew (hsub hold)
  parent := h.parent

-- What was asked before stays asked.
theorem subset_visited_scanSource (w : Site τ) (sources : Sources) (id : SourceId) (k : Walk τ) :
    k.visited ⊆ (scanSource w sources id k).2.visited := by
  rcases scanSource_sweep (w := w) sources id k with ⟨ids, l, hsweep, _⟩
  rw [hsweep.leg.visited]
  exact List.subset_append_right _ _

theorem scanSource_alike (h : Alike sources sources' k.visited id) :
    scanSource w sources' id k = scanSource w sources id k := by
  unfold scanSource
  split
  · rfl
  · rename_i hnew
    rw [h.offer hnew]

theorem scanSource_eq_ok (h : Askable sources k.visited id) :
    ∃ s, (scanSource w sources id k).1 = .ok s := by
  unfold scanSource
  split
  · exact ⟨[], rfl⟩
  · rename_i hnew
    cases hoffer : (sources id).offer with
    | nothing => exact ⟨[], rfl⟩
    | unreadable => exact absurd hoffer (h.offer hnew)
    | failing => exact ⟨[], rfl⟩
    | items urls => exact ⟨_, rfl⟩

-- By induction on the fuel. What is asked here can only shrink what is still to be
-- asked in the rest of the chain.
theorem scanChainFrom_alike (fuel : Nat) (t : RecordSet) (id : Option SourceId) (k : Walk τ)
    (h : ∀ x, (∃ n < fuel, ancestor sources n id = some x) → Alike sources sources' k.visited x) :
    scanChainFrom w sources' fuel t id k = scanChainFrom w sources fuel t id k := by
  induction fuel generalizing t id k with
  | zero => cases id <;> rfl
  | succ fuel ih =>
      cases id with
      | none => rfl
      | some id =>
          have hhere := h id ((exists_ancestor_some_iff sources fuel id id).mpr (Or.inl rfl))
          have hgrow := subset_visited_scanSource w sources id k
          rw [scanChainFrom, scanChainFrom, scanSource_alike hhere, hhere.parent]
          rcases hscan : scanSource w sources id k with ⟨f | more, k'⟩
          · rfl
          · rw [hscan] at hgrow
            cases hparent : (sources id).parent with
            | root => rfl
            | unreadable => rfl
            | parent next =>
                refine ih (t.union more) (some next) k' fun x hx => (h x ?_).mono hgrow
                rw [exists_ancestor_some_iff, parentOf, hparent]
                exact Or.inr hx

theorem scanChainFrom_eq_ok (fuel : Nat) (t : RecordSet) (id : Option SourceId) (k : Walk τ)
    (h : ∀ x, (∃ n < fuel, ancestor sources n id = some x) → Askable sources k.visited x) :
    ∃ s, (scanChainFrom w sources fuel t id k).1 = .ok s := by
  induction fuel generalizing t id k with
  | zero => cases id <;> exact ⟨t, rfl⟩
  | succ fuel ih =>
      cases id with
      | none => exact ⟨t, rfl⟩
      | some id =>
          have hhere := h id ((exists_ancestor_some_iff sources fuel id id).mpr (Or.inl rfl))
          have hgrow := subset_visited_scanSource w sources id k
          rcases scanSource_eq_ok (w := w) hhere with ⟨more, hmore⟩
          rw [scanChainFrom]
          rcases hscan : scanSource w sources id k with ⟨f | more', k'⟩
          · rw [hscan] at hmore
            cases hmore
          · rw [hscan] at hgrow
            cases hparent : (sources id).parent with
            | root => exact ⟨_, rfl⟩
            | unreadable => exact absurd hparent hhere.parent
            | parent next =>
                refine ih (t.union more') (some next) k' fun x hx => (h x ?_).mono hgrow
                rw [exists_ancestor_some_iff, parentOf, hparent]
                exact Or.inr hx

/-- What a scan of the chain of `start` does, if it asks the sources `ids` and
    follows the leads `l` with their answers. -/
structure Ascent (w : Site τ) (sources : Sources) (start : Option SourceId) (k : Walk τ)
    (ids : List SourceId) (l : List (Lead × Option Record)) : Prop where
  near : ∀ id ∈ ids, NearAncestor sources start id
  few : ids.length ≤ longestChain
  /-- No other sources make a difference, and no list that was asked for before. -/
  blind : ∀ sources', (∀ id, NearAncestor sources start id → Alike sources sources' k.visited id) →
    scanChain w sources' start k = scanChain w sources start k
  /-- There is an answer unless some source cannot be asked. -/
  returns : (∀ id, NearAncestor sources start id → Askable sources k.visited id) →
    ∃ s, (scanChain w sources start k).1 = .ok s
  /-- If there is one, then all these sources were asked that had not been before,
      and their records are all there, and no others. -/
  whole : ∀ s, (scanChain w sources start k).1 = .ok s →
    (∀ id, id ∈ ids ↔ NearAncestor sources start id ∧ id ∉ k.visited) ∧
      (∀ r ∈ s, Answers l r) ∧ ∀ r, Answers l r → s.Holds r

/-- A chain has no more near ancestors than places. -/
theorem length_le_of_near {start : Option SourceId} (hnodup : ids.Nodup)
    (h : ∀ id ∈ ids, NearAncestor sources start id) : ids.length ≤ longestChain := by
  have hsub : ids ⊆ (List.range longestChain).filterMap fun n => ancestor sources n start := by
    intro id hid
    rcases h id hid with ⟨n, hn, hancestor⟩
    exact List.mem_filterMap.mpr ⟨n, List.mem_range.mpr hn, hancestor⟩
  calc ids.length
      ≤ ((List.range longestChain).filterMap fun n => ancestor sources n start).length :=
        (List.subperm_of_subset hnodup hsub).length_le
    _ ≤ (List.range longestChain).length := List.length_filterMap_le _ _
    _ = longestChain := List.length_range

/-- A scan of a chain asks the first sources in it that were not asked before, and
    gives their records. -/
theorem scanChain_ascent (w : Site τ) (sources : Sources) (start : Option SourceId) (k : Walk τ) :
    ∃ ids l, Leg w sources k ids l (scanChain w sources start k).2 ∧
      Ascent w sources start k ids l := by
  rcases scanChainFrom_sweep (w := w) sources longestChain [] start k
    with ⟨ids, l, hleg, hnear, hok⟩
  have hwhole : ∀ s, (scanChain w sources start k).1 = .ok s →
      (∀ id, id ∈ ids ↔ NearAncestor sources start id ∧ id ∉ k.visited) ∧
        (∀ r ∈ s, Answers l r) ∧ ∀ r, Answers l r → s.Holds r := by
    intro s hs
    rcases hok s hs with ⟨hsweep, hall⟩
    refine ⟨fun id => ⟨fun hid => ⟨hnear id hid, hleg.fresh id hid⟩, fun hid => ?_⟩,
      fun r hr => ?_, fun r hr => ?_⟩
    · exact (hall id hid.1).resolve_right hid.2
    · exact (hsweep.sound r hr).resolve_left List.not_mem_nil
    · exact hsweep.complete r (Or.inr hr)
  exact ⟨ids, l, hleg, {
    near := hnear
    few := length_le_of_near hleg.nodup hnear
    blind := fun _ h => scanChainFrom_alike longestChain [] start k h
    returns := scanChainFrom_eq_ok longestChain [] start k
    whole := hwhole }⟩

end Chains

/-- What a scan starts from when it is told which sources were asked before. -/
inductive Stage where
  | system
  | own
  | others
  | chain (start : Option SourceId)

/-- A scan of one stage, with what it looks at. -/
structure Scan (τ : Type) where
  site : Site τ
  scene : Scene
  stage : Stage

section Scans

variable {τ : Type} [Add τ] [LT τ] [DecidableRel (α := τ) (· < ·)]

/-- What a scan gives, and where it leaves the walk. -/
def Scan.run (x : Scan τ) (k : Walk τ) : Except Resolution.Fault RecordSet × Walk τ :=
  match x.stage with
  | .system => scanSystem x.site x.scene k
  | .own => scanOwn x.site x.scene k
  | .others => (.ok (scanOthers x.site x.scene k).1, (scanOthers x.site x.scene k).2)
  | .chain start => scanChain x.site x.scene.sources start k

/-- Where scans that share what was asked leave the walk. -/
def runAll (scans : List (Scan τ)) (k : Walk τ) : Walk τ :=
  scans.foldl (fun k x => (x.run k).2) k

theorem runAll_concat (scans : List (Scan τ)) (x : Scan τ) (k : Walk τ) :
    runAll (scans ++ [x]) k = (x.run (runAll scans k)).2 := by
  unfold runAll
  rw [List.foldl_append]
  rfl

/-- The same scan, of other sources. -/
def Scan.withSources (x : Scan τ) (sources : Sources) : Scan τ :=
  { x with scene := { x.scene with sources } }

/-- What a scan does, if it asks the sources `ids` and follows the leads `l` with
    their answers. -/
structure Scan.Asks (x : Scan τ) (k : Walk τ) (ids : List SourceId)
    (l : List (Lead × Option Record)) : Prop where
  leg : Leg x.site x.scene.sources k ids l (x.run k).2
  /-- No list makes a difference that was asked for before. -/
  blind : ∀ sources, (∀ id, Alike x.scene.sources sources k.visited id) →
    (x.withSources sources).run k = x.run k
  ascent : ∀ start, x.stage = .chain start → Ascent x.site x.scene.sources start k ids l

variable {w : Site τ} {sources sources' : Sources} {k : Walk τ}

theorem scanIf_alike (id : Option SourceId) (h : ∀ x, Alike sources sources' k.visited x) :
    scanIf w sources' id k = scanIf w sources id k := by
  cases id with
  | none => rfl
  | some id => exact scanSource_alike (h id)

theorem scanSystem_alike {c : Scene} (h : ∀ x, Alike c.sources sources k.visited x) :
    scanSystem w { c with sources } k = scanSystem w c k := by
  unfold scanSystem
  cases c.system with
  | absent => rfl
  | failing => rfl
  | source id => exact scanSource_alike (h id)

theorem scanEach_alike (records : RecordSet) (starts : List (Option SourceId)) (k : Walk τ)
    (h : ∀ x, Alike sources sources' k.visited x) :
    scanEach w sources' records starts k = scanEach w sources records starts k := by
  induction starts generalizing records k with
  | nil => rfl
  | cons id rest ih =>
      have hgrow : k.visited ⊆ (scanIf w sources id k).2.visited := by
        cases id with
        | none => exact List.Subset.refl _
        | some id => exact subset_visited_scanSource w sources id k
      rw [scanEach, scanEach, scanIf_alike id h]
      rcases hscan : scanIf w sources id k with ⟨f | more, k'⟩
      · rfl
      · rw [hscan] at hgrow
        exact ih (records.union more) k' fun x => (h x).mono hgrow

theorem scanOthers_alike {c : Scene} (h : ∀ x, Alike c.sources sources k.visited x) :
    scanOthers w { c with sources } k = scanOthers w c k := by
  have heach : scanEach w sources [] (othersOf { c with sources }) k =
      scanEach w c.sources [] (othersOf c) k := scanEach_alike [] (othersOf c) k h
  simp only [scanOthers, heach]

/-- Every scan does these things. -/
theorem Scan.exists_asks (x : Scan τ) (k : Walk τ) : ∃ ids l, x.Asks k ids l := by
  obtain ⟨w, c, stage⟩ := x
  cases stage with
  | system =>
      rcases scanSystem_round (w := w) c k with ⟨ids, l, hleg, _⟩
      exact ⟨ids, l, hleg, fun _ h => scanSystem_alike h, nofun⟩
  | own =>
      rcases scanIf_round (w := w) c.sources (c.roster.sourceOf c.caller) k with ⟨ids, l, hleg, _⟩
      exact ⟨ids, l, hleg, fun _ h => scanIf_alike _ h, nofun⟩
  | others =>
      rcases scanOthers_round (w := w) c k with ⟨ids, l, hleg, _⟩
      refine ⟨ids, l, hleg, fun sources h => ?_, nofun⟩
      simp only [run, withSources, scanOthers_alike h]
  | chain start =>
      rcases scanChain_ascent w c.sources start k with ⟨ids, l, hleg, hascent⟩
      refine ⟨ids, l, hleg, fun sources h => hascent.blind sources fun id _ => h id, ?_⟩
      rintro _ ⟨⟩
      exact hascent

/-- What scans ask one after the other, if they share what was asked. -/
structure Tour (scans : List (Scan τ)) (k : Walk τ) (asked : List (List SourceId)) : Prop where
  length : asked.length = scans.length
  /-- No source is asked twice, in one scan or in two. -/
  nodup : asked.flatten.Nodup
  fresh : ∀ id ∈ asked.flatten, id ∉ k.visited
  visited : (runAll scans k).visited = asked.flatten.reverse ++ k.visited
  each : ∀ (n : Nat) (x : Scan τ), scans[n]? = some x →
    ∃ ids l, asked[n]? = some ids ∧ x.Asks (runAll (scans.take n) k) ids l

theorem tour_concat {scans : List (Scan τ)} {asked : List (List SourceId)} (h : Tour scans k asked)
    {x : Scan τ} {ids : List SourceId} {l : List (Lead × Option Record)}
    (hx : x.Asks (runAll scans k) ids l) : Tour (scans ++ [x]) k (asked ++ [ids]) := by
  -- What this scan asks was not asked by the walk so far.
  have hnew : ∀ id ∈ ids, id ∉ asked.flatten ∧ id ∉ k.visited := by
    intro id hid
    have hvisited := hx.leg.fresh id hid
    rw [h.visited, List.mem_append, List.mem_reverse, not_or] at hvisited
    exact hvisited
  have hflatten : (asked ++ [ids]).flatten = asked.flatten ++ ids := by
    rw [List.flatten_append, List.flatten_singleton]
  refine ⟨?_, ?_, fun id hid => ?_, ?_, fun n y hy => ?_⟩
  · rw [List.length_append, List.length_append, h.length]
    rfl
  · rw [hflatten, List.nodup_append]
    refine ⟨h.nodup, hx.leg.nodup, fun a ha b hb hab => (hnew b hb).1 ?_⟩
    rw [← hab]
    exact ha
  · rw [hflatten, List.mem_append] at hid
    exact hid.elim (h.fresh id) fun hid => (hnew id hid).2
  · rw [runAll_concat, hx.leg.visited, h.visited, hflatten, List.reverse_append,
      List.append_assoc]
  · by_cases hn : n < scans.length
    · rw [List.getElem?_append_left hn] at hy
      rw [List.take_append_of_le_length hn.le,
        List.getElem?_append_left (h.length.symm ▸ hn)]
      exact h.each n y hy
    · -- It is the last one.
      have hlength : n < (scans ++ [x]).length := (List.getElem?_eq_some_iff.mp hy).1
      obtain rfl : n = scans.length := by
        rw [List.length_append, List.length_singleton] at hlength
        omega
      rw [List.getElem?_concat_length, Option.some.injEq] at hy
      rw [List.take_left' rfl, ← h.length, List.getElem?_concat_length, ← hy]
      exact ⟨ids, l, rfl, hx⟩

/-- Scans of any stages, on any disks and with any sources, that share what was
    asked, however much was asked before them: over all of them no source is asked
    twice, and each scan of a chain goes past the first sources in it only, asks
    those of them that were not asked before, and gives exactly their records. -/
theorem runAll_tour (scans : List (Scan τ)) (k : Walk τ) :
    ∃ asked : List (List SourceId), Tour scans k asked := by
  induction scans using List.reverseRecOn with
  | nil => exact ⟨[], rfl, List.nodup_nil, fun _ h => absurd h List.not_mem_nil, rfl, nofun⟩
  | append_singleton scans x ih =>
      rcases ih with ⟨asked, htour⟩
      rcases x.exists_asks (runAll scans k) with ⟨ids, l, hx⟩
      exact ⟨asked ++ [ids], tour_concat htour hx⟩

-- The circle leads past the source that was asked before to the one behind it, and
-- a second scan finds nothing left to ask.
example : (runAll [⟨nestingSite, circleScene, .chain (some 1)⟩,
    ⟨nestingSite, circleScene, .chain (some 0)⟩]
      { memory := .empty 100 2, visited := [2] }).visited = [0, 1, 2] := by
  decide +kernel

end Scans

end Survey

end ArchiveCensus
