import ArchiveCensus.Proofs.Survey.Retention
import Mathlib.Algebra.BigOperators.Group.Finset.Basic
import Mathlib.Algebra.Order.BigOperators.Group.Finset
import Mathlib.Data.Finset.Option

/-!
# How Many Records a Scan Gives

A scan gives no record twice, but what counts as the same record is decided by
its identity, and the number of its scratch copy is part of that. So for a file
there is one record at most, by whatever URLs it is named. For a member of an
archive there is one for each copy, and the copies are what has to be counted.

A copy is saved by the memory, and the memory knows a member by its URL as it is
written. Without anything to rely on there is one copy at most for each time that
such a URL is listed. If nothing is lost while the scan goes on, there is one for
each such URL. And only if no member is written in two ways, there is one for
each member. `twiceScene` and `againScene` have one member and two records of it,
the one because it is written in two ways, and the other because its record has
expired when it comes up again.

## Main definitions

* `Scene.reached`: The sources that a scan gets to.
* `Scene.plainPaths`, `Scene.members`: What the listed URLs name.
* `Scene.spellings`, `Scene.nestedListings`: The URLs of members as they are
  written, and how often they are listed.
* `Undisturbed`: Nothing is lost while the scan goes on.

## Theorems

* `mem_reached`: What it takes to be reached.
* `key_named`: A key that leads to a record is among what is named.
* `length_scanAll_le`: How many records there are at most.
* `members_lt_length_scanAll`: In general not one for each member.
-/

namespace ArchiveCensus

namespace Survey

open Surroundings

section Distinct

variable {τ : Type}

-- Only what is added to has to be without repetitions, not what is added.
theorem distinct_takeTurns
    (scan : Option SourceId → Walk τ → Except Resolution.Fault RecordSet × Walk τ)
    (starts : List (Option SourceId)) {s : RecordSet} (h : s.Distinct) (k : Walk τ) :
    (takeTurns scan s starts k).1.Distinct := by
  induction starts generalizing s k with
  | nil => exact h
  | cons id rest ih =>
      rw [takeTurns]
      rcases scan id k with ⟨f | more, k'⟩
      · exact h
      · exact ih (h.union more) k'

variable [Add τ] [LT τ] [DecidableRel (α := τ) (· < ·)]

/-- A scan gives no record twice. -/
theorem distinct_scanAll (w : Site τ) (c : Scene) (m : Memory τ) :
    (scanAll w c m).1.Distinct := by
  have hnil : RecordSet.Distinct [] := List.nodup_nil
  have hstages : (scanStages w c { memory := m }).1.Distinct := by
    rw [scanStages]
    rcases scanSystem w c { memory := m } with ⟨f | system, k₁⟩
    · exact hnil
    dsimp only
    rcases scanOwn w c k₁ with ⟨f | own, k₂⟩
    · exact hnil.union system
    dsimp only
    rw [scanChains_eq_takeTurns]
    exact distinct_takeTurns _ _ (((hnil.union system).union own).union _) _
  unfold scanAll
  rcases hscan : scanStages w c { memory := m } with ⟨records, _ | f, k⟩
  · rw [hscan] at hstages
    exact hstages
  · rw [hscan] at hstages
    exact hstages

end Distinct

/-- The source of the process, if it can be made. -/
def SystemSource.id? : SystemSource → Option SourceId
  | .source id => some id
  | .absent | .failing => none

/-- The sources that a scan gets to. -/
def Scene.reached (c : Scene) : Finset SourceId :=
  c.system.id?.toFinset ∪ (c.roster.sourceOf c.caller).toFinset ∪
    ((othersOf c).filterMap id).toFinset ∪
    c.extra.toFinset.biUnion fun start => (Finset.range longestChain).biUnion fun n =>
      (ancestor c.sources n start).toFinset

theorem mem_reached (c : Scene) (id : SourceId) : id ∈ c.reached ↔ c.Reachable id := by
  have hsystem : c.system.id? = some id ↔ c.system = .source id := by
    cases c.system <;> simp only [SystemSource.id?, reduceCtorEq, Option.some.injEq,
      SystemSource.source.injEq]
  rw [← reachable_iff, ← hsystem]
  simp only [Scene.reached, Finset.mem_union, Option.mem_toFinset, Option.mem_def,
    List.mem_toFinset, List.mem_filterMap, id_eq, Finset.mem_biUnion, Finset.mem_range]

section Named

/-- What the items that are listed name. -/
def Scene.named {α : Type} [DecidableEq α] (c : Scene) (f : Option Text → Option α) : Finset α :=
  c.reached.biUnion fun id => ((listed c.sources id).filterMap f).toFinset

theorem mem_named {α : Type} [DecidableEq α] {c : Scene} {f : Option Text → Option α} {a : α} :
    a ∈ c.named f ↔
      ∃ id, c.Reachable id ∧ ∃ item ∈ listed c.sources id, f item = some a := by
  simp only [Scene.named, Finset.mem_biUnion, mem_reached, List.mem_toFinset, List.mem_filterMap]

/-- The absolute path that an item names, if it is the URL of a file. -/
def plainPath? (w : Surroundings) (item : Option Text) : Option Text :=
  (item.filter fun u => !isNestedUrl u).bind fun u =>
    (Location.filePath u).toOption.map fun p => (w.disk.absolute p).toText

/-- The item, if it is the URL of a member. -/
def spelling? (item : Option Text) : Option Text :=
  item.filter fun u => isNestedUrl u && (Location.splitNested u).toOption.isSome

/-- The outer path and the inner entry that an item names, if it is the URL of a
    member. -/
def namedMember? (item : Option Text) : Option (Text × Text) :=
  (spelling? item).bind fun u => (Location.splitNested u).toOption

/-- The absolute paths of files that are named. -/
def Scene.plainPaths (c : Scene) (w : Surroundings) : Finset Text :=
  c.named (plainPath? w)

/-- The URLs of members, as they are written. -/
def Scene.spellings (c : Scene) : Finset Text :=
  c.named spelling?

/-- The members that are named, by outer path and inner entry. -/
def Scene.members (c : Scene) : Finset (Text × Text) :=
  c.named namedMember?

/-- How often the URL of a member is listed. -/
def Scene.nestedListings (c : Scene) : Nat :=
  ∑ id ∈ c.reached, (listed c.sources id).countP fun item => (spelling? item).isSome

variable {w : Surroundings} {item : Option Text} {key u : Text} {n : Nat} {r : Record}

theorem spelling?_eq_some_iff :
    spelling? item = some u ↔
      item = some u ∧ isNestedUrl u = true ∧ ∃ x, Location.splitNested u = .ok x := by
  rw [spelling?, Option.filter_eq_some_iff, Bool.and_eq_true]
  rcases Location.splitNested u with f | x
  · simp only [Except.toOption, Option.isSome_none, Bool.false_eq_true, and_false, reduceCtorEq,
      exists_false]
  · simp only [Except.toOption, Option.isSome_some, and_true, Except.ok.injEq, exists_eq']

theorem splitNested_of_recordAt (hu : isNestedUrl u = true) (h : recordAt w n u = some r) :
    ∃ x, Location.splitNested u = .ok x := by
  rw [recordAt_of_nested hu, resolveNested] at h
  rcases hsplit : Location.splitNested u with f | x
  · rw [hsplit] at h
    exact absurd h (by simp only [Resolution.failed, reduceCtorEq, not_false_eq_true])
  · exact ⟨x, rfl⟩

/-- A key that leads to a record is the path or the URL that the item names. -/
theorem key_named (hkey : (Lead.item item).key? w = some key) (h : recordAt w n key = some r) :
    (plainPath? w item = some key ∧ isNestedUrl key = false) ∨ spelling? item = some key := by
  cases item with
  | none => exact absurd hkey (by simp only [Lead.key?, reduceCtorEq, not_false_eq_true])
  | some u =>
      rw [Lead.key?] at hkey
      split at hkey
      · rename_i hu
        obtain rfl : u = key := Option.some.inj hkey
        exact Or.inr (spelling?_eq_some_iff.mpr ⟨rfl, hu, splitNested_of_recordAt hu h⟩)
      · rename_i hu
        split at hkey
        · rename_i p hpath
          obtain rfl : (w.disk.absolute p).toText = key := Option.some.inj hkey
          refine Or.inl ⟨?_, isNestedUrl_toText_absolute w p⟩
          rw [plainPath?, Option.filter_some, if_pos (by simp only [hu, Bool.not_false]),
            Option.bind_some, filePath_of_archivePath hpath]
          rfl
        · exact absurd hkey (by simp only [reduceCtorEq, not_false_eq_true])

end Named

/-- There are no more records than keys if each record is found by a key. -/
theorem card_le_of_found {records : Finset Record} {keys : Finset Text}
    (find : Text → Option Record) (h : ∀ r ∈ records, ∃ k ∈ keys, find k = some r) :
    records.card ≤ keys.card := by
  have hsub : records.image some ⊆ keys.image find := by
    intro x hx
    rcases Finset.mem_image.mp hx with ⟨r, hr, rfl⟩
    rcases h r hr with ⟨k, hk, hfind⟩
    exact Finset.mem_image.mpr ⟨k, hk, hfind⟩
  calc records.card = (records.image some).card :=
        (Finset.card_image_of_injective _ (Option.some_injective _)).symm
    _ ≤ (keys.image find).card := Finset.card_le_card hsub
    _ ≤ keys.card := Finset.card_image_le

-- The same, if it stands under a key of its own in some store.
theorem card_le_of_entries {τ : Type} {s : ExpiringStore Text Record τ} (hd : s.Distinct)
    {records : Finset Record} {keys : Finset Text}
    (h : ∀ r ∈ records, ∃ e ∈ s.entries, e.key ∈ keys ∧ e.value = r) :
    records.card ≤ keys.card := by
  refine card_le_of_found (fun k => (s.entry? k).map ExpiringStore.Entry.value) fun r hr => ?_
  rcases h r hr with ⟨e, he, hkey, rfl⟩
  refine ⟨e.key, hkey, ?_⟩
  rw [(hd.entry?_eq_some_iff).mpr ⟨he, rfl⟩]
  rfl

theorem card_toFinset_of_distinct {s : RecordSet} (h : s.Distinct) :
    s.toFinset.card = s.length :=
  List.toFinset_card_of_nodup (List.Nodup.of_map _ h)

/-- The URL of a member that a lead is. -/
def Lead.spelling? : Lead → Option Text
  | .item x => Survey.spelling? x
  | .path _ _ => none

-- No more URLs of members are followed than are listed, as no source is asked twice.
theorem countP_leads_le {c : Scene} {ids : List SourceId} (hnodup : ids.Nodup)
    (hids : ∀ id ∈ ids, c.Reachable id) {leads : List Lead}
    (hleads : leads = ids.flatMap fun id => (listed c.sources id).map Lead.item) :
    leads.countP (fun lead => lead.spelling?.isSome) ≤ c.nestedListings := by
  have hsub : ids.toFinset ⊆ c.reached := fun id hid =>
    (mem_reached c id).mpr (hids id (List.mem_toFinset.mp hid))
  rw [hleads, List.countP_flatMap, ← List.sum_toFinset _ hnodup]
  refine le_trans (le_of_eq (Finset.sum_congr rfl fun id _ => ?_))
    (Finset.sum_le_sum_of_subset hsub)
  rw [Function.comp_apply, List.countP_map]
  rfl

-- The number of a copy makes no difference to a file.
theorem recordAt_of_plain {w : Surroundings} {key : Text} (h : isNestedUrl key = false)
    (n n' : Nat) : recordAt w n key = recordAt w n' key := by
  rw [recordAt, recordAt, if_neg (Bool.not_eq_true _ ▸ h), if_neg (Bool.not_eq_true _ ▸ h)]

/-- If no member is written in two ways, there are no more URLs than members. -/
theorem card_spellings_le {c : Scene}
    (h : ∀ u ∈ c.spellings, ∀ v ∈ c.spellings,
      Location.splitNested u = Location.splitNested v → u = v) :
    c.spellings.card ≤ c.members.card := by
  have hsplit : ∀ u ∈ c.spellings, ∃ x ∈ c.members, Location.splitNested u = .ok x := by
    intro u hu
    rcases mem_named.mp hu with ⟨id, hid, item, hitem, hspelled⟩
    rcases (spelling?_eq_some_iff.mp hspelled).2.2 with ⟨x, hx⟩
    refine ⟨x, mem_named.mpr ⟨id, hid, item, hitem, ?_⟩, hx⟩
    rw [namedMember?, hspelled, Option.bind_some, hx]
    rfl
  have hsub : c.spellings.image Location.splitNested ⊆ c.members.image .ok := by
    intro y hy
    rcases Finset.mem_image.mp hy with ⟨u, hu, rfl⟩
    rcases hsplit u hu with ⟨x, hx, hok⟩
    exact Finset.mem_image.mpr ⟨x, hx, hok.symm⟩
  calc c.spellings.card = (c.spellings.image Location.splitNested).card :=
        (Finset.card_image_of_injOn h).symm
    _ ≤ (c.members.image .ok).card := Finset.card_le_card hsub
    _ ≤ c.members.card := Finset.card_image_le

section Bounds

variable {τ : Type} [Add τ] [LT τ] [DecidableRel (α := τ) (· < ·)] {w : Site τ} {m : Memory τ}
  {c : Scene}

/-- Nothing is lost while the scan goes on: what is remembered when it begins does
    not expire, the clock does not go on by more than the lifetime, and there is
    room for all keys that may come up. -/
structure Undisturbed (w : Site τ) (c : Scene) (m : Memory τ) : Prop where
  old : ∀ e ∈ m.store.entries, ∀ j, m.readings ≤ j → j < (scanAll w c m).2.readings →
    ¬ e.expires < w.clock j
  new : ∀ i j, m.readings ≤ i → i ≤ j → j < (scanAll w c m).2.readings →
    ¬ w.clock i + m.store.lifetime < w.clock j
  room : (m.store.keys ∪ (c.plainPaths w.toSurroundings ∪ c.spellings)).card ≤ m.store.capacity

theorem length_le_listings (hd : w.disk.Sound) (h : Genuine w.toSurroundings m) (c : Scene) :
    (scanAll w c m).1.length ≤ (c.plainPaths w.toSurroundings).card + c.nestedListings := by
  rcases scanAll_trail w c m with ⟨ids, l, htrail, hnodup, hids, hleads, hrecords⟩
  have hanswers := (trail_genuine hd htrail h).2
  let copies := (l.filter fun x => x.1.spelling?.isSome).filterMap Prod.snd
  -- A record that is no copy's has been found by its path.
  have hplain : ∀ r ∈ (scanAll w c m).1.toFinset \ copies.toFinset,
      ∃ k ∈ c.plainPaths w.toSurroundings, recordAt w.toSurroundings 0 k = some r := by
    intro r hr
    rcases Finset.mem_sdiff.mp hr with ⟨hr, hnot⟩
    rcases hrecords r (List.mem_toFinset.mp hr) with ⟨lead, hmem⟩
    rcases hanswers lead r hmem with ⟨k, n, hkey, hk⟩
    rcases exists_listed hleads hmem with ⟨id, hid, item, hitem, rfl⟩
    rcases key_named hkey hk with ⟨hpath, hfile⟩ | hspelled
    · exact ⟨k, mem_named.mpr ⟨id, hids id hid, item, hitem, hpath⟩,
        (recordAt_of_plain hfile 0 n).trans hk⟩
    · have hcopy : (Lead.item item, some r) ∈ l.filter fun x => x.1.spelling?.isSome := by
        refine List.mem_filter.mpr ⟨hmem, ?_⟩
        rw [Lead.spelling?, hspelled]
        rfl
      have hr : r ∈ copies.toFinset :=
        List.mem_toFinset.mpr (List.mem_filterMap.mpr ⟨_, hcopy, rfl⟩)
      exact absurd hr hnot
  have hcopies : copies.length ≤ c.nestedListings := by
    refine (List.length_filterMap_le _ _).trans ?_
    rw [← List.countP_eq_length_filter]
    have hcount := countP_leads_le hnodup hids hleads
    rw [List.countP_map] at hcount
    exact hcount
  calc (scanAll w c m).1.length
      = (scanAll w c m).1.toFinset.card :=
        (card_toFinset_of_distinct (distinct_scanAll w c m)).symm
    _ ≤ ((scanAll w c m).1.toFinset \ copies.toFinset).card + copies.toFinset.card :=
        Finset.card_le_card_sdiff_add_card
    _ ≤ (c.plainPaths w.toSurroundings).card + c.nestedListings :=
        Nat.add_le_add (card_le_of_found _ hplain) ((List.toFinset_card_le _).trans hcopies)

theorem length_le_spellings (hd : w.disk.Sound) (h : Genuine w.toSurroundings m)
    (hund : Undisturbed w c m) :
    (scanAll w c m).1.length ≤ (c.plainPaths w.toSurroundings).card + c.spellings.card := by
  rcases scanAll_trail w c m with ⟨ids, l, htrail, _, hids, hleads, hrecords⟩
  have hnamed : ∀ x ∈ l, ∀ k n r, x.1.key? w.toSurroundings = some k →
      recordAt w.toSurroundings n k = some r →
      k ∈ c.plainPaths w.toSurroundings ∪ c.spellings := by
    intro x hx k n r hkey hk
    rcases exists_listed hleads hx with ⟨id, hid, item, hitem, heq⟩
    rw [heq] at hkey
    rcases key_named hkey hk with ⟨hpath, _⟩ | hspelled
    · exact Finset.mem_union_left _ (mem_named.mpr ⟨id, hids id hid, item, hitem, hpath⟩)
    · exact Finset.mem_union_right _ (mem_named.mpr ⟨id, hids id hid, item, hitem, hspelled⟩)
  have hstart : Retaining w (m.store.keys ∪ (c.plainPaths w.toSurroundings ∪ c.spellings))
      (scanAll w c m).2.readings m :=
    ⟨h, Finset.subset_union_left, hund.room, hund.old, hund.new⟩
  rcases trail_retaining hd htrail hstart
    (fun x hx k n r hkey hk => Finset.mem_union_right _ (hnamed x hx k n r hkey hk)) (Nat.le_refl _)
    with ⟨hend, _, hanswers⟩
  -- In the end each record still stands under its key.
  have hfound : ∀ r ∈ (scanAll w c m).1.toFinset,
      ∃ e ∈ (scanAll w c m).2.store.entries,
        e.key ∈ c.plainPaths w.toSurroundings ∪ c.spellings ∧ e.value = r := by
    intro r hr
    rcases hrecords r (List.mem_toFinset.mp hr) with ⟨lead, hmem⟩
    rcases hanswers lead r hmem with ⟨e, he, hkey, hvalue⟩
    rcases hend.genuine.entries e he with ⟨n, hn⟩
    exact ⟨e, he, hnamed _ hmem e.key n _ hkey hn, hvalue⟩
  calc (scanAll w c m).1.length
      = (scanAll w c m).1.toFinset.card :=
        (card_toFinset_of_distinct (distinct_scanAll w c m)).symm
    _ ≤ (c.plainPaths w.toSurroundings ∪ c.spellings).card :=
        card_le_of_entries hend.genuine.distinct hfound
    _ ≤ (c.plainPaths w.toSurroundings).card + c.spellings.card := Finset.card_union_le _ _

/-- A scan gives at most one record for each file that is named, and for each time
    that the URL of a member is listed; at most one for each such URL if nothing
    is lost on the way, and for each member if none is written in two ways. -/
theorem length_scanAll_le (w : Site τ) (hd : w.disk.Sound) (lifetime : τ) (capacity : Nat)
    (calls : List Call) (c : Scene) :
    let m := (performAll w calls (.empty lifetime capacity)).2
    (scanAll w c m).1.length ≤ (c.plainPaths w.toSurroundings).card + c.nestedListings ∧
      (Undisturbed w c m →
        (scanAll w c m).1.length ≤ (c.plainPaths w.toSurroundings).card + c.spellings.card ∧
        ((∀ u ∈ c.spellings, ∀ v ∈ c.spellings,
            Location.splitNested u = Location.splitNested v → u = v) →
          (scanAll w c m).1.length ≤
            (c.plainPaths w.toSurroundings).card + c.members.card)) := by
  intro m
  have hgenuine : Genuine w.toSurroundings m :=
    performAll_genuine hd calls (genuine_empty _ lifetime capacity)
  refine ⟨length_le_listings hd hgenuine c, fun hund => ?_⟩
  have hspellings := length_le_spellings hd hgenuine hund
  exact ⟨hspellings, fun honce =>
    hspellings.trans (Nat.add_le_add_left (card_spellings_le honce) _)⟩

end Bounds

/-- On a clock that ticks, nothing is lost of an empty memory if everything fits in
    and lasts for as many readings as there are. -/
theorem undisturbed_of_ticking {w : Site Nat} (hclock : w.clock = id) {lifetime capacity : Nat}
    {c : Scene} (hlast : (scanAll w c (.empty lifetime capacity)).2.readings ≤ lifetime)
    (hroom : (c.plainPaths w.toSurroundings ∪ c.spellings).card ≤ capacity) :
    Undisturbed w c (.empty lifetime capacity) where
  old := fun _ h => absurd h List.not_mem_nil
  new := by
    intro i j _ _ hj hlate
    rw [hclock] at hlate
    have hsum : i + lifetime < j := hlate
    omega
  room := by
    have hkeys : (Memory.empty lifetime capacity).store.keys = ∅ := rfl
    rw [hkeys, Finset.empty_union]
    exact hroom

/-- One source that writes a member in two ways. -/
def twiceScene : Scene :=
  { sources := fun _ => { offer := .items [some "jar:file:a.jar!/b.jar",
      some "jar:nested:a.jar!/b.jar"] }
    extra := [some 0] }

/-- Two sources that write the member in the same way, and name its archive in two. -/
def againScene : Scene :=
  { sources := fun _ => { offer := .items [some "jar:file:a.jar!/b.jar", some "file:a.jar",
      some "file:/home/a.jar"] }
    extra := [some 0, some 1] }

/-- The member and its archive have one record each if nothing expires. -/
theorem length_scanAll_le_again :
    nestingSite.disk.Sound ∧ Undisturbed nestingSite againScene (.empty 100 2) ∧
      (∀ u ∈ againScene.spellings, ∀ v ∈ againScene.spellings,
        Location.splitNested u = Location.splitNested v → u = v) ∧
      (scanAll nestingSite againScene (.empty 100 2)).1.length = 2 ∧
      (scanAll nestingSite againScene (.empty 100 2)).1.length ≤
        (againScene.plainPaths nestingSite.toSurroundings).card + againScene.members.card := by
  have hund : Undisturbed nestingSite againScene (.empty 100 2) :=
    undisturbed_of_ticking rfl (by decide +kernel) (by decide +kernel)
  have honce : ∀ u ∈ againScene.spellings, ∀ v ∈ againScene.spellings,
      Location.splitNested u = Location.splitNested v → u = v := by decide +kernel
  exact ⟨sound_nestingSite, hund, honce, by decide +kernel,
    ((length_scanAll_le nestingSite sound_nestingSite 100 2 [] againScene).2 hund).2 honce⟩

/-- Neither condition can be left out: there are too many records if a member is
    written in two ways, though nothing is lost, and if its record is lost, though
    it is written in one. -/
theorem members_lt_length_scanAll :
    nestingSite.disk.Sound ∧
      (Undisturbed nestingSite twiceScene (.empty 100 2) ∧
        (twiceScene.plainPaths nestingSite.toSurroundings).card + twiceScene.members.card <
          (scanAll nestingSite twiceScene (.empty 100 2)).1.length) ∧
      (∀ u ∈ againScene.spellings, ∀ v ∈ againScene.spellings,
        Location.splitNested u = Location.splitNested v → u = v) ∧
      (againScene.plainPaths nestingSite.toSurroundings).card + againScene.members.card <
        (scanAll nestingSite againScene (.empty 0 2)).1.length := by
  have htwice : Undisturbed nestingSite twiceScene (.empty 100 2) :=
    undisturbed_of_ticking rfl (by decide +kernel) (by decide +kernel)
  exact ⟨sound_nestingSite, ⟨htwice, by decide +kernel⟩, by decide +kernel, by decide +kernel⟩

end Survey

end ArchiveCensus
