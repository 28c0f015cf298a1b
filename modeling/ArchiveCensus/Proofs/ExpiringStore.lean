import ArchiveCensus.ExpiringStore
import Mathlib.Data.Finset.Card
import Mathlib.Data.List.Basic
import Mathlib.Data.List.Nodup

/-!
# What a Store Holds After One Step

An expiring store is seen here through the entries that it holds. A read takes
away at most the entry that it finds expired, a write puts one entry in and may
take others away to make room, and nothing else happens to any entry: its value
and its times stay as they were written.

What a step takes away can be told exactly only if no key stands twice. That is
not built into the type; `Distinct` says it, and every step keeps it. The plain
halves, that nothing is held that was not held or written, do without it.

## Main definitions

* `Distinct`: No key stands twice.
* `keys`: The keys that stand there.
* `newEntry`: The entry that a write puts in.
* `HasRoom`: A write has nothing to take away.

## Theorems

* `read_eq_some_iff`: What a read gives.
* `mem_read_iff`: What is left after a read.
* `hasRoom_of_card`: A key of a set that fits in has room.
* `mem_write_iff_of_hasRoom`: What is there after a write that takes nothing
  away.
* `distinct_read`, `distinct_write`: No step makes a key stand twice.
-/

namespace ArchiveCensus

namespace ExpiringStore

variable {κ ν τ : Type} {s : ExpiringStore κ ν τ}

/-- No key stands twice. -/
def Distinct (s : ExpiringStore κ ν τ) : Prop :=
  (s.entries.map Entry.key).Nodup

theorem Distinct.eq_of_key_eq (hd : s.Distinct) {a b : Entry κ ν τ} (ha : a ∈ s.entries)
    (hb : b ∈ s.entries) (h : a.key = b.key) : a = b :=
  List.inj_on_of_nodup_map hd ha hb h

theorem distinct_of_sublist {t : ExpiringStore κ ν τ} (hd : s.Distinct)
    (h : t.entries.Sublist s.entries) : t.Distinct :=
  hd.sublist (h.map _)

theorem distinct_clear : s.clear.Distinct :=
  List.nodup_nil

/-- A store that could be created is empty and has room for something. -/
theorem of_create_eq_ok {lifetime : τ} {capacity : Int} (h : create lifetime capacity = .ok s) :
    1 ≤ capacity ∧ s = ⟨lifetime, capacity.toNat, []⟩ := by
  unfold create at h
  split at h
  · exact absurd h (by simp only [reduceCtorEq, not_false_eq_true])
  · rename_i hcap
    exact ⟨not_lt.mp hcap, (Except.ok.inj h).symm⟩

variable [DecidableEq κ] {key : κ}

theorem mem_of_entry_eq {e : Entry κ ν τ} (h : s.entry? key = some e) :
    e ∈ s.entries ∧ e.key = key := by
  unfold entry? at h
  exact ⟨List.mem_of_find?_eq_some h, by simpa only [decide_eq_true_eq] using List.find?_some h⟩

theorem entry?_eq_none_iff : s.entry? key = none ↔ ∀ e ∈ s.entries, e.key ≠ key := by
  unfold entry?
  simp only [List.find?_eq_none, decide_eq_true_eq, ne_eq]

theorem Distinct.entry?_eq_some_iff (hd : s.Distinct) {e : Entry κ ν τ} :
    s.entry? key = some e ↔ e ∈ s.entries ∧ e.key = key := by
  refine ⟨mem_of_entry_eq, fun h => ?_⟩
  cases hfind : s.entry? key with
  | none => exact absurd h.2 (entry?_eq_none_iff.mp hfind e h.1)
  | some x =>
      have hx := mem_of_entry_eq hfind
      rw [hd.eq_of_key_eq hx.1 h.1 (hx.2.trans h.2.symm)]

/-- The keys of a store. -/
def keys (s : ExpiringStore κ ν τ) : Finset κ :=
  (s.entries.map Entry.key).toFinset

theorem mem_keys : key ∈ s.keys ↔ ∃ e ∈ s.entries, e.key = key := by
  rw [keys, List.mem_toFinset, List.mem_map]

theorem Distinct.card_keys (hd : s.Distinct) : s.keys.card = s.size := by
  rw [keys, List.toFinset_card_of_nodup hd, List.length_map, size]

-- The order of the keys is the order in which they came: writing over one of them
-- leaves it in its place.
theorem map_key_putEntry (l : List (Entry κ ν τ)) (e : Entry κ ν τ) :
    (putEntry l e).map Entry.key =
      if e.key ∈ l.map Entry.key then l.map Entry.key else l.map Entry.key ++ [e.key] := by
  induction l with
  | nil => rfl
  | cons x rest ih =>
      unfold putEntry
      by_cases hx : x.key = e.key
      · simp only [hx, List.map_cons, List.mem_cons, true_or, if_true]
      · rw [if_neg hx, List.map_cons, List.map_cons, ih]
        simp only [List.mem_cons, Ne.symm hx, false_or]
        split <;> rfl

theorem mem_putEntry {l : List (Entry κ ν τ)} {e x : Entry κ ν τ} (h : x ∈ putEntry l e) :
    x = e ∨ x ∈ l := by
  induction l with
  | nil => exact Or.inl (List.mem_singleton.mp h)
  | cons y rest ih =>
      unfold putEntry at h
      split at h
      · exact (List.mem_cons.mp h).imp_right (List.mem_cons_of_mem y)
      · rcases List.mem_cons.mp h with rfl | hrest
        · exact Or.inr List.mem_cons_self
        · exact (ih hrest).imp_right (List.mem_cons_of_mem y)

-- The entry that stood under the key gives way, and all others stay.
theorem mem_putEntry_iff {l : List (Entry κ ν τ)} (hd : (l.map Entry.key).Nodup)
    {e x : Entry κ ν τ} : x ∈ putEntry l e ↔ x = e ∨ (x ∈ l ∧ x.key ≠ e.key) := by
  induction l with
  | nil => simp only [putEntry, List.mem_singleton, List.not_mem_nil, false_and, or_false]
  | cons y rest ih =>
      rw [List.map_cons, List.nodup_cons] at hd
      unfold putEntry
      by_cases hy : y.key = e.key
      · have hrest : x ∈ rest → x.key ≠ e.key := fun hx hxe =>
          hd.1 (hy ▸ hxe ▸ List.mem_map_of_mem hx)
        rw [if_pos hy, List.mem_cons, List.mem_cons]
        constructor
        · exact Or.imp_right fun hx => ⟨Or.inr hx, hrest hx⟩
        · rintro (rfl | ⟨rfl | hx, hne⟩)
          · exact Or.inl rfl
          · exact absurd hy hne
          · exact Or.inr hx
      · rw [if_neg hy, List.mem_cons, ih hd.2, List.mem_cons]
        constructor
        · rintro (rfl | rfl | ⟨hx, hne⟩)
          · exact Or.inr ⟨Or.inl rfl, hy⟩
          · exact Or.inl rfl
          · exact Or.inr ⟨Or.inr hx, hne⟩
        · rintro (rfl | ⟨rfl | hx, hne⟩)
          · exact Or.inr (Or.inl rfl)
          · exact Or.inl rfl
          · exact Or.inr (Or.inr ⟨hx, hne⟩)

section Times

variable [LT τ] [DecidableRel (α := τ) (· < ·)] {now : τ} {v : ν}

theorem read_of_entry?_eq_none (h : s.entry? key = none) : s.read key now = (none, s) := by
  unfold read
  rw [h]

theorem read_of_expired {e : Entry κ ν τ} (h : s.entry? key = some e)
    (he : e.isExpired now = true) : s.read key now = (none, s.erase key) := by
  unfold read
  rw [h]
  exact if_pos he

theorem read_of_valid {e : Entry κ ν τ} (h : s.entry? key = some e)
    (he : e.isExpired now = false) : s.read key now = (some e.value, s) := by
  unfold read
  rw [h]
  exact if_neg (by simp only [he, Bool.false_eq_true, not_false_eq_true])

-- What is given stands under the key; no key need stand only once for that.
theorem entry?_of_read (h : (s.read key now).1 = some v) :
    ∃ e, s.entry? key = some e ∧ e.isExpired now = false ∧ e.value = v := by
  cases hfind : s.entry? key with
  | none =>
      rw [read_of_entry?_eq_none hfind] at h
      exact absurd h (by simp only [reduceCtorEq, not_false_eq_true])
  | some e =>
      cases he : e.isExpired now with
      | true =>
          rw [read_of_expired hfind he] at h
          exact absurd h (by simp only [reduceCtorEq, not_false_eq_true])
      | false =>
          rw [read_of_valid hfind he] at h
          exact ⟨e, rfl, he, Option.some.inj h⟩

theorem sublist_read (s : ExpiringStore κ ν τ) (key : κ) (now : τ) :
    (s.read key now).2.entries.Sublist s.entries := by
  unfold read
  split
  · exact List.Sublist.refl _
  · split
    · exact List.filter_sublist
    · exact List.Sublist.refl _

/-- What a read gives is the value under the key, unless it has expired. -/
theorem read_eq_some_iff (hd : s.Distinct) :
    (s.read key now).1 = some v ↔
      ∃ e ∈ s.entries, e.key = key ∧ e.isExpired now = false ∧ e.value = v := by
  constructor
  · intro h
    rcases entry?_of_read h with ⟨e, hfind, he, hv⟩
    exact ⟨e, (mem_of_entry_eq hfind).1, (mem_of_entry_eq hfind).2, he, hv⟩
  · rintro ⟨e, hmem, hkey, he, rfl⟩
    rw [read_of_valid (hd.entry?_eq_some_iff.mpr ⟨hmem, hkey⟩) he]

/-- A read takes nothing away if nothing has expired. -/
theorem read_snd_of_unexpired (h : ∀ e ∈ s.entries, ¬ e.expires < now) :
    (s.read key now).2 = s := by
  cases hentry : s.entry? key with
  | none => rw [read_of_entry?_eq_none hentry]
  | some e => rw [read_of_valid hentry (decide_eq_false (h e (mem_of_entry_eq hentry).1))]

-- Then it finds nothing only where there is nothing.
theorem entry?_eq_none_of_read (h : ∀ e ∈ s.entries, ¬ e.expires < now)
    (hread : (s.read key now).1 = none) : s.entry? key = none := by
  cases hentry : s.entry? key with
  | none => rfl
  | some e =>
      rw [read_of_valid hentry (decide_eq_false (h e (mem_of_entry_eq hentry).1))] at hread
      exact absurd hread (by simp only [reduceCtorEq, not_false_eq_true])

/-- After a read everything is left but an expired entry under the key. -/
theorem mem_read_iff (hd : s.Distinct) {e : Entry κ ν τ} :
    e ∈ (s.read key now).2.entries ↔ e ∈ s.entries ∧ (e.key = key → e.isExpired now = false) := by
  cases hfind : s.entry? key with
  | none =>
      rw [read_of_entry?_eq_none hfind]
      exact ⟨fun h => ⟨h, fun hk => absurd hk (entry?_eq_none_iff.mp hfind e h)⟩, fun h => h.1⟩
  | some x =>
      have hx := mem_of_entry_eq hfind
      have hsame : e ∈ s.entries → e.key = key → e = x := fun he hk =>
        hd.eq_of_key_eq he hx.1 (hk.trans hx.2.symm)
      cases hexp : x.isExpired now with
      | true =>
          rw [read_of_expired hfind hexp]
          simp only [erase, ne_eq, decide_not, List.mem_filter, Bool.not_eq_eq_eq_not,
            Bool.not_true, decide_eq_false_iff_not]
          refine and_congr_right fun he => ⟨fun hne hk => absurd hk hne, fun h hk => ?_⟩
          have hno := h hk
          rw [hsame he hk, hexp] at hno
          exact absurd hno Bool.noConfusion
      | false =>
          rw [read_of_valid hfind hexp]
          exact ⟨fun he => ⟨he, fun hk => hsame he hk ▸ hexp⟩, fun h => h.1⟩

theorem distinct_read (hd : s.Distinct) : (s.read key now).2.Distinct :=
  distinct_of_sublist hd (sublist_read s key now)

@[simp] theorem lifetime_read (s : ExpiringStore κ ν τ) (key : κ) (now : τ) :
    (s.read key now).2.lifetime = s.lifetime := by
  unfold read
  split
  · rfl
  · split <;> rfl

@[simp] theorem capacity_read (s : ExpiringStore κ ν τ) (key : κ) (now : τ) :
    (s.read key now).2.capacity = s.capacity := by
  unfold read
  split
  · rfl
  · split <;> rfl

theorem sublist_evict (s : ExpiringStore κ ν τ) : s.evict.entries.Sublist s.entries :=
  List.filter_sublist

variable [Add τ]

/-- The entry that a write puts in. -/
def newEntry (s : ExpiringStore κ ν τ) (key : κ) (value : ν) (now : τ) : Entry κ ν τ :=
  ⟨key, value, now, now + s.lifetime⟩

/-- A write under the key has nothing to take away: there is room, or it writes
    over what stands there. -/
def HasRoom (s : ExpiringStore κ ν τ) (key : κ) : Prop :=
  s.size < s.capacity ∨ (s.entry? key).isSome

-- A write puts its entry into what making room has left.
theorem exists_room_of_write (s : ExpiringStore κ ν τ) (key : κ) (v : ν) (now : τ) :
    ∃ room : List (Entry κ ν τ), room.Sublist s.entries ∧ (s.HasRoom key → room = s.entries) ∧
      (s.write key v now).entries = putEntry room (s.newEntry key v now) := by
  unfold write
  by_cases hfull : (decide (s.capacity ≤ s.size) && (s.entry? key).isNone) = true
  · refine ⟨s.evict.entries, sublist_evict s, fun hroom => ?_, ?_⟩
    · rw [Bool.and_eq_true, decide_eq_true_eq, Option.isNone_iff_eq_none] at hfull
      rcases hroom with hlt | hsome
      · exact absurd hfull.1 (Nat.not_le_of_lt hlt)
      · rw [hfull.2] at hsome
        exact absurd hsome Bool.false_ne_true
    · simp only [hfull, if_true]
      rfl
  · refine ⟨s.entries, List.Sublist.refl _, fun _ => rfl, ?_⟩
    simp only [hfull]
    rfl

-- Nothing is held after a write but what it puts in and what was held before.
theorem mem_write {e : Entry κ ν τ} (h : e ∈ (s.write key v now).entries) :
    e = s.newEntry key v now ∨ e ∈ s.entries := by
  rcases exists_room_of_write s key v now with ⟨room, hsub, _, hwrite⟩
  rw [hwrite] at h
  exact (mem_putEntry h).imp_right fun hroom => hsub.subset hroom

theorem mem_write_of_distinct (hd : s.Distinct) {e : Entry κ ν τ}
    (h : e ∈ (s.write key v now).entries) :
    e = s.newEntry key v now ∨ (e ∈ s.entries ∧ e.key ≠ key) := by
  rcases exists_room_of_write s key v now with ⟨room, hsub, _, hwrite⟩
  rw [hwrite, mem_putEntry_iff (hd.sublist (hsub.map _))] at h
  exact h.imp_right fun hroom => ⟨hsub.subset hroom.1, hroom.2⟩

/-- A write that takes nothing away leaves all entries under other keys. -/
theorem mem_write_iff_of_hasRoom (hd : s.Distinct) (hroom : s.HasRoom key) {e : Entry κ ν τ} :
    e ∈ (s.write key v now).entries ↔
      e = s.newEntry key v now ∨ (e ∈ s.entries ∧ e.key ≠ key) := by
  rcases exists_room_of_write s key v now with ⟨room, _, hall, hwrite⟩
  rw [hwrite, hall hroom, mem_putEntry_iff hd]
  rfl

theorem distinct_write (hd : s.Distinct) : (s.write key v now).Distinct := by
  rcases exists_room_of_write s key v now with ⟨room, hsub, _, hwrite⟩
  have hroom := hd.sublist (hsub.map Entry.key)
  unfold Distinct
  rw [hwrite, map_key_putEntry]
  split
  · exact hroom
  · rename_i hnew
    exact List.nodup_append.mpr ⟨hroom, List.nodup_singleton _, fun a ha b hb hab =>
      hnew (List.mem_singleton.mp hb ▸ hab ▸ ha)⟩

@[simp] theorem lifetime_write (s : ExpiringStore κ ν τ) (key : κ) (v : ν) (now : τ) :
    (s.write key v now).lifetime = s.lifetime := by
  unfold write
  dsimp only
  split <;> rfl

@[simp] theorem capacity_write (s : ExpiringStore κ ν τ) (key : κ) (v : ν) (now : τ) :
    (s.write key v now).capacity = s.capacity := by
  unfold write
  dsimp only
  split <;> rfl

end Times

/-- A key has room if it belongs to a set that fits into the store and holds all
    keys that are there. -/
theorem hasRoom_of_card (hd : s.Distinct) {all : Finset κ} (hkeys : s.keys ⊆ all)
    (hkey : key ∈ all) (hcard : all.card ≤ s.capacity) : s.HasRoom key := by
  cases hentry : s.entry? key with
  | some e =>
      refine Or.inr ?_
      rw [hentry]
      rfl
  | none =>
      -- A key that is not there does not count among those that are.
      have hnew : key ∉ s.keys := by
        intro hmem
        rcases mem_keys.mp hmem with ⟨e, he, hek⟩
        exact entry?_eq_none_iff.mp hentry e he hek
      have hfewer : s.keys ⊂ all := ⟨hkeys, fun hall => hnew (hall hkey)⟩
      refine Or.inl ?_
      rw [← hd.card_keys]
      exact (Finset.card_lt_card hfewer).trans_le hcard

end ExpiringStore

end ArchiveCensus
