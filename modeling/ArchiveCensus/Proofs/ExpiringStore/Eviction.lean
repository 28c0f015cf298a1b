import ArchiveCensus.Proofs.ExpiringStore.Bound
import Mathlib.Algebra.Order.Group.Int
import Mathlib.Data.List.Pairwise

/-!
# What Goes From a Full Store

A store that is full drops entries before it takes a new one in. How many is a
matter of counting; which ones is a matter of age. The order of age is a stable
sort of the entries by the time of their last write, so two orders meet here:
the one in which the entries stand, which a write over an entry does not change,
and the one in which they were written. They differ as soon as a key is written
twice, and the first decides only between entries of one time.

What is dropped is told from what survives by looking for the keys afterward, so
that nothing said here depends on how the store finds its oldest entries.

Age and expiry agree because all entries of a store live equally long. All that
is asked of the sum of two times is that it grows with the first, which holds of
rounded sums too.

## Main definitions

* `dropped`, `survivors`: The entries whose keys are gone, and the others.
* `Eviction`: A full store has made room for a new entry.

## Theorems

* `created_le_of_oldest`, `sublist_of_oldest`: The oldest entries are older than
  the others, or equally old and before them.
* `eviction_write`: A write under a new key into a full store is an eviction.
* `entries_write_of_stored`: A write under a stored key drops nothing.
* `eviction_of_run`: Both after any calls.
-/

namespace ArchiveCensus

section Pairs

variable {α : Type} {l : List α} {a b : α}

-- Two members stand in one order or the other.
theorem pair_sublist_or_swap (ha : a ∈ l) (hb : b ∈ l) (hne : a ≠ b) :
    [a, b].Sublist l ∨ [b, a].Sublist l := by
  have hpairs : l.Pairwise fun x y => [x, y].Sublist l ∨ [y, x].Sublist l :=
    List.pairwise_iff_forall_sublist.mpr Or.inl
  have : Std.Symm fun x y => [x, y].Sublist l ∨ [y, x].Sublist l := ⟨fun _ _ => Or.symm⟩
  exact hpairs.forall ha hb hne

-- And in one only, unless one of them stands twice.
theorem not_swap_sublist_of_nodup (hd : l.Nodup) (h : [a, b].Sublist l) :
    ¬ [b, a].Sublist l := by
  intro hswap
  induction l with
  | nil => exact absurd (List.sublist_nil.mp h) (List.cons_ne_nil a [b])
  | cons x rest ih =>
      rw [List.nodup_cons] at hd
      cases h with
      | cons _ h =>
          cases hswap with
          | cons _ hswap => exact ih hd.2 h hswap
          | cons_cons _ _ =>
              exact hd.1 (h.subset (List.mem_cons_of_mem a (List.mem_singleton_self b)))
      | cons_cons _ h =>
          cases hswap with
          | cons _ hswap =>
              exact hd.1 (hswap.subset (List.mem_cons_of_mem b (List.mem_singleton_self a)))
          | cons_cons _ _ => exact hd.1 (List.singleton_sublist.mp h)

end Pairs

namespace ExpiringStore

variable {κ ν τ : Type} {s t : ExpiringStore κ ν τ}

section Ages

variable [LinearOrder τ]

theorem olderOrEqual_iff {a b : Entry κ ν τ} :
    a.olderOrEqual b = true ↔ a.created ≤ b.created := by
  rw [Entry.olderOrEqual, Bool.not_eq_true', decide_eq_false_iff_not, not_lt]

theorem olderOrEqual_trans (a b c : Entry κ ν τ) (hab : a.olderOrEqual b = true)
    (hbc : b.olderOrEqual c = true) : a.olderOrEqual c = true :=
  olderOrEqual_iff.mpr ((olderOrEqual_iff.mp hab).trans (olderOrEqual_iff.mp hbc))

theorem olderOrEqual_total (a b : Entry κ ν τ) :
    (a.olderOrEqual b || b.olderOrEqual a) = true := by
  rw [Bool.or_eq_true, olderOrEqual_iff, olderOrEqual_iff]
  exact le_total a.created b.created

variable {g e : Entry κ ν τ}

-- In the order of age the oldest entries come before the others.
theorem sublist_mergeSort_of_oldest (hg : g ∈ s.oldest) (he : e ∈ s.entries)
    (hrest : e ∉ s.oldest) : [g, e].Sublist (s.entries.mergeSort Entry.olderOrEqual) := by
  have hcut := List.take_append_drop s.evictionCount (s.entries.mergeSort Entry.olderOrEqual)
  have hsorted : e ∈ s.entries.mergeSort Entry.olderOrEqual := List.mem_mergeSort.mpr he
  rw [← hcut, List.mem_append] at hsorted
  rw [← hcut]
  exact (List.singleton_sublist.mpr hg).append
    (List.singleton_sublist.mpr (hsorted.resolve_left hrest))

/-- None of the oldest entries is later than an entry that is not among them. -/
theorem created_le_of_oldest (hg : g ∈ s.oldest) (he : e ∈ s.entries) (hrest : e ∉ s.oldest) :
    g.created ≤ e.created := by
  have hsorted := List.pairwise_mergeSort olderOrEqual_trans olderOrEqual_total s.entries
  exact olderOrEqual_iff.mp
    (List.pairwise_iff_forall_sublist.mp hsorted (sublist_mergeSort_of_oldest hg he hrest))

/-- One that is of the same time stands behind them. The sort is stable, so had it
    stood before one of them, it would have come first by age too. -/
theorem sublist_of_oldest (hd : s.Distinct) (hg : g ∈ s.oldest) (he : e ∈ s.entries)
    (hrest : e ∉ s.oldest) (hsame : g.created = e.created) : [g, e].Sublist s.entries := by
  have hperm := List.mergeSort_perm s.entries Entry.olderOrEqual
  have hmem : g ∈ s.entries := List.mem_mergeSort.mp (List.mem_of_mem_take hg)
  have hne : g ≠ e := fun heq => hrest (heq ▸ hg)
  refine (pair_sublist_or_swap hmem he hne).resolve_right fun hswap => ?_
  have hfirst : [e, g].Sublist (s.entries.mergeSort Entry.olderOrEqual) :=
    List.pair_sublist_mergeSort olderOrEqual_trans olderOrEqual_total
      (olderOrEqual_iff.mpr hsame.ge) hswap
  have hnodup : (s.entries.mergeSort Entry.olderOrEqual).Nodup :=
    hperm.nodup_iff.mpr (List.Nodup.of_map _ hd)
  exact not_swap_sublist_of_nodup hnodup (sublist_mergeSort_of_oldest hg he hrest) hfirst

end Ages

variable [DecidableEq κ] {key : κ}

/-- The entries of `s` whose keys are not in `t`. -/
def dropped (s t : ExpiringStore κ ν τ) : List (Entry κ ν τ) :=
  s.entries.filter fun e => (t.entry? e.key).isNone

/-- The entries of `s` whose keys are in `t`. -/
def survivors (s t : ExpiringStore κ ν τ) : List (Entry κ ν τ) :=
  s.entries.filter fun e => (t.entry? e.key).isSome

theorem length_dropped_add (s t : ExpiringStore κ ν τ) :
    (dropped s t).length + (survivors s t).length = s.size := by
  have hsplit := List.length_eq_length_filter_add (l := s.entries)
    fun e => (t.entry? e.key).isNone
  simp only [Option.not_isNone] at hsplit
  exact hsplit.symm

theorem putEntry_of_not_mem {l : List (Entry κ ν τ)} {e : Entry κ ν τ}
    (h : e.key ∉ l.map Entry.key) : putEntry l e = l ++ [e] := by
  induction l with
  | nil => rfl
  | cons x rest ih =>
      rw [List.map_cons, List.mem_cons, not_or] at h
      rw [putEntry, if_neg (Ne.symm h.1), ih h.2, List.cons_append]

-- Only one entry stands under the key, so replacing the first is replacing all.
theorem putEntry_of_mem {l : List (Entry κ ν τ)} (hd : (l.map Entry.key).Nodup)
    {e : Entry κ ν τ} (h : e.key ∈ l.map Entry.key) :
    putEntry l e = l.map fun x => if x.key = e.key then e else x := by
  induction l with
  | nil => exact absurd h List.not_mem_nil
  | cons x rest ih =>
      rw [List.map_cons, List.nodup_cons] at hd
      rw [putEntry, List.map_cons]
      by_cases hx : x.key = e.key
      · have hother : ∀ y ∈ rest, (if y.key = e.key then e else y) = y := by
          intro y hy
          refine if_neg fun hye => hd.1 ?_
          rw [hx, ← hye]
          exact List.mem_map_of_mem hy
        rw [if_pos hx, if_pos hx, List.map_congr_left hother, List.map_id']
      · rw [List.map_cons, List.mem_cons] at h
        rw [if_neg hx, if_neg hx, ih hd.2 (h.resolve_left (Ne.symm hx))]

variable [LinearOrder τ] {now : τ} {v : ν}

/-- An eviction keeps the entries that are not among the oldest. -/
theorem mem_evict_iff (hd : s.Distinct) {e : Entry κ ν τ} :
    e ∈ s.evict.entries ↔ e ∈ s.entries ∧ e ∉ s.oldest := by
  have holdest : ∀ o ∈ s.oldest, o ∈ s.entries := fun o ho =>
    List.mem_mergeSort.mp (List.mem_of_mem_take ho)
  simp only [evict, List.mem_filter, Bool.not_eq_true', List.any_eq_false, decide_eq_true_eq]
  refine and_congr_right fun he => ⟨fun h hmem => h e hmem rfl, fun h o ho hkey => h ?_⟩
  rw [← hd.eq_of_key_eq (holdest o ho) he hkey]
  exact ho

variable [Add τ]

/-- `s`, a full store, has made room for a new entry `e` at the time `now` and has
    become `t`. -/
structure Eviction (s t : ExpiringStore κ ν τ) (e : Entry κ ν τ) (now : τ) : Prop where
  /-- A tenth goes, and at least one. -/
  count : (dropped s t).length = max 1 (s.capacity / 10)
  /-- What survives is as it was and in its order, and the new entry comes last. -/
  entries : t.entries = survivors s t ++ [e]
  /-- What goes is older than what survives; of entries of one time those go first
      that stand first. -/
  oldest : ∀ g ∈ dropped s t, ∀ r ∈ survivors s t,
    g.created < r.created ∨ g.created = r.created ∧ [g, r].Sublist s.entries
  /-- Nothing goes before its time while something survives beyond its own. -/
  expired : (∃ g ∈ dropped s t, g.isExpired now = false) →
    ∀ r ∈ survivors s t, r.isExpired now = false

/-- A write under a new key into a full store puts its entry behind what an eviction
    leaves. -/
theorem entries_write_of_full (hfull : s.size = s.capacity) (hnew : s.entry? key = none)
    (v : ν) (now : τ) :
    (s.write key v now).entries = s.evict.entries ++ [s.newEntry key v now] := by
  have hroom : ¬ s.HasRoom key := by
    rintro (hlt | hsome)
    · exact absurd hfull hlt.ne
    · rw [hnew] at hsome
      exact absurd hsome Bool.false_ne_true
  rw [entries_write_of_not_hasRoom hroom, putEntry_of_not_mem]
  intro hmem
  rcases List.mem_map.mp hmem with ⟨e, he, hkey⟩
  exact entry?_eq_none_iff.mp hnew e ((sublist_evict s).subset he) hkey

/-- A write under a stored key changes the entry in its place, and no other. -/
theorem entries_write_of_stored (hd : s.Distinct) (hold : (s.entry? key).isSome) (v : ν)
    (now : τ) :
    (s.write key v now).entries =
      s.entries.map fun e => if e.key = key then s.newEntry key v now else e := by
  rcases exists_room_of_write s key v now with ⟨room, _, hall, hwrite⟩
  rcases Option.isSome_iff_exists.mp hold with ⟨e, he⟩
  rw [hwrite, hall (Or.inr hold)]
  exact putEntry_of_mem hd (List.mem_map.mpr ⟨e, mem_of_entry_eq he⟩)

-- What a write into a full store leaves of an old entry can be told by its key.
theorem entry?_write_isNone_iff (hd : s.Distinct) (hfull : s.size = s.capacity)
    (hnew : s.entry? key = none) {e : Entry κ ν τ} (he : e ∈ s.entries) (v : ν) (now : τ) :
    entry? (s.write key v now) e.key = none ↔ e ∈ s.oldest := by
  rw [entry?_eq_none_iff, entries_write_of_full hfull hnew]
  constructor
  · intro hnone
    by_contra hrest
    exact hnone e (List.mem_append_left _ ((mem_evict_iff hd).mpr ⟨he, hrest⟩)) rfl
  · intro hold x hx hkey
    rcases List.mem_append.mp hx with hx | hx
    · have hx := (mem_evict_iff hd).mp hx
      exact hx.2 (hd.eq_of_key_eq hx.1 he hkey ▸ hold)
    · rw [List.mem_singleton.mp hx] at hkey
      exact entry?_eq_none_iff.mp hnew e he hkey.symm

theorem survivors_write (hd : s.Distinct) (hfull : s.size = s.capacity)
    (hnew : s.entry? key = none) (v : ν) (now : τ) :
    survivors s (s.write key v now) = s.evict.entries := by
  refine List.filter_congr fun e he => ?_
  have hgone := entry?_write_isNone_iff hd hfull hnew he v now
  have hkeep : e ∈ s.evict.entries ↔ e ∉ s.oldest :=
    (mem_evict_iff hd).trans (and_iff_right he)
  rw [Bool.eq_iff_iff, Option.isSome_iff_ne_none, ne_eq, hgone, ← hkeep, evict, List.mem_filter]
  exact and_iff_right he

/-- A write under a new key into a full store is an eviction. -/
theorem eviction_write [AddRightMono τ] (hb : Bounded s) (hfull : s.size = s.capacity)
    (hdated : ∀ e ∈ s.entries, e.expires = e.created + s.lifetime)
    (hnew : s.entry? key = none) :
    Eviction s (s.write key v now) (s.newEntry key v now) now := by
  have hkeep := survivors_write hb.distinct hfull hnew v now
  have hgone : ∀ g ∈ dropped s (s.write key v now), g ∈ s.entries ∧ g ∈ s.oldest := by
    intro g hg
    rw [dropped, List.mem_filter, Option.isNone_iff_eq_none] at hg
    exact ⟨hg.1, (entry?_write_isNone_iff hb.distinct hfull hnew hg.1 v now).mp hg.2⟩
  have hrest : ∀ r ∈ survivors s (s.write key v now), r ∈ s.entries ∧ r ∉ s.oldest := by
    rw [hkeep]
    exact fun r hr => (mem_evict_iff hb.distinct).mp hr
  have hage : ∀ g ∈ dropped s (s.write key v now), ∀ r ∈ survivors s (s.write key v now),
      g.created ≤ r.created := fun g hg r hr =>
    created_le_of_oldest (hgone g hg).2 (hrest r hr).1 (hrest r hr).2
  refine ⟨?_, ?_, fun g hg r hr => ?_, ?_⟩
  · have hall := length_dropped_add s (s.write key v now)
    have hleft : s.evict.entries.length = s.size - s.evictionCount := size_evict hb.distinct
    have hroomy := hb.roomy
    rw [hkeep, hleft] at hall
    unfold evictionCount at hall
    omega
  · rw [hkeep]
    exact entries_write_of_full hfull hnew v now
  · exact (hage g hg r hr).lt_or_eq.imp_right fun hsame => ⟨hsame,
      sublist_of_oldest hb.distinct (hgone g hg).2 (hrest r hr).1 (hrest r hr).2 hsame⟩
  · -- All entries live equally long, so the older one expires no later.
    rintro ⟨g, hg, hvalid⟩ r hr
    rw [isExpired_eq_false_iff] at hvalid ⊢
    calc now ≤ g.expires := hvalid
      _ = g.created + s.lifetime := hdated g (hgone g hg).1
      _ ≤ r.created + s.lifetime := add_le_add_left (hage g hg r hr) s.lifetime
      _ = r.expires := (hdated r (hrest r hr).1).symm

/-- After any calls, at any times: a put of a new key into a full store is an
    eviction, and a put of a stored key drops nothing and changes that entry in its
    place. -/
theorem eviction_of_run [AddRightMono τ] {lifetime : τ} {capacity : Int}
    {s₀ : ExpiringStore κ ν τ} (hs : create lifetime capacity = .ok s₀) (h : History κ ν τ)
    (key : κ) (value : ν) (now : τ) :
    let s := run s₀ h
    let t := s.writeIf (some key) (some value) now
    let e : Entry κ ν τ := ⟨key, value, now, now + lifetime⟩
    (s.capacity : Int) = capacity ∧
      (s.size = s.capacity → s.entry? key = none → Eviction s t e now) ∧
      ((s.entry? key).isSome → dropped s t = [] ∧
        t.entries = s.entries.map fun x => if x.key = key then e else x) := by
  intro s t e
  obtain ⟨hcap, rfl⟩ := of_create_eq_ok hs
  have htraced : Traced s h := traced_run lifetime capacity.toNat h
  have hbounds : s.lifetime = lifetime ∧ s.capacity = capacity.toNat := bounds_run _ h
  have hbounded : Bounded s := bounded_run (bounded_empty lifetime (by omega)) h
  have hnewEntry : s.newEntry key value now = e := by
    unfold newEntry
    rw [hbounds.1]
  refine ⟨?_, fun hfull hnew => ?_, fun hold => ?_⟩
  · rw [hbounds.2]
    omega
  · rw [← hnewEntry]
    exact eviction_write hbounded hfull htraced.dated hnew
  · have hwrite := entries_write_of_stored hbounded.distinct hold value now
    rw [hnewEntry] at hwrite
    refine ⟨List.filter_eq_nil_iff.mpr fun x hx => ?_, hwrite⟩
    -- What stands in the place of an entry has its key.
    rw [Option.isNone_iff_eq_none, entry?_eq_none_iff]
    intro hgone
    refine hgone (if x.key = key then e else x) (hwrite ▸ List.mem_map_of_mem hx) ?_
    split
    · exact (by assumption : x.key = key).symm
    · rfl

/-- A full store in which the key that stands first was written again: the entry
    behind it is the one to go, and not the third, which is as old. -/
theorem eviction_of_run_put_again :
    let h : History Nat Nat Int := [(.put (some 1) (some 10), 0), (.put (some 2) (some 20), 5),
      (.put (some 3) (some 30), 5), (.put (some 1) (some 11), 6)]
    ∃ s₀ : ExpiringStore Nat Nat Int, create 10 3 = .ok s₀ ∧
      (run s₀ h).size = (run s₀ h).capacity ∧
      ((run s₀ h).entries.map fun e => (e.key, e.created)) = [(1, 6), (2, 5), (3, 5)] ∧
      Eviction (run s₀ h) ((run s₀ h).write 4 40 9) ⟨4, 40, 9, 19⟩ 9 ∧
      (dropped (run s₀ h) ((run s₀ h).write 4 40 9)).map Entry.key = [2] ∧
      dropped (run s₀ h) ((run s₀ h).write 2 21 9) = [] := by
  intro h
  have hcreate : create (κ := Nat) (ν := Nat) (10 : Int) 3 = .ok ⟨10, 3, []⟩ := rfl
  have hput := eviction_of_run hcreate h
  have hentries : (run ⟨10, 3, []⟩ h).entries =
      [⟨1, 11, 6, 16⟩, ⟨2, 20, 5, 15⟩, ⟨3, 30, 5, 15⟩] := rfl
  -- The sort does not evaluate by itself, so the order of age is worked out first.
  have hsorted : (run ⟨10, 3, []⟩ h).entries.mergeSort Entry.olderOrEqual =
      [⟨2, 20, 5, 15⟩, ⟨3, 30, 5, 15⟩, ⟨1, 11, 6, 16⟩] := by
    simp [hentries, List.mergeSort, List.MergeSort.Internal.splitInTwo, Entry.olderOrEqual]
  have hwrite : ((run ⟨10, 3, []⟩ h).write 4 40 9).entries = _ :=
    entries_write_of_full rfl rfl 40 9
  rw [evict, oldest, hsorted] at hwrite
  refine ⟨_, hcreate, rfl, rfl, (hput 4 40 9).2.1 rfl rfl, ?_, ((hput 2 21 9).2.2 rfl).1⟩
  simp only [dropped, entry?, hwrite, hentries]
  decide +kernel

end ExpiringStore

end ArchiveCensus
