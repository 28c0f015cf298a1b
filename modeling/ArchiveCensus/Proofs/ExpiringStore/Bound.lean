import ArchiveCensus.Proofs.ExpiringStore.History

/-!
# A Store Stays Within Its Capacity

A store never holds more entries than its capacity, and never two under one key.
Neither depends on the clock: what is said here holds for any type of times with
any comparison, so for clocks that go backward and for times that cannot be
compared at all. The order of age decides which entries go, and not how many.

What carries the bound is that an eviction takes exactly `evictionCount` entries
away, provided that no key stands twice. A full store holds at least so many,
since a tenth of the capacity is no more than the capacity and the one entry
that goes at least is there. With a key standing twice, entries that are not
among the oldest would go with those that are.

The entry that a write puts in comes after the eviction, and so cannot be part
of it.

## Main definitions

* `Bounded`: No key stands twice, and the entries are no more than fit.

## Theorems

* `perm_evict`: What an eviction leaves.
* `size_evict`: How many entries an eviction takes away.
* `entry?_write`: A write puts its entry in.
* `bounded_write`, `bounded_run`: A store stays within its capacity.
* `run_bounded`: All of this after any calls.
-/

namespace ArchiveCensus

namespace ExpiringStore

variable {κ ν τ : Type} {s : ExpiringStore κ ν τ}

/-- No key stands twice, and the entries are no more than fit. -/
structure Bounded (s : ExpiringStore κ ν τ) : Prop where
  distinct : s.Distinct
  roomy : 1 ≤ s.capacity
  fits : s.size ≤ s.capacity

theorem bounded_empty (lifetime : τ) {capacity : Nat} (h : 1 ≤ capacity) :
    Bounded (κ := κ) (ν := ν) ⟨lifetime, capacity, []⟩ where
  distinct := List.nodup_nil
  roomy := h
  fits := Nat.zero_le _

-- Taking entries away keeps a store within its capacity.
theorem Bounded.of_sublist {s' : ExpiringStore κ ν τ} (h : Bounded s)
    (hsub : s'.entries.Sublist s.entries) (hcap : s'.capacity = s.capacity) : Bounded s' where
  distinct := distinct_of_sublist h.distinct hsub
  roomy := hcap ▸ h.roomy
  fits := hcap ▸ hsub.length_le.trans h.fits

variable [DecidableEq κ] {key : κ}

-- Whether the keys stood twice before makes no difference: the entry is put where a
-- search for its key stops.
theorem find?_putEntry (l : List (Entry κ ν τ)) (e : Entry κ ν τ) :
    (putEntry l e).find? (fun x => x.key = e.key) = some e := by
  induction l with
  | nil => simp only [putEntry, List.find?_cons, decide_true]
  | cons x rest ih =>
      unfold putEntry
      by_cases hx : x.key = e.key
      · rw [if_pos hx]
        simp only [List.find?_cons, decide_true]
      · rw [if_neg hx, List.find?_cons]
        simp only [hx, decide_false]
        exact ih

theorem length_putEntry (l : List (Entry κ ν τ)) (e : Entry κ ν τ) :
    (putEntry l e).length = if e.key ∈ l.map Entry.key then l.length else l.length + 1 := by
  have hkeys := congrArg List.length (map_key_putEntry l e)
  rw [List.length_map] at hkeys
  rw [hkeys]
  split
  · rw [List.length_map]
  · rw [List.length_append, List.length_map, List.length_singleton]

-- As no key stands on both sides of a cut, what goes with the first part is that part.
theorem filter_not_any_take {l : List (Entry κ ν τ)} (hd : (l.map Entry.key).Nodup) (n : Nat) :
    (l.filter fun e => !((l.take n).any fun o => o.key = e.key)) = l.drop n := by
  have hcut := List.take_append_drop n l
  have hfirst : (l.take n).filter (fun e => !((l.take n).any fun o => o.key = e.key)) = [] := by
    rw [List.filter_eq_nil_iff]
    intro e he
    rw [List.any_eq_true.mpr ⟨e, he, decide_eq_true rfl⟩]
    exact Bool.false_ne_true
  have hsecond : (l.drop n).filter (fun e => !((l.take n).any fun o => o.key = e.key)) =
      l.drop n := by
    rw [List.filter_eq_self]
    intro e he
    rw [Bool.not_eq_true', List.any_eq_false]
    intro o ho heq
    rw [← hcut, List.map_append, List.nodup_append] at hd
    exact hd.2.2 o.key (List.mem_map_of_mem ho) e.key (List.mem_map_of_mem he)
      (of_decide_eq_true heq)
  calc l.filter (fun e => !((l.take n).any fun o => o.key = e.key))
      = (l.take n ++ l.drop n).filter (fun e => !((l.take n).any fun o => o.key = e.key)) := by
        rw [hcut]
    _ = l.drop n := by rw [List.filter_append, hfirst, hsecond, List.nil_append]

variable [LT τ] [DecidableRel (α := τ) (· < ·)] {now : τ} {v : ν}

/-- An eviction leaves what comes behind the oldest entries in the order of age. -/
theorem perm_evict (hd : s.Distinct) :
    s.evict.entries.Perm ((s.entries.mergeSort Entry.olderOrEqual).drop s.evictionCount) := by
  have hsort := List.mergeSort_perm s.entries Entry.olderOrEqual
  have hnodup : ((s.entries.mergeSort Entry.olderOrEqual).map Entry.key).Nodup :=
    (hsort.map _).nodup_iff.mpr hd
  exact (hsort.symm.filter _).trans
    (List.Perm.of_eq (filter_not_any_take hnodup s.evictionCount))

/-- An eviction takes away as many entries as it is meant to, or all of them. -/
theorem size_evict (hd : s.Distinct) : s.evict.size = s.size - s.evictionCount := by
  have hlength := (perm_evict hd).length_eq
  rw [List.length_drop, List.length_mergeSort] at hlength
  exact hlength

variable [Add τ]

-- A write into a full store under a new key makes room first.
theorem entries_write_of_not_hasRoom (h : ¬ s.HasRoom key) :
    (s.write key v now).entries = putEntry s.evict.entries (s.newEntry key v now) := by
  unfold HasRoom at h
  rw [not_or, Nat.not_lt, Bool.not_eq_true, Option.isSome_eq_false_iff] at h
  unfold write
  rw [if_pos (by rw [h.2, Bool.and_true, decide_eq_true h.1])]
  rfl

/-- A write puts its entry in, and what it takes away to make room is never that. -/
theorem entry?_write (s : ExpiringStore κ ν τ) (key : κ) (v : ν) (now : τ) :
    entry? (s.write key v now) key = some (s.newEntry key v now) := by
  rcases exists_room_of_write s key v now with ⟨room, _, _, hwrite⟩
  unfold entry?
  rw [hwrite]
  exact find?_putEntry room (s.newEntry key v now)

theorem bounded_write (h : Bounded s) : Bounded (s.write key v now) := by
  refine ⟨distinct_write h.distinct, (capacity_write s key v now).symm ▸ h.roomy, ?_⟩
  rw [capacity_write]
  unfold size
  by_cases hroom : s.HasRoom key
  · rcases exists_room_of_write s key v now with ⟨room, _, hall, hwrite⟩
    rw [hwrite, hall hroom, length_putEntry]
    split
    · exact h.fits
    · -- The key is new, so there is room for one more.
      rename_i hnew
      rcases hroom with hlt | hsome
      · exact hlt
      · rcases Option.isSome_iff_exists.mp hsome with ⟨e, he⟩
        have hmem := mem_of_entry_eq he
        exact absurd (List.mem_map.mpr ⟨e, hmem⟩) hnew
  · -- The store is full, and at least one of its entries goes.
    have hgone : 1 ≤ s.evictionCount := Nat.le_max_left _ _
    have hleft : s.evict.entries.length = s.size - s.evictionCount := size_evict h.distinct
    have hfits := h.fits
    have hroomy := h.roomy
    rw [entries_write_of_not_hasRoom hroom, length_putEntry]
    split <;> omega

theorem bounded_perform (h : Bounded s) (c : Call κ ν) (t : τ) : Bounded (s.perform (c, t)) := by
  rcases perform_cases s c t with ⟨_, heq⟩ | ⟨key, value, _, heq⟩ | ⟨_, _, heq | ⟨key, heq⟩⟩
  · rw [heq]
    exact h.of_sublist (List.nil_sublist _) rfl
  · rw [heq]
    exact bounded_write h
  · rw [heq]
    exact h
  · rw [heq]
    exact h.of_sublist (sublist_read s key t) (capacity_read s key t)

theorem bounded_run (h : Bounded s) (calls : History κ ν τ) : Bounded (run s calls) := by
  induction calls using List.reverseRecOn with
  | nil => exact h
  | append_singleton calls x ih =>
      rw [run_concat]
      exact bounded_perform ih x.1 x.2

/-- After any calls, at any times, a store holds no more entries than its
    capacity and none twice under one key; and what is put in next is there
    then, with its value and dated by that time. -/
theorem run_bounded (lifetime : τ) {capacity : Int} (hcap : 1 ≤ capacity) :
    ∃ s : ExpiringStore κ ν τ, create lifetime capacity = .ok s ∧ ∀ h : History κ ν τ,
      (run s h).size ≤ capacity ∧ (run s h).Distinct ∧
        ∀ key value now, entry? (run s (h ++ [(.put (some key) (some value), now)])) key =
          some ⟨key, value, now, now + lifetime⟩ := by
  have hroomy : 1 ≤ capacity.toNat := by omega
  refine ⟨⟨lifetime, capacity.toNat, []⟩, if_neg (by omega), fun h => ?_⟩
  have hbounded := bounded_run (bounded_empty (κ := κ) (ν := ν) lifetime hroomy) h
  rcases bounds_run (⟨lifetime, capacity.toNat, []⟩ : ExpiringStore κ ν τ) h with ⟨hlife, hcapacity⟩
  refine ⟨?_, hbounded.distinct, fun key value now => ?_⟩
  · have hfits : (run ⟨lifetime, capacity.toNat, []⟩ h).size ≤ capacity.toNat :=
      hbounded.fits.trans_eq hcapacity
    omega
  · rw [run_concat]
    have hput := entry?_write (run ⟨lifetime, capacity.toNat, []⟩ h) key value now
    rw [newEntry, hlife] at hput
    exact hput

/-- A store that is full, on a clock that goes backward: a further key is there
    after it was put, although it is dated before all others. -/
theorem run_bounded_backward :
    let h : History Nat Nat Int := [(.put (some 1) (some 10), 9), (.put (some 2) (some 20), 4),
      (.put (some 1) (some 11), 3), (.has (some 2), 2)]
    let put : Call Nat Nat × Int := (.put (some 3) (some 30), 1)
    (1 : Int) ≤ 2 ∧ ∃ s : ExpiringStore Nat Nat Int, create 5 2 = .ok s ∧ (run s h).size = 2 ∧
      (run s (h ++ [put])).size ≤ (2 : Int) ∧
      entry? (run s (h ++ [put])) 3 = some ⟨3, 30, 1, 6⟩ := by
  intro h put
  have hcap : (1 : Int) ≤ 2 := by decide
  rcases run_bounded (κ := Nat) (ν := Nat) (5 : Int) hcap with ⟨s, hs, hrun⟩
  have hempty : s = ⟨5, 2, []⟩ := (Except.ok.inj hs).symm
  refine ⟨hcap, s, hs, ?_, (hrun (h ++ [put])).1, (hrun h).2.2 3 30 1⟩
  rw [hempty]
  rfl

end ExpiringStore

end ArchiveCensus
