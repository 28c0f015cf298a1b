import ArchiveCensus.Proofs.ExpiringStore
import Mathlib.Data.Finset.Card
import Mathlib.Data.List.DropRight
import Mathlib.Order.Basic

/-!
# What a Store Remembers of Its History

A store forgets: entries expire, are dropped to make room, and are cleared. What
it gives on a read is compared here with the whole history of calls, in which
nothing is ever lost.

One half needs no condition. A value that a read gives is the one that was put
last under its key since the last clearing, and its lifetime is not over; the
store never goes back to an older value. `Traced` is the invariant behind it.

The other half is that nothing is forgotten before its time, and that cannot
hold of a store that is written to beyond its capacity. `Kept` says it for the
histories in which no more keys were put than fit. The store may hold fewer keys
than were put, since a read drops what it finds expired, and such a key may be
put again; so the argument counts the keys of the history and not the writes.
That is also where the order of time comes in: what a read dropped as expired
must be expired for every later read.

## Main definitions

* `Call`, `History`, `run`: What a host can do, for whole runs.
* `History.lastWrite?`: The last write under a key since the last clearing.
* `History.keys`: The keys written since the last clearing.
* `History.Remembers`: What the history says a read should give.
* `Traced`, `Kept`: The two invariants.

## Theorems

* `perform_cases`: What one call can do.
* `traced_run`, `kept_run`: The invariants hold after any calls.
* `readIf_run`: What a read gives after any calls.
-/

namespace ArchiveCensus

namespace ExpiringStore

/-- What a host can do. -/
inductive Call (κ ν : Type) where
  | put (key : Option κ) (value : Option ν)
  | get (key : Option κ)
  | has (key : Option κ)
  | size
  | clear

/-- Calls in order, each with the time at which it is made. -/
abbrev History (κ ν τ : Type) := List (Call κ ν × τ)

/-- A value that was put under a key at some time. -/
structure Write (κ ν τ : Type) where
  key : κ
  value : ν
  time : τ

variable {κ ν τ : Type}

namespace Call

/-- What the call writes, if there are a key and a value. -/
def write? : Call κ ν → Option (κ × ν)
  | put (some key) (some value) => some (key, value)
  | _ => none

/-- The call drops everything. -/
def isClear : Call κ ν → Bool
  | clear => true
  | _ => false

end Call

namespace History

/-- What was written since the last clearing, in order. -/
def writes (h : History κ ν τ) : List (Write κ ν τ) :=
  (h.rtakeWhile fun x => !x.1.isClear).filterMap fun x =>
    x.1.write?.map fun w => ⟨w.1, w.2, x.2⟩

variable {h : History κ ν τ} {c : Call κ ν} {t : τ}

theorem writes_concat_of_clear (hc : c.isClear = true) : writes (h ++ [(c, t)]) = [] := by
  unfold writes
  rw [List.rtakeWhile_concat, if_neg (by simp only [hc, Bool.not_true, Bool.false_eq_true,
    not_false_eq_true])]
  rfl

theorem writes_concat_of_write {key : κ} {value : ν} (hc : c.write? = some (key, value)) :
    writes (h ++ [(c, t)]) = writes h ++ [⟨key, value, t⟩] := by
  have hkeep : c.isClear = false := by
    cases c with
    | clear => exact absurd hc (by simp only [Call.write?, reduceCtorEq, not_false_eq_true])
    | _ => rfl
  unfold writes
  rw [List.rtakeWhile_concat, if_pos (by simp only [hkeep, Bool.not_false]),
    List.filterMap_append]
  simp only [List.filterMap_cons, List.filterMap_nil, hc, Option.map_some]

theorem writes_concat_of_quiet (hkeep : c.isClear = false) (hc : c.write? = none) :
    writes (h ++ [(c, t)]) = writes h := by
  unfold writes
  rw [List.rtakeWhile_concat, if_pos (by simp only [hkeep, Bool.not_false]),
    List.filterMap_append]
  simp only [List.filterMap_cons, List.filterMap_nil, hc, Option.map_none, List.append_nil]

variable [DecidableEq κ]

/-- The last write under a key since the last clearing. -/
def lastWrite? (h : History κ ν τ) (key : κ) : Option (Write κ ν τ) :=
  h.writes.reverse.find? fun w => w.key = key

/-- The keys written since the last clearing. -/
def keys (h : History κ ν τ) : Finset κ :=
  (h.writes.map Write.key).toFinset

/-- By the history, a read of `key` at the time `now` should give `v`: it was put
    there last, and its lifetime is not over. -/
def Remembers [Add τ] [LE τ] (h : History κ ν τ) (lifetime : τ) (key : κ) (now : τ) (v : ν) :
    Prop :=
  ∃ t, h.lastWrite? key = some ⟨key, v, t⟩ ∧ now ≤ t + lifetime

theorem lastWrite?_concat_of_write {key other : κ} {value : ν}
    (hc : c.write? = some (key, value)) :
    lastWrite? (h ++ [(c, t)]) other =
      if key = other then some ⟨key, value, t⟩ else h.lastWrite? other := by
  unfold lastWrite?
  rw [writes_concat_of_write hc, List.reverse_append, List.reverse_singleton,
    List.singleton_append, List.find?_cons]
  by_cases hk : key = other
  · simp only [hk, decide_true, if_true]
  · simp only [hk, decide_false, if_false]

theorem lastWrite?_eq_none_of_clear {key : κ} (hc : c.isClear = true) :
    lastWrite? (h ++ [(c, t)]) key = none := by
  unfold lastWrite?
  rw [writes_concat_of_clear hc]
  rfl

theorem key_mem_keys {key : κ} {w : Write κ ν τ} (hw : h.lastWrite? key = some w) :
    key ∈ h.keys := by
  unfold lastWrite? at hw
  have hkey : w.key = key := by
    simpa only [decide_eq_true_eq] using List.find?_some hw
  unfold keys
  rw [List.mem_toFinset, ← hkey]
  exact List.mem_map_of_mem (List.mem_reverse.mp (List.mem_of_find?_eq_some hw))

theorem keys_concat_of_write {key : κ} {value : ν} (hc : c.write? = some (key, value)) :
    keys (h ++ [(c, t)]) = insert key h.keys := by
  unfold keys
  rw [writes_concat_of_write hc, List.map_append, List.toFinset_append, Finset.union_comm]
  rfl

end History

section Runs

variable [DecidableEq κ] [Add τ]

/-- Every entry is what was written last under its key, and is dated by that. -/
structure Traced (s : ExpiringStore κ ν τ) (h : History κ ν τ) : Prop where
  distinct : s.Distinct
  written : ∀ e ∈ s.entries, h.lastWrite? e.key = some ⟨e.key, e.value, e.created⟩
  dated : ∀ e ∈ s.entries, e.expires = e.created + s.lifetime

theorem traced_empty (lifetime : τ) (capacity : Nat) :
    Traced (κ := κ) (ν := ν) ⟨lifetime, capacity, []⟩ [] where
  distinct := List.nodup_nil
  written := fun _ h => absurd h List.not_mem_nil
  dated := fun _ h => absurd h List.not_mem_nil

-- Taking entries away leaves the others as they were.
theorem Traced.of_sublist {s s' : ExpiringStore κ ν τ} {h h' : History κ ν τ} (hs : Traced s h)
    (hsub : s'.entries.Sublist s.entries) (hlife : s'.lifetime = s.lifetime)
    (hlast : ∀ key, h'.lastWrite? key = h.lastWrite? key) : Traced s' h' where
  distinct := distinct_of_sublist hs.distinct hsub
  written := fun e he => (hlast e.key).trans (hs.written e (hsub.subset he))
  dated := fun e he => hlife ▸ hs.dated e (hsub.subset he)

-- As long as the keys of the history fit, a write has nothing to take away.
theorem Traced.hasRoom {s : ExpiringStore κ ν τ} {h : History κ ν τ} (hs : Traced s h) {key : κ}
    (hfit : (insert key h.keys).card ≤ s.capacity) : s.HasRoom key := by
  refine hasRoom_of_card hs.distinct (fun k hk => ?_) (Finset.mem_insert_self key h.keys) hfit
  rcases mem_keys.mp hk with ⟨e, he, rfl⟩
  exact Finset.mem_insert_of_mem (History.key_mem_keys (hs.written e he))

variable [LT τ]

/-- What was written last under a key is there, or its lifetime was over at some
    call of the history. -/
def Kept (s : ExpiringStore κ ν τ) (h : History κ ν τ) : Prop :=
  ∀ key w, h.lastWrite? key = some w →
    (∃ e ∈ s.entries, e.key = key) ∨ ∃ x ∈ h, w.time + s.lifetime < x.2

variable [DecidableRel (α := τ) (· < ·)]

/-- What comes of a call. -/
def perform (s : ExpiringStore κ ν τ) (x : Call κ ν × τ) : ExpiringStore κ ν τ :=
  match x.1 with
  | .put key value => s.writeIf key value x.2
  | .get key => (s.readIf key x.2).2
  | .has key => (s.holds key x.2).2
  | .size => s
  | .clear => s.clear

/-- What comes of calls made one after the other. -/
def run (s : ExpiringStore κ ν τ) (h : History κ ν τ) : ExpiringStore κ ν τ :=
  h.foldl perform s

theorem run_concat (s : ExpiringStore κ ν τ) (h : History κ ν τ) (x : Call κ ν × τ) :
    run s (h ++ [x]) = (run s h).perform x := by
  unfold run
  rw [List.foldl_append]
  rfl

/-- A call drops everything, writes once, or reads at most once. -/
theorem perform_cases (s : ExpiringStore κ ν τ) (c : Call κ ν) (t : τ) :
    (c.isClear = true ∧ s.perform (c, t) = s.clear) ∨
      (∃ key value, c.write? = some (key, value) ∧ s.perform (c, t) = s.write key value t) ∨
      (c.isClear = false ∧ c.write? = none ∧
        (s.perform (c, t) = s ∨ ∃ key, s.perform (c, t) = (s.read key t).2)) := by
  cases c with
  | put key value =>
      cases key with
      | none => exact Or.inr (Or.inr ⟨rfl, rfl, Or.inl rfl⟩)
      | some key =>
          cases value with
          | none => exact Or.inr (Or.inr ⟨rfl, rfl, Or.inl rfl⟩)
          | some value => exact Or.inr (Or.inl ⟨key, value, rfl, rfl⟩)
  | get key =>
      cases key with
      | none => exact Or.inr (Or.inr ⟨rfl, rfl, Or.inl rfl⟩)
      | some key => exact Or.inr (Or.inr ⟨rfl, rfl, Or.inr ⟨key, rfl⟩⟩)
  | has key =>
      cases key with
      | none => exact Or.inr (Or.inr ⟨rfl, rfl, Or.inl rfl⟩)
      | some key => exact Or.inr (Or.inr ⟨rfl, rfl, Or.inr ⟨key, rfl⟩⟩)
  | size => exact Or.inr (Or.inr ⟨rfl, rfl, Or.inl rfl⟩)
  | clear => exact Or.inl ⟨rfl, rfl⟩

theorem bounds_perform (s : ExpiringStore κ ν τ) (c : Call κ ν) (t : τ) :
    (s.perform (c, t)).lifetime = s.lifetime ∧ (s.perform (c, t)).capacity = s.capacity := by
  rcases perform_cases s c t with ⟨_, h⟩ | ⟨key, value, _, h⟩ | ⟨_, _, h | ⟨key, h⟩⟩
  · rw [h]
    exact ⟨rfl, rfl⟩
  · rw [h]
    exact ⟨lifetime_write .., capacity_write ..⟩
  · rw [h]
    exact ⟨rfl, rfl⟩
  · rw [h]
    exact ⟨lifetime_read .., capacity_read ..⟩

theorem bounds_run (s : ExpiringStore κ ν τ) (h : History κ ν τ) :
    (run s h).lifetime = s.lifetime ∧ (run s h).capacity = s.capacity := by
  induction h using List.reverseRecOn with
  | nil => exact ⟨rfl, rfl⟩
  | append_singleton h x ih =>
      rw [run_concat]
      have hx := bounds_perform (run s h) x.1 x.2
      exact ⟨hx.1.trans ih.1, hx.2.trans ih.2⟩

-- The invariant survives any call.
theorem traced_perform {s : ExpiringStore κ ν τ} {h : History κ ν τ} (hs : Traced s h)
    (c : Call κ ν) (t : τ) : Traced (s.perform (c, t)) (h ++ [(c, t)]) := by
  rcases perform_cases s c t with ⟨_, heq⟩ | ⟨key, value, hc, heq⟩ | ⟨hkeep, hc, hread⟩
  · rw [heq]
    exact ⟨distinct_clear, fun _ he => absurd he List.not_mem_nil,
      fun _ he => absurd he List.not_mem_nil⟩
  · rw [heq]
    refine ⟨distinct_write hs.distinct, fun e he => ?_, fun e he => ?_⟩
    · rw [History.lastWrite?_concat_of_write hc]
      rcases mem_write_of_distinct hs.distinct he with rfl | ⟨he, hne⟩
      · exact if_pos rfl
      · rw [if_neg (Ne.symm hne)]
        exact hs.written e he
    · rw [lifetime_write]
      rcases mem_write he with rfl | he
      · rfl
      · exact hs.dated e he
  · have hlast : ∀ key, History.lastWrite? (h ++ [(c, t)]) key = h.lastWrite? key := by
      intro key
      unfold History.lastWrite?
      rw [History.writes_concat_of_quiet hkeep hc]
    rcases hread with heq | ⟨key, heq⟩
    · rw [heq]
      exact hs.of_sublist (List.Sublist.refl _) rfl hlast
    · rw [heq]
      exact hs.of_sublist (sublist_read s key t) (lifetime_read s key t) hlast

theorem traced_run (lifetime : τ) (capacity : Nat) (h : History κ ν τ) :
    Traced (run ⟨lifetime, capacity, []⟩ h) h := by
  induction h using List.reverseRecOn with
  | nil => exact traced_empty lifetime capacity
  | append_singleton h x ih =>
      rw [run_concat]
      exact traced_perform ih x.1 x.2

theorem kept_write {s : ExpiringStore κ ν τ} {h : History κ ν τ} (hs : Traced s h)
    (hk : Kept s h) {c : Call κ ν} {key : κ} {value : ν} (hc : c.write? = some (key, value)) (t : τ)
    (hfit : (insert key h.keys).card ≤ s.capacity) :
    Kept (s.write key value t) (h ++ [(c, t)]) := by
  intro other w hw
  have hmem : ∀ e, e ∈ (s.write key value t).entries ↔
      e = s.newEntry key value t ∨ (e ∈ s.entries ∧ e.key ≠ key) :=
    fun _ => mem_write_iff_of_hasRoom hs.distinct (hs.hasRoom hfit)
  rw [History.lastWrite?_concat_of_write hc] at hw
  by_cases hsame : key = other
  · exact Or.inl ⟨_, (hmem _).mpr (Or.inl rfl), hsame⟩
  · rw [if_neg hsame] at hw
    rcases hk other w hw with ⟨e, he, hkey⟩ | ⟨x, hx, hlt⟩
    · exact Or.inl ⟨e, (hmem e).mpr (Or.inr ⟨he, fun h' => hsame (h'.symm.trans hkey)⟩), hkey⟩
    · rw [lifetime_write]
      exact Or.inr ⟨x, List.mem_append_left _ hx, hlt⟩

-- A read that drops the entry finds that its lifetime is over.
theorem kept_read {s : ExpiringStore κ ν τ} {h : History κ ν τ} (hs : Traced s h)
    (hk : Kept s h) {c : Call κ ν} (hkeep : c.isClear = false) (hc : c.write? = none) (key : κ)
    (t : τ) : Kept (s.read key t).2 (h ++ [(c, t)]) := by
  intro other w hw
  unfold History.lastWrite? at hw
  rw [History.writes_concat_of_quiet hkeep hc] at hw
  rw [lifetime_read]
  rcases hk other w hw with ⟨e, he, hother⟩ | ⟨x, hx, hlt⟩
  · cases hexp : e.isExpired t with
    | false => exact Or.inl ⟨e, (mem_read_iff hs.distinct).mpr ⟨he, fun _ => hexp⟩, hother⟩
    | true =>
        have hwritten := hs.written e he
        rw [hother] at hwritten
        have htime : w.time = e.created := by
          rw [Option.some.inj (hw.symm.trans hwritten)]
        refine Or.inr ⟨(c, t), List.mem_append_right _ (List.mem_singleton_self _), ?_⟩
        rw [htime, ← hs.dated e he]
        exact of_decide_eq_true hexp
  · exact Or.inr ⟨x, List.mem_append_left _ hx, hlt⟩

-- Nothing is lost as long as the keys of the history fit. A clearing starts the
-- history anew, so how many keys were written before it does not matter.
theorem kept_run (lifetime : τ) (capacity : Nat) (h : History κ ν τ)
    (hfit : h.keys.card ≤ capacity) : Kept (run ⟨lifetime, capacity, []⟩ h) h := by
  induction h using List.reverseRecOn with
  | nil => exact fun _ _ hw => absurd hw (by simp only [History.lastWrite?, History.writes,
      List.rtakeWhile_nil, List.filterMap_nil, List.reverse_nil, List.find?_nil, reduceCtorEq,
      not_false_eq_true])
  | append_singleton h x ih =>
      have hs := traced_run lifetime capacity h
      have hcap : (run ⟨lifetime, capacity, []⟩ h).capacity = capacity := (bounds_run _ h).2
      obtain ⟨c, t⟩ := x
      rw [run_concat]
      rcases perform_cases (run ⟨lifetime, capacity, []⟩ h) c t
        with ⟨hc, _⟩ | ⟨key, value, hc, heq⟩ | ⟨hkeep, hc, hread⟩
      · intro key w hw
        rw [History.lastWrite?_eq_none_of_clear hc] at hw
        exact absurd hw (by simp only [reduceCtorEq, not_false_eq_true])
      · rw [History.keys_concat_of_write hc] at hfit
        have hbefore := ih ((Finset.card_le_card (Finset.subset_insert key _)).trans hfit)
        rw [heq]
        exact kept_write hs hbefore hc t (hcap.symm ▸ hfit)
      · have hkeys : History.keys (h ++ [(c, t)]) = History.keys h := by
          unfold History.keys
          rw [History.writes_concat_of_quiet hkeep hc]
        rw [hkeys] at hfit
        rcases hread with heq | ⟨key, heq⟩
        · rw [heq]
          intro key w hw
          unfold History.lastWrite? at hw
          rw [History.writes_concat_of_quiet hkeep hc] at hw
          exact (ih hfit key w hw).imp_right fun ⟨x, hx, hlt⟩ => ⟨x, List.mem_append_left _ hx, hlt⟩
        · rw [heq]
          exact kept_read hs (ih hfit) hkeep hc key t

end Runs

variable [LinearOrder τ]

theorem isExpired_eq_false_iff (e : Entry κ ν τ) (now : τ) :
    e.isExpired now = false ↔ now ≤ e.expires := by
  unfold Entry.isExpired
  rw [decide_eq_false_iff_not, not_lt]

variable [DecidableEq κ] [Add τ]

/-- What a read gives after any calls that are made in the order of time. If it
    gives a value, that is the value put last under the key since the last
    clearing, and its lifetime is not over. If no more keys were put since then
    than the store has room for, the read gives that value whenever there is one,
    and nothing otherwise. -/
theorem readIf_run {lifetime : τ} {capacity : Int} {s : ExpiringStore κ ν τ}
    (hs : create lifetime capacity = .ok s) (h : History κ ν τ) (now : τ)
    (horder : (h.map Prod.snd ++ [now]).Pairwise (· ≤ ·)) (key : κ) :
    (∀ v, ((run s h).readIf (some key) now).1 = some v → h.Remembers lifetime key now v) ∧
      (h.keys.card ≤ capacity → ∀ v,
        ((run s h).readIf (some key) now).1 = some v ↔ h.Remembers lifetime key now v) := by
  obtain ⟨hcap, rfl⟩ : 1 ≤ capacity ∧ s = ⟨lifetime, capacity.toNat, []⟩ := by
    unfold create at hs
    split at hs
    · exact absurd hs (by simp only [reduceCtorEq, not_false_eq_true])
    · rename_i hcap
      exact ⟨not_lt.mp hcap, (Except.ok.inj hs).symm⟩
  have ht := traced_run (κ := κ) (ν := ν) lifetime capacity.toNat h
  have hlife : (run ⟨lifetime, capacity.toNat, []⟩ h).lifetime = lifetime := (bounds_run _ h).1
  have hsound : ∀ v, ((run ⟨lifetime, capacity.toNat, []⟩ h).readIf (some key) now).1 = some v →
      h.Remembers lifetime key now v := by
    intro v hv
    rcases (read_eq_some_iff ht.distinct).mp hv with ⟨e, he, rfl, hvalid, rfl⟩
    rw [isExpired_eq_false_iff, ht.dated e he, hlife] at hvalid
    exact ⟨e.created, ht.written e he, hvalid⟩
  refine ⟨hsound, fun hfit v => ⟨hsound v, ?_⟩⟩
  rintro ⟨t, hlast, hvalid⟩
  rcases kept_run lifetime capacity.toNat h (by omega) key _ hlast with ⟨e, he, rfl⟩ | ⟨x, hx, hlt⟩
  · have hwritten := Option.some.inj ((ht.written e he).symm.trans hlast)
    injection hwritten with _ hvalue htime
    refine (read_eq_some_iff ht.distinct).mpr ⟨e, he, rfl, ?_, hvalue⟩
    rw [isExpired_eq_false_iff, ht.dated e he, hlife, htime]
    exact hvalid
  · -- It was over at some call, and so it is over now.
    have hbefore : x.2 ≤ now := (List.pairwise_append.mp horder).2.2 x.2
      (List.mem_map_of_mem hx) now (List.mem_singleton_self now)
    rw [hlife] at hlt
    exact absurd (hlt.trans_le hbefore) (not_lt.mpr hvalid)

/-- A full store in which a key expired, was dropped by a read and was put again:
    the read gives the new value up to the last moment of its lifetime. -/
theorem readIf_run_put_again :
    let h : History Nat Nat Int := [(.put (some 1) (some 10), 0), (.get (some 1), 6),
      (.put (some 2) (some 20), 7), (.put (some 1) (some 11), 8), (.has (some 2), 9)]
    ∃ s : ExpiringStore Nat Nat Int, create 5 2 = .ok s ∧
      (h.map Prod.snd ++ [13]).Pairwise (· ≤ ·) ∧ h.keys.card = 2 ∧
      h.lastWrite? 1 = some ⟨1, 11, 8⟩ ∧ ((run s h).readIf (some 1) 13).1 = some 11 := by
  intro h
  have horder : (h.map Prod.snd ++ [13]).Pairwise (· ≤ ·) := by decide
  have hlast : h.lastWrite? 1 = some ⟨1, 11, 8⟩ := rfl
  have hcreate : create (κ := Nat) (ν := Nat) (5 : Int) 2 = .ok ⟨5, 2, []⟩ := rfl
  refine ⟨_, hcreate, horder, rfl, hlast, ?_⟩
  exact ((readIf_run hcreate h 13 horder 1).2 (by decide) 11).mpr ⟨8, hlast, by decide⟩

end ExpiringStore

end ArchiveCensus
