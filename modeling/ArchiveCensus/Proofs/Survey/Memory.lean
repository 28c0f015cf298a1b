import ArchiveCensus.Proofs.ExpiringStore
import ArchiveCensus.Proofs.Survey.Resolution
import ArchiveCensus.Survey
import Mathlib.Data.Finset.Union

/-!
# What a Survey Remembers

Whatever stands in the memory of a survey was the answer to its key: `Backed`
says by what. A key that is a nested URL is backed by a scratch copy that was
made of that member, and any other key is the absolute path of a file. As the
disk does not change, looking a key up is as good as resolving it anew, except
for the copy.

Numbers of copies are what the invariant needs a history for. A record of a copy
holds the number and not the URL, so `made` lists the URLs of all copies in the
order of their numbers. It only ever grows, and what it backs stays backed.

The history also shows that a set of records loses nothing that a comparison of
all fields would keep. Records are told apart by their identities, which leave
out scope, directness and the enclosing archive; but a number leads back to one
URL and an absolute path to one file, so backed records with the same identity
are equal throughout.

## Main definitions

* `Backed`: What may stand under a key.
* `Recalls`: The memory holds nothing else.
* `Memory.empty`: A memory without anything in it.
* `AllBacked`: A set of records that have all been answers.
* `shown`: The records of a set, without the directories of copies.

## Theorems

* `Backed.eq_of_identity`: Backed records are told apart by their identities.
* `backed_of_lookUp`: What is looked up is backed.
* `Recalls.lookUp`, `Recalls.keep`: A look-up and an entry keep the memory so.
* `shown_insert`, `shown_union`: Sets of backed records show as sets.
-/

namespace ArchiveCensus

namespace Survey

open Surroundings

/-- A record that may be remembered under a key, if scratch copies were made of
    the members `made`, in this order. -/
inductive Backed (w : Surroundings) (made : List Text) : Text → Record → Prop
  | file {p : Path} {r : Record} (hp : p.Named) (hr : (w.inspector.inspect w.disk p).1 = some r) :
      Backed w made (w.disk.absolute p).toText r
  | copy {url : Text} {n : Nat} {r : Record} (hurl : isNestedUrl url = true)
      (hn : made[n]? = some url) (hr : (w.resolveNested url n).record = .ok (some r)) :
      Backed w made url r

variable {w : Surroundings} {made made' : List Text} {key key' url : Text} {p : Path}
  {r r' : Record}

theorem Backed.mono (h : Backed w made key r) (hmade : made <+: made') : Backed w made' key r := by
  cases h with
  | file hp hr => exact .file hp hr
  | copy hurl hn hr =>
      rcases hmade with ⟨more, rfl⟩
      rw [← List.getElem?_append_left (List.getElem?_eq_some_iff.mp hn).1] at hn
      exact .copy hurl hn hr

/-- Under an absolute path stands the record of the path. -/
theorem Backed.inspect_eq (hd : w.disk.Sound) (h : Backed w made (w.disk.absolute p).toText r)
    (hp : p.Named) : (w.inspector.inspect w.disk p).1 = some r := by
  generalize hkey : (w.disk.absolute p).toText = key at h
  cases h with
  | file hq hr =>
      rw [← hr]
      exact Inspector.inspect_congr hd
        (Path.toText_injective (hd.named_absolute hp) (hd.named_absolute hq) hkey)
  | copy hurl _ _ =>
      rw [← hkey, isNestedUrl_toText_absolute] at hurl
      exact absurd hurl Bool.false_ne_true

/-- Under a nested URL stands the record of a copy that was made of it. -/
theorem Backed.exists_copy (h : Backed w made url r) (hurl : isNestedUrl url = true) :
    ∃ n, made[n]? = some url ∧ (w.resolveNested url n).record = .ok (some r) := by
  cases h with
  | file hp hr =>
      rw [isNestedUrl_toText_absolute] at hurl
      exact absurd hurl Bool.false_ne_true
  | copy _ hn hr => exact ⟨_, hn, hr⟩

/-- Backed records are told apart by their identities: the number of a copy leads
    back to its URL, and the absolute path to the file. -/
theorem Backed.eq_of_identity (hd : w.disk.Sound) (h : Backed w made key r)
    (h' : Backed w made key' r') (hid : r.identity = r'.identity) : r = r' := by
  have hpath : r.filePath = r'.filePath := congrArg Record.Identity.filePath hid
  have hserial : r.copySerial = r'.copySerial := congrArg Record.Identity.copySerial hid
  -- A file has no number of a copy and a copy has one, so the mixed cases are none.
  cases h with
  | file hp hr =>
      rcases Inspector.of_inspect_eq_some hd hr with ⟨hfile, hnone⟩
      cases h' with
      | file hq hr' =>
          rw [hfile, (Inspector.of_inspect_eq_some hd hr').1] at hpath
          have habs := Path.toText_injective (hd.named_absolute hp) (hd.named_absolute hq)
            (Option.some.inj hpath)
          rw [Inspector.inspect_congr hd habs, hr'] at hr
          exact (Option.some.inj hr).symm
      | copy _ _ hr' =>
          rw [hnone, (of_resolveNested_eq_some hr').1] at hserial
          exact absurd hserial (by simp only [reduceCtorEq, not_false_eq_true])
  | copy _ hn hr =>
      cases h' with
      | file _ hr' =>
          rw [(of_resolveNested_eq_some hr).1, (Inspector.of_inspect_eq_some hd hr').2] at hserial
          exact absurd hserial (by simp only [reduceCtorEq, not_false_eq_true])
      | copy _ hm hr' =>
          rw [(of_resolveNested_eq_some hr).1, (of_resolveNested_eq_some hr').1] at hserial
          rw [← Option.some.inj hserial, hn] at hm
          rw [← Option.some.inj hserial, ← Option.some.inj hm, hr] at hr'
          exact Option.some.inj (Except.ok.inj hr')

/-- All records of a set have been answers. -/
def AllBacked (w : Surroundings) (made : List Text) (s : RecordSet) : Prop :=
  ∀ r ∈ s, ∃ key, Backed w made key r

theorem allBacked_nil : AllBacked w made [] :=
  fun _ h => absurd h List.not_mem_nil

theorem AllBacked.mono {s : RecordSet} (h : AllBacked w made s) (hmade : made <+: made') :
    AllBacked w made' s := by
  intro r hr
  rcases h r hr with ⟨key, hkey⟩
  exact ⟨key, hkey.mono hmade⟩

/-- The records of a set, without the directories of scratch copies. -/
def shown (s : RecordSet) : Finset Record :=
  (s.map Record.erased).toFinset

theorem mem_shown {s : RecordSet} : r ∈ shown s ↔ ∃ x ∈ s, x.erased = r := by
  rw [shown, List.mem_toFinset, List.mem_map]

@[simp] theorem shown_nil : shown [] = ∅ :=
  rfl

theorem AllBacked.insert {s : RecordSet} (hs : AllBacked w made s) (hr : Backed w made key r) :
    AllBacked w made (s.insert r) := by
  unfold RecordSet.insert
  split
  · exact hs
  · intro x hx
    rcases List.mem_append.mp hx with hx | hx
    · exact hs x hx
    · exact ⟨key, List.mem_singleton.mp hx ▸ hr⟩

theorem shown_insert (hd : w.disk.Sound) {s : RecordSet} (hs : AllBacked w made s)
    (hr : Backed w made key r) : shown (s.insert r) = insert r.erased (shown s) := by
  unfold RecordSet.insert
  split
  · rename_i hany
    rcases List.any_eq_true.mp hany with ⟨x, hx, hid⟩
    rcases hs x hx with ⟨key', hx'⟩
    -- The same identity is the same record, so nothing is lost.
    have hxr := hx'.eq_of_identity hd hr (of_decide_eq_true hid)
    exact (Finset.insert_eq_of_mem (mem_shown.mpr ⟨x, hx, congrArg _ hxr⟩)).symm
  · ext x
    rw [mem_shown, Finset.mem_insert, mem_shown]
    constructor
    · rintro ⟨y, hy, rfl⟩
      rcases List.mem_append.mp hy with hy | hy
      · exact Or.inr ⟨y, hy, rfl⟩
      · exact Or.inl (List.mem_singleton.mp hy ▸ rfl)
    · rintro (rfl | ⟨y, hy, rfl⟩)
      · exact ⟨r, List.mem_append_right _ (List.mem_singleton_self r), rfl⟩
      · exact ⟨y, List.mem_append_left _ hy, rfl⟩

-- By induction on what is added, as it is added record by record.
theorem AllBacked.union {s t : RecordSet} (hs : AllBacked w made s) (ht : AllBacked w made t) :
    AllBacked w made (s.union t) := by
  unfold RecordSet.union
  induction t generalizing s with
  | nil => exact hs
  | cons r rest ih =>
      rcases ht r List.mem_cons_self with ⟨key, hr⟩
      exact ih (hs.insert hr) fun x hx => ht x (List.mem_cons_of_mem _ hx)

theorem shown_union (hd : w.disk.Sound) {s t : RecordSet} (hs : AllBacked w made s)
    (ht : AllBacked w made t) : shown (s.union t) = shown s ∪ shown t := by
  unfold RecordSet.union
  induction t generalizing s with
  | nil => exact (Finset.union_empty _).symm
  | cons r rest ih =>
      rcases ht r List.mem_cons_self with ⟨key, hr⟩
      have hrest := ih (hs.insert hr) fun x hx => ht x (List.mem_cons_of_mem _ hx)
      have hcons : shown (r :: rest) = insert r.erased (shown rest) := List.toFinset_cons
      rw [List.foldl_cons, hrest, shown_insert hd hs hr, hcons, Finset.insert_union,
        Finset.union_insert]

variable {τ : Type} {m : Memory τ}

/-- The memory holds nothing but what is backed, and has counted the copies. -/
structure Recalls (w : Surroundings) (made : List Text) (m : Memory τ) : Prop where
  copies : m.copies = made.length
  store : ∀ e ∈ m.store.entries, Backed w made e.key e.value

/-- A memory without anything in it. -/
def Memory.empty (lifetime : τ) (capacity : Nat) : Memory τ :=
  { store := ⟨lifetime, capacity, []⟩ }

theorem recalls_empty (w : Surroundings) (lifetime : τ) (capacity : Nat) :
    Recalls w [] (Memory.empty lifetime capacity) :=
  ⟨rfl, fun _ h => absurd h List.not_mem_nil⟩

theorem Recalls.say (h : Recalls w made m) (n : Notice) : Recalls w made (m.say n) :=
  ⟨h.copies, h.store⟩

theorem Recalls.note (h : Recalls w made m) (x : Resolution) : Recalls w made (m.note x) :=
  ⟨h.copies, h.store⟩

/-- The next copies are made of the URL. -/
theorem Recalls.copied (h : Recalls w made m) (url : Text) (n : Nat) :
    Recalls w (made ++ List.replicate n url) { m with copies := m.copies + n } := by
  refine ⟨?_, fun e he => (h.store e he).mono (List.prefix_append _ _)⟩
  rw [List.length_append, List.length_replicate, ← h.copies]

variable [LT τ] [DecidableRel (α := τ) (· < ·)] {clock : Nat → τ}

/-- What is looked up is backed. -/
theorem backed_of_lookUp (h : Recalls w made m) (hr : (m.lookUp clock key).1 = some r) :
    Backed w made key r := by
  rcases ExpiringStore.entry?_of_read hr with ⟨e, he, _, hvalue⟩
  rcases ExpiringStore.mem_of_entry_eq he with ⟨hmem, hkey⟩
  rw [← hkey, ← hvalue]
  exact h.store e hmem

-- To look something up may drop an entry, and adds none.
theorem Recalls.lookUp (h : Recalls w made m) (clock : Nat → τ) (key : Text) :
    Recalls w made (m.lookUp clock key).2 :=
  ⟨h.copies, fun e he => h.store e ((ExpiringStore.sublist_read _ _ _).subset he)⟩

variable [Add τ]

theorem Recalls.keep (h : Recalls w made m) {record : Option Record}
    (hr : ∀ r, record = some r → Backed w made key r) :
    Recalls w made (m.keep clock key record) := by
  cases record with
  | none => exact ⟨h.copies, h.store⟩
  | some r =>
      refine ⟨h.copies, fun e he => ?_⟩
      rcases ExpiringStore.mem_write he with rfl | he
      · exact hr r rfl
      · exact h.store e he

end Survey

end ArchiveCensus
