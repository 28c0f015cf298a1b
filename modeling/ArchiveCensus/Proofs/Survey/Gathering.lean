import ArchiveCensus.Proofs.Survey.Afresh
import ArchiveCensus.Proofs.Survey.Memory
import Mathlib.Data.Finset.Option

/-!
# Locations by Way of the Memory

A survey that looks a location up before it resolves it gives the record that
resolving it gives, up to the directory of a copy. For a file this is plain once
the memory is known to hold backed records only. For a member of an archive the
two differ in the copy, since resolving makes a new one with a number and a directory
of its own; so the history of copies grows on the way, and every statement here says by
a longer `made` that it did. What is left of the record without the directory is the
same if the inspector is blind to it, and this is where that is needed.

Lists of locations follow by induction. Records are added to a set as they are
found, and `Gathered` compares that set with the one that is computed without a
memory.

## Main definitions

* `RecordSet.Distinct`: A set of records that holds none twice.
* `Resolved`: An answer to one location, compared with the one without a memory.
* `Gathered`: A set of records, compared in the same way.

## Theorems

* `scanFile_fst`: A path has the record that inspecting it gives.
* `scanUrl_resolved`: So has a URL, up to the directory of a copy.
* `scanPathsFrom_gathered`, `scanItems_gathered`: Lists of them.
-/

namespace ArchiveCensus

namespace RecordSet

/-- No record is there twice. -/
def Distinct (s : RecordSet) : Prop :=
  (s.map Record.identity).Nodup

theorem Distinct.insert {s : RecordSet} (h : s.Distinct) (r : Record) : (s.insert r).Distinct := by
  unfold RecordSet.insert
  split
  · exact h
  · rename_i hnew
    rw [Distinct, List.map_append, List.map_singleton]
    refine List.nodup_append.mpr ⟨h, List.nodup_singleton _, fun a ha b hb hab => hnew ?_⟩
    rcases List.mem_map.mp ha with ⟨x, hx, rfl⟩
    rw [List.mem_singleton.mp hb] at hab
    exact List.any_eq_true.mpr ⟨x, hx, decide_eq_true hab⟩

theorem Distinct.union {s : RecordSet} (h : s.Distinct) (t : RecordSet) : (s.union t).Distinct := by
  unfold RecordSet.union
  induction t generalizing s with
  | nil => exact h
  | cons r rest ih => exact ih (h.insert r)

end RecordSet

namespace Survey

open Surroundings

variable {τ : Type} {made : List Text} {m : Memory τ}

/-- The answer to one location: the memory stays as it was, and the record is
    backed and is the one that resolving gives, up to the directory of a copy. -/
structure Resolved (w : Surroundings) (made : List Text) (m : Memory τ)
    (answer fresh : Except Resolution.Fault (Option Record)) : Prop where
  recalls : Recalls w made m
  backed : ∀ r, answer = .ok (some r) → ∃ key, Backed w made key r
  shown : answer.map (Option.map Record.erased) = fresh

/-- Records that were gathered: the memory stays as it was, and the records are
    backed and show as the given set. -/
structure Gathered (w : Surroundings) (made : List Text) (s : RecordSet) (m : Memory τ)
    (fresh : Finset Record) : Prop where
  recalls : Recalls w made m
  backed : AllBacked w made s
  shown : shown s = fresh

theorem Gathered.insertSome {w : Surroundings} (hd : w.disk.Sound) {made' : List Text}
    {s : RecordSet} {m' : Memory τ} {fresh : Finset Record} (h : Gathered w made s m fresh)
    (hmade : made <+: made') (hm : Recalls w made' m') {r : Option Record}
    (hr : ∀ x, r = some x → ∃ key, Backed w made' key x) :
    Gathered w made' (s.insertSome r) m' (fresh ∪ (r.map Record.erased).toFinset) := by
  cases r with
  | none =>
      refine ⟨hm, h.backed.mono hmade, ?_⟩
      rw [Option.map_none, Option.toFinset_none, Finset.union_empty]
      exact h.shown
  | some x =>
      rcases hr x rfl with ⟨key, hx⟩
      refine ⟨hm, (h.backed.mono hmade).insert hx, ?_⟩
      rw [Option.map_some, Option.toFinset_some, Finset.union_comm, ← Finset.insert_eq, ← h.shown]
      exact shown_insert hd (h.backed.mono hmade) hx

theorem toFinset_filterMap_cons {α : Type} (f : α → Option Record) (a : α) (l : List α) :
    ((a :: l).filterMap f).toFinset = (f a).toFinset ∪ (l.filterMap f).toFinset := by
  cases hfa : f a with
  | none => rw [List.filterMap_cons_none hfa, Option.toFinset_none, Finset.empty_union]
  | some b => rw [List.filterMap_cons_some hfa, List.toFinset_cons, Option.toFinset_some,
      Finset.insert_eq]

variable [Add τ] [LT τ] [DecidableRel (α := τ) (· < ·)] {w : Site τ}

/-- A path has the record that inspecting it gives, remembered or not. -/
theorem scanFile_fst (hd : w.disk.Sound) (h : Recalls w.toSurroundings made m) {p : Path}
    (hp : p.Named) : (scanFile w p m).1 = Afresh.file w.toSurroundings p := by
  simp only [scanFile]
  split
  · rename_i r m' hhit
    exact ((backed_of_lookUp h (congrArg Prod.fst hhit)).inspect_eq hd hp).symm
  · rfl

-- A path is remembered under its absolute form; a path without a record is not
-- remembered at all.
theorem recalls_scanFile (h : Recalls w.toSurroundings made m) {p : Path} (hp : p.Named) :
    Recalls w.toSurroundings made (scanFile w p m).2 := by
  have hlook := h.lookUp w.clock (w.disk.absolute p).toText
  simp only [scanFile]
  split
  · rename_i r m' hhit
    rw [hhit] at hlook
    exact hlook
  · rename_i m' hmiss
    rw [hmiss] at hlook
    exact (hlook.note _).keep fun r hr => .file hp hr

theorem scanNested_resolved (hi : w.inspector.Blind) (h : Recalls w.toSurroundings made m)
    {url : Text} (hurl : isNestedUrl url = true) :
    ∃ made', made <+: made' ∧ Resolved w.toSurroundings made' (scanNested w url m).2
      (scanNested w url m).1 (Afresh.url w.toSurroundings url) := by
  have hlook := h.lookUp w.clock url
  simp only [scanNested]
  split
  · -- A hit makes no copy. Its record is one that some copy of this URL gave, and the
    -- directory of the copy makes no difference once it is left out.
    rename_i r m' hhit
    have hr := backed_of_lookUp h (congrArg Prod.fst hhit)
    rw [hhit] at hlook
    rcases hr.exists_copy hurl with ⟨n, _, hrecord⟩
    refine ⟨made, List.prefix_refl _, hlook, fun s hs => ⟨url, ?_⟩, ?_⟩
    · rw [← Option.some.inj (Except.ok.inj hs)]
      exact hr
    · rw [Afresh.url_of_nested hi hurl n, hrecord]
  · rename_i m' hmiss
    rw [hmiss] at hlook
    have hcopied := (hlook.note (w.resolveNested url m'.copies)).copied url
      (w.resolveNested url m'.copies).inspected
    refine ⟨made ++ List.replicate (w.resolveNested url m'.copies).inspected url,
      List.prefix_append _ _, ?_⟩
    rw [Afresh.url_of_nested hi hurl m'.copies]
    split
    · rename_i f hrecord
      rw [hrecord]
      exact ⟨hcopied, fun r hr => absurd hr (by simp only [reduceCtorEq, not_false_eq_true]), rfl⟩
    · rename_i hrecord
      rw [hrecord]
      exact ⟨hcopied, fun r hr => absurd hr (by simp only [Except.ok.injEq, reduceCtorEq,
        not_false_eq_true]), rfl⟩
    · rename_i r hrecord
      -- The copy that was made gets the next number, and its URL the place of that number.
      have hbacked : Backed w.toSurroundings
          (made ++ List.replicate (w.resolveNested url m'.copies).inspected url) url r := by
        refine .copy hurl ?_ hrecord
        rw [(of_resolveNested_eq_some hrecord).2, hlook.copies]
        exact List.getElem?_concat_length
      rw [hrecord]
      refine ⟨hcopied.keep fun s hs => Option.some.inj hs ▸ hbacked, fun s hs => ⟨url, ?_⟩, rfl⟩
      rw [← Option.some.inj (Except.ok.inj hs)]
      exact hbacked

theorem scanUrl_resolved (hd : w.disk.Sound) (hi : w.inspector.Blind)
    (h : Recalls w.toSurroundings made m) (url : Text) :
    ∃ made', made <+: made' ∧ Resolved w.toSurroundings made' (scanUrl w url m).2
      (scanUrl w url m).1 (Afresh.url w.toSurroundings url) := by
  unfold scanUrl
  split
  · rename_i hurl
    exact scanNested_resolved hi h hurl
  · rename_i hurl
    refine ⟨made, List.prefix_refl _, ?_⟩
    rw [Afresh.url_of_plain hd hurl]
    split
    · rename_i f hpath
      rw [hpath]
      exact ⟨h, fun r hr => absurd hr (by simp only [reduceCtorEq, not_false_eq_true]), rfl⟩
    · rename_i hpath
      rw [hpath]
      exact ⟨h, fun r hr => absurd hr (by simp only [Except.ok.injEq, reduceCtorEq,
        not_false_eq_true]), rfl⟩
    · rename_i p hpath
      have hp := named_of_archivePath hpath
      have hrecord := scanFile_fst hd h hp
      rw [hpath]
      refine ⟨recalls_scanFile h hp, fun r hr => ⟨_, .file hp ?_⟩, ?_⟩
      · exact hrecord.symm.trans (Except.ok.inj hr)
      · exact congrArg Except.ok ((congrArg _ hrecord).trans (Afresh.erased_file hd p))

theorem scanFiles_gathered (hd : w.disk.Sound) {paths : List Path} (hp : ∀ p ∈ paths, p.Named)
    {s : RecordSet} {fresh : Finset Record} (h : Gathered w.toSurroundings made s m fresh) :
    Gathered w.toSurroundings made (scanFiles w s paths m).1 (scanFiles w s paths m).2
      (fresh ∪ (paths.filterMap (Afresh.file w.toSurroundings)).toFinset) := by
  induction paths generalizing s m fresh with
  | nil =>
      rw [List.filterMap_nil, List.toFinset_nil, Finset.union_empty]
      exact h
  | cons p rest ih =>
      have hpn := hp p List.mem_cons_self
      have hrecord := scanFile_fst hd h.recalls hpn
      have hnext := h.insertSome hd (List.prefix_refl _) (recalls_scanFile h.recalls hpn)
        fun x hx => ⟨_, .file hpn (hrecord.symm.trans hx)⟩
      rw [toFinset_filterMap_cons, ← Finset.union_assoc, ← Afresh.erased_file hd p, ← hrecord]
      exact ih (fun q hq => hp q (List.mem_cons_of_mem _ hq)) hnext

theorem scanPathsFrom_gathered (hd : w.disk.Sound) (entries : List Text) {s : RecordSet}
    {fresh : Finset Record} (h : Gathered w.toSurroundings made s m fresh) :
    Gathered w.toSurroundings made (scanPathsFrom w s entries m).1 (scanPathsFrom w s entries m).2
      (fresh ∪ Afresh.arguments w.toSurroundings entries) := by
  induction entries generalizing s m fresh with
  | nil =>
      rw [Afresh.arguments, List.toFinset_nil, Finset.biUnion_empty, Finset.union_empty]
      exact h
  | cons entry rest ih =>
      have hfiles := scanFiles_gathered hd (named_of_mem_pathsOf hd (Path.named_parse entry)) h
      rw [Afresh.arguments, List.toFinset_cons, Finset.biUnion_insert, ← Finset.union_assoc]
      simp only [scanPathsFrom]
      split
      · exact ih ⟨hfiles.recalls.say _, hfiles.backed, hfiles.shown⟩
      · exact ih hfiles

theorem scanItem_resolved (hd : w.disk.Sound) (hi : w.inspector.Blind)
    (h : Recalls w.toSurroundings made m) (item : Option Text) :
    ∃ made', made <+: made' ∧ Recalls w.toSurroundings made' (scanItem w item m).2 ∧
      (∀ r, (scanItem w item m).1 = .ok (some r) → ∃ key, Backed w.toSurroundings made' key r) ∧
      (scanItem w item m).1.toOption.join.map Record.erased =
        Afresh.item w.toSurroundings item := by
  cases item with
  | none =>
      exact ⟨made, List.prefix_refl _, h,
        fun r hr => absurd hr (by simp only [scanItem, reduceCtorEq, not_false_eq_true]), rfl⟩
  | some url =>
      rcases scanUrl_resolved hd hi h url with ⟨made', hmade, hres⟩
      refine ⟨made', hmade, hres.recalls, hres.backed, ?_⟩
      have hscan : scanItem w (some url) m = scanUrl w url m := rfl
      rw [Afresh.item, ← hres.shown, hscan]
      rcases (scanUrl w url m).1 with f | _ | r <;> rfl

theorem scanItems_gathered (hd : w.disk.Sound) (hi : w.inspector.Blind)
    (items : List (Option Text)) {s : RecordSet} {fresh : Finset Record}
    (h : Gathered w.toSurroundings made s m fresh) :
    ∃ made', made <+: made' ∧
      Gathered w.toSurroundings made' (scanItems w s items m).1 (scanItems w s items m).2
        (fresh ∪ Afresh.items w.toSurroundings items) := by
  induction items generalizing s m fresh made with
  | nil =>
      rw [Afresh.items, List.filterMap_nil, List.toFinset_nil, Finset.union_empty]
      exact ⟨made, List.prefix_refl _, h⟩
  | cons item rest ih =>
      rcases scanItem_resolved hd hi h.recalls item with ⟨made₁, hmade₁, hrecalls, hbacked, hitem⟩
      rw [Afresh.items, toFinset_filterMap_cons, ← Finset.union_assoc, ← hitem]
      rcases hscan : scanItem w item m with ⟨f | r, m'⟩
      · -- A fault costs this item and goes to the log.
        rw [hscan] at hrecalls
        rcases ih (h.insertSome hd hmade₁ (hrecalls.say (.warning "enumerator.url_failed"))
          fun x hx => absurd hx (Option.some_ne_none x).symm) with ⟨made₂, hmade₂, hrest⟩
        refine ⟨made₂, hmade₁.trans hmade₂, ?_⟩
        rw [scanItems, hscan]
        exact hrest
      · rw [hscan] at hrecalls hbacked
        rcases ih (h.insertSome hd hmade₁ hrecalls fun x hx => hbacked x (congrArg Except.ok hx))
          with ⟨made₂, hmade₂, hrest⟩
        refine ⟨made₂, hmade₁.trans hmade₂, ?_⟩
        rw [scanItems, hscan]
        exact hrest

end Survey

end ArchiveCensus
