import ArchiveCensus.Proofs.Disk
import ArchiveCensus.Proofs.Inspection.Scratch
import ArchiveCensus.Survey.Resolution

/-!
# What a Location Leads To

The record of a file is a matter of its absolute path alone: two paths that are
one when they are seen from the root have the same record. The record of a
member of an archive is a matter of its URL and of the scratch copy that is made of
it. If nothing tells the directories of copies apart, it is a matter of its URL, but
for that directory.

Both kinds of records tell where they come from. A record of a file has no
number and holds the absolute path; sources never write into that field. A
record of a copy has the number of the copy, and that one was handed in.

## Theorems

* `inspect_eq_some_iff`: When a path has a record.
* `inspect_congr`: The record is a matter of the absolute path.
* `erased_resolveNested`: The record of a member is a matter of its URL, up to the
  directory of the copy.
* `of_resolveNested_eq_some`: The record of a member has the number of its copy.
-/

namespace ArchiveCensus

namespace Inspector

variable {i : Inspector} {d : Disk} {p q : Path} {bytes : ByteArray} {r : Record}

theorem of_describe_eq_ok (h : (i.describe p bytes).1 = .ok r) :
    r.filePath = some p.toText ∧ r.copySerial = none := by
  obtain ⟨checksum, f, _, rfl⟩ := of_describe h
  exact Findings.sameFile_coordinates f i.suffixes p.name _

/-- A path has a record if the file can be read by its absolute path, and the
    record is the one of that path. -/
theorem inspect_eq_some_iff (hd : d.Sound) :
    (i.inspect d p).1 = some r ↔
      ∃ bytes, d.fileAt (d.absolute p) = .ok (some bytes) ∧
        (i.describe (d.absolute p) bytes).1 = .ok r := by
  constructor
  · exact exists_describe_of_inspect
  · rintro ⟨bytes, habs, hr⟩
    rw [inspect, settle_fst, toOption_eq_some_iff]
    unfold attempt
    rw [Disk.fileAt_of_absolute hd habs, habs]
    exact hr

/-- The record of a path is a matter of its absolute path. -/
theorem inspect_congr (hd : d.Sound) (h : d.absolute p = d.absolute q) :
    (i.inspect d p).1 = (i.inspect d q).1 := by
  refine Option.ext fun r => ?_
  rw [inspect_eq_some_iff hd, inspect_eq_some_iff hd, h]

theorem of_inspect_eq_some (hd : d.Sound) (h : (i.inspect d p).1 = some r) :
    r.filePath = some (d.absolute p).toText ∧ r.copySerial = none := by
  rcases (inspect_eq_some_iff hd).mp h with ⟨bytes, _, hr⟩
  exact of_describe_eq_ok hr

end Inspector

theorem Location.named_of_filePath {url : Text} {p : Path} (h : filePath url = .ok p) :
    p.Named := by
  simp only [filePath] at h
  split at h
  · exact absurd h (by simp only [reduceCtorEq, not_false_eq_true])
  · split at h
    · exact absurd h (by simp only [reduceCtorEq, not_false_eq_true])
    · rw [← Except.ok.inj h]
      exact Path.named_parse _

namespace Surroundings

variable {w : Surroundings} {url : Text}

theorem isName_copyName {entry : Text} (h : copyName entry ≠ []) :
    Path.IsName (copyName entry) := by
  have hmem : copyName entry ∈ (Path.parse entry).parts := by
    rw [copyName, Path.name] at h ⊢
    cases hparts : (Path.parse entry).parts with
    | nil =>
        rw [hparts] at h
        exact absurd rfl h
    | cons c cs =>
        rw [List.getLastD_cons]
        exact List.getLastD_mem_cons
  exact Path.named_parse entry _ hmem

/-- A copy that can be made has the name of a component. -/
theorem isName_of_member {outer entry : Text} {content : ByteArray}
    (h : w.member? outer entry = .ok (some content)) : Path.IsName (copyName entry) := by
  refine isName_copyName fun hnil => ?_
  simp only [member?, memberOf, if_pos (Or.inl hnil)] at h
  repeat' split at h
  all_goals exact absurd h (by simp only [Except.ok.injEq, reduceCtorEq, not_false_eq_true])

/-- The record of a member is a matter of its URL, up to the directory of the copy,
    for an inspector that is blind to it. -/
theorem erased_resolveNested (hi : w.inspector.Blind) (url : Text) (m n : Nat) :
    (w.resolveNested url m).record.map (Option.map Record.erased) =
      (w.resolveNested url n).record.map (Option.map Record.erased) := by
  unfold resolveNested
  split
  · rfl
  · rename_i outer entry _
    split
    · rfl
    · rfl
    · rename_i content hmember
      have hcopy := congrArg (Option.map fun r => r.withParent
        (some (w.disk.absolute (.parse outer)).toText))
        (Inspector.erased_inspectCopy hi (isName_of_member hmember) content m n)
      simp only [Option.map_map, Function.comp_def, ← Record.erased_withParent] at hcopy
      simp only [Resolution.ofInspection, Except.map, Option.map_map, Function.comp_def]
      exact congrArg Except.ok hcopy

/-- The record of a member has the number of its copy. -/
theorem of_resolveNested_eq_some {n : Nat} {r : Record}
    (h : (w.resolveNested url n).record = .ok (some r)) :
    r.copySerial = some n ∧ (w.resolveNested url n).inspected = 1 := by
  unfold resolveNested at h ⊢
  split at h
  · exact absurd h (by simp only [Resolution.failed, reduceCtorEq, not_false_eq_true])
  · split at h
    · exact absurd h (by simp only [Resolution.failed, reduceCtorEq, not_false_eq_true])
    · exact absurd h (by simp only [Resolution.empty, Except.ok.injEq, reduceCtorEq,
        not_false_eq_true])
    · rcases Option.map_eq_some_iff.mp (Except.ok.inj h) with ⟨s, hs, rfl⟩
      rcases Inspector.exists_describe_of_inspectCopy hs with ⟨_, _, rfl⟩
      exact ⟨rfl, rfl⟩

-- By induction on the suffixes. A fault ends the search, and leaves what was found.
theorem named_of_mem_pathsBelow (hd : w.disk.Sound) {p : Path} (hp : p.Named) (place : List Text)
    (suffixes : List Text) : ∀ q ∈ (w.pathsBelow p place suffixes).1, q.Named := by
  induction suffixes with
  | nil => exact fun _ h => absurd h List.not_mem_nil
  | cons suffix rest ih =>
      intro q hq
      unfold pathsBelow at hq
      split at hq
      · exact absurd hq List.not_mem_nil
      · rename_i ending hending
        split at hq
        · exact absurd hq List.not_mem_nil
        · rename_i hits hhits
          rcases List.mem_append.mp hq with hq | hq
          · exact Disk.named_of_mem_hits hd hp (Disk.Ending.named_of_ofText hending) hhits q hq
          · exact ih q hq

/-- A named path argument stands for named paths. -/
theorem named_of_mem_pathsOf (hd : w.disk.Sound) {p : Path} (hp : p.Named) :
    ∀ q ∈ (w.pathsOf p).1, q.Named := by
  unfold pathsOf
  split
  · exact fun _ h => absurd h List.not_mem_nil
  · exact named_of_mem_pathsBelow hd hp _ _
  · exact fun q hq => List.mem_singleton.mp hq ▸ hp

/-- Where files are told from members: an absolute path is no nested URL. -/
theorem isNestedUrl_toText_absolute (w : Surroundings) (p : Path) :
    isNestedUrl (w.disk.absolute p).toText = false := by
  have hhead := Path.head?_toText (Path.isAbsolute_absolute (Disk.isAbsolute_base (d := w.disk)) p)
  -- One begins with a slash, the other with its scheme.
  cases htext : (w.disk.absolute p).toText with
  | nil => rfl
  | cons c cs =>
      rw [Disk.absolute] at htext
      rw [htext] at hhead
      rw [Option.some.inj hhead]
      rfl

theorem filePath_of_archivePath {p : Path} (h : w.archivePath? url = .ok (some p)) :
    Location.filePath url = .ok p := by
  unfold archivePath? at h
  split at h
  · exact absurd h (by simp only [reduceCtorEq, not_false_eq_true])
  · rename_i q hq
    split at h
    · exact absurd h (by simp only [reduceCtorEq, not_false_eq_true])
    · split at h
      · rw [← Option.some.inj (Except.ok.inj h)]
        exact hq
      · exact absurd h (by simp only [Except.ok.injEq, reduceCtorEq, not_false_eq_true])

theorem named_of_archivePath {p : Path} (h : w.archivePath? url = .ok (some p)) : p.Named :=
  Location.named_of_filePath (filePath_of_archivePath h)

end Surroundings

end ArchiveCensus
