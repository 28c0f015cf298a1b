import ArchiveCensus.Proofs.Disk.Search
import ArchiveCensus.Proofs.FileName.Suffixes
import ArchiveCensus.Proofs.Survey.Resolution

/-!
# Where Scratch Copies Lie

The name of an entry is written by whoever made the archive, and it may hold
anything: double dots, a slash in front, nothing between two slashes. A copy of
the entry is written to a fresh directory, under the last component of that
name, and must not come to lie anywhere else.

It does not, as long as the names of archives end in a text without a slash
that is no dot and no double dot. Such an end is the end of what stands behind
the last slash, so there is something behind it that counts as a component, and
it is the last one that reading the name keeps. Being one component and not the
way up, it leads from a directory to what lies directly inside it: as a path,
and also on a disk.

## Main definitions

* `Path.behindSlashes`: What stands behind the last slash.
* `Surroundings.Selects`: A nested URL leads to an entry that is copied.

## Theorems

* `name_parse`: The last component is what stands behind the last slash.
* `suffix_behindSlashes`: An end without a slash stands behind the last one.
* `find_child`: Where a name leads to from a directory.
* `filePath_of_resolveNested`: The record of a member tells where its copy lies.
* `copyName_confined`: A copy lies directly inside its own directory.
-/

namespace ArchiveCensus

namespace Path

/-- What stands behind the last slash, and the whole text if there is none. -/
def behindSlashes (t : Text) : Text :=
  match Text.cutAtLast? '/' t with
  | some (_, last) => last
  | none => t

theorem slash_not_mem_behindSlashes (t : Text) : CodePoint.ofChar '/' ∉ behindSlashes t := by
  unfold behindSlashes
  cases h : Text.cutAtLast? '/' t with
  | some sides => exact Text.not_mem_of_cutAtLast? h
  | none => exact Text.cutAtLast?_eq_none_iff.mp h

/-- Cutting at slashes ends with what stands behind the last one. -/
theorem exists_pieces_eq (t : Text) :
    ∃ front, Text.pieces '/' t = front ++ [behindSlashes t] := by
  have hlast := Text.pieces_of_not_mem (slash_not_mem_behindSlashes t)
  unfold behindSlashes at hlast ⊢
  cases h : Text.cutAtLast? '/' t with
  | none =>
      rw [h] at hlast
      exact ⟨[], hlast⟩
  | some sides =>
      rw [h] at hlast
      refine ⟨Text.pieces '/' sides.1, ?_⟩
      rw [Text.eq_of_cutAtLast? h, Text.pieces_append_cons, hlast]

/-- The last component of a path is what stands behind the last slash, if that
    counts as one. -/
theorem name_parse {t : Text} (h : IsName (behindSlashes t)) :
    (parse t).name = behindSlashes t := by
  obtain ⟨front, hfront⟩ := exists_pieces_eq t
  have hkept : (behindSlashes t ≠ [] && behindSlashes t ≠ Text.ofString ".") = true := by
    simp only [ne_eq, Bool.and_eq_true, decide_eq_true_eq]
    exact ⟨h.ne_nil, h.ne_dot⟩
  rw [name, parse, components, hfront, List.filter_append, List.filter_singleton, hkept, cond_true,
    List.getLastD_concat]

/-- An end without a slash is the end of what stands behind the last one. -/
theorem suffix_behindSlashes {t tail : Text} (hslash : CodePoint.ofChar '/' ∉ tail)
    (h : tail <:+ t) : tail <:+ behindSlashes t := by
  unfold behindSlashes
  cases hcut : Text.cutAtLast? '/' t with
  | none => exact h
  | some sides =>
      rw [Text.eq_of_cutAtLast? hcut] at h
      -- The slash lies outside of `tail`, so that is the shorter one of two ends.
      rcases List.suffix_or_suffix_of_suffix h (List.suffix_append sides.1 _) with hin | hout
      · rcases List.suffix_cons_iff.mp hin with rfl | hin
        · exact absurd List.mem_cons_self hslash
        · exact hin
      · exact absurd (hout.subset List.mem_cons_self) hslash

/-- What has no slash and an end that a double dot does not have is a name, and not
    the way up. -/
theorem isName_of_suffix {c tail : Text} (hslash : CodePoint.ofChar '/' ∉ c) (h : tail <:+ c)
    (htail : ¬ tail <:+ Text.ofString "..") : IsName c ∧ c ≠ Text.ofString ".." := by
  refine ⟨⟨?_, ?_, hslash⟩, ?_⟩
  · rintro rfl
    exact htail (h.trans (List.nil_suffix))
  · rintro rfl
    exact htail (h.trans (List.suffix_cons _ _))
  · rintro rfl
    exact htail h

/-- A text that is a component is read as that component alone. -/
theorem parse_of_isName {c : Text} (h : IsName c) : parse c = ⟨.here, [c]⟩ := by
  have hnamed : Named ⟨.here, [c]⟩ := fun _ hc => List.mem_singleton.mp hc ▸ h
  exact parse_toText hnamed

/-- Seen from a directory, a component lies directly inside. -/
theorem absolute_parse_of_isName {c : Text} (h : IsName c) (dir : Path) :
    absolute dir (parse c) = dir.child c := by
  rw [parse_of_isName h]
  rfl

end Path

namespace Disk

variable {d : Disk} {dir : Path} {place : List Text}

/-- One step from a place leads to that name in there, unless it goes up. -/
theorem eq_of_walk_singleton {c : Text} (hup : c ≠ Text.ofString "..") {x : List Text × Node}
    (h : d.walk place [c] = .ok (some x)) : x.1 = place ++ [Path.onDisk c] := by
  rw [walk] at h
  split at h
  · rw [if_neg hup] at h
    split at h
    · cases h
    · rw [walk, Except.ok.injEq, Option.map_eq_some_iff] at h
      rcases h with ⟨n, _, rfl⟩
      rfl
  · cases h

/-- What a name leads to from a directory lies directly inside, unless the name is
    the way up. -/
theorem find_child {c : Text} (hup : c ≠ Text.ofString "..") {n : Node}
    (hdir : d.find dir = .ok (some (place, n))) {x : List Text × Node}
    (h : d.find (dir.child c) = .ok (some x)) : x.1 = place ++ [Path.onDisk c] := by
  rcases find_eq_some_iff.mp hdir with ⟨_, _, _, _, hwalk⟩
  rcases find_eq_some_iff.mp h with ⟨_, _, _, _, hchild⟩
  have hstep : d.walk (d.startOf dir) (dir.parts ++ [c]) = .ok (some x) := hchild
  rw [walk_eq_of_walk hwalk] at hstep
  exact eq_of_walk_singleton hup hstep

end Disk

namespace Inspector

variable {i : Inspector} {name : Text} {bytes : ByteArray} {r : Record}

theorem suffix_of_isArchiveName (hi : i.suffixes = ({} : Inspector).suffixes)
    (h : i.isArchiveName name = true) : Text.ofString ".jar" <:+ name := by
  rcases FileName.hasSuffix_iff.mp h with ⟨suffix, hsuffix, hends⟩
  rw [hi] at hsuffix
  rwa [List.mem_singleton.mp hsuffix] at hends

/-- The record of a copy tells where the copy lies. -/
theorem filePath_of_inspectCopy {serial : Nat}
    (h : (i.inspectCopy name bytes serial).1 = some r) :
    r.filePath = some (i.scratchPath serial name).toText := by
  rw [inspectCopy_fst, Option.map_eq_some_iff] at h
  rcases h with ⟨s, hs, rfl⟩
  exact (of_describe_eq_ok (toOption_eq_some_iff.mp hs)).1

end Inspector

namespace Surroundings

variable {w : Surroundings} {url outer entry : Text}

/-- The URL leads to an entry that is in the archive, is no directory and is an
    archive by its name: a scratch copy of it is made. -/
structure Selects (w : Surroundings) (url outer entry : Text) : Prop where
  split : Location.splitNested url = .ok (outer, entry)
  found : ∃ bytes a x, w.disk.fileAt (.parse outer) = .ok (some bytes) ∧
    Archive.open? bytes = .ok a ∧ a.find? entry = some x
  not_directory : entry.endsWith "/" = false
  isArchiveName : w.inspector.isArchiveName entry = true

/-- The copy of an entry whose name ends as those of archives do gets what stands
    behind the last slash as its name. -/
theorem copyName_eq (hends : Text.ofString ".jar" <:+ entry) :
    copyName entry = Path.behindSlashes entry ∧ Path.IsName (copyName entry) ∧
      copyName entry ≠ Text.ofString ".." := by
  have hlast := Path.suffix_behindSlashes (by decide) hends
  rcases Path.isName_of_suffix (Path.slash_not_mem_behindSlashes entry) hlast (by decide) with
    ⟨hname, hup⟩
  have heq : copyName entry = Path.behindSlashes entry := Path.name_parse hname
  rw [heq]
  exact ⟨rfl, hname, hup⟩

/-- A copy under the name of a component that is not the way up does not take the
    place of a directory. -/
theorem member?_ne_copyIsDirectory (hname : Path.IsName (copyName entry))
    (hup : copyName entry ≠ Text.ofString "..") (w : Surroundings) (outer : Text) :
    w.member? outer entry ≠ .error .copyIsDirectory := by
  have hfree : ¬(copyName entry = [] ∨ copyName entry = Text.ofString "..") :=
    not_or.mpr ⟨hname.ne_nil, hup⟩
  intro h
  simp only [member?, memberOf, if_neg hfree] at h
  repeat' split at h
  all_goals exact absurd h (by simp only [Except.error.injEq, reduceCtorEq, not_false_eq_true])

/-- The record of a member tells where its copy lies. -/
theorem filePath_of_resolveNested (hsplit : Location.splitNested url = .ok (outer, entry))
    {serial : Nat} {r : Record} (h : (w.resolveNested url serial).record = .ok (some r)) :
    r.filePath = some (w.inspector.scratchPath serial (copyName entry)).toText := by
  unfold resolveNested at h
  rw [hsplit] at h
  dsimp only at h
  split at h
  · exact absurd h (by simp only [Resolution.failed, reduceCtorEq, not_false_eq_true])
  · exact absurd h (by simp only [Resolution.empty, Except.ok.injEq, reduceCtorEq,
      not_false_eq_true])
  · rcases Option.map_eq_some_iff.mp (Except.ok.inj h) with ⟨s, hs, rfl⟩
    have hfile := Inspector.filePath_of_inspectCopy hs
    exact hfile

/-- The copy of an entry that a URL leads to, whatever the name of the entry, gets
    what stands behind the last slash of that as its name. The name is a component
    and not the way up, so a copy never stands in for a directory; seen from a
    directory it is the path of a child, and on a disk it leads to nothing but what
    lies directly in there. The record tells such a path, and reading the path
    finds the same components. -/
theorem copyName_confined (hsuffixes : w.inspector.suffixes = ({} : Inspector).suffixes)
    (h : w.Selects url outer entry) :
    let name := copyName entry
    name = Path.behindSlashes entry ∧ Path.IsName name ∧ name ≠ Text.ofString ".." ∧
      w.member? outer entry ≠ .error .copyIsDirectory ∧
      (∀ dir : Path, Path.absolute dir (.parse name) = dir.child name) ∧
      (∀ (d : Disk) (dir : Path) (place : List Text) (x : List Text × Node),
        d.find dir = .ok (some (place, .directory)) → d.find (dir.child name) = .ok (some x) →
          x.1 = place ++ [Path.onDisk name]) ∧
      ∀ (serial : Nat) (r : Record), (w.resolveNested url serial).record = .ok (some r) →
        ∃ p : Path, r.filePath = some p.toText ∧
          p = (w.inspector.scratchDirectory serial).child name ∧ Path.parse p.toText = p := by
  intro name
  rcases copyName_eq (Inspector.suffix_of_isArchiveName hsuffixes h.isArchiveName) with
    ⟨heq, hname, hup⟩
  refine ⟨heq, hname, hup, member?_ne_copyIsDirectory hname hup w outer,
    Path.absolute_parse_of_isName hname,
    fun _ _ _ _ hdir hx => Disk.find_child hup hdir hx, ?_⟩
  intro serial r hr
  exact ⟨_, filePath_of_resolveNested h.split hr, rfl,
    Path.parse_toText (w.inspector.named_scratchPath serial hname)⟩

/-- An archive with an entry `../b.jar`, which is an archive without entries. -/
def climbingArchive : ByteArray :=
  ⟨#[80, 75, 3, 4, 20, 0, 0, 0, 0, 0, 0, 0, 1, 33, 14, 197, 203, 215, 22, 0, 0, 0, 22, 0, 0, 0,
    8, 0, 0, 0, 46, 46, 47, 98, 46, 106, 97, 114, 80, 75, 5, 6, 0, 0, 0, 0, 0, 0, 0, 0, 0, 0, 0,
    0, 0, 0, 0, 0, 0, 0, 80, 75, 1, 2, 20, 3, 20, 0, 0, 0, 0, 0, 0, 0, 1, 33, 14, 197, 203, 215,
    22, 0, 0, 0, 22, 0, 0, 0, 8, 0, 0, 0, 0, 0, 0, 0, 0, 0, 0, 0, 128, 1, 0, 0, 0, 0, 46, 46, 47,
    98, 46, 106, 97, 114, 80, 75, 5, 6, 0, 0, 0, 0, 1, 0, 1, 0, 54, 0, 0, 0, 60, 0, 0, 0, 0, 0]⟩

/-- A disk with `climbingArchive` in the current directory. -/
def climbingPlace : Surroundings :=
  { disk := Disk.put ⟨[], ["home"]⟩ ["home", "a.jar"] (.file climbingArchive) }

/-- The archive holds the entry. -/
theorem exists_find?_climbingArchive :
    ∃ a x, Archive.open? climbingArchive = .ok a ∧ a.find? "../b.jar" = some x := by
  have hentry : ((Archive.open? climbingArchive).toOption.bind
      fun a => a.find? "../b.jar").isSome = true := by decide +kernel
  cases hopen : Archive.open? climbingArchive with
  | error f =>
      rw [hopen] at hentry
      cases hentry
  | ok a =>
      rw [hopen] at hentry
      rcases Option.isSome_iff_exists.mp hentry with ⟨x, hx⟩
      exact ⟨a, x, rfl, hx⟩

/-- The double dot of the entry is left behind, and there is a record of the copy. -/
theorem copyName_confined_climbing :
    let url := Text.ofString "jar:file:a.jar!/../b.jar"
    climbingPlace.Selects url "a.jar" "../b.jar" ∧
      copyName "../b.jar" = Text.ofString "b.jar" ∧
      ∃ r, (climbingPlace.resolveNested url 0).record = .ok (some r) ∧
        r.filePath =
          some ((climbingPlace.inspector.scratchDirectory 0).child "b.jar").toText := by
  intro url
  have hselects : climbingPlace.Selects url "a.jar" "../b.jar" := by
    rcases exists_find?_climbingArchive with ⟨a, x, ha, hx⟩
    exact ⟨by decide +kernel, ⟨climbingArchive, a, x, by decide +kernel, ha, hx⟩, by decide,
      by decide⟩
  have hcopied : ((climbingPlace.resolveNested url 0).record.toOption.map
      Option.isSome) = some true := by
    decide +kernel
  rcases copyName_confined rfl hselects with ⟨hlast, _, _, _, _, _, hrecord⟩
  have hname : copyName "../b.jar" = Text.ofString "b.jar" := hlast.trans (by decide)
  refine ⟨hselects, hname, ?_⟩
  rcases hanswer : (climbingPlace.resolveNested url 0).record with f | _ | r
  · rw [hanswer] at hcopied
    cases hcopied
  · rw [hanswer] at hcopied
    cases hcopied
  · rcases hrecord 0 r hanswer with ⟨p, hp, rfl, _⟩
    exact ⟨r, rfl, hp.trans (by rw [hname])⟩

end Surroundings

end ArchiveCensus
