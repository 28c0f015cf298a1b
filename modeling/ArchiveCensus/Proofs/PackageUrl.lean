import ArchiveCensus.PackageUrl
import ArchiveCensus.Proofs.Percent

/-!
# Reading Back Package URLs

Writing puts encoded parts between marks, and reading cuts at marks: at the first
slash behind the type, at the last `@`, and at the last slash in front of that.
The two agree because of what encoding lets through. It lets through neither `@`
nor `?`, so the only `@` is the one in front of the version. It does let slashes
through, so the group may hold some and the name may not; and the qualifier is
not cut off at all, so it hangs on the version, or on the name when there is no
version, where a slash in it would be taken for the last one in front of the
name.

## Main definitions

* `PackageUrl.Delimits`: A mark that no written part can hold.
* `PackageUrl.qualifier`: The classifier in writing, behind its mark.
* `PackageUrl.groupOf`, `PackageUrl.versionOf`, `PackageUrl.suffixOf`: What is
  written of a record.

## Theorems

* `decode_encodePart`: Decoding takes back the encoding of a part.
* `mem_of_mem_encodePart`: Which marks a part can hold in writing.
* `parse_render`: What is read off a URL that is written.
* `parse_generate`: What is read off the URL of a record.
-/

namespace ArchiveCensus

namespace PackageUrl

open Text

/-! ## Parts -/

/-- Decoding takes back the encoding of a part. -/
theorem decode_encodePart {t : Text} (h : t.isScalar = true) :
    Percent.decode (encodePart t) = t := by
  rw [encodePart, Utf8.encode?, if_pos h]
  exact Percent.decode_encodeBytes (by decide) h

/-- A mark in a written part is one that is kept, and stands in the part unless
    it is what blots others out. -/
theorem mem_of_mem_encodePart {c : CodePoint} (hc : Percent.IsMark c) {t : Text}
    (h : c ∈ encodePart t) : keptInPart c = true ∧ (c ∈ t ∨ c = '_') := by
  rw [encodePart, Utf8.encode?] at h
  by_cases hscalar : t.isScalar = true
  · rw [if_pos hscalar] at h
    obtain ⟨hkept, hmem⟩ := Percent.mem_of_mem_encodeBytes hc h
    exact ⟨hkept, .inl hmem⟩
  · rw [if_neg hscalar] at h
    obtain ⟨d, hd, hblot⟩ := List.mem_map.1 h
    split at hblot
    · rename_i hplain
      subst hblot
      exact ⟨by simp [keptInPart, hplain], .inl hd⟩
    · subst hblot
      exact ⟨by decide, .inr rfl⟩

/-- A mark that no written part can hold. -/
structure Delimits (c : CodePoint) : Prop where
  isMark : Percent.IsMark c
  not_kept : keptInPart c = false

theorem delimits_at : Delimits '@' := ⟨⟨by decide, by decide⟩, by decide⟩

theorem delimits_question : Delimits '?' := ⟨⟨by decide, by decide⟩, by decide⟩

theorem Delimits.not_mem_encodePart {c : CodePoint} (hc : Delimits c) (t : Text) :
    c ∉ encodePart t := fun h =>
  absurd (mem_of_mem_encodePart hc.isMark h).1 (by rw [hc.not_kept]; exact Bool.false_ne_true)

theorem slash_not_mem_encodePart {t : Text} (h : CodePoint.ofChar '/' ∉ t) :
    CodePoint.ofChar '/' ∉ encodePart t := fun hmem =>
  (mem_of_mem_encodePart ⟨by decide, by decide⟩ hmem).2.elim h fun he => absurd he (by decide)

/-! ## Cuts -/

theorem cutVersion_append (a : Text) {b : Text} (h : CodePoint.ofChar '@' ∉ b) :
    cutVersion (a ++ CodePoint.ofChar '@' :: b) = (a, b) := by
  rw [cutVersion, cutAtLast?_append_cons a h]
  rfl

theorem cutVersion_of_not_mem {t : Text} (h : CodePoint.ofChar '@' ∉ t) :
    cutVersion t = (t, []) := by
  rw [cutVersion, cutAtLast?_eq_none_iff.2 h]
  rfl

theorem cutGroup_append (a : Text) {b : Text} (h : CodePoint.ofChar '/' ∉ b) :
    cutGroup (a ++ CodePoint.ofChar '/' :: b) = (a, b) := by
  rw [cutGroup, cutAtLast?_append_cons a h]
  rfl

theorem cutGroup_of_not_mem {t : Text} (h : CodePoint.ofChar '/' ∉ t) :
    cutGroup t = ([], t) := by
  rw [cutGroup, cutAtLast?_eq_none_iff.2 h]
  rfl

/-! ## URLs -/

section Render

variable (u : PackageUrl)

/-- The classifier in writing, behind its mark. -/
def qualifier : Text :=
  marked (Text.ofString "?classifier=") u.classifier

/-- The group in writing, with the slash behind it. -/
def front : Text :=
  match u.group with
  | none => []
  | some g => encodePart g ++ [CodePoint.ofChar '/']

theorem render_eq :
    u.render = Text.ofString "pkg:" ++ (u.type ++ CodePoint.ofChar '/' ::
      (u.front ++ encodePart u.name ++ marked (Text.ofString "@") u.version ++ u.qualifier)) := by
  have hslash : Text.ofString "/" = [CodePoint.ofChar '/'] := by decide
  unfold render front
  cases u.group with
  | none => simp only [qualifier, hslash, List.append_assoc, List.cons_append, List.nil_append]
  | some g => simp only [qualifier, hslash, List.append_assoc, List.cons_append, List.nil_append]

theorem Delimits.not_mem_front {c : CodePoint} (hc : Delimits c) : c ∉ u.front := by
  unfold front
  cases u.group with
  | none => exact List.not_mem_nil
  | some g =>
    intro h
    rcases List.mem_append.1 h with h | h
    · exact hc.not_mem_encodePart g h
    · rw [List.mem_singleton.1 h] at hc
      exact absurd hc.not_kept (by decide)

theorem Delimits.not_mem_marked {c : CodePoint} (hc : Delimits c) {mark : Text} (h : c ∉ mark)
    (t : Option Text) : c ∉ marked mark t := by
  cases t with
  | none => exact List.not_mem_nil
  | some t => exact fun hmem => (List.mem_append.1 hmem).elim h (hc.not_mem_encodePart t)

theorem at_not_mem_qualifier : CodePoint.ofChar '@' ∉ u.qualifier :=
  delimits_at.not_mem_marked (by decide) u.classifier

theorem slash_not_mem_qualifier {u : PackageUrl}
    (h : ∀ c ∈ u.classifier, CodePoint.ofChar '/' ∉ c) :
    CodePoint.ofChar '/' ∉ u.qualifier := by
  unfold qualifier
  cases hc : u.classifier with
  | none => exact List.not_mem_nil
  | some c =>
    intro hmem
    rcases List.mem_append.1 hmem with hmem | hmem
    · exact absurd hmem (by decide)
    · exact slash_not_mem_encodePart (h c hc) hmem

/-- The name is what stands behind the last slash, whatever the group holds. -/
theorem cutGroup_front {name : Text} (h : CodePoint.ofChar '/' ∉ name) :
    cutGroup (u.front ++ name) = ((u.group.map encodePart).getD [], name) := by
  unfold front
  cases u.group with
  | none => exact cutGroup_of_not_mem h
  | some g =>
    rw [List.append_assoc, List.singleton_append, cutGroup_append _ h]
    rfl

theorem parse_of_rest (type rest : Text) (htype : CodePoint.ofChar '/' ∉ type) :
    parse (Text.ofString "pkg:" ++ (type ++ CodePoint.ofChar '/' :: rest))
      = { scheme := Text.ofString "pkg", type := type
          group := (cutGroup (cutVersion rest).1).1
          name := (cutGroup (cutVersion rest).1).2
          version := (cutVersion rest).2 } := by
  have hvalid :
      isValid (Text.ofString "pkg:" ++ (type ++ CodePoint.ofChar '/' :: rest)) = true := by
    simp [isValid, startsWith]
  have hdrop : (Text.ofString "pkg:" ++ (type ++ CodePoint.ofChar '/' :: rest)).drop 4
      = type ++ CodePoint.ofChar '/' :: rest := rfl
  rw [parse, if_pos hvalid, hdrop, cutAt?_append_cons htype]

/-- What is read off a URL that is written. -/
theorem parse_render {u : PackageUrl} (htype : CodePoint.ofChar '/' ∉ u.type)
    (hname : CodePoint.ofChar '/' ∉ u.name)
    (hclassifier : u.version = none → ∀ c ∈ u.classifier, CodePoint.ofChar '/' ∉ c) :
    parse u.render =
      { scheme := Text.ofString "pkg", type := u.type
        group := (u.group.map encodePart).getD []
        name := encodePart u.name ++ if u.version.isNone then u.qualifier else []
        version := match u.version with
          | none => []
          | some v => encodePart v ++ u.qualifier } := by
  rw [render_eq, parse_of_rest _ _ htype]
  cases hversion : u.version with
  | none =>
    -- Nothing to cut for a version, so the last slash must be that of the group.
    have hat : CodePoint.ofChar '@' ∉ u.front ++ (encodePart u.name ++ u.qualifier) := by
      simp only [List.mem_append, not_or]
      exact ⟨delimits_at.not_mem_front u, delimits_at.not_mem_encodePart u.name,
        u.at_not_mem_qualifier⟩
    have hslash : CodePoint.ofChar '/' ∉ encodePart u.name ++ u.qualifier := by
      simp only [List.mem_append, not_or]
      exact ⟨slash_not_mem_encodePart hname, slash_not_mem_qualifier (hclassifier hversion)⟩
    simp only [marked, List.append_nil, List.append_assoc, cutVersion_of_not_mem hat,
      u.cutGroup_front hslash, Option.isNone_none, if_true]
  | some v =>
    -- The version goes first, with all slashes in it and in the qualifier.
    have hat : CodePoint.ofChar '@' ∉ encodePart v ++ u.qualifier := by
      simp only [List.mem_append, not_or]
      exact ⟨delimits_at.not_mem_encodePart v, u.at_not_mem_qualifier⟩
    have hmark : Text.ofString "@" = [CodePoint.ofChar '@'] := by decide
    have hcut := cutVersion_append (u.front ++ encodePart u.name) hat
    simp only [marked, hmark, List.append_assoc, List.cons_append, List.nil_append] at hcut ⊢
    simp only [hcut, u.cutGroup_front (slash_not_mem_encodePart hname), Option.isNone_some,
      Bool.false_eq_true, if_false, List.append_nil]

end Render

/-! ## Records -/

/-- The group that is written for a record. -/
def groupOf (r : Record) : Text :=
  match r.group with
  | none => unknown
  | some g => if g = [] then unknown else g

/-- The version of a record, empty if it is absent or unknown. -/
def versionOf (r : Record) : Text :=
  match r.version with
  | none => []
  | some v => if v = unknown then [] else v

/-- What the classifier of a record adds to the end of its URL. -/
def suffixOf (r : Record) : Text :=
  if kindOf r = .generic then []
  else
    match r.classifier with
    | none => []
    | some c => if c = [] then [] else Text.ofString "?classifier=" ++ encodePart c

theorem present_some (t : Text) : present (some t) = if t = [] then none else some t := by
  by_cases h : t = []
  · simp [present, h]
  · simp [present, Option.filter, h]

theorem getD_present_group (r : Record) : (present r.group).getD unknown = groupOf r := by
  unfold groupOf
  cases r.group with
  | none => rfl
  | some g =>
    rw [present_some]
    by_cases h : g = [] <;> simp [h]

theorem knownVersion_eq (r : Record) :
    knownVersion r.version = if versionOf r = [] then none else some (versionOf r) := by
  unfold versionOf
  cases r.version with
  | none => rfl
  | some v =>
    rw [knownVersion, present_some]
    have hne : unknown ≠ [] := by decide
    by_cases hempty : v = []
    · simp [hempty]
    · by_cases hunknown : v = unknown <;> simp [Option.filter, hempty, hunknown, hne]

/-- The URL of a record that has an artifact. -/
theorem ofRecord_eq (suffixes : List Text) {r : Record} {artifact : Text}
    (h : r.artifact = some artifact) (hne : artifact ≠ []) :
    ofRecord suffixes r =
      { type := if kindOf r = .generic then Text.ofString "generic" else Text.ofString "maven"
        group := if kindOf r = .generic then none else some (groupOf r)
        name := artifact
        version := if versionOf r = [] then none else some (versionOf r)
        classifier := if kindOf r = .generic then none else present r.classifier } := by
  have hname : present r.artifact = some artifact := by rw [h, present_some, if_neg hne]
  rw [ofRecord]
  cases kindOf r with
  | maven => simp [ofKind, grouped, hname, getD_present_group, knownVersion_eq]
  | gradle => simp [ofKind, grouped, hname, getD_present_group, knownVersion_eq]
  | generic => simp [ofKind, ungrouped, hname, knownVersion_eq]

theorem qualifier_ofRecord (suffixes : List Text) {r : Record} {artifact : Text}
    (h : r.artifact = some artifact) (hne : artifact ≠ []) :
    (ofRecord suffixes r).qualifier = suffixOf r := by
  rw [qualifier, ofRecord_eq suffixes h hne, suffixOf]
  by_cases hkind : kindOf r = .generic
  · simp [hkind, marked]
  · cases r.classifier with
    | none => simp [hkind, present, marked]
    | some c => by_cases hc : c = [] <;> simp [hkind, present_some, hc, marked]

theorem mem_of_mem_present {t : Option Text} {c : Text} (h : c ∈ present t) : c ∈ t := by
  cases t with
  | none => exact h
  | some d =>
    rw [present_some] at h
    split at h
    · cases h
    · exact h

/-- What is read off the URL of a record that has an artifact. -/
theorem parse_ofRecord (suffixes : List Text) {r : Record} {artifact : Text}
    (hartifact : r.artifact = some artifact) (hne : artifact ≠ [])
    (hslash : CodePoint.ofChar '/' ∉ artifact)
    (hclassifier : versionOf r = [] → ∀ c ∈ r.classifier, CodePoint.ofChar '/' ∉ c) :
    parse (ofRecord suffixes r).render =
      { scheme := Text.ofString "pkg"
        type := if kindOf r = .generic then Text.ofString "generic" else Text.ofString "maven"
        group := if kindOf r = .generic then [] else encodePart (groupOf r)
        name := encodePart artifact ++ if versionOf r = [] then suffixOf r else []
        version := if versionOf r = [] then [] else encodePart (versionOf r) ++ suffixOf r } := by
  have hu := ofRecord_eq suffixes hartifact hne
  have htype : CodePoint.ofChar '/' ∉ (ofRecord suffixes r).type := by
    rw [hu]
    dsimp only
    split <;> decide
  have hname : CodePoint.ofChar '/' ∉ (ofRecord suffixes r).name := by
    rw [hu]
    exact hslash
  have hwritten : (ofRecord suffixes r).version = none →
      ∀ c ∈ (ofRecord suffixes r).classifier, CodePoint.ofChar '/' ∉ c := by
    rw [hu]
    intro hversion c hc
    have hnone : versionOf r = [] := by simpa using hversion
    dsimp only at hc
    split at hc
    · cases hc
    · exact hclassifier hnone c (mem_of_mem_present hc)
  rw [parse_render htype hname hwritten, qualifier_ofRecord suffixes hartifact hne, hu]
  by_cases hkind : kindOf r = .generic <;> by_cases hversion : versionOf r = [] <;>
    simp [hkind, hversion]

section Scalar

variable {r : Record} (h : ∀ (f : Field) (t : Text), r.textIn f = some t → t.isScalar = true)
include h

theorem isScalar_groupOf : (groupOf r).isScalar = true := by
  have hunknown : unknown.isScalar = true := by decide
  unfold groupOf
  cases hg : r.group with
  | none => exact hunknown
  | some g =>
    dsimp only
    split
    · exact hunknown
    · exact h .group g hg

theorem isScalar_versionOf : (versionOf r).isScalar = true := by
  unfold versionOf
  cases hv : r.version with
  | none => rfl
  | some v =>
    dsimp only
    split
    · rfl
    · exact h .version v hv

end Scalar

/-- The coordinates of a record without surrogates are read back from its URL,
    if no slash stands in the artifact, nor in a classifier that is not written
    behind a version. -/
theorem parse_generate (suffixes : List Text) (r : Record) (artifact : Text)
    (hscalar : ∀ (f : Field) (t : Text), r.textIn f = some t → t.isScalar = true)
    (hartifact : r.artifact = some artifact) (hne : artifact ≠ [])
    (hslash : CodePoint.ofChar '/' ∉ artifact)
    (hclassifier : versionOf r = [] → ∀ c ∈ r.classifier, CodePoint.ofChar '/' ∉ c) :
    let parts := parse (({ suffixes := suffixes } : Maker).generate (some r)).1
    parts.scheme = Text.ofString "pkg" ∧
      (kindOf r ≠ .generic →
        parts.type = Text.ofString "maven" ∧ Percent.decode parts.group = groupOf r) ∧
      (kindOf r = .generic → parts.type = Text.ofString "generic" ∧ parts.group = []) ∧
      ∃ name version : Text, Percent.decode name = artifact ∧
        Percent.decode version = versionOf r ∧
        parts.name = name ++ (if versionOf r = [] then suffixOf r else []) ∧
        parts.version = version ++ (if versionOf r = [] then [] else suffixOf r) := by
  intro parts
  have hparts : parts = _ := parse_ofRecord suffixes hartifact hne hslash hclassifier
  rw [hparts]
  refine ⟨rfl, fun hkind => ⟨if_neg hkind, ?_⟩, fun hkind => ⟨if_pos hkind, if_pos hkind⟩,
    encodePart artifact, if versionOf r = [] then [] else encodePart (versionOf r),
    decode_encodePart (hscalar .artifact artifact hartifact), ?_, rfl, ?_⟩
  · dsimp only
    rw [if_neg hkind, decode_encodePart (isScalar_groupOf hscalar)]
  · split
    · rename_i hnone
      rw [hnone, Percent.decode, Percent.decodeFrom_nil, Utf8.decodeLossy_nil]
    · exact decode_encodePart (isScalar_versionOf hscalar)
  · dsimp only
    split <;> simp

/-- A record with marks in every part and no version. -/
def knotted : Record :=
  { group := some (Text.ofString "org/a b")
    artifact := some (Text.ofString "x@y?z%41")
    classifier := some (Text.ofString "k?classifier=l:m") }

theorem parse_generate_knotted :
    (∀ (f : Field) (t : Text), knotted.textIn f = some t → t.isScalar = true) ∧
      versionOf knotted = [] ∧ kindOf knotted ≠ .generic ∧
      let parts := parse (({} : Maker).generate (some knotted)).1
      Percent.decode parts.group = Text.ofString "org/a b" ∧
      ∃ name : Text, Percent.decode name = Text.ofString "x@y?z%41" ∧
        parts.name = name ++ suffixOf knotted := by
  have hscalar : ∀ (f : Field) (t : Text), knotted.textIn f = some t → t.isScalar = true := by
    intro f t ht
    cases f <;> cases ht <;> decide
  have hversion : versionOf knotted = [] := by decide
  have hkind : kindOf knotted ≠ .generic := by decide
  obtain ⟨_, hgroup, _, name, _, hname, _, hread, _⟩ :=
    parse_generate _ knotted (Text.ofString "x@y?z%41") hscalar rfl (by decide) (by decide)
      (by decide)
  refine ⟨hscalar, hversion, hkind, (hgroup hkind).2, name, hname, ?_⟩
  rw [hread, if_pos hversion]

end PackageUrl

end ArchiveCensus
