import ArchiveCensus.Proofs.PackageUrl

/-!
# Putting Package URLs Together Again

Taking a text apart makes three cuts, each in what the one before it left: at the
first slash behind the scheme, at the last `@` of the rest, and at the last slash
in front of that. The first cut always finds its slash in a text that is valid. The
other two may find nothing, and then the part that would be cut off is empty.

An empty part does not tell whether there was a cut. `pkg:a/b@` and `pkg:a/b` have
the same parts, and so have `pkg:a//b` and `pkg:a/b`. That is all that gets lost:
with the two answers the text can be put together again, and every text that is put
together from parts without the wrong marks is taken apart into these parts.

## Main definitions

* `Parts.path`, `Parts.ending`: What stands in front of the version, and the
  version behind its mark.
* `Parts.whole`: The text that parts make up.
* `Parts.Severed`: Parts that hold no mark at which they would be cut again.

## Theorems

* `cutVersion_spec`, `cutGroup_spec`: What a single cut gives.
* `exists_type_of_isValid`: A valid text has a type.
* `parse_whole`: Parts are read off the text that they make up.
* `parse_lossless`: A text is what its parts make up.
-/

namespace ArchiveCensus

namespace PackageUrl

open Text

namespace Parts

/-- Group and name with a slash between them, or the name alone. -/
def path (p : Parts) (grouped : Bool) : Text :=
  if grouped then p.group ++ CodePoint.ofChar '/' :: p.name else p.name

/-- The version behind its mark, or nothing. -/
def ending (p : Parts) (versioned : Bool) : Text :=
  if versioned then CodePoint.ofChar '@' :: p.version else []

/-- The text that the parts make up, with or without the two marks. -/
def whole (p : Parts) (grouped versioned : Bool) : Text :=
  Text.ofString "pkg:" ++ p.type ++ Text.ofString "/" ++ p.path grouped ++ p.ending versioned

/-- Parts that hold no mark at which they would be cut again. What is not cut off is
    empty. -/
structure Severed (p : Parts) (grouped versioned : Bool) : Prop where
  scheme : p.scheme = Text.ofString "pkg"
  type_free : CodePoint.ofChar '/' ∉ p.type
  name_free : CodePoint.ofChar '/' ∉ p.name
  version_free : CodePoint.ofChar '@' ∉ p.version
  ungrouped : grouped = false → p.group = []
  unversioned : versioned = false → p.version = [] ∧ CodePoint.ofChar '@' ∉ p.path grouped

theorem whole_eq (p : Parts) (grouped versioned : Bool) :
    p.whole grouped versioned = Text.ofString "pkg:" ++
      (p.type ++ CodePoint.ofChar '/' :: (p.path grouped ++ p.ending versioned)) := by
  have hslash : Text.ofString "/" = [CodePoint.ofChar '/'] := by decide
  simp only [whole, hslash, List.append_assoc, List.cons_append, List.nil_append]

end Parts

/-! ## Single cuts -/

/-- The version is cut off at the last `@`, if there is one. -/
theorem cutVersion_spec (t : Text) :
    ∃ versioned : Bool,
      t = (cutVersion t).1 ++
        (if versioned then CodePoint.ofChar '@' :: (cutVersion t).2 else []) ∧
      CodePoint.ofChar '@' ∉ (cutVersion t).2 ∧
      (versioned = false → (cutVersion t).2 = [] ∧ CodePoint.ofChar '@' ∉ (cutVersion t).1) := by
  by_cases hat : CodePoint.ofChar '@' ∈ t
  · cases hcut : cutAtLast? '@' t with
    | none => exact absurd hat (cutAtLast?_eq_none_iff.mp hcut)
    | some sides =>
        rcases sides with ⟨a, b⟩
        have hsides : cutVersion t = (a, b) := by
          rw [cutVersion, hcut]
          rfl
        rw [hsides]
        exact ⟨true, eq_of_cutAtLast? hcut, not_mem_of_cutAtLast? hcut,
          fun h => absurd h.symm Bool.false_ne_true⟩
  · rw [cutVersion_of_not_mem hat]
    exact ⟨false, (List.append_nil t).symm, List.not_mem_nil, fun _ => ⟨rfl, hat⟩⟩

/-- The name is cut off at the last slash, if there is one. -/
theorem cutGroup_spec (t : Text) :
    ∃ grouped : Bool,
      t = (if grouped then (cutGroup t).1 ++ CodePoint.ofChar '/' :: (cutGroup t).2
        else (cutGroup t).2) ∧
      CodePoint.ofChar '/' ∉ (cutGroup t).2 ∧
      (grouped = false → (cutGroup t).1 = []) := by
  by_cases hslash : CodePoint.ofChar '/' ∈ t
  · cases hcut : cutAtLast? '/' t with
    | none => exact absurd hslash (cutAtLast?_eq_none_iff.mp hcut)
    | some sides =>
        rcases sides with ⟨a, b⟩
        have hsides : cutGroup t = (a, b) := by
          rw [cutGroup, hcut]
          rfl
        rw [hsides]
        exact ⟨true, eq_of_cutAtLast? hcut, not_mem_of_cutAtLast? hcut,
          fun h => absurd h.symm Bool.false_ne_true⟩
  · rw [cutGroup_of_not_mem hslash]
    exact ⟨false, rfl, hslash, fun _ => rfl⟩

-- The scheme holds no slash, so the slash of a valid text stands behind it.
theorem exists_type_of_isValid {t : Text} (h : isValid t = true) :
    ∃ type rest : Text, t = Text.ofString "pkg:" ++ (type ++ CodePoint.ofChar '/' :: rest) ∧
      CodePoint.ofChar '/' ∉ type := by
  rw [isValid, startsWith, Bool.and_eq_true, List.isPrefixOf_iff_prefix] at h
  rcases h with ⟨⟨behind, rfl⟩, hslash⟩
  have hbehind : CodePoint.ofChar '/' ∈ behind := by
    rcases List.mem_append.mp (List.contains_iff_mem.mp hslash) with hscheme | hbehind
    · exact absurd hscheme (by decide)
    · exact hbehind
  cases hcut : cutAt? '/' behind with
  | none => exact absurd hbehind (cutAt?_eq_none_iff.mp hcut)
  | some sides => exact ⟨sides.1, sides.2, by rw [eq_of_cutAt? hcut], not_mem_of_cutAt? hcut⟩

/-! ## The whole -/

/-- A text is put together from what it is taken apart into. -/
theorem whole_parse {t : Text} (h : isValid t = true) :
    ∃ grouped versioned : Bool, (parse t).Severed grouped versioned ∧
      t = (parse t).whole grouped versioned := by
  rcases exists_type_of_isValid h with ⟨type, rest, rfl, htype⟩
  -- The cuts in the order in which they are made, each in the left side of the last.
  rcases cutVersion_spec rest with ⟨versioned, hrest, hversion, hunversioned⟩
  rcases cutGroup_spec (cutVersion rest).1 with ⟨grouped, hpath, hname, hungrouped⟩
  rw [parse_of_rest type rest htype]
  refine ⟨grouped, versioned, ?_, ?_⟩
  · refine ⟨rfl, htype, hname, hversion, hungrouped, ?_⟩
    intro hnone
    rcases hunversioned hnone with ⟨hnil, hat⟩
    rw [Parts.path, ← hpath]
    exact ⟨hnil, hat⟩
  · rw [Parts.whole_eq, Parts.path, Parts.ending, ← hpath, ← hrest]

section Whole

variable {p : Parts} {grouped versioned : Bool}

theorem cutVersion_whole (h : p.Severed grouped versioned) :
    cutVersion (p.path grouped ++ p.ending versioned) = (p.path grouped, p.version) := by
  cases versioned with
  | true => exact cutVersion_append _ h.version_free
  | false =>
      rcases h.unversioned rfl with ⟨hnil, hat⟩
      have hending : p.ending false = [] := rfl
      rw [hending, List.append_nil, cutVersion_of_not_mem hat, hnil]

theorem cutGroup_path (h : p.Severed grouped versioned) :
    cutGroup (p.path grouped) = (p.group, p.name) := by
  cases grouped with
  | true => exact cutGroup_append _ h.name_free
  | false =>
      have hpath : p.path false = p.name := rfl
      rw [hpath, cutGroup_of_not_mem h.name_free, h.ungrouped rfl]

theorem isValid_whole (p : Parts) (grouped versioned : Bool) :
    isValid (p.whole grouped versioned) = true := by
  rw [Parts.whole_eq, isValid, startsWith, Bool.and_eq_true, List.isPrefixOf_iff_prefix,
    List.contains_iff_mem]
  exact ⟨List.prefix_append _ _,
    List.mem_append_right _ (List.mem_append_right _ List.mem_cons_self)⟩

/-- Parts are read off the text that they make up. -/
theorem parse_whole (h : p.Severed grouped versioned) : parse (p.whole grouped versioned) = p := by
  rw [Parts.whole_eq, parse_of_rest _ _ h.type_free, cutVersion_whole h]
  dsimp only
  rw [cutGroup_path h, ← h.scheme]

end Whole

/-- What is read off a text has the scheme of package URLs exactly if the text is
    valid, and is empty throughout otherwise. A valid text is what its parts make up,
    but for the presence of two marks; and parts that hold no mark at which they would
    be cut again are read off the text that they make up. -/
theorem parse_lossless (t : Text) :
    (parse t).scheme = (if isValid t then Text.ofString "pkg" else []) ∧
      (isValid t = false → parse t = ⟨[], [], [], [], []⟩) ∧
      (isValid t = true → ∃ grouped versioned : Bool, (parse t).Severed grouped versioned ∧
        t = (parse t).whole grouped versioned) ∧
      ∀ (p : Parts) (grouped versioned : Bool), p.Severed grouped versioned →
        isValid (p.whole grouped versioned) = true ∧ parse (p.whole grouped versioned) = p := by
  have hinvalid : isValid t = false → parse t = ⟨[], [], [], [], []⟩ := by
    intro h
    rw [parse, h, if_neg Bool.false_ne_true]
  refine ⟨?_, hinvalid, whole_parse, fun p grouped versioned h =>
    ⟨isValid_whole p grouped versioned, parse_whole h⟩⟩
  by_cases h : isValid t = true
  · rcases whole_parse h with ⟨_, _, hsevered, _⟩
    rw [hsevered.scheme, if_pos h]
  · rw [hinvalid (Bool.eq_false_iff.mpr h), if_neg h]

/-- Both marks at an edge and once more inside a part. -/
example : parse (Text.ofString "pkg:a@b//c/@d/@") =
    { scheme := Text.ofString "pkg", type := Text.ofString "a@b", group := Text.ofString "/c/@d"
      name := [], version := [] } := by
  decide

end PackageUrl

end ArchiveCensus
