import ArchiveCensus.FileName
import ArchiveCensus.Text.Blank

/-!
# What File Names Tell

A stem is cut at its last hyphen, unless that is its first sign. The tail then
holds no hyphen, so it is a version as a whole and nothing of it is a classifier.

Either part can come out blank, and such a part tells nothing: the version where
nothing but blanks stand behind the last hyphen, the artifact where nothing but
blanks stand in front of it, or in the whole stem.

## Main definitions

* `FileName.Nameless`, `FileName.Versionless`: A stem that tells no artifact, or no
  version.

## Theorems

* `split_of_not_mem`, `split_append_cons`: What is read off a stem.
* `stem_cases`: Every stem is of one of the two kinds.
* `split_eq_whole_iff`, `exists_split_eq`: Which of the two it is, and its parts.
* `isBlank_artifact_iff`, `isBlank_version_iff`: When a part comes out blank.
-/

namespace ArchiveCensus

namespace FileName

open Text

variable {stem a b : Text}

/-- The hyphen that stems are cut at. -/
abbrev hyphen : CodePoint := CodePoint.ofChar '-'

theorem hyphen_mem_tail (ha : a ≠ []) : hyphen ∈ (a ++ hyphen :: b).tail := by
  cases a with
  | nil => exact absurd rfl ha
  | cons c a => exact List.mem_append_right a List.mem_cons_self

/-- A stem with nowhere to cut is the artifact. -/
theorem split_of_not_mem (h : hyphen ∉ stem.tail) : split stem = ⟨stem, unknown, none⟩ := by
  unfold split
  split
  · rfl
  · rfl
  · rename_i artifact tail hempty hcut
    have hne : artifact ≠ [] := by
      rintro rfl
      exact hempty rfl
    rw [eq_of_cutAtLast? hcut] at h
    exact absurd (hyphen_mem_tail hne) h

/-- A stem is cut at its last hyphen, and never again. -/
theorem split_append_cons (ha : a ≠ []) (hb : hyphen ∉ b) :
    split (a ++ hyphen :: b) = ⟨a, b, none⟩ := by
  rw [split, cutAtLast?_append_cons a hb]
  cases a with
  | nil => exact absurd rfl ha
  | cons c a => simp only [cutAtLast?_eq_none_iff.2 hb]

/-- A stem has a last hyphen to cut at, or none behind its first sign. -/
theorem stem_cases (stem : Text) :
    hyphen ∉ stem.tail ∨ ∃ a b : Text, stem = a ++ hyphen :: b ∧ a ≠ [] ∧ hyphen ∉ b := by
  cases hcut : cutAtLast? hyphen stem with
  | none => exact .inl fun h => cutAtLast?_eq_none_iff.1 hcut (List.mem_of_mem_tail h)
  | some sides =>
    obtain ⟨a, b⟩ := sides
    have hstem := eq_of_cutAtLast? hcut
    have hb := not_mem_of_cutAtLast? hcut
    cases a with
    | nil => exact .inl (by rw [hstem]; exact hb)
    | cons c a => exact .inr ⟨c :: a, b, hstem, List.cons_ne_nil c a, hb⟩

/-- There is one last hyphen. -/
theorem last_cut_inj {a' b' : Text} (hb : hyphen ∉ b) (hb' : hyphen ∉ b')
    (h : a ++ hyphen :: b = a' ++ hyphen :: b') : a = a' ∧ b = b' := by
  have hcut := congrArg (cutAtLast? hyphen) h
  rw [cutAtLast?_append_cons a hb, cutAtLast?_append_cons a' hb'] at hcut
  exact Prod.mk.inj (Option.some.inj hcut)

/-- A stem is the artifact as a whole only if there is nowhere to cut: what is cut
    off is never nothing. -/
theorem split_eq_whole_iff : split stem = ⟨stem, unknown, none⟩ ↔ hyphen ∉ stem.tail := by
  refine ⟨fun hwhole => ?_, split_of_not_mem⟩
  rcases stem_cases stem with huncut | ⟨a, b, rfl, ha, hb⟩
  · exact huncut
  · rw [split_append_cons ha hb] at hwhole
    have hlength := congrArg (fun parts => parts.artifact.length) hwhole
    simp at hlength

theorem exists_split_eq (h : hyphen ∈ stem.tail) :
    ∃ artifact version, split stem = ⟨artifact, version, none⟩ ∧ artifact ≠ [] ∧
      hyphen ∉ version ∧ artifact ++ hyphen :: version = stem := by
  rcases stem_cases stem with huncut | ⟨a, b, rfl, ha, hb⟩
  · exact absurd h huncut
  · exact ⟨a, b, split_append_cons ha hb, ha, hb, rfl⟩

theorem classifier_split (stem : Text) : (split stem).classifier = none := by
  by_cases h : hyphen ∈ stem.tail
  · obtain ⟨artifact, version, hsplit, _⟩ := exists_split_eq h
    rw [hsplit]
  · rw [split_of_not_mem h]

/-! ## Parts that tell nothing -/

/-- Nothing but blanks stand where the artifact is looked for. -/
def Nameless (stem : Text) : Prop :=
  stem.isBlank = true ∨
    ∃ a b : Text, stem = a ++ hyphen :: b ∧ a ≠ [] ∧ a.isBlank = true ∧ hyphen ∉ b

/-- There is a hyphen to cut at, and nothing but blanks stand behind it. -/
def Versionless (stem : Text) : Prop :=
  ∃ a b : Text, stem = a ++ hyphen :: b ∧ a ≠ [] ∧ b.isBlank = true

theorem hyphen_not_mem_of_isBlank {t : Text} (h : t.isBlank = true) : hyphen ∉ t := by
  intro hmem
  exact absurd (List.all_eq_true.1 h hyphen hmem) (by decide)

theorem isBlank_artifact_iff : (split stem).artifact.isBlank = true ↔ Nameless stem := by
  rcases stem_cases stem with huncut | ⟨a, b, rfl, ha, hb⟩
  · rw [split_of_not_mem huncut]
    constructor
    · exact .inl
    · rintro (hblank | ⟨a, b, rfl, ha, _⟩)
      · exact hblank
      · exact absurd (hyphen_mem_tail ha) huncut
  · rw [split_append_cons ha hb]
    constructor
    · exact fun hblank => .inr ⟨a, b, rfl, ha, hblank, hb⟩
    · rintro (hblank | ⟨a', b', hsame, _, hblank, hb'⟩)
      · exact absurd (List.mem_append_right a List.mem_cons_self)
          (hyphen_not_mem_of_isBlank hblank)
      · rw [(last_cut_inj hb hb' hsame).1]
        exact hblank

theorem isBlank_version_iff : (split stem).version.isBlank = true ↔ Versionless stem := by
  rcases stem_cases stem with huncut | ⟨a, b, rfl, ha, hb⟩
  · rw [split_of_not_mem huncut]
    constructor
    · exact fun hblank => absurd hblank (by decide : ¬unknown.isBlank = true)
    · rintro ⟨a, b, rfl, ha, _⟩
      exact absurd (hyphen_mem_tail ha) huncut
  · rw [split_append_cons ha hb]
    constructor
    · exact fun hblank => ⟨a, b, rfl, ha, hblank⟩
    · rintro ⟨a', b', hsame, _, hblank⟩
      rw [(last_cut_inj hb (hyphen_not_mem_of_isBlank hblank) hsame).2]
      exact hblank

end FileName

end ArchiveCensus
