import ArchiveCensus.Inspection

/-!
# Names Without Their Suffix

The suffixes of archives are tried in order, and the first that ends a name is cut
off. Put back behind what is left, it gives the name again. A name that no suffix
ends is left whole, and it is the name of no archive.

The empty suffix makes an exception. It ends every name, so it counts where no
suffix in front of it does, and it takes all of the name with it instead of nothing.
A name that has lost an empty suffix is not got back, unless there was nothing to
lose.

## Main definitions

* `FileName.FirstEnd`: The first of the suffixes that ends a name.

## Theorems

* `exists_firstEnd`: If some suffix ends a name, one is the first.
* `stripSuffix_of_firstEnd`, `stripSuffix_of_not_end`: What is left of a name.
* `stripSuffix_append_iff`: When a name is got back, and what happens to it
  otherwise.
* `not_forall_got_back`: It is not always got back.
-/

namespace ArchiveCensus

namespace FileName

open Text

variable {suffixes : List Text} {name s : Text}

/-- The suffix ends the name, and none in front of it does. -/
def FirstEnd (suffixes : List Text) (name s : Text) : Prop :=
  ∃ before after, suffixes = before ++ s :: after ∧ s <:+ name ∧ ∀ t ∈ before, ¬t <:+ name

theorem hasSuffix_iff : hasSuffix name suffixes = true ↔ ∃ s ∈ suffixes, s <:+ name := by
  simp only [hasSuffix, List.any_eq_true, endsWith_iff]

theorem firstEnd_iff : FirstEnd suffixes name s ↔ suffixes.find? name.endsWith = some s := by
  rw [List.find?_eq_some_iff_append]
  simp only [Bool.not_eq_true', Bool.eq_false_iff, ne_eq, endsWith_iff]
  constructor
  · rintro ⟨before, after, hall, hs, hbefore⟩
    exact ⟨hs, before, after, hall, hbefore⟩
  · rintro ⟨hs, before, after, hall, hbefore⟩
    exact ⟨before, after, hall, hs, hbefore⟩

/-- If some suffix ends a name, one is the first. -/
theorem exists_firstEnd (h : ∃ s ∈ suffixes, s <:+ name) : ∃ s, FirstEnd suffixes name s := by
  have hfound : (suffixes.find? name.endsWith).isSome = true := by
    simpa only [List.find?_isSome, endsWith_iff] using h
  rcases Option.isSome_iff_exists.mp hfound with ⟨s, hs⟩
  exact ⟨s, firstEnd_iff.mpr hs⟩

/-- What is left of a name that some suffix ends. -/
theorem stripSuffix_of_firstEnd (h : FirstEnd suffixes name s) :
    stripSuffix name suffixes = if s = [] then [] else name.take (name.length - s.length) := by
  rcases h with ⟨before, after, rfl, hs, hbefore⟩
  -- The suffixes in front of it are passed over one by one.
  induction before with
  | nil =>
    rw [List.nil_append, stripSuffix, if_pos (endsWith_iff.mpr hs)]
    simp only [List.isEmpty_iff]
  | cons t before ih =>
    rw [List.forall_mem_cons] at hbefore
    rw [List.cons_append, stripSuffix, if_neg (mt endsWith_iff.mp hbefore.1)]
    exact ih hbefore.2

theorem stripSuffix_of_not_end (h : ∀ s ∈ suffixes, ¬s <:+ name) :
    stripSuffix name suffixes = name := by
  induction suffixes with
  | nil => rfl
  | cons t rest ih =>
    rw [List.forall_mem_cons] at h
    rw [stripSuffix, if_neg (mt endsWith_iff.mp h.1)]
    exact ih h.2

/-- The suffix gives the name again, unless it is empty and the name is not. -/
theorem append_eq_iff_of_firstEnd (h : FirstEnd suffixes name s) :
    stripSuffix name suffixes ++ s = name ↔ s ≠ [] ∨ name = [] := by
  rw [stripSuffix_of_firstEnd h]
  by_cases hempty : s = []
  · -- Nothing is left, and nothing is put back.
    rw [if_pos hempty, hempty, List.append_nil, eq_comm]
    exact (or_iff_right (not_not_intro rfl)).symm
  · rcases h with ⟨_, _, _, hs, _⟩
    rw [if_neg hempty]
    exact iff_of_true (List.suffix_iff_eq_append.mp hs) (.inl hempty)

end FileName

namespace Inspector

open FileName

/-- Where some suffix ends a name, what is left of it and the first such suffix behind
    that are the name, unless this suffix is empty and the name is not: an empty suffix
    leaves nothing. Where none does, the name is left whole, and a file of this name is
    no archive. -/
theorem stripSuffix_append_iff (i : Inspector) (name : Text) :
    ((∃ s ∈ i.suffixes, s <:+ name) →
        i.isArchiveName name = true ∧ ∃ s, FirstEnd i.suffixes name s ∧
          (stripSuffix name i.suffixes ++ s = name ↔ s ≠ [] ∨ name = []) ∧
          (s = [] → stripSuffix name i.suffixes = [])) ∧
      ((∀ s ∈ i.suffixes, ¬s <:+ name) →
        i.isArchiveName name = false ∧ stripSuffix name i.suffixes = name) := by
  constructor
  · intro hends
    rcases exists_firstEnd hends with ⟨s, hfirst⟩
    refine ⟨hasSuffix_iff.mpr hends, s, hfirst, append_eq_iff_of_firstEnd hfirst, ?_⟩
    intro hempty
    rw [stripSuffix_of_firstEnd hfirst, if_pos hempty]
  · intro hnone
    refine ⟨Bool.eq_false_iff.mpr fun harchive => ?_, stripSuffix_of_not_end hnone⟩
    rcases hasSuffix_iff.mp harchive with ⟨s, hs, hends⟩
    exact hnone s hs hends

/-- The empty suffix behind `.jar` leaves nothing of `a.ear`. -/
theorem not_forall_got_back :
    ¬∀ (i : Inspector) (name s : Text), FirstEnd i.suffixes name s →
      stripSuffix name i.suffixes ++ s = name := by
  intro h
  have hfirst : FirstEnd [".jar", []] "a.ear" [] :=
    ⟨[".jar"], [], rfl, List.nil_suffix, by decide⟩
  exact absurd (h { suffixes := [".jar", []] } "a.ear" [] hfirst) (by decide)

end Inspector

end ArchiveCensus
