import ArchiveCensus.Event
import Mathlib.Data.List.Chain

/-!
# Event Names

Every text has a sanitized form, and each step towards it keeps what the steps in
front of it have achieved. Squeezing leaves no two hyphens side by side, and neither
does dropping hyphens at the ends, which takes a part out of the middle. The mark that
is put in front of a name ends in a hyphen, so it could begin a new run; but it is only
put there once the hyphens at the ends are gone. And a small letter is no hyphen, so
turning letters small changes nothing of this.

Sanitizing is stable: what came out of it once comes out of it again. There is one
exception. Of a text with nothing to keep only the mark is left, and its hyphen, which
is now the last sign of the name, would go the next time.

## Main definitions

* `Event.Sanitary`: What every sanitized name looks like.
* `Event.bare`, `Event.Bare`: A name once hyphens are squeezed and dropped, and what
  holds of it.
* `Event.marked`, `Event.Marked`: The same once the mark is in front, if it is needed.

## Theorems

* `isChain_squeeze`: No two hyphens are left side by side.
* `bare_bare`, `marked_of_bare`, `Marked.sanitary`: What the steps achieve.
* `sanitary_sanitize`: Every text has a sanitized form.
* `Sanitary.sanitize_eq_self_iff`: Sanitized names are stable, but for the mark alone.
* `nameOf_joined`: The name of an event is made of one or two sanitized names.
-/

namespace ArchiveCensus

namespace Event

open Text

/-- What is put in front of a name that does not start with a letter or a digit. -/
def mark : Text := "dep-"

/-- Two code points that are not both hyphens. -/
def Apart (c d : CodePoint) : Prop :=
  ¬(c = CodePoint.ofChar '-' ∧ d = CodePoint.ofChar '-')

/-- A sanitized name: small letters, digits and three marks, with a letter or a digit
    in front, no two hyphens side by side, and none at the end unless the name is the
    mark alone. -/
structure Sanitary (t : Text) : Prop where
  nonempty : t ≠ []
  signs : ∀ c ∈ t, c.isLowerLetter = true ∨ c.isDigit = true ∨ c ∈ Text.ofString "._-"
  starts : ∀ c ∈ t.head?, c.isLowerLetter = true ∨ c.isDigit = true
  single : ∀ before after : Text,
    t ≠ before ++ CodePoint.ofChar '-' :: CodePoint.ofChar '-' :: after
  ends : t.getLast? = some (CodePoint.ofChar '-') → t = mark

/-! ## Squeezing -/

theorem squeeze_cons_cons (c d : CodePoint) (t : Text) :
    squeeze (c :: d :: t)
      = if c = CodePoint.ofChar '-' ∧ d = CodePoint.ofChar '-' then squeeze (d :: t)
        else c :: squeeze (d :: t) :=
  rfl

theorem squeeze_sublist (t : Text) : (squeeze t).Sublist t := by
  induction t using squeeze.induct with
  | case1 => exact .slnil
  | case2 c => exact .refl _
  | case3 c d t hrun ih =>
    rw [squeeze_cons_cons, if_pos hrun]
    exact ih.cons c
  | case4 c d t hrun ih =>
    rw [squeeze_cons_cons, if_neg hrun]
    exact ih.cons_cons c

theorem head?_squeeze (t : Text) : (squeeze t).head? = t.head? := by
  induction t using squeeze.induct with
  | case1 => rfl
  | case2 c => rfl
  | case3 c d t hrun ih =>
    rw [squeeze_cons_cons, if_pos hrun, ih, hrun.1, hrun.2]
    rfl
  | case4 c d t hrun ih =>
    rw [squeeze_cons_cons, if_neg hrun]
    rfl

theorem isChain_squeeze (t : Text) : (squeeze t).IsChain Apart := by
  induction t using squeeze.induct with
  | case1 => exact .nil
  | case2 c => exact .singleton c
  | case3 c d t hrun ih =>
    rw [squeeze_cons_cons, if_pos hrun]
    exact ih
  | case4 c d t hrun ih =>
    -- What stands behind `c` is still `d`, as squeezing keeps the first sign.
    rw [squeeze_cons_cons, if_neg hrun, List.isChain_cons, head?_squeeze]
    refine ⟨fun y hy => ?_, ih⟩
    rw [List.head?_cons, Option.mem_some] at hy
    exact hy ▸ hrun

theorem squeeze_eq_self {t : Text} (h : t.IsChain Apart) : squeeze t = t := by
  induction t using squeeze.induct with
  | case1 => rfl
  | case2 c => rfl
  | case3 c d t hrun ih => exact absurd hrun (List.isChain_cons_cons.1 h).1
  | case4 c d t hrun ih => rw [squeeze_cons_cons, if_neg hrun, ih (List.isChain_cons_cons.1 h).2]

/-! ## The steps -/

/-- The text in signs of names, with hyphens squeezed and none at the ends. -/
def bare (t : Text) : Text :=
  dropBoth isHyphen (squeeze (t.map fun c => if isNamePart c then c else CodePoint.ofChar '-'))

/-- The text with the mark in front, unless it starts well. -/
def marked (t : Text) : Text :=
  if startsWell t then t else mark ++ t

theorem sanitize_some {t : Text} (h : t.isBlank = false) :
    sanitize (some t) = (marked (bare t)).map CodePoint.lowerAscii := by
  rw [sanitize, h]
  rfl

/-- What holds of a name after hyphens are squeezed and dropped. -/
structure Bare (t : Text) : Prop where
  parts : ∀ c ∈ t, isNamePart c = true
  chain : t.IsChain Apart
  head : t.head? ≠ some (CodePoint.ofChar '-')
  last : t.getLast? ≠ some (CodePoint.ofChar '-')

theorem isNamePart_hyphen : isNamePart (CodePoint.ofChar '-') = true := by decide

theorem bare_bare (t : Text) : Bare (bare t) := by
  have hpart := dropBoth_part isHyphen
    (squeeze (t.map fun c => if isNamePart c then c else CodePoint.ofChar '-'))
  refine ⟨fun c hc => ?_, List.IsChain.infix (isChain_squeeze _) hpart, fun h => ?_, fun h => ?_⟩
  · have hmem := (squeeze_sublist _).subset (hpart.subset hc)
    rcases List.mem_map.1 hmem with ⟨d, _, rfl⟩
    split
    · assumption
    · exact isNamePart_hyphen
  · exact absurd (head?_dropBoth isHyphen _ _ h) (by decide)
  · exact absurd (getLast?_dropBoth isHyphen _ _ h) (by decide)

theorem Bare.bare_eq {t : Text} (h : Bare t) : bare t = t := by
  have hmap : (t.map fun c => if isNamePart c then c else CodePoint.ofChar '-') = t := by
    rw [List.map_congr_left fun c hc => if_pos (h.parts c hc), List.map_id']
  rw [bare, hmap, squeeze_eq_self h.chain]
  refine dropBoth_eq_self (fun c hc => ?_) (fun c hc => ?_)
  · exact decide_eq_false fun hyphen => h.head (hyphen ▸ hc)
  · exact decide_eq_false fun hyphen => h.last (hyphen ▸ hc)

/-- What holds of a name once it starts well. -/
structure Marked (t : Text) : Prop where
  parts : ∀ c ∈ t, isNamePart c = true
  chain : t.IsChain Apart
  starts : startsWell t = true
  last : t.getLast? = some (CodePoint.ofChar '-') → t = mark

theorem marked_of_bare {t : Text} (h : Bare t) : Marked (marked t) := by
  by_cases hstarts : startsWell t = true
  · rw [marked, if_pos hstarts]
    exact ⟨h.parts, h.chain, hstarts, fun hlast => absurd hlast h.last⟩
  · rw [marked, if_neg hstarts]
    refine ⟨fun c hc => ?_, ?_, rfl, fun hlast => ?_⟩
    · rcases List.mem_append.1 hc with hc | hc
      · exact (by decide : ∀ d ∈ mark, isNamePart d = true) c hc
      · exact h.parts c hc
    · -- The name begins with no hyphen, so the one in front of it stays alone.
      have hmark : mark.IsChain Apart := by
        unfold Apart
        decide
      refine hmark.append h.chain fun x _ y hy hboth => ?_
      rw [hboth.2] at hy
      exact h.head hy
    · rw [List.getLast?_append] at hlast
      cases hback : t.getLast? with
      | none => rw [List.getLast?_eq_none_iff.1 hback, List.append_nil]
      | some c =>
        rw [hback, Option.some_or] at hlast
        exact absurd (hback.trans hlast) h.last

theorem marked_eq_self {t : Text} (h : startsWell t = true) : marked t = t :=
  if_pos h

/-! ## Small letters -/

theorem lowerAscii_eq_self {c : CodePoint} (h : c.isUpperLetter = false) : c.lowerAscii = c := by
  rw [CodePoint.lowerAscii, h, if_neg Bool.false_ne_true]

theorem isLowerLetter_lowerAscii {c : CodePoint} (h : c.isUpperLetter = true) :
    c.lowerAscii.isLowerLetter = true := by
  have hlower : c.lowerAscii = .ofNat (c.val + 0x20) := by rw [CodePoint.lowerAscii, if_pos h]
  simp only [CodePoint.isUpperLetter, Bool.and_eq_true, decide_eq_true_eq] at h
  have hval : (CodePoint.ofNat (c.val + 0x20)).val = c.val + 0x20 :=
    CodePoint.val_ofNat (by omega)
  rw [hlower]
  simp only [CodePoint.isLowerLetter, hval, Bool.and_eq_true, decide_eq_true_eq]
  omega

theorem lowerAscii_eq_hyphen_iff {c : CodePoint} :
    c.lowerAscii = CodePoint.ofChar '-' ↔ c = CodePoint.ofChar '-' := by
  by_cases hupper : c.isUpperLetter = true
  · have hletter := isLowerLetter_lowerAscii hupper
    refine ⟨fun h => ?_, fun h => ?_⟩
    · rw [h] at hletter
      exact absurd hletter (by decide)
    · rw [h] at hupper
      exact absurd hupper (by decide)
  · rw [lowerAscii_eq_self (Bool.eq_false_iff.2 hupper)]

theorem lowerAscii_of_isAlphanumeric {c : CodePoint} (h : c.isAlphanumeric = true) :
    c.lowerAscii.isLowerLetter = true ∨ c.lowerAscii.isDigit = true := by
  by_cases hupper : c.isUpperLetter = true
  · exact .inl (isLowerLetter_lowerAscii hupper)
  · rw [lowerAscii_eq_self (Bool.eq_false_iff.2 hupper)]
    simpa [CodePoint.isAlphanumeric, CodePoint.isLetter, hupper] using h

theorem lowerAscii_of_isNamePart {c : CodePoint} (h : isNamePart c = true) :
    c.lowerAscii.isLowerLetter = true ∨ c.lowerAscii.isDigit = true
      ∨ c.lowerAscii ∈ Text.ofString "._-" := by
  simp only [isNamePart, Bool.or_eq_true, decide_eq_true_eq] at h
  rcases h with ((h | rfl) | rfl) | rfl
  · rcases lowerAscii_of_isAlphanumeric h with hletter | hdigit
    · exact .inl hletter
    · exact .inr (.inl hdigit)
  · exact .inr (.inr (by decide))
  · exact .inr (.inr (by decide))
  · exact .inr (.inr (by decide))

/-! ## Sanitized names -/

theorem Marked.sanitary {t : Text} (h : Marked t) : Sanitary (t.map CodePoint.lowerAscii) := by
  -- No capital becomes a hyphen, so there are no new runs of them.
  have hchain : (t.map CodePoint.lowerAscii).IsChain Apart :=
    List.isChain_map_of_isChain CodePoint.lowerAscii
      (fun c d hcd hboth => hcd (hboth.imp lowerAscii_eq_hyphen_iff.1 lowerAscii_eq_hyphen_iff.1))
      h.chain
  refine ⟨?_, ?_, ?_, ?_, ?_⟩
  · intro hnil
    have hstarts := h.starts
    rw [List.map_eq_nil_iff.1 hnil] at hstarts
    exact absurd hstarts Bool.false_ne_true
  · intro c hc
    rcases List.mem_map.1 hc with ⟨d, hd, rfl⟩
    exact lowerAscii_of_isNamePart (h.parts d hd)
  · intro c hc
    cases t with
    | nil => exact absurd hc (by simp)
    | cons d rest =>
      rw [List.map_cons, List.head?_cons, Option.mem_some] at hc
      exact hc ▸ lowerAscii_of_isAlphanumeric h.starts
  · intro before after heq
    exact List.isChain_iff_forall_rel_of_append_cons_cons.1 hchain heq ⟨rfl, rfl⟩
  · intro hlast
    rw [List.getLast?_map, Option.map_eq_some_iff] at hlast
    rcases hlast with ⟨c, hc, hhyphen⟩
    rw [lowerAscii_eq_hyphen_iff.1 hhyphen] at hc
    rw [h.last hc]
    decide

theorem sanitary_unknown : Sanitary unknown := by
  refine ⟨by decide, by decide, by decide, fun before after h => ?_, by decide⟩
  have hmem : CodePoint.ofChar '-' ∈ unknown := by
    rw [h]
    exact List.mem_append_right _ List.mem_cons_self
  exact absurd hmem (by decide)

/-- Every text has a sanitized form, and so has none at all. -/
theorem sanitary_sanitize (name : Option Text) : Sanitary (sanitize name) := by
  cases name with
  | none => exact sanitary_unknown
  | some t =>
    cases hblank : t.isBlank with
    | true =>
      rw [sanitize, hblank]
      exact sanitary_unknown
    | false =>
      rw [sanitize_some hblank]
      exact (marked_of_bare (bare_bare t)).sanitary

theorem Sanitary.isNamePart {t : Text} (h : Sanitary t) {c : CodePoint} (hc : c ∈ t) :
    isNamePart c = true := by
  have hmarks : ∀ d ∈ Text.ofString "._-", Event.isNamePart d = true := by decide
  rcases h.signs c hc with hletter | hdigit | hmark
  · simp [Event.isNamePart, CodePoint.isAlphanumeric, CodePoint.isLetter, hletter]
  · simp [Event.isNamePart, CodePoint.isAlphanumeric, hdigit]
  · exact hmarks c hmark

theorem Sanitary.isUpperLetter {t : Text} (h : Sanitary t) {c : CodePoint} (hc : c ∈ t) :
    c.isUpperLetter = false := by
  have hmarks : ∀ d ∈ Text.ofString "._-", d.isUpperLetter = false := by decide
  rcases h.signs c hc with hletter | hdigit | hmark
  · simp only [CodePoint.isLowerLetter, CodePoint.isUpperLetter, Bool.and_eq_true,
      Bool.and_eq_false_iff, decide_eq_true_eq, decide_eq_false_iff_not] at hletter ⊢
    omega
  · simp only [CodePoint.isDigit, CodePoint.isUpperLetter, Bool.and_eq_true,
      Bool.and_eq_false_iff, decide_eq_true_eq, decide_eq_false_iff_not] at hdigit ⊢
    omega
  · exact hmarks c hmark

theorem Sanitary.startsWell {t : Text} (h : Sanitary t) : startsWell t = true := by
  cases t with
  | nil => exact absurd rfl h.nonempty
  | cons c rest =>
    rcases h.starts c rfl with hletter | hdigit
    · simp [Event.startsWell, CodePoint.isAlphanumeric, CodePoint.isLetter, hletter]
    · simp [Event.startsWell, CodePoint.isAlphanumeric, hdigit]

/-- The visible signs of ASCII are not blank. -/
theorem isBlank_eq_false_of_visible {c : CodePoint} (hlow : 0x20 < c.val) (hhigh : c.val < 0x7F) :
    c.isBlank = false := by
  simp only [CodePoint.isBlank, Bool.or_eq_false_iff, Bool.and_eq_false_iff,
    decide_eq_false_iff_not]
  omega

theorem Sanitary.isBlank {t : Text} (h : Sanitary t) : t.isBlank = false := by
  cases t with
  | nil => exact absurd rfl h.nonempty
  | cons c rest =>
    have hsolid : c.isBlank = false := by
      rcases h.starts c rfl with hletter | hdigit
      · simp only [CodePoint.isLowerLetter, Bool.and_eq_true, decide_eq_true_eq] at hletter
        exact isBlank_eq_false_of_visible (by omega) (by omega)
      · simp only [CodePoint.isDigit, Bool.and_eq_true, decide_eq_true_eq] at hdigit
        exact isBlank_eq_false_of_visible (by omega) (by omega)
    rw [Text.isBlank, List.all_cons, hsolid, Bool.false_and]

theorem Sanitary.bare {t : Text} (h : Sanitary t) (hne : t ≠ mark) : Bare t := by
  refine ⟨fun c hc => h.isNamePart hc, ?_, fun hhead => ?_, fun hlast => hne (h.ends hlast)⟩
  · refine List.isChain_iff_forall_rel_of_append_cons_cons.2 fun c d before after heq hboth => ?_
    rw [hboth.1, hboth.2] at heq
    exact h.single before after heq
  · exact absurd (h.starts _ hhead) (by decide)

/-- A name that is sanitized and not the mark alone leaves no step anything to do; the mark
    alone loses its hyphen. -/
theorem Sanitary.sanitize_eq_self_iff {t : Text} (h : Sanitary t) :
    sanitize (some t) = t ↔ t ≠ mark := by
  refine ⟨fun hstable hmark => ?_, fun hne => ?_⟩
  · rw [hmark] at hstable
    exact absurd hstable (by decide)
  · rw [sanitize_some h.isBlank, (h.bare hne).bare_eq, marked_eq_self h.startsWell,
      List.map_congr_left fun c hc => lowerAscii_eq_self (h.isUpperLetter hc), List.map_id']

/-! ## Names of events -/

/-- The sanitized names that the name of an event is made of. -/
def segments (r : Record) : List Text :=
  ((namedGroup r).toList ++ [(r.artifact.filter (!·.isBlank)).getD PackageUrl.fallbackName]).map
    fun t => sanitize (some t)

theorem nameOf_eq (r : Record) :
    nameOf r = Text.ofString "dependency." ++ joinWith "." (segments r) := by
  rw [nameOf, segments]
  cases namedGroup r with
  | none => rfl
  | some g => simp [joinWith]

/-- Sanitizing gives a name that is sanitized and, unless it is the mark alone, stays as it
    is when it is sanitized again; and the name of an event is made of one such name, or of
    two where the record has a group worth naming. -/
theorem nameOf_joined :
    (∀ name : Option Text, Sanitary (sanitize name)
      ∧ (sanitize (some (sanitize name)) = sanitize name ↔ sanitize name ≠ mark))
    ∧ ∀ r : Record, ∃ names : List Text,
      names.length = (if (namedGroup r).isSome then 2 else 1)
      ∧ (∀ t ∈ names, Sanitary t ∧ (sanitize (some t) = t ↔ t ≠ mark))
      ∧ nameOf r = Text.ofString "dependency." ++ joinWith "." names := by
  have hevery : ∀ name : Option Text, Sanitary (sanitize name)
      ∧ (sanitize (some (sanitize name)) = sanitize name ↔ sanitize name ≠ mark) :=
    fun name => ⟨sanitary_sanitize name, (sanitary_sanitize name).sanitize_eq_self_iff⟩
  refine ⟨hevery, fun r => ⟨segments r, ?_, fun t ht => ?_, nameOf_eq r⟩⟩
  · cases hgroup : namedGroup r <;> simp [segments, hgroup]
  · rcases List.mem_map.1 ht with ⟨part, _, rfl⟩
    exact hevery (some part)

end Event

end ArchiveCensus
