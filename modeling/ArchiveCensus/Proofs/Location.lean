import ArchiveCensus.Location
import ArchiveCensus.Proofs.Percent
import Mathlib.Data.List.Basic

/-!
# Reading Back Nested URLs

A nested URL names a member by two escaped texts with a separator between them,
behind one of three beginnings and perhaps in front of a closing mark. Escaping
lets slashes through, and a slash is part of both separators and of the mark. What
tells them apart is the exclamation mark, which is always escaped: each one in the
URL belongs to the separator or to the closing mark.

Of the two separators `/!` is looked for first, and in the whole text. So where the
other one is meant, no slash may stand in front of an exclamation mark anywhere,
neither in front of the separator nor in front of the closing mark. This is why
both sides must not end in a slash.

The beginnings are told apart by the colon, which is escaped as well: an outer path
that starts with `file:` is not mistaken for the longer beginning.

## Main definitions

* `Location.escaped`: A text as one side of a nested URL.
* `Location.IsSide`: A text that can be one side.

## Theorems

* `cut?_append_of_not_mem`, `cut?_pair_append`: Where a separator is not found.
* `cutNested?_escaped`: The separator of a nested URL is found.
* `splitNested_escaped`: Both sides are read back.
-/

namespace ArchiveCensus

namespace Text

variable {c d : CodePoint} {a sep : Text}

/-- A separator is found behind what does not hold its first code point. -/
theorem cut?_append_of_not_mem (h : c ∉ a) (t : Text) :
    cut? (c :: sep) (a ++ t) =
      (cut? (c :: sep) t).map fun sides => (a ++ sides.1, sides.2) := by
  induction a with
  | nil => cases hcut : cut? (c :: sep) t <;> rw [List.nil_append, hcut] <;> rfl
  | cons x xs ih =>
      rw [List.mem_cons, not_or] at h
      rw [List.cons_append, cut?, afterStart?, if_neg h.1, ih h.2, Option.map_map]
      rfl

/-- A separator of two code points is found behind what does not hold the second,
    unless it stands across the seam. -/
theorem cut?_pair_append (h : d ∉ a) {t : Text}
    (hseam : a.getLast? ≠ some c ∨ t.head? ≠ some d) :
    cut? [c, d] (a ++ t) = (cut? [c, d] t).map fun sides => (a ++ sides.1, sides.2) := by
  induction a with
  | nil => cases hcut : cut? [c, d] t <;> rw [List.nil_append, hcut] <;> rfl
  | cons x xs ih =>
      rw [List.mem_cons, not_or] at h
      -- What follows `x` is in the text in front of the seam, or it is the one behind it.
      have hhere : afterStart? [c, d] (x :: (xs ++ t)) = none := by
        rw [afterStart?]
        split
        · rename_i hx
          cases xs with
          | cons y ys =>
              have hy : d ≠ y := fun hy => h.2 (hy ▸ List.mem_cons_self)
              exact if_neg hy
          | nil =>
              have hhead : t.head? ≠ some d :=
                hseam.resolve_left fun hlast => hlast (congrArg some hx.symm)
              cases t with
              | nil => rfl
              | cons y ys =>
                  have hy : d ≠ y := fun hy => hhead (congrArg some hy.symm)
                  exact if_neg hy
        · rfl
      have hrest : xs.getLast? ≠ some c ∨ t.head? ≠ some d := by
        refine hseam.imp_left fun hlast hxs => hlast ?_
        rw [List.getLast?_cons, hxs]
        rfl
      rw [List.cons_append, cut?, hhere, ih h.2 hrest, Option.map_map]
      rfl

theorem cut?_self (hsep : sep ≠ []) (t : Text) : cut? sep (sep ++ t) = some ([], t) := by
  cases sep with
  | nil => exact absurd rfl hsep
  | cons x xs => rw [List.cons_append, cut?, ← List.cons_append, afterStart?_append]

/-- A text does not begin with `start` if its front lacks a code point of `start` and
    what stands behind the front begins with none of them. -/
theorem afterStart?_eq_none {start t : Text} (hc : c ∈ start) (hca : c ∉ a)
    (ht : ∀ x ∈ t.head?, x ∉ start) : afterStart? start (a ++ t) = none := by
  cases hafter : afterStart? start (a ++ t) with
  | none => rfl
  | some rest =>
      exfalso
      rcases List.append_eq_append_iff.mp (eq_of_afterStart? hafter)
        with ⟨more, hstart, htmore⟩ | ⟨more, ha, _⟩
      · -- The start goes on behind the seam, so it holds what stands there.
        cases more with
        | nil =>
            rw [List.append_nil] at hstart
            exact hca (hstart ▸ hc)
        | cons x xs =>
            refine ht x ?_ (hstart ▸ List.mem_append_right a List.mem_cons_self)
            rw [htmore]
            rfl
      · exact hca (ha ▸ List.mem_append_left more hc)

theorem afterStart?_append_append (p start t : Text) :
    afterStart? (p ++ start) (p ++ t) = afterStart? start t := by
  induction p with
  | nil => rfl
  | cons x xs ih => rw [List.cons_append, List.cons_append, afterStart?, if_pos rfl, ih]

end Text

namespace Location

open Text

/-- A text as one side of a nested URL: its UTF-8 bytes, all escaped but letters,
    digits, slashes and four marks. -/
def escaped (t : Text) : Text :=
  Percent.encodeBytes Path.keptInUrl (t.flatMap Utf8.encodePoint)

/-- A text that can be one side of a nested URL. -/
structure IsSide (t : Text) : Prop where
  ne_nil : t ≠ []
  isScalar : t.isScalar = true
  no_slash_last : t.getLast? ≠ some (CodePoint.ofChar '/')

variable {outer inner t : Text}

theorem decode_escaped (h : t.isScalar = true) : Percent.decode (escaped t) = t :=
  Percent.decode_encodeBytes (by decide) h

/-- Escaping leaves only what URLs keep, and percent signs. -/
theorem ne_of_mem_escaped {c d : CodePoint} (hc : c ∈ escaped t)
    (hd : ¬(Path.keptInUrl d = true ∨ d = '%')) : c ≠ d := by
  intro hcd
  apply hd
  rw [← hcd]
  rcases (Percent.spelled_encodeBytes _).mem hc with hkept | hpercent | hdigit
  · exact .inl hkept
  · exact .inr hpercent
  · exact .inl (Bool.or_eq_true_iff.mpr (.inl hdigit.isUnreserved))

theorem bang_not_mem_escaped (t : Text) : CodePoint.ofChar '!' ∉ escaped t := fun h =>
  ne_of_mem_escaped h (by decide) rfl

theorem colon_not_mem_escaped (t : Text) : CodePoint.ofChar ':' ∉ escaped t := fun h =>
  ne_of_mem_escaped h (by decide) rfl

theorem escaped_append (s t : Text) : escaped (s ++ t) = escaped s ++ escaped t := by
  rw [escaped, List.flatMap_append, Percent.encodeBytes, List.flatMap_append]
  rfl

theorem escaped_ne_nil (hne : t ≠ []) (h : t.isScalar = true) : escaped t ≠ [] := by
  intro hnil
  have hback := decode_escaped h
  rw [hnil, Percent.decode, Percent.decodeFrom_nil, Utf8.decodeLossy_nil] at hback
  exact hne hback.symm

-- A slash at the end comes from the last code point, and is that code point.
theorem IsSide.getLast?_escaped (h : IsSide t) :
    (escaped t).getLast? ≠ some (CodePoint.ofChar '/') := by
  intro hlast
  obtain ⟨front, c, rfl⟩ : ∃ front c, t = front ++ [c] :=
    (List.eq_nil_or_concat' t).resolve_left h.ne_nil
  have hscalar := h.isScalar
  rw [Text.isScalar, List.all_append, Bool.and_eq_true] at hscalar
  have hone : escaped [c] ≠ [] := escaped_ne_nil (List.cons_ne_nil c []) hscalar.2
  rw [escaped_append, List.getLast?_append, List.getLast?_eq_some_getLast hone, Option.some_or,
    Option.some.injEq] at hlast
  have hslash : CodePoint.ofChar '/' ∈ escaped [c] := hlast ▸ List.getLast_mem hone
  have hmem := (Percent.mem_of_mem_encodeBytes ⟨by decide, by decide⟩ hslash).2
  refine h.no_slash_last ?_
  rw [List.getLast?_concat, List.mem_singleton.mp hmem]

theorem slash_bang : Text.ofString "/!" = [CodePoint.ofChar '/', CodePoint.ofChar '!'] := by
  decide

theorem bang_slash : Text.ofString "!/" = [CodePoint.ofChar '!', CodePoint.ofChar '/'] := by
  decide

/-- In front of no exclamation mark there is a slash, so the separator that is looked
    for first is not found where the other one is meant. -/
theorem cut?_escaped_eq_none (ho : IsSide outer) (hi : IsSide inner) {closing : Text}
    (hclosing : closing ∈ [[], Text.ofString "!/"]) :
    cut? (Text.ofString "/!")
      (escaped outer ++ (Text.ofString "!/" ++ (escaped inner ++ closing))) = none := by
  have hsplit : Text.ofString "!/" ++ (escaped inner ++ closing) =
      [CodePoint.ofChar '!'] ++ (CodePoint.ofChar '/' :: escaped inner ++ closing) := by
    rw [bang_slash]
    rfl
  have hslash : CodePoint.ofChar '/' ∉ [CodePoint.ofChar '!'] := by decide
  have hbang : CodePoint.ofChar '!' ∉ CodePoint.ofChar '/' :: escaped inner := by
    rw [List.mem_cons, not_or]
    exact ⟨by decide, bang_not_mem_escaped inner⟩
  have hlast : (CodePoint.ofChar '/' :: escaped inner).getLast? =
      (escaped inner).getLast? := by
    rw [List.getLast?_cons, List.getLast?_eq_some_getLast (escaped_ne_nil hi.ne_nil hi.isScalar)]
    rfl
  have hend : cut? [CodePoint.ofChar '/', CodePoint.ofChar '!'] closing = none := by
    rcases List.mem_pair.mp hclosing with rfl | rfl <;> decide
  rw [hsplit, slash_bang,
    cut?_pair_append (bang_not_mem_escaped outer) (Or.inl ho.getLast?_escaped),
    cut?_append_of_not_mem hslash,
    cut?_pair_append hbang (Or.inl fun h => hi.getLast?_escaped (hlast ▸ h)), hend]
  rfl

/-- The separator of a nested URL is found, whichever it is. -/
theorem cutNested?_escaped (ho : IsSide outer) (hi : IsSide inner) {separator closing : Text}
    (hseparator : separator ∈ [Text.ofString "!/", Text.ofString "/!"])
    (hclosing : closing ∈ [[], Text.ofString "!/"]) :
    cutNested? (escaped outer ++ (separator ++ (escaped inner ++ closing))) =
      some (escaped outer, escaped inner ++ closing) := by
  have hbang := bang_not_mem_escaped outer
  rcases List.mem_pair.mp hseparator with rfl | rfl
  · have hcut : cut? (Text.ofString "!/")
        (escaped outer ++ (Text.ofString "!/" ++ (escaped inner ++ closing))) =
          some (escaped outer, escaped inner ++ closing) := by
      rw [bang_slash, cut?_append_of_not_mem hbang, cut?_self (List.cons_ne_nil _ _),
        Option.map_some, List.append_nil]
    rw [cutNested?, cut?_escaped_eq_none ho hi hclosing, hcut]
    rfl
  · have hcut : cut? (Text.ofString "/!")
        (escaped outer ++ (Text.ofString "/!" ++ (escaped inner ++ closing))) =
          some (escaped outer, escaped inner ++ closing) := by
      have hhead : ([CodePoint.ofChar '/', CodePoint.ofChar '!'] ++
          (escaped inner ++ closing)).head? ≠ some (CodePoint.ofChar '!') :=
        fun h => absurd (Option.some.inj h) (by decide)
      rw [slash_bang, cut?_pair_append hbang (Or.inr hhead), cut?_self (List.cons_ne_nil _ _),
        Option.map_some, List.append_nil]
    rw [cutNested?, hcut]
    rfl

/-- A closing mark is dropped, and nothing else. -/
theorem dropClosing_escaped (inner : Text) {closing : Text}
    (hclosing : closing ∈ [[], Text.ofString "!/"]) :
    dropClosing (escaped inner ++ closing) = escaped inner := by
  rcases List.mem_pair.mp hclosing with rfl | rfl
  · have hends : (escaped inner).endsWith "!/" = false := by
      rw [endsWith, Bool.eq_false_iff, ne_eq, List.isSuffixOf_iff_suffix]
      exact fun h => bang_not_mem_escaped inner (h.subset (by decide))
    rw [List.append_nil, dropClosing, hends, if_neg Bool.false_ne_true]
  · have hends : (escaped inner ++ Text.ofString "!/").endsWith "!/" = true := by
      rw [endsWith, List.isSuffixOf_iff_suffix]
      exact List.suffix_append _ _
    have hlength : (escaped inner ++ Text.ofString "!/").length - 2 = (escaped inner).length := by
      rw [List.length_append]
      rfl
    rw [dropClosing, hends, if_pos rfl, hlength, List.take_left' rfl]

/-- What follows each beginning is found, as no escaped text makes a beginning
    longer. -/
theorem afterNestedStart?_escaped {start : Text}
    (hstart : start ∈ [Text.ofString "jar:file:", Text.ofString "jar:nested:",
      Text.ofString "jar:nested:file:"])
    (outer : Text) {t : Text} (ht : ∀ x ∈ t.head?, x ∉ Text.ofString "file:") :
    afterNestedStart? (start ++ (escaped outer ++ t)) = some (escaped outer ++ t) := by
  have hfile : afterStart? (Text.ofString "file:") (escaped outer ++ t) = none :=
    afterStart?_eq_none (by decide) (colon_not_mem_escaped outer) ht
  rw [afterNestedStart?, nestedStarts]
  simp only [List.mem_cons, List.not_mem_nil, or_false] at hstart
  rcases hstart with rfl | rfl | rfl
  · have hlonger : afterStart? (Text.ofString "jar:nested:file:")
        (Text.ofString "jar:file:" ++ (escaped outer ++ t)) = none := rfl
    have hnested : afterStart? (Text.ofString "jar:nested:")
        (Text.ofString "jar:file:" ++ (escaped outer ++ t)) = none := rfl
    rw [List.findSome?_cons, hlonger, List.findSome?_cons, hnested, List.findSome?_cons,
      afterStart?_append]
  · have hlonger : afterStart? (Text.ofString "jar:nested:file:")
        (Text.ofString "jar:nested:" ++ (escaped outer ++ t)) = none := by
      have hsplit : Text.ofString "jar:nested:file:" =
          Text.ofString "jar:nested:" ++ Text.ofString "file:" := by decide
      rw [hsplit, afterStart?_append_append, hfile]
    rw [List.findSome?_cons, hlonger, List.findSome?_cons, afterStart?_append]
  · rw [List.findSome?_cons, afterStart?_append]

/-- Both sides of a nested URL are read back, whatever its beginning, its separator
    and its end. -/
theorem splitNested_escaped (ho : IsSide outer) (hi : IsSide inner)
    {start separator closing : Text}
    (hstart : start ∈ [Text.ofString "jar:file:", Text.ofString "jar:nested:",
      Text.ofString "jar:nested:file:"])
    (hseparator : separator ∈ [Text.ofString "!/", Text.ofString "/!"])
    (hclosing : closing ∈ [[], Text.ofString "!/"]) :
    splitNested (start ++ escaped outer ++ separator ++ escaped inner ++ closing) =
      .ok (outer, inner) := by
  have hassoc : start ++ escaped outer ++ separator ++ escaped inner ++ closing =
      start ++ (escaped outer ++ (separator ++ (escaped inner ++ closing))) := by
    simp only [List.append_assoc]
  have hafter : afterNestedStart?
      (start ++ escaped outer ++ separator ++ escaped inner ++ closing) =
        some (escaped outer ++ (separator ++ (escaped inner ++ closing))) := by
    rw [hassoc]
    refine afterNestedStart?_escaped hstart outer ?_
    rcases List.mem_pair.mp hseparator with rfl | rfl <;> rintro x ⟨⟩ <;> decide
  have hnonempty : ∀ {t : Text}, IsSide t → (escaped t).isEmpty = false := fun ht =>
    List.isEmpty_eq_false_iff.mpr (escaped_ne_nil ht.ne_nil ht.isScalar)
  rw [splitNested, hafter]
  simp only [cutNested?_escaped ho hi hseparator hclosing, dropClosing_escaped inner hclosing,
    hnonempty ho, hnonempty hi, decode_escaped ho.isScalar, decode_escaped hi.isScalar, Bool.or_self,
    Bool.false_eq_true, if_false]

/-- Sides that hold all marks of a nested URL: an outer path that starts like the
    longer beginning, and an entry that starts with a separator. -/
theorem splitNested_escaped_marks :
    IsSide "file:/ä !/b.jar" ∧ IsSide "!/%2F!.jar" ∧
      splitNested (Text.ofString "jar:nested:" ++ escaped "file:/ä !/b.jar" ++
        Text.ofString "!/" ++ escaped "!/%2F!.jar" ++ Text.ofString "!/") =
          .ok ("file:/ä !/b.jar", "!/%2F!.jar") :=
  have ho : IsSide "file:/ä !/b.jar" := ⟨by decide, by decide, by decide⟩
  have hi : IsSide "!/%2F!.jar" := ⟨by decide, by decide, by decide⟩
  ⟨ho, hi, splitNested_escaped ho hi (by decide) (by decide) (by decide)⟩

end Location

end ArchiveCensus
