import ArchiveCensus.Text.Search

/-!
# Blank Code Points

White space as `strip` in the coordinate rules means it: the Unicode spaces
together with the information separators `U+001C` to `U+001F`, and not the
zero-width ones.

## Main definitions

* `CodePoint.isBlank`: The class.
* `Text.trim`: A text without blanks at its ends.
* `Text.isBlank`: Nothing but blanks.
* `Text.Tight`: No white space at either end.

## Theorems

* `trim_eq_self_iff`: Trimming a text that starts with no white space.
* `tight_trim`, `isBlank_trim`: What is left by trimming.
-/

namespace ArchiveCensus

/-- White space. -/
def CodePoint.isBlank (c : CodePoint) : Bool :=
  let n := c.val
  (0x9 ≤ n && n ≤ 0xD) || (0x1C ≤ n && n ≤ 0x20) || n = 0x85 || n = 0xA0 || n = 0x1680
    || (0x2000 ≤ n && n ≤ 0x200A) || n = 0x2028 || n = 0x2029 || n = 0x202F || n = 0x205F
    || n = 0x3000

namespace Text

/-- The text without white space at its ends. -/
def trim (t : Text) : Text :=
  dropBoth CodePoint.isBlank t

/-- Every code point is white space; so the empty text is blank. -/
def isBlank (t : Text) : Bool :=
  t.all CodePoint.isBlank

/-- No white space at either end. -/
structure Tight (t : Text) : Prop where
  head : ∀ c ∈ t.head?, c.isBlank = false
  last : ∀ c ∈ t.getLast?, c.isBlank = false

theorem trim_blank {c : CodePoint} (hc : c.isBlank = true) (t : Text) : trim (c :: t) = trim t := by
  rw [trim, dropBoth, dropLeading, List.dropWhile_cons_of_pos hc]
  rfl

theorem trim_eq_self_iff {t : Text} (h : ∀ c ∈ t.head?, c.isBlank = false) :
    t.trim = t ↔ ∀ c ∈ t.getLast?, c.isBlank = false := by
  have hdrop : t.dropWhile CodePoint.isBlank = t := by
    cases t with
    | nil => rfl
    | cons c t => simp [h c rfl]
  rw [trim, dropBoth, dropLeading, hdrop, dropTrailing_eq_self_iff]

theorem Tight.trim_eq {t : Text} (h : t.Tight) : t.trim = t :=
  (trim_eq_self_iff h.head).2 h.last

theorem Tight.isBlank_eq_false {t : Text} (h : t.Tight) (hne : t ≠ []) : t.isBlank = false := by
  cases t with
  | nil => exact absurd rfl hne
  | cons c t => simp [isBlank, h.head c rfl]

theorem tight_trim (t : Text) : t.trim.Tight :=
  ⟨head?_dropBoth CodePoint.isBlank t, getLast?_dropBoth CodePoint.isBlank t⟩

/-- Trimming takes nothing but blanks away. -/
theorem isBlank_trim (t : Text) : t.trim.isBlank = t.isBlank := by
  have hnil : t.trim = [] ↔ t.isBlank = true :=
    dropBoth_eq_nil_iff.trans List.all_eq_true.symm
  by_cases h : t.trim = []
  · rw [h, hnil.mp h]
    rfl
  · rw [(tight_trim t).isBlank_eq_false h, eq_comm, Bool.eq_false_iff]
    exact mt hnil.mpr h

end Text

end ArchiveCensus
