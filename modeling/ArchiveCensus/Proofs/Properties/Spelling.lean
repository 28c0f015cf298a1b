import ArchiveCensus.Proofs.Properties.Joining
import ArchiveCensus.Proofs.Properties.Writing
import Mathlib.Tactic.SplitIfs

/-!
# Spelling

A letter is written in one of three ways, as itself, behind a backslash, or as
four digits. `Spells` lists them with what each has to avoid, and the four
passes of the reader are checked against this list once: a spelled code point
holds no line end, leaves no backslash open, does not end a key, and is resolved
to the code point it spells. Words are read letter by letter.

## Main definitions

* `Spells`: The ways in which a code point is spelled.

## Theorems

* `Letter.spells`: What is written for a letter is one of these.
* `Spells.splitKey_append`, `Spells.unescape_append`: A spelled code point is
  passed over whole and resolved whole.
* `Word.splitKey_said`, `Word.unescape_said`: So are words.
-/

namespace ArchiveCensus

namespace Properties

open Text

/-- The ways in which a code point is spelled. -/
inductive Spells (c : CodePoint) : Text → Prop
  | plain (escape : c ≠ backslash) (key : endsKey c = false) (hash : c ≠ '#') (bang : c ≠ '!')
      (line : c.endsLine = false) : Spells c [c]
  | short {d : CodePoint} (digits : d ≠ 'u') (line : d.endsLine = false)
      (stands : escaped d = c) : Spells c [backslash, d]
  | long {d : Fin 4 → CodePoint} (stands : hex4? (d 0) (d 1) (d 2) (d 3) = some c.val)
      (inner : ∀ i, d i ≠ backslash ∧ endsKey (d i) = false ∧ (d i).endsLine = false) :
      Spells c [backslash, 'u', d 0, d 1, d 2, d 3]

theorem digit_spec : ∀ capital : Bool, ∀ n < 16,
    (digit capital n).hexValue? = some n ∧ digit capital n ≠ backslash ∧
      endsKey (digit capital n) = false ∧ (digit capital n).endsLine = false := by
  decide

theorem isSpace_of_endsKey {c : CodePoint} (h : endsKey c = false) : isSpace c = false := by
  simp only [endsKey, Bool.or_eq_false_iff] at h
  exact h.2

theorem ne_backslash_of_endsKey {c : CodePoint} (h : endsKey c = true) : c ≠ backslash := by
  rintro rfl
  exact absurd h (by decide)

theorem splitKey_cons {c : CodePoint} (hc : c ≠ backslash) (rest : Text) :
    splitKey (c :: rest)
      = if endsKey c then ([], c :: rest) else (c :: (splitKey rest).1, (splitKey rest).2) := by
  cases rest with
  | nil => simp [splitKey, hc]
  | cons d rest => simp [splitKey, hc]

theorem splitKey_escape (d : CodePoint) (rest : Text) :
    splitKey (backslash :: d :: rest)
      = (backslash :: d :: (splitKey rest).1, (splitKey rest).2) := by
  simp [splitKey]

theorem unescape_cons {c : CodePoint} (hc : c ≠ backslash) (rest : Text) :
    unescape (c :: rest) = c :: unescape rest := by
  cases rest with
  | nil => simp [unescape]
  | cons d rest =>
    rw [unescape.eq_def]
    simp only [if_neg hc]

theorem unescape_escape {d : CodePoint} (hd : d ≠ 'u') (rest : Text) :
    unescape (backslash :: d :: rest) = escaped d :: unescape rest := by
  rw [unescape.eq_def]
  simp only [if_true, if_neg hd]

theorem unescape_hex {a b c d : CodePoint} {n : Nat} (h : hex4? a b c d = some n) (rest : Text) :
    unescape (backslash :: CodePoint.ofChar 'u' :: a :: b :: c :: d :: rest)
      = .ofNat n :: unescape rest := by
  rw [unescape, if_pos rfl, if_pos rfl]
  simp only [h]

theorem escaped_shortEscape {c d : CodePoint} (h : shortEscape? c = some d) :
    d ≠ 'u' ∧ d.endsLine = false ∧ escaped d = c := by
  unfold shortEscape? at h
  split_ifs at h with htab hfeed hreturn hform hself
  · subst htab
    cases h
    decide
  · subst hfeed
    cases h
    decide
  · subst hreturn
    cases h
    decide
  · obtain rfl : c = .ofNat 0xC := CodePoint.ext_val hform
    cases h
    decide
  · cases h
    rcases hself with rfl | rfl | rfl | rfl | rfl | rfl <;> decide

/-- A code point without a short escape is nothing that a reader would stop
    at. -/
theorem plain_of_shortEscape {c : CodePoint} (h : shortEscape? c = none) :
    c ≠ backslash ∧ endsKey c = false ∧ c ≠ '#' ∧ c ≠ '!' := by
  unfold shortEscape? at h
  grind [endsKey, isSpace]

theorem endsLine_of_printable {c : CodePoint} (h : 0x20 ≤ c.val ∧ c.val ≤ 0x7E) :
    c.endsLine = false := by
  obtain ⟨hlow, hhigh⟩ := h
  simp only [CodePoint.endsLine, Bool.or_eq_false_iff, Bool.and_eq_false_iff,
    decide_eq_false_iff_not]
  omega

theorem place_lt (n : Nat) (i : Fin 4) : place n i < 16 := by
  unfold place
  split <;> exact Nat.mod_lt _ (by decide)

/-- Four digits of base sixteen denote the number they are taken from. -/
theorem hex4?_places {n : Nat} (hn : n < 0x10000) (capital : Fin 4 → Bool) :
    hex4? (digit (capital 0) (place n 0)) (digit (capital 1) (place n 1))
      (digit (capital 2) (place n 2)) (digit (capital 3) (place n 3)) = some n := by
  have hvalue := fun i : Fin 4 => (digit_spec (capital i) (place n i) (place_lt n i)).1
  simp only [hex4?, hvalue, Option.some.injEq]
  simp only [place]
  omega

theorem Letter.spells (l : Letter) : Spells l.code l.ink := by
  have hn := l.narrow
  unfold Letter.ink
  split
  · rename_i d hd
    obtain ⟨hu, hline, hstands⟩ := escaped_shortEscape hd
    exact .short hu hline hstands
  · rename_i hnone
    by_cases hp : 0x20 ≤ l.code.val ∧ l.code.val ≤ 0x7E
    · rw [if_pos hp]
      obtain ⟨hescape, hkey, hhash, hbang⟩ := plain_of_shortEscape hnone
      exact .plain hescape hkey hhash hbang (endsLine_of_printable hp)
    · rw [if_neg hp]
      refine .long (d := fun i => digit (l.capital i) (place l.code.val i)) ?_ ?_
      · exact hex4?_places hn l.capital
      · exact fun i => (digit_spec _ _ (place_lt _ i)).2

namespace Spells

variable {c : CodePoint} {s : Text}

theorem ne_nil (h : Spells c s) : s ≠ [] := by
  cases h <;> simp

theorem unbroken (h : Spells c s) : Unbroken s := by
  have hb : backslash.endsLine = false := by decide
  have hu : CodePoint.endsLine 'u' = false := by decide
  cases h with
  | plain _ _ _ _ line => simpa [Unbroken] using line
  | short _ line _ => simpa [Unbroken, hb] using line
  | long _ inner => simp [Unbroken, hb, hu, inner]

theorem paired (h : Spells c s) : continues s = false := by
  cases h with
  | plain escape _ _ _ _ => exact continues_concat_of_ne escape []
  | @short d _ _ _ =>
    by_cases hd : d = backslash
    · rw [hd]
      decide
    · exact continues_concat_of_ne hd [backslash]
  | long _ inner => exact continues_concat_of_ne (inner 3).1 [backslash, 'u', _, _, _]

/-- A spelled code point starts neither a separator nor a comment. -/
theorem head (h : Spells c s) :
    ∀ d ∈ s.head?, endsKey d = false ∧ d ≠ '#' ∧ d ≠ '!' := by
  have hb : endsKey backslash = false ∧ backslash ≠ '#' ∧ backslash ≠ '!' := by decide
  intro d hd
  cases h with
  | plain _ key hash bang _ =>
    obtain rfl : c = d := by simpa using hd
    exact ⟨key, hash, bang⟩
  | short =>
    obtain rfl : backslash = d := by simpa using hd
    exact hb
  | long =>
    obtain rfl : backslash = d := by simpa using hd
    exact hb

theorem firm (h : Spells c s) : Firm s := by
  intro d hd
  obtain ⟨hkey, hhash, hbang⟩ := h.head d hd
  exact ⟨isSpace_of_endsKey hkey, hhash, hbang⟩

theorem splitKey_append (h : Spells c s) (rest : Text) :
    splitKey (s ++ rest) = (s ++ (splitKey rest).1, (splitKey rest).2) := by
  cases h with
  | plain escape key _ _ _ => simp [splitKey_cons escape, key]
  | short => simp [splitKey_escape]
  | long _ inner =>
    simp [splitKey_escape, splitKey_cons (inner _).1, (inner _).2.1]

theorem unescape_append (h : Spells c s) (rest : Text) :
    unescape (s ++ rest) = c :: unescape rest := by
  cases h with
  | plain escape _ _ _ _ => exact unescape_cons escape rest
  | short digits _ stands =>
    rw [← stands]
    exact unescape_escape digits rest
  | long stands _ =>
    have hread := unescape_hex stands rest
    rw [CodePoint.ofNat_val] at hread
    exact hread

end Spells

namespace Word

theorem endsKey_head (w : Word) : ∀ c ∈ w.said.head?, endsKey c = false := by
  cases w with
  | empty => simp [said, letters]
  | spelled first others =>
    intro c hc
    have hfirst : c ∈ first.ink.head? := by
      simpa [said, letters, List.head?_append, first.spells.ne_nil] using hc
    exact (first.spells.head c hfirst).1

theorem isSpace_head (w : Word) : ∀ c ∈ w.said.head?, isSpace c = false :=
  fun c hc => isSpace_of_endsKey (w.endsKey_head c hc)

theorem splitKey_letters (letters : List Letter) (rest : Text) :
    splitKey (letters.flatMap Letter.ink ++ rest)
      = (letters.flatMap Letter.ink ++ (splitKey rest).1, (splitKey rest).2) := by
  induction letters with
  | nil => rfl
  | cons l letters ih =>
    rw [List.flatMap_cons, List.append_assoc, l.spells.splitKey_append, ih, List.append_assoc]

theorem unescape_letters (letters : List Letter) :
    unescape (letters.flatMap Letter.ink) = letters.map Letter.code := by
  induction letters with
  | nil => simp [unescape]
  | cons l letters ih => rw [List.flatMap_cons, l.spells.unescape_append, ih, List.map_cons]

/-- A key is read up to what ends it. -/
theorem splitKey_said (w : Word) {rest : Text}
    (h : ∀ c ∈ rest.head?, endsKey c = true) :
    splitKey (w.said ++ rest) = (w.said, rest) := by
  have hrest : splitKey rest = ([], rest) := by
    cases rest with
    | nil => rfl
    | cons c rest =>
      have hkey : endsKey c = true := h c rfl
      rw [splitKey_cons (ne_backslash_of_endsKey hkey), if_pos hkey]
  rw [said, splitKey_letters, hrest, List.append_nil]

theorem unescape_said (w : Word) : unescape w.said = w.text :=
  unescape_letters w.letters

end Word

end Properties

end ArchiveCensus
