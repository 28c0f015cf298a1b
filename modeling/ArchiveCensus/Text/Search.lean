import ArchiveCensus.Text.CodePoint

/-!
# Searching and Cutting

Cuts return both sides, so that what a cut loses is visible: the separator and
nothing else. The lemmas beside each cut say so.

## Main definitions

* `startsWith`, `endsWith`, `includes`: Where one text occurs in another.
* `cut?`: The two sides of the first occurrence of a text.
* `cutAt?`, `cutAtLast?`: The two sides of the first or last occurrence of a
  code point.
* `pieces`: All that stands between the occurrences of a code point.
* `dropTrailing`: The text without its longest end inside a class.

## Theorems

* `includes_iff`: A text that occurs is a part.
* `eq_of_cutAt?`, `eq_of_cutAtLast?`, `eq_of_cut?`: A cut only loses the
  separator.
* `not_mem_of_cutAt?`, `not_mem_of_cutAtLast?`: The outer side of a cut is free
  of the separator.
* `cutAt?_append_cons`, `cutAtLast?_append_cons`: Two such sides are what a cut
  gives.
* `append_cons_inj_of_count`, `append_cons_inj_of_count_left`: Two cuts are told
  apart by how many separators are on one side.
* `dropBoth_part`, `head?_dropBoth`, `getLast?_dropBoth`: What is left by dropping
  stands in the text and has nothing more to drop.
* `dropBoth_eq_nil_iff`: When nothing is left.
-/

namespace ArchiveCensus

namespace Text

def startsWith (t start : Text) : Bool :=
  start.isPrefixOf t

def endsWith (t tail : Text) : Bool :=
  tail.isSuffixOf t

theorem endsWith_iff {t tail : Text} : t.endsWith tail = true ↔ tail <:+ t :=
  List.isSuffixOf_iff_suffix

/-- What follows `start` at the head of a text. -/
def afterStart? : Text → Text → Option Text
  | [], t => some t
  | _ :: _, [] => none
  | p :: ps, c :: cs => if p = c then afterStart? ps cs else none

theorem eq_of_afterStart? {start t rest : Text} (h : afterStart? start t = some rest) :
    t = start ++ rest := by
  induction start generalizing t with
  | nil => simpa [afterStart?] using h
  | cons p ps ih =>
    cases t with
    | nil => simp [afterStart?] at h
    | cons c cs =>
      by_cases hpc : p = c
      · simp only [afterStart?, hpc, if_true] at h
        rw [hpc, List.cons_append, ← ih h]
      · simp [afterStart?, hpc] at h

@[simp] theorem afterStart?_append (start rest : Text) :
    afterStart? start (start ++ rest) = some rest := by
  induction start with
  | nil => rfl
  | cons p ps ih => simpa [afterStart?] using ih

/-- The two sides of the first occurrence of `sep`. -/
def cut? (sep : Text) : Text → Option (Text × Text)
  | [] => if sep = [] then some ([], []) else none
  | c :: cs =>
    match afterStart? sep (c :: cs) with
    | some rest => some ([], rest)
    | none => (cut? sep cs).map fun sides => (c :: sides.1, sides.2)

theorem eq_of_cut? {sep t a b : Text} (h : cut? sep t = some (a, b)) : t = a ++ sep ++ b := by
  induction t generalizing a b with
  | nil =>
    by_cases hs : sep = [] <;> simp_all [cut?]
  | cons c cs ih =>
    unfold cut? at h
    split at h
    · rename_i rest hr
      cases h
      simpa using eq_of_afterStart? hr
    · obtain ⟨⟨a', b'⟩, hab, he⟩ := Option.map_eq_some_iff.1 h
      cases he
      simp [ih hab]

/-- The text `needle` occurs somewhere. -/
def includes (t needle : Text) : Bool :=
  (cut? needle t).isSome

theorem includes_iff {t needle : Text} : t.includes needle = true ↔ needle <:+: t := by
  unfold includes
  constructor
  · intro h
    rcases Option.isSome_iff_exists.mp h with ⟨⟨a, b⟩, hcut⟩
    exact ⟨a, b, (eq_of_cut? hcut).symm⟩
  · intro h
    induction t with
    | nil =>
      rw [cut?, if_pos (List.infix_nil.mp h)]
      rfl
    | cons c cs ih =>
      unfold cut?
      split
      · rfl
      · rename_i hnone
        rw [Option.isSome_map]
        rcases List.infix_cons_iff.mp h with ⟨rest, hstart⟩ | hrest
        · rw [← hstart, afterStart?_append] at hnone
          cases hnone
        · exact ih hrest

/-- The two sides of the first `sep`. -/
def cutAt? (sep : CodePoint) : Text → Option (Text × Text)
  | [] => none
  | c :: cs =>
    if c = sep then some ([], cs)
    else (cutAt? sep cs).map fun sides => (c :: sides.1, sides.2)

theorem eq_of_cutAt? {sep : CodePoint} {t a b : Text} (h : cutAt? sep t = some (a, b)) :
    t = a ++ sep :: b := by
  induction t generalizing a b with
  | nil => simp [cutAt?] at h
  | cons c cs ih =>
    by_cases hc : c = sep
    · simp only [cutAt?, hc, if_true, Option.some.injEq, Prod.mk.injEq] at h
      simp [hc, ← h.1, h.2]
    · simp only [cutAt?, hc, if_false] at h
      obtain ⟨⟨a', b'⟩, hab, he⟩ := Option.map_eq_some_iff.1 h
      cases he
      simp [ih hab]

theorem not_mem_of_cutAt? {sep : CodePoint} {t a b : Text} (h : cutAt? sep t = some (a, b)) :
    sep ∉ a := by
  induction t generalizing a b with
  | nil => simp [cutAt?] at h
  | cons c cs ih =>
    by_cases hc : c = sep
    · simp only [cutAt?, hc, if_true, Option.some.injEq, Prod.mk.injEq] at h
      simp [← h.1]
    · simp only [cutAt?, hc, if_false] at h
      obtain ⟨⟨a', b'⟩, hab, he⟩ := Option.map_eq_some_iff.1 h
      cases he
      simp [ih hab, Ne.symm hc]

/-- The first `sep` is where nothing before it is one. -/
theorem cutAt?_append_cons {sep : CodePoint} {a : Text} (h : sep ∉ a) (b : Text) :
    cutAt? sep (a ++ sep :: b) = some (a, b) := by
  induction a with
  | nil => simp [cutAt?]
  | cons c cs ih =>
    rw [List.mem_cons, not_or] at h
    rw [List.cons_append, cutAt?, if_neg (Ne.symm h.1), ih h.2]
    rfl

theorem cutAt?_eq_none_iff {sep : CodePoint} {t : Text} : cutAt? sep t = none ↔ sep ∉ t := by
  induction t with
  | nil => simp [cutAt?]
  | cons c cs ih =>
    by_cases hc : c = sep
    · simp [cutAt?, hc]
    · simp [cutAt?, hc, ih, Ne.symm hc]

/-- The two sides of the last `sep`. -/
def cutAtLast? (sep : CodePoint) : Text → Option (Text × Text)
  | [] => none
  | c :: cs =>
    match cutAtLast? sep cs with
    | some (a, b) => some (c :: a, b)
    | none => if c = sep then some ([], cs) else none

theorem eq_of_cutAtLast? {sep : CodePoint} {t a b : Text} (h : cutAtLast? sep t = some (a, b)) :
    t = a ++ sep :: b := by
  induction t generalizing a b with
  | nil => simp [cutAtLast?] at h
  | cons c cs ih =>
    unfold cutAtLast? at h
    split at h
    · rename_i a' b' hab
      cases h
      simp [ih hab]
    · split at h
      · rename_i hc
        cases h
        simp [hc]
      · simp at h

theorem cutAtLast?_eq_none_iff {sep : CodePoint} {t : Text} :
    cutAtLast? sep t = none ↔ sep ∉ t := by
  induction t with
  | nil => simp [cutAtLast?]
  | cons c cs ih =>
    unfold cutAtLast?
    split
    · rename_i a b hab
      simp [eq_of_cutAtLast? hab]
    · rename_i hn
      rw [ih] at hn
      by_cases hc : c = sep
      · simp [hc]
      · simp [hc, hn, Ne.symm hc]

/-- The last `sep` is where nothing behind it is one. -/
theorem cutAtLast?_append_cons {sep : CodePoint} (a : Text) {b : Text} (h : sep ∉ b) :
    cutAtLast? sep (a ++ sep :: b) = some (a, b) := by
  induction a with
  | nil => simp [cutAtLast?, cutAtLast?_eq_none_iff.2 h]
  | cons c cs ih => rw [List.cons_append, cutAtLast?, ih]

theorem not_mem_of_cutAtLast? {sep : CodePoint} {t a b : Text}
    (h : cutAtLast? sep t = some (a, b)) : sep ∉ b := by
  induction t generalizing a b with
  | nil => simp [cutAtLast?] at h
  | cons c cs ih =>
    unfold cutAtLast? at h
    split at h
    · rename_i a' b' hab
      cases h
      exact ih hab
    · rename_i hn
      split at h
      · cases h
        exact cutAtLast?_eq_none_iff.1 hn
      · simp at h

/-- Two cuts of one text at a separator are the same if as many separators stand
    behind them. -/
theorem append_cons_inj_of_count {sep : CodePoint} {a b c d : Text}
    (hcount : b.count sep = d.count sep) : a ++ sep :: b = c ++ sep :: d ↔ a = c ∧ b = d := by
  constructor
  · intro h
    rcases List.append_eq_append_iff.1 h with ⟨x, rfl, hx⟩ | ⟨x, rfl, hx⟩
    · cases x with
      | nil => exact ⟨(List.append_nil a).symm, (List.cons.inj hx).2⟩
      | cons e x =>
        have hb : b = x ++ sep :: d := (List.cons.inj hx).2
        rw [hb, List.count_append, List.count_cons_self] at hcount
        omega
    · cases x with
      | nil => exact ⟨List.append_nil c, (List.cons.inj hx).2.symm⟩
      | cons e x =>
        have hd : d = x ++ sep :: b := (List.cons.inj hx).2
        rw [hd, List.count_append, List.count_cons_self] at hcount
        omega
  · rintro ⟨rfl, rfl⟩
    rfl

/-- All that stands between the occurrences of `sep`: one piece more than
    there are separators. -/
def pieces (sep : CodePoint) : Text → List Text
  | [] => [[]]
  | c :: cs =>
    if c = sep then [] :: pieces sep cs
    else
      match pieces sep cs with
      | [] => [[c]]
      | p :: ps => (c :: p) :: ps

/-- The pieces with `sep` between them. -/
def joinWith (sep : Text) : List Text → Text
  | [] => []
  | [p] => p
  | p :: ps => p ++ sep ++ joinWith sep ps

/-- The text without its longest start of code points that satisfy `p`. -/
abbrev dropLeading (p : CodePoint → Bool) (t : Text) : Text :=
  t.dropWhile p

/-- The text without its longest end of code points that satisfy `p`. -/
def dropTrailing (p : CodePoint → Bool) : Text → Text
  | [] => []
  | c :: cs =>
    match dropTrailing p cs with
    | [] => if p c then [] else [c]
    | d :: ds => c :: d :: ds

theorem dropTrailing_eq_self_iff {p : CodePoint → Bool} {t : Text} :
    dropTrailing p t = t ↔ ∀ c ∈ t.getLast?, p c = false := by
  induction t with
  | nil => simp [dropTrailing]
  | cons c t ih =>
    cases t with
    | nil => simp [dropTrailing]
    | cons d rest =>
      rw [List.getLast?_cons_cons, ← ih, dropTrailing]
      split
      · rename_i h
        rw [h]
        split <;> simp
      · rename_i h
        rw [h]
        simp

theorem dropTrailing_start (p : CodePoint → Bool) (t : Text) : dropTrailing p t <+: t := by
  induction t with
  | nil => exact List.prefix_rfl
  | cons c t ih =>
    rw [dropTrailing]
    split
    · split
      · exact List.nil_prefix
      · exact List.cons_prefix_cons.2 ⟨rfl, List.nil_prefix⟩
    · rename_i h
      exact List.cons_prefix_cons.2 ⟨rfl, h ▸ ih⟩

theorem getLast?_dropTrailing (p : CodePoint → Bool) (t : Text) :
    ∀ c ∈ (dropTrailing p t).getLast?, p c = false := by
  induction t with
  | nil => simp [dropTrailing]
  | cons c t ih =>
    rw [dropTrailing]
    split
    · split
      · simp
      · rename_i h
        simpa using h
    · rename_i h
      rw [List.getLast?_cons_cons, ← h]
      exact ih

theorem dropTrailing_eq_nil_iff {p : CodePoint → Bool} {t : Text} :
    dropTrailing p t = [] ↔ ∀ c ∈ t, p c = true := by
  induction t with
  | nil => simp [dropTrailing]
  | cons c t ih =>
    rw [dropTrailing, List.forall_mem_cons, ← ih]
    split
    · rename_i h
      simp [h]
    · rename_i h
      simp [h]

/-- The text without what satisfies `p` at either end. -/
def dropBoth (p : CodePoint → Bool) (t : Text) : Text :=
  dropTrailing p (dropLeading p t)

theorem dropBoth_part (p : CodePoint → Bool) (t : Text) : dropBoth p t <:+: t :=
  (dropTrailing_start p _).isInfix.trans (List.dropWhile_suffix p).isInfix

theorem head?_dropBoth (p : CodePoint → Bool) (t : Text) :
    ∀ c ∈ (dropBoth p t).head?, p c = false := by
  intro c hc
  have hhead : (dropLeading p t).head? = some c := by
    obtain ⟨rest, hrest⟩ := dropTrailing_start p (dropLeading p t)
    rw [← hrest, List.head?_append, ← dropBoth, Option.mem_def.1 hc, Option.some_or]
  have hfirst := List.head?_dropWhile_not p t
  rw [hhead] at hfirst
  simpa using hfirst

theorem getLast?_dropBoth (p : CodePoint → Bool) (t : Text) :
    ∀ c ∈ (dropBoth p t).getLast?, p c = false :=
  getLast?_dropTrailing p _

/-- Nothing is left where there is nothing else. -/
theorem dropBoth_eq_nil_iff {p : CodePoint → Bool} {t : Text} :
    dropBoth p t = [] ↔ ∀ c ∈ t, p c = true := by
  rw [dropBoth, dropTrailing_eq_nil_iff]
  constructor
  · intro hrest
    -- What is dropped at the head satisfies `p` as well.
    rw [← List.all_eq_true, ← List.takeWhile_append_dropWhile (p := p) (l := t), List.all_append,
      List.all_takeWhile, Bool.true_and, List.all_eq_true]
    exact hrest
  · exact fun hall c hc => hall c ((List.dropWhile_suffix p).subset hc)

theorem dropBoth_eq_self {p : CodePoint → Bool} {t : Text} (hhead : ∀ c ∈ t.head?, p c = false)
    (hlast : ∀ c ∈ t.getLast?, p c = false) : dropBoth p t = t := by
  have hdrop : dropLeading p t = t := by
    cases t with
    | nil => rfl
    | cons c t => simp [dropLeading, hhead c rfl]
  rw [dropBoth, hdrop, dropTrailing_eq_self_iff]
  exact hlast

/-- The code points at the end that satisfy `p`, counted. -/
def trailingCount (p : CodePoint → Bool) (t : Text) : Nat :=
  (t.reverse.takeWhile p).length

end Text

end ArchiveCensus
