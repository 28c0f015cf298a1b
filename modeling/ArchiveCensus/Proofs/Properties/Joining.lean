import ArchiveCensus.Proofs.Lines
import ArchiveCensus.Properties

/-!
# Joining Natural Lines

What the joining of natural lines makes of a text, piece by piece. `Draft` is
the state in the middle of a logical line: so much has been written, so much of
it is held, and a part of that stands on the natural line that is not over
yet. Three lemmas extend a draft, by white space at its start, by more text, and
by a turn to the next line; a fourth ends it. Whoever writes a logical line, and
however it is broken, the line that is read follows from these four.

White space and line ends in front of a logical line are passed over code point
by code point, so blank lines need no case of their own: they are part of what
stands in front.

## Main definitions

* `Text.Unbroken`, `Text.AtLineEnd`: No line end inside, and a line end or
  nothing next.
* `Properties.Firm`: A text whose start is neither passed over nor a comment.
* `Properties.Draft`: What is held of a logical line that is being read.

## Theorems

* `Text.lines_append`: The first natural line stands before the first line end.
* `continues_append`, `continues_concat`: Backslashes that pair off at the end
  of two texts do so at the end of both, and one more makes the line go on.
* `joinLines_blank`, `joinLines_comment`: Blank and comment lines lead to
  nothing.
* `Draft.start`, `Draft.put`, `Draft.turn`, `Draft.finish`: A logical line from
  its first code point to its end.
-/

namespace ArchiveCensus

namespace Text

/-- No natural line ends inside the text. -/
def Unbroken (t : Text) : Prop :=
  ∀ c ∈ t, c.endsLine = false

/-- The text is empty or starts with a line feed. -/
def AtLineEnd (t : Text) : Prop :=
  ∀ c ∈ t.head?, c = '\n'

theorem lines_cons {c : CodePoint} (hc : c.endsLine = false) (t : Text) :
    lines (c :: t) = growFirst c (lines t) :=
  linesAt_cons hc t

theorem lines_feed (t : Text) : lines (CodePoint.ofChar '\n' :: t) = [] :: lines t :=
  linesAt_end (by decide) (by decide) t

/-- The first natural line is what stands before the first line end. -/
theorem lines_append {t rest : Text} (ht : Unbroken t) (hne : t ≠ []) (hrest : AtLineEnd rest) :
    lines (t ++ rest) = t :: lines rest.tail := by
  induction t with
  | nil => exact absurd rfl hne
  | cons c t ih =>
    have hc : c.endsLine = false := ht c (by simp)
    have hu : Unbroken t := fun d hd => ht d (by simp [hd])
    rw [List.cons_append, lines_cons hc]
    by_cases hnil : t = []
    · subst hnil
      cases rest with
      | nil => rfl
      | cons d rest =>
        have hd : d = '\n' := hrest d (by simp)
        rw [List.nil_append, hd, lines_feed]
        rfl
    · rw [ih hu hnil]
      rfl

theorem trailingCount_append (p : CodePoint → Bool) (t u : Text) :
    trailingCount p (t ++ u)
      = if u.all p then trailingCount p t + u.length else trailingCount p u := by
  by_cases hall : u.all p
  · have hr : ∀ c ∈ u.reverse, p c = true := by simpa using hall
    simp [trailingCount, hall, List.takeWhile_append_of_pos hr, Nat.add_comm]
  · have hlt : (u.reverse.takeWhile p).length ≠ u.length := by
      intro heq
      have hwhole : u.reverse.takeWhile p = u.reverse :=
        (List.takeWhile_prefix p).eq_of_length (by simpa using heq)
      have hall' : (u.reverse.takeWhile p).all p = true := List.all_takeWhile
      rw [hwhole, List.all_reverse] at hall'
      exact hall hall'
    simp [trailingCount, hall, List.takeWhile_append, hlt]

end Text

namespace Properties

open Text

theorem continues_eq_false_iff {t : Text} :
    continues t = false ↔ trailingCount (· = backslash) t % 2 = 0 := by
  simp [continues]

theorem continues_append {t u : Text} (ht : continues t = false) (hu : continues u = false) :
    continues (t ++ u) = false := by
  rw [continues_eq_false_iff] at ht hu ⊢
  rw [trailingCount_append]
  by_cases hall : u.all (· = backslash)
  · have hlen : trailingCount (· = backslash) u = u.length := by
      have := trailingCount_append (· = backslash) [] u
      simpa [hall, trailingCount] using this
    rw [if_pos hall]
    omega
  · rw [if_neg hall]
    exact hu

theorem continues_concat {t : Text} (ht : continues t = false) :
    continues (t ++ [backslash]) = true := by
  rw [continues_eq_false_iff] at ht
  have hcount := trailingCount_append (· = backslash) t [backslash]
  simp only [List.all_cons, List.all_nil, decide_true, Bool.and_self, if_true,
    List.length_singleton] at hcount
  simp only [continues, hcount, decide_eq_true_eq]
  omega

theorem continues_concat_of_ne {c : CodePoint} (hc : c ≠ backslash) (t : Text) :
    continues (t ++ [c]) = false := by
  rw [continues_eq_false_iff, trailingCount_append]
  simp [trailingCount, hc]

theorem continues_of_not_mem {t : Text} (h : backslash ∉ t) : continues t = false := by
  rcases List.eq_nil_or_concat t with rfl | ⟨u, c, rfl⟩
  · decide
  · have hc : c ≠ backslash := by
      rintro rfl
      simp at h
    rw [List.concat_eq_append]
    exact continues_concat_of_ne hc u

/-- The text can stand at the start of a logical line: white space there would
    be passed over, and a comment mark would hide the line. -/
def Firm (t : Text) : Prop :=
  ∀ c ∈ t.head?, isSpace c = false ∧ c ≠ '#' ∧ c ≠ '!'

theorem Firm.append {t u : Text} (ht : Firm t) (hu : t ≠ [] ∨ Firm u) : Firm (t ++ u) := by
  cases t with
  | nil => exact hu.resolve_left fun h => h rfl
  | cons c t => exact ht

/-- A firm line is neither passed over nor cut at its start. -/
theorem joinLines_cons_of_firm {line : Text} (hne : line ≠ []) (hf : Firm line)
    (p : Option Text) (rest : List Text) :
    joinLines p (line :: rest)
      = if continues line then joinLines (some (p.getD [] ++ line.dropLast)) rest
        else (p.getD [] ++ line) :: joinLines none rest := by
  cases line with
  | nil => exact absurd rfl hne
  | cons c line =>
    obtain ⟨hs, hh, he⟩ := hf c rfl
    have hdrop : (c :: line).dropWhile isSpace = c :: line := by simp [hs]
    have hcomment : isComment (c :: line) = false := by simp [isComment, hh, he]
    rw [joinLines, hdrop, hcomment]
    simp

theorem joinLines_growFirst {c : CodePoint} (hc : isSpace c = true) (p : Option Text)
    (natural : List Text) :
    joinLines p (growFirst c natural) = joinLines p natural := by
  cases natural with
  | nil =>
    have hdrop : [c].dropWhile isSpace = [] := by simp [hc]
    cases p <;> simp [growFirst, joinLines, hdrop, continues, trailingCount]
  | cons line rest =>
    have hdrop : (c :: line).dropWhile isSpace = line.dropWhile isSpace := by simp [hc]
    rw [growFirst, joinLines, joinLines, hdrop]

theorem joinLines_space {c : CodePoint} (hc : isSpace c = true) (hu : c.endsLine = false)
    (p : Option Text) (t : Text) : joinLines p (lines (c :: t)) = joinLines p (lines t) := by
  rw [lines_cons hu, joinLines_growFirst hc]

theorem joinLines_gap {gap : Text} (h : ∀ c ∈ gap, isSpace c = true ∧ c.endsLine = false)
    (p : Option Text) (rest : Text) :
    joinLines p (lines (gap ++ rest)) = joinLines p (lines rest) := by
  induction gap with
  | nil => rfl
  | cons c gap ih =>
    obtain ⟨hs, hc⟩ := h c (by simp)
    rw [List.cons_append, joinLines_space hs hc]
    exact ih fun d hd => h d (by simp [hd])

theorem joinLines_nil_cons (rest : List Text) :
    joinLines none ([] :: rest) = joinLines none rest := by
  rw [joinLines]
  simp

theorem joinLines_lineEnd {c : CodePoint} (hc : c.endsLine = true) (t : Text) :
    joinLines none (lines (c :: t)) = joinLines none (lines t) := by
  cases t with
  | nil => simp [lines, linesAt, hc, joinLines]
  | cons d rest =>
    by_cases hpair : c = '\r' ∧ d = '\n'
    · obtain ⟨rfl, rfl⟩ := hpair
      -- A pair is one line end, and the line feed alone is one as well.
      rw [lines_feed]
      simp only [lines, linesAt, hc, and_self, if_true, joinLines_nil_cons]
    · simp only [lines, linesAt, hc, hpair, if_true, if_false, joinLines_nil_cons]

/-- Where no line is pending, white space and line ends lead to nothing. -/
theorem joinLines_blank {t : Text} (ht : ∀ c ∈ t, isSpace c = true ∨ c.endsLine = true)
    (rest : Text) : joinLines none (lines (t ++ rest)) = joinLines none (lines rest) := by
  induction t with
  | nil => rfl
  | cons c t ih =>
    have htail := ih fun d hd => ht d (by simp [hd])
    by_cases hends : c.endsLine = true
    · rw [List.cons_append, joinLines_lineEnd hends, htail]
    · have hs : isSpace c = true := (ht c (by simp)).resolve_right hends
      rw [List.cons_append, joinLines_space hs (by simpa using hends), htail]

theorem joinLines_tail {rest : Text} (hrest : AtLineEnd rest) :
    joinLines none (lines rest.tail) = joinLines none (lines rest) := by
  cases rest with
  | nil => rfl
  | cons c rest =>
    have hc : c = '\n' := hrest c (by simp)
    rw [hc, lines_feed, joinLines_nil_cons]
    rfl

/-- A comment line leads to nothing, however many backslashes end it. -/
theorem joinLines_comment {t rest : Text} (ht : Unbroken t) (hc : isComment t = true)
    (hrest : AtLineEnd rest) :
    joinLines none (lines (t ++ rest)) = joinLines none (lines rest) := by
  have hne : t ≠ [] := by
    rintro rfl
    simp [isComment] at hc
  have hdrop : t.dropWhile isSpace = t := by
    cases t with
    | nil => rfl
    | cons c t =>
      have hmark : c = '#' ∨ c = '!' := by simpa [isComment] using hc
      have hs : isSpace c = false := by rcases hmark with rfl | rfl <;> decide
      simp [hs]
  rw [lines_append ht hne hrest, joinLines, hdrop, ← joinLines_tail hrest]
  simp [hc]

/-- What is known while a logical line is being written: after the text
    `written`, the reader holds `said`, of which `begun` stands on the natural
    line that is not over yet. -/
structure Draft (written said begun : Text) : Prop where
  joins : ∃ pending : Option Text, said = pending.getD [] ++ begun ∧
    ∀ rest, joinLines none (lines (written ++ rest)) = joinLines pending (lines (begun ++ rest))
  unbroken : Unbroken begun
  paired : continues begun = false
  firm : Firm begun

namespace Draft

variable {written said begun : Text}

theorem start {indent : Text} (h : ∀ c ∈ indent, isSpace c = true) : Draft indent [] [] where
  joins := ⟨none, rfl, joinLines_blank fun c hc => .inl (h c hc)⟩
  unbroken := by simp [Unbroken]
  paired := by decide
  firm := by simp [Firm]

theorem put (h : Draft written said begun) {t : Text} (hu : Unbroken t)
    (hp : continues t = false) (hf : begun ≠ [] ∨ Firm t) :
    Draft (written ++ t) (said ++ t) (begun ++ t) where
  joins := by
    obtain ⟨pending, hsaid, hjoins⟩ := h.joins
    refine ⟨pending, by rw [hsaid, List.append_assoc], fun rest => ?_⟩
    rw [List.append_assoc, hjoins, List.append_assoc]
  unbroken := by
    intro c hc
    rcases List.mem_append.1 hc with hc | hc
    · exact h.unbroken c hc
    · exact hu c hc
  paired := continues_append h.paired hp
  firm := h.firm.append hf

/-- A backslash at the end of a natural line, the line feed, and the white
    space in front of the next line leave what the reader holds as it is. -/
theorem turn (h : Draft written said begun) {gap : Text}
    (hgap : ∀ c ∈ gap, isSpace c = true ∧ c.endsLine = false) :
    Draft (written ++ backslash :: CodePoint.ofChar '\n' :: gap) said [] where
  joins := by
    obtain ⟨pending, hsaid, hjoins⟩ := h.joins
    refine ⟨some said, by simp, fun rest => ?_⟩
    have hline : Unbroken (begun ++ [backslash]) := by
      intro c hc
      rcases List.mem_append.1 hc with hc | hc
      · exact h.unbroken c hc
      · obtain rfl : c = backslash := by simpa using hc
        decide
    have hfirm : Firm (begun ++ [backslash]) := by
      refine h.firm.append (.inr fun c hc => ?_)
      obtain rfl : backslash = c := by simpa using hc
      decide
    have hend : AtLineEnd (CodePoint.ofChar '\n' :: (gap ++ rest)) := by simp [AtLineEnd]
    calc joinLines none (lines (written ++ backslash :: CodePoint.ofChar '\n' :: gap ++ rest))
        = joinLines pending
            (lines ((begun ++ [backslash]) ++ CodePoint.ofChar '\n' :: (gap ++ rest))) := by
          rw [List.append_assoc, hjoins]
          simp
      _ = joinLines pending ((begun ++ [backslash]) :: lines (gap ++ rest)) := by
          rw [lines_append hline (by simp) hend]
          rfl
      _ = joinLines (some said) (lines (gap ++ rest)) := by
          rw [joinLines_cons_of_firm (by simp) hfirm, if_pos (continues_concat h.paired),
            List.dropLast_concat, ← hsaid]
      _ = joinLines (some said) (lines ([] ++ rest)) := joinLines_gap hgap _ _
  unbroken := by simp [Unbroken]
  paired := by decide
  firm := by simp [Firm]

/-- At the end of its last natural line the logical line is what was said. -/
theorem finish (h : Draft written said begun) (hne : begun ≠ []) {rest : Text}
    (hrest : AtLineEnd rest) :
    joinLines none (lines (written ++ rest)) = said :: joinLines none (lines rest) := by
  obtain ⟨pending, hsaid, hjoins⟩ := h.joins
  rw [hjoins, lines_append h.unbroken hne hrest, joinLines_cons_of_firm hne h.firm, h.paired,
    if_neg (by simp), ← hsaid, joinLines_tail hrest]

end Draft

end Properties

end ArchiveCensus
