import ArchiveCensus.Text.Lines

/-!
# Lines by Different Ends

The splitter takes the set of line ends as a parameter, and two sets are in use:
all Unicode line boundaries, and the two feeds (line feed and carriage return)
alone. This module compares what they make of a text.

A carriage return joins with a line feed behind it, whatever the set, so a text
is not taken apart code point by code point. `feedInduction` has the shape that
fits: a pair at the front, a lone carriage return, or anything else. Each
function on line ends has one equation for each of these cases, and the
comparisons follow from the equations.

## Main definitions

* `CodePoint.isFeed`, `CodePoint.isFurtherEnd`: The two feeds, and the line
  boundaries beyond them.
* `CodePoint.asFeed`: A line feed in place of any line boundary.
* `Text.feedLines`: The lines of a text that end at feeds alone.
* `Text.Plain`: No boundary beyond the feeds occurs in a text.

## Theorems

* `feedInduction`: Induction that never parts a pair.
* `linesAt_congr`: Only the ends that occur in a text matter.
* `lines_eq_feedLines_iff`: The two splittings agree only on texts without a
  boundary beyond the feeds.
* `lines_eq_feedLines`: Unicode lines are lines at feeds, with a line feed for
  every boundary.
* `feedLines_append_feed`: Behind a line feed the lines start anew.
* `pieces_unifyLineEnds`: Cutting at line ends gives these lines, and an empty
  one where a text ends in a line end.
-/

namespace ArchiveCensus

namespace CodePoint

/-- A line feed or a carriage return. -/
def isFeed (c : CodePoint) : Bool :=
  c = '\n' || c = '\r'

/-- A Unicode line boundary that is no feed. -/
def isFurtherEnd (c : CodePoint) : Bool :=
  c.endsLine && !c.isFeed

/-- A line feed for a line boundary, any other code point as it is. -/
def asFeed (c : CodePoint) : CodePoint :=
  if c.endsLine then '\n' else c

theorem eq_iff_val {a b : CodePoint} : a = b ↔ a.val = b.val :=
  ⟨fun h => h ▸ rfl, ext_val⟩

/-- Vertical tab, form feed, the separators `U+001C` to `U+001E`, next line, and
    the two Unicode separators. -/
theorem isFurtherEnd_iff {c : CodePoint} :
    c.isFurtherEnd = true ↔ c.val ∈ [0xB, 0xC, 0x1C, 0x1D, 0x1E, 0x85, 0x2028, 0x2029] := by
  have hfeed : (CodePoint.ofChar '\n').val = 0xA := rfl
  have hreturn : (CodePoint.ofChar '\r').val = 0xD := rfl
  simp only [isFurtherEnd, endsLine, isFeed, eq_iff_val, hfeed, hreturn, Bool.and_eq_true,
    Bool.or_eq_true, Bool.not_eq_true', Bool.or_eq_false_iff, decide_eq_true_eq,
    decide_eq_false_iff_not, List.mem_cons, List.not_mem_nil, or_false]
  omega

theorem endsLine_of_isFeed {c : CodePoint} (h : c.isFeed = true) : c.endsLine = true := by
  simp only [isFeed, Bool.or_eq_true, decide_eq_true_eq] at h
  rcases h with rfl | rfl <;> decide

theorem endsLine_eq_isFeed {c : CodePoint} (h : c.isFurtherEnd = false) :
    c.endsLine = c.isFeed := by
  cases hf : c.isFeed with
  | true => exact endsLine_of_isFeed hf
  | false => simpa [isFurtherEnd, hf] using h

end CodePoint

namespace Text

/-- Induction that takes a carriage return together with a line feed behind
    it. -/
@[elab_as_elim]
theorem feedInduction {motive : Text → Prop} (nil : motive [])
    (pair : ∀ t, motive t → motive (CodePoint.ofChar '\r' :: CodePoint.ofChar '\n' :: t))
    (lone : ∀ t : Text, (∀ d ∈ t.head?, d ≠ '\n') → motive t → motive (CodePoint.ofChar '\r' :: t))
    (other : ∀ (c : CodePoint) (t : Text), c ≠ '\r' → motive t → motive (c :: t)) : ∀ t, motive t
  | [] => nil
  | [c] =>
    if hc : c = '\r' then hc ▸ lone [] (by simp) nil else other c [] hc nil
  | c :: d :: rest => by
    have hrest := feedInduction nil pair lone other rest
    have htail := feedInduction nil pair lone other (d :: rest)
    by_cases hc : c = '\r'
    · by_cases hd : d = '\n'
      · rw [hc, hd]
        exact pair rest hrest
      · rw [hc]
        exact lone (d :: rest) (by simpa using hd) htail
    · exact other c (d :: rest) hc htail

/-- The lines of a text that end at feeds alone. -/
def feedLines (t : Text) : List Text :=
  linesAt CodePoint.isFeed t

/-- Every line boundary in the text is a feed. -/
def Plain (t : Text) : Prop :=
  ∀ c ∈ t, c.isFurtherEnd = false

/-! ## Equations -/

section Equations

variable {ends : CodePoint → Bool} {c : CodePoint}

theorem linesAt_cons (hc : ends c = false) (t : Text) :
    linesAt ends (c :: t) = growFirst c (linesAt ends t) := by
  cases t with
  | nil => simp [linesAt, hc, growFirst]
  | cons d rest => simp [linesAt, hc]

theorem linesAt_end (hc : ends c = true) (hr : c ≠ '\r') (t : Text) :
    linesAt ends (c :: t) = [] :: linesAt ends t := by
  cases t with
  | nil => simp [linesAt, hc]
  | cons d rest => simp [linesAt, hc, hr]

theorem linesAt_lone (hc : ends '\r' = true) {t : Text} (ht : ∀ d ∈ t.head?, d ≠ '\n') :
    linesAt ends (CodePoint.ofChar '\r' :: t) = [] :: linesAt ends t := by
  cases t with
  | nil => simp [linesAt, hc]
  | cons d rest =>
    have hd : d ≠ '\n' := ht d (by simp)
    simp [linesAt, hc, hd]

theorem linesAt_pair (hc : ends '\r' = true) (t : Text) :
    linesAt ends (CodePoint.ofChar '\r' :: CodePoint.ofChar '\n' :: t)
      = [] :: linesAt ends t := by
  simp [linesAt, hc]

theorem mem_growFirst {ls : List Text} {l : Text} (h : l ∈ growFirst c ls) :
    l ∈ ls ∨ ∃ l', (l' ∈ ls ∨ l' = []) ∧ l = c :: l' := by
  cases ls with
  | nil => exact .inr ⟨[], .inr rfl, by simpa [growFirst] using h⟩
  | cons l' ls =>
    rcases List.mem_cons.1 h with rfl | h
    · exact .inr ⟨l', .inl List.mem_cons_self, rfl⟩
    · exact .inl (List.mem_cons_of_mem _ h)

/-- No end stands in a line. -/
theorem not_ends_of_mem_linesAt {t l : Text} (hl : l ∈ linesAt ends t) (hc : c ∈ l) :
    ends c = false := by
  fun_induction linesAt ends t generalizing l with
  | case1 => cases hl
  | case2 d hd =>
    obtain rfl : l = [] := by simpa using hl
    cases hc
  | case3 d hd =>
    obtain rfl : l = [d] := by simpa using hl
    obtain rfl : c = d := by simpa using hc
    simpa using hd
  | case4 d e rest hd hpair ih =>
    rcases List.mem_cons.1 hl with rfl | hl
    · cases hc
    · exact ih hl hc
  | case5 d e rest hd hpair ih =>
    rcases List.mem_cons.1 hl with rfl | hl
    · cases hc
    · exact ih hl hc
  | case6 d e rest hd ih =>
    rcases mem_growFirst hl with hl | ⟨l', hl', rfl⟩
    · exact ih hl hc
    · rcases List.mem_cons.1 hc with rfl | hc
      · simpa using hd
      · rcases hl' with hl' | rfl
        · exact ih hl' hc
        · cases hc

theorem flatten_growFirst (c : CodePoint) (ls : List Text) :
    (growFirst c ls).flatten = c :: ls.flatten := by
  cases ls <;> rfl

theorem unifyLineEnds_cons (hc : c ≠ '\r') (t : Text) :
    unifyLineEnds (c :: t) = c :: unifyLineEnds t := by
  cases t with
  | nil => simp [unifyLineEnds, hc]
  | cons d rest => simp [unifyLineEnds, hc]

theorem unifyLineEnds_lone {t : Text} (ht : ∀ d ∈ t.head?, d ≠ '\n') :
    unifyLineEnds (CodePoint.ofChar '\r' :: t) = CodePoint.ofChar '\n' :: unifyLineEnds t := by
  cases t with
  | nil => simp [unifyLineEnds]
  | cons d rest =>
    have hd : d ≠ '\n' := ht d (by simp)
    simp [unifyLineEnds, hd]

theorem unifyLineEnds_pair (t : Text) :
    unifyLineEnds (CodePoint.ofChar '\r' :: CodePoint.ofChar '\n' :: t)
      = CodePoint.ofChar '\n' :: unifyLineEnds t := by
  simp [unifyLineEnds]

theorem feedLines_cons (hc : c.isFeed = false) (t : Text) :
    feedLines (c :: t) = growFirst c (feedLines t) :=
  linesAt_cons hc t

theorem feedLines_end (hc : c.isFeed = true) (hr : c ≠ '\r') (t : Text) :
    feedLines (c :: t) = [] :: feedLines t :=
  linesAt_end hc hr t

theorem feedLines_feed (t : Text) :
    feedLines (CodePoint.ofChar '\n' :: t) = [] :: feedLines t :=
  feedLines_end (by decide) (by decide) t

theorem feedLines_lone {t : Text} (ht : ∀ d ∈ t.head?, d ≠ '\n') :
    feedLines (CodePoint.ofChar '\r' :: t) = [] :: feedLines t :=
  linesAt_lone (by decide) ht

theorem feedLines_pair (t : Text) :
    feedLines (CodePoint.ofChar '\r' :: CodePoint.ofChar '\n' :: t) = [] :: feedLines t :=
  linesAt_pair (by decide) t

/-- A text without feeds is one line. -/
theorem feedLines_of_forall_not {t : Text} (h : ∀ c ∈ t, c.isFeed = false) (hne : t ≠ []) :
    feedLines t = [t] := by
  induction t with
  | nil => exact absurd rfl hne
  | cons c t ih =>
    rw [feedLines_cons (h c (by simp))]
    by_cases ht : t = []
    · rw [ht]
      rfl
    · rw [ih (fun d hd => h d (by simp [hd])) ht]
      rfl

/-- The first line stands before the first line feed. -/
theorem feedLines_first {t : Text} (h : ∀ d ∈ t, d.isFeed = false) (rest : Text) :
    feedLines (t ++ CodePoint.ofChar '\n' :: rest) = t :: feedLines rest := by
  induction t with
  | nil => exact feedLines_feed rest
  | cons d t ih =>
    rw [List.cons_append, feedLines_cons (h d (by simp)), ih fun e he => h e (by simp [he])]
    rfl

end Equations

/-! ## Comparisons -/

/-- Only the ends that occur in a text matter. -/
theorem linesAt_congr {ends ends' : CodePoint → Bool} {t : Text}
    (h : ∀ c ∈ t, ends c = ends' c) : linesAt ends t = linesAt ends' t := by
  fun_induction linesAt ends t with
  | case1 => rfl
  | case2 c hc =>
    have hc' : ends' c = true := (h c (by simp)) ▸ hc
    rw [linesAt, if_pos hc']
  | case3 c hc =>
    have hc' : ¬ends' c = true := (h c (by simp)) ▸ hc
    rw [linesAt, if_neg hc']
  | case4 c d rest hc hpair ih =>
    have hc' : ends' c = true := (h c (by simp)) ▸ hc
    rw [linesAt, if_pos hc', if_pos hpair, ih fun x hx => h x (by simp [hx])]
  | case5 c d rest hc hpair ih =>
    have hc' : ends' c = true := (h c (by simp)) ▸ hc
    rw [linesAt, if_pos hc', if_neg hpair, ih fun x hx => h x (List.mem_cons_of_mem _ hx)]
  | case6 c d rest hc ih =>
    have hc' : ¬ends' c = true := (h c (by simp)) ▸ hc
    rw [linesAt, if_neg hc', ih fun x hx => h x (List.mem_cons_of_mem _ hx)]

theorem lines_eq_feedLines_of_plain {t : Text} (h : Plain t) : lines t = feedLines t :=
  linesAt_congr fun c hc => CodePoint.endsLine_eq_isFeed (h c hc)

/-- The lines at feeds hold the text without its feeds. -/
theorem mem_flatten_feedLines {t : Text} {c : CodePoint} (hc : c ∈ t) (hkept : c.isFeed = false) :
    c ∈ (feedLines t).flatten := by
  have hne : ∀ d : CodePoint, d.isFeed = true → c ≠ d := by
    rintro d hd rfl
    rw [hkept] at hd
    cases hd
  have hfeed : c ≠ '\n' := hne _ (by decide)
  have hreturn : c ≠ '\r' := hne _ (by decide)
  induction t using feedInduction with
  | nil => cases hc
  | pair t ih =>
    have hmem : c ∈ t := by simpa [hfeed, hreturn] using hc
    rw [feedLines_pair, List.flatten_cons]
    exact ih hmem
  | lone t ht ih =>
    have hmem : c ∈ t := by simpa [hreturn] using hc
    rw [feedLines_lone ht, List.flatten_cons]
    exact ih hmem
  | other d t hd ih =>
    by_cases hends : d.isFeed = true
    · have hmem : c ∈ t := by simpa [hne d hends] using hc
      rw [feedLines_end hends hd, List.flatten_cons]
      exact ih hmem
    · rw [feedLines_cons (by simpa using hends), flatten_growFirst]
      rcases List.mem_cons.1 hc with rfl | hc
      · exact List.mem_cons_self
      · exact List.mem_cons_of_mem _ (ih hc)

/-- Unicode lines are the lines at feeds only where no further boundary
    occurs: one that does is part of a line at feeds, and of no Unicode line. -/
theorem lines_eq_feedLines_iff {t : Text} : lines t = feedLines t ↔ Plain t := by
  refine ⟨fun h c hc => Bool.eq_false_iff.2 fun hfurther => ?_, lines_eq_feedLines_of_plain⟩
  simp only [CodePoint.isFurtherEnd, Bool.and_eq_true, Bool.not_eq_true'] at hfurther
  obtain ⟨hends, hkept⟩ := hfurther
  obtain ⟨l, hl, hcl⟩ := List.mem_flatten.1 (mem_flatten_feedLines hc hkept)
  rw [← h] at hl
  rw [not_ends_of_mem_linesAt hl hcl] at hends
  cases hends

/-- With every end written as a line feed, the boundaries beyond the feeds too,
    the lines at feeds are the Unicode lines. -/
theorem lines_eq_feedLines (t : Text) :
    lines t = feedLines (t.unifyLineEnds.map CodePoint.asFeed) := by
  have hreturn : CodePoint.endsLine '\r' = true := by decide
  have has : CodePoint.asFeed '\n' = '\n' := by decide
  unfold lines
  induction t using feedInduction with
  | nil => rfl
  | pair t ih =>
    rw [linesAt_pair hreturn, unifyLineEnds_pair, List.map_cons, has, feedLines_feed, ih]
  | lone t ht ih =>
    rw [linesAt_lone hreturn ht, unifyLineEnds_lone ht, List.map_cons, has, feedLines_feed, ih]
  | other c t hc ih =>
    rw [unifyLineEnds_cons hc, List.map_cons]
    by_cases hends : c.endsLine = true
    -- A further boundary becomes the line feed that is cut at on the right.
    · rw [CodePoint.asFeed, if_pos hends, linesAt_end hends hc, feedLines_feed, ih]
    · have hplain : c.endsLine = false := by simpa using hends
      have hkept : c.isFeed = false :=
        Bool.eq_false_iff.2 fun h => hends (CodePoint.endsLine_of_isFeed h)
      rw [CodePoint.asFeed, if_neg hends, linesAt_cons hplain, feedLines_cons hkept, ih]

theorem feedLines_ne_nil {t : Text} (h : t ≠ []) : feedLines t ≠ [] := by
  induction t using feedInduction with
  | nil => exact absurd rfl h
  | pair t => simp [feedLines_pair]
  | lone t ht => simp [feedLines_lone ht]
  | other c t hc =>
    by_cases hends : c.isFeed = true
    · simp [feedLines_end hends hc]
    · rw [feedLines_cons (by simpa using hends)]
      cases feedLines t with
      | nil => exact List.cons_ne_nil _ _
      | cons l ls => exact List.cons_ne_nil _ _

theorem growFirst_append {ls : List Text} (h : ls ≠ []) (c : CodePoint) (ls' : List Text) :
    growFirst c (ls ++ ls') = growFirst c ls ++ ls' := by
  cases ls with
  | nil => exact absurd rfl h
  | cons l ls => rfl

/-- Behind a line feed the lines start anew. -/
theorem feedLines_append_feed (t u : Text) :
    feedLines (t ++ CodePoint.ofChar '\n' :: u)
      = feedLines (t ++ [CodePoint.ofChar '\n']) ++ feedLines u := by
  induction t using feedInduction with
  | nil =>
    rw [List.nil_append, feedLines_feed, List.nil_append, feedLines_feed]
    rfl
  | pair t ih => simp only [List.cons_append, feedLines_pair, ih]
  | lone t ht ih =>
    cases t with
    | nil =>
      -- The line feed between the texts joins with the carriage return.
      simp only [List.cons_append, List.nil_append, feedLines_pair]
      rfl
    | cons d t =>
      have hlone : ∀ v : Text, feedLines (CodePoint.ofChar '\r' :: d :: t ++ v)
          = [] :: feedLines (d :: t ++ v) := fun v => feedLines_lone (by simpa using ht)
      rw [hlone, hlone, ih]
      rfl
  | other c t hc ih =>
    rw [List.cons_append, List.cons_append]
    by_cases hends : c.isFeed = true
    · rw [feedLines_end hends hc, feedLines_end hends hc, ih, List.cons_append]
    · have hkept : c.isFeed = false := by simpa using hends
      rw [feedLines_cons hkept, feedLines_cons hkept, ih,
        growFirst_append (feedLines_ne_nil (List.append_ne_nil_of_right_ne_nil t (by simp)))]

/-- One more feed ends the last line, or one more empty line. -/
theorem feedLines_concat_feed {e : CodePoint} (he : e.isFeed = true) (t : Text) :
    feedLines (t ++ [e]) = feedLines t ∨ feedLines (t ++ [e]) = feedLines t ++ [[]] := by
  have hlast : feedLines [e] = [[]] := by simp [feedLines, linesAt, he]
  induction t using feedInduction with
  | nil => exact .inr hlast
  | pair t ih =>
    simp only [List.cons_append, feedLines_pair, List.cons.injEq, true_and]
    exact ih
  | lone t ht ih =>
    cases t with
    | nil =>
      -- The one case that adds no line: the new feed completes a pair.
      by_cases hfeed : e = '\n'
      · subst hfeed
        exact .inl rfl
      · have hlone : ∀ d ∈ [e].head?, d ≠ '\n' := by simpa using hfeed
        rw [List.cons_append, List.nil_append, feedLines_lone hlone, hlast]
        exact .inr rfl
    | cons d t =>
      have hlone : feedLines (CodePoint.ofChar '\r' :: d :: t ++ [e])
          = [] :: feedLines (d :: t ++ [e]) := feedLines_lone (by simpa using ht)
      rw [hlone, feedLines_lone ht]
      simpa using ih
  | other c t hc ih =>
    rw [List.cons_append]
    by_cases hends : c.isFeed = true
    · rw [feedLines_end hends hc, feedLines_end hends hc]
      simpa using ih
    · have hkept : c.isFeed = false := by simpa using hends
      rw [feedLines_cons hkept, feedLines_cons hkept]
      by_cases ht : t = []
      · rw [ht, List.nil_append, hlast]
        exact .inl rfl
      · rcases ih with ih | ih
        · exact .inl (by rw [ih])
        · exact .inr (by rw [ih, growFirst_append (feedLines_ne_nil ht)])

theorem pieces_cons {sep c : CodePoint} (hc : c ≠ sep) (t : Text) :
    pieces sep (c :: t) = growFirst c (pieces sep t) := by
  rw [pieces, if_neg hc]
  cases pieces sep t <;> rfl

/-- The pieces between line ends are the lines of a text with one end more: a
    carriage return, which joins with nothing before it. -/
theorem pieces_unifyLineEnds (t : Text) :
    pieces '\n' t.unifyLineEnds = feedLines (t ++ [CodePoint.ofChar '\r']) := by
  induction t using feedInduction with
  | nil => rfl
  | pair t ih =>
    rw [unifyLineEnds_pair, pieces, if_pos rfl, List.cons_append, List.cons_append,
      feedLines_pair, ih]
  | lone t ht ih =>
    -- The added carriage return does not make a pair of the lone one.
    have hlone : ∀ d ∈ (t ++ [CodePoint.ofChar '\r']).head?, d ≠ '\n' := by
      cases t with
      | nil => decide
      | cons d t => simpa using ht
    rw [unifyLineEnds_lone ht, pieces, if_pos rfl, List.cons_append, feedLines_lone hlone, ih]
  | other c t hc ih =>
    rw [unifyLineEnds_cons hc, List.cons_append]
    by_cases hfeed : c = '\n'
    · rw [hfeed, pieces, if_pos rfl, feedLines_feed, ih]
    · have hkept : c.isFeed = false := by simp [CodePoint.isFeed, hfeed, hc]
      rw [pieces_cons hfeed, feedLines_cons hkept, ih]

end Text

end ArchiveCensus
