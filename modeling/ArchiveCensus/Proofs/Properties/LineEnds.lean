import ArchiveCensus.Proofs.Lines
import ArchiveCensus.Proofs.Properties.Spelling

/-!
# The Line Rule of Property Files

The format knows three line ends: a line feed, a carriage return, and a pair of
them. Reading splits a content at every Unicode line boundary instead, so a
boundary beyond the feeds ends a natural line where the format has an ordinary
code point, or in the case of the form feed white space.

Reading treats such a boundary exactly as a line feed. So the two readings agree
on every content without one, and none of these boundaries is harmless: the
smallest content with two pairs and one of them in between is read as two pairs
where the format has one.

## Main definitions

* `Properties.parseAtFeeds`: The properties of a content by the rule of the
  format.

## Theorems

* `parse_eq_parseAtFeeds`: Reading by the line rule, boundaries taken for line
  feeds.
* `parse_lineRule`: Where the two readings agree.
* `not_forall_lineRule`: They do not agree on all contents.
-/

namespace ArchiveCensus

namespace Properties

open Text

/-- The properties of a content whose natural lines end at feeds alone. -/
def parseAtFeeds (content : Text) : Dictionary Text Text :=
  ofLines content.feedLines

/-- A boundary beyond the feeds is read as a line feed. -/
theorem parse_eq_parseAtFeeds (content : Text) :
    parse content = parseAtFeeds (content.unifyLineEnds.map CodePoint.asFeed) := by
  rw [parse, parseAtFeeds, lines_eq_feedLines]

theorem parse_eq_parseAtFeeds_of_plain {content : Text} (h : Plain content) :
    parse content = parseAtFeeds content := by
  rw [parse, parseAtFeeds, lines_eq_feedLines_of_plain h]

theorem unescape_of_not_mem {t : Text} (h : backslash ∉ t) : unescape t = t := by
  induction t with
  | nil => simp [unescape]
  | cons c t ih =>
    rw [List.mem_cons, not_or] at h
    rw [unescape_cons (Ne.symm h.1), ih h.2]

/-- A line on which nothing is escaped splits at its mark. -/
theorem splitLine_mark {key value : Text} (hkey : ∀ d ∈ key, d ≠ backslash ∧ endsKey d = false)
    (hvalue : backslash ∉ value) (hhead : ∀ d ∈ value.head?, isSpace d = false) :
    splitLine (key ++ CodePoint.ofChar '=' :: value) = (key, value) := by
  have hends : endsKey '=' = true := by decide
  have hspace : isSpace '=' = false := by decide
  have hsplit : splitKey (key ++ CodePoint.ofChar '=' :: value)
      = (key, CodePoint.ofChar '=' :: value) := by
    induction key with
    | nil => rw [List.nil_append, splitKey_cons (ne_backslash_of_endsKey hends), if_pos hends]
    | cons d key ih =>
      obtain ⟨hd, hkept⟩ := hkey d (by simp)
      rw [List.cons_append, splitKey_cons hd, hkept, ih fun e he => hkey e (by simp [he])]
      rfl
  have hdrop : valueOf (CodePoint.ofChar '=' :: value) = value := by
    cases value with
    | nil => simp [valueOf, hspace]
    | cons d value => simp [valueOf, hspace, hhead d rfl]
  have hplain : backslash ∉ key := fun h => (hkey _ h).1 rfl
  simp only [splitLine, hsplit, hdrop, unescape_of_not_mem hplain, unescape_of_not_mem hvalue]

/-! ## No boundary is harmless -/

/-- Two pairs and what stands between them. -/
def twoPairs (between : CodePoint) : Text :=
  Text.ofString "a" ++ CodePoint.ofChar '=' :: (Text.ofString "1" ++ between :: Text.ofString "b=2")

theorem twoPairs_ne_nil (c : CodePoint) : twoPairs c ≠ [] :=
  List.append_ne_nil_of_right_ne_nil _ (List.cons_ne_nil _ _)

theorem mem_twoPairs {c d : CodePoint} (h : d ∈ twoPairs c) :
    d = c ∨ d ∈ Text.ofString "a=1b=2" := by
  have hall : Text.ofString "a=1b=2"
      = Text.ofString "a" ++ CodePoint.ofChar '=' :: (Text.ofString "1" ++ Text.ofString "b=2") := by
    decide
  rw [hall]
  simp only [twoPairs, List.mem_append, List.mem_cons] at h ⊢
  rcases h with h | h | h | h | h <;> simp [h]

theorem parse_twoPairs {c : CodePoint} (hc : c.isFurtherEnd = true) :
    parse (twoPairs c) = [(Text.ofString "a", Text.ofString "1"),
      (Text.ofString "b", Text.ofString "2")] := by
  have hfeed : (twoPairs c).unifyLineEnds.map CodePoint.asFeed = twoPairs '\n' := by
    have hval := CodePoint.isFurtherEnd_iff.1 hc
    have hall : ∀ n ∈ [0xB, 0xC, 0x1C, 0x1D, 0x1E, 0x85, 0x2028, 0x2029],
        (twoPairs (.ofNat n)).unifyLineEnds.map CodePoint.asFeed = twoPairs '\n' := by decide
    simpa using hall c.val hval
  -- With a line feed in its place it does not matter which boundary it was.
  have hlines : logicalLines (twoPairs '\n').feedLines
      = [Text.ofString "a" ++ CodePoint.ofChar '=' :: Text.ofString "1",
        Text.ofString "b" ++ CodePoint.ofChar '=' :: Text.ofString "2"] := by decide
  rw [parse_eq_parseAtFeeds, hfeed, parseAtFeeds, ofLines, hlines, List.map_cons, List.map_cons,
    splitLine_mark (by decide) (by decide) (by decide),
    splitLine_mark (by decide) (by decide) (by decide)]
  decide

theorem parseAtFeeds_twoPairs {c : CodePoint} (hc : c.isFurtherEnd = true) :
    parseAtFeeds (twoPairs c)
      = [(Text.ofString "a", Text.ofString "1" ++ c :: Text.ofString "b=2")] := by
  have hfeed : c.isFeed = false := by
    simp only [CodePoint.isFurtherEnd, Bool.and_eq_true, Bool.not_eq_true'] at hc
    exact hc.2
  have hne : c ≠ backslash := by
    rintro rfl
    exact absurd hc (by decide)
  -- One natural line that neither is a comment nor goes on: one logical line.
  have hline : (twoPairs c).feedLines = [twoPairs c] := by
    refine feedLines_of_forall_not (fun d hd => ?_) (twoPairs_ne_nil c)
    rcases mem_twoPairs hd with rfl | hd
    · exact hfeed
    · exact (by decide : ∀ d ∈ Text.ofString "a=1b=2", d.isFeed = false) d hd
  have hfirm : Firm (twoPairs c) := by
    intro d hd
    obtain rfl : CodePoint.ofChar 'a' = d := by simpa [twoPairs, Text.ofString] using hd
    decide
  have hplain : continues (twoPairs c) = false := by
    refine continues_of_not_mem fun h => ?_
    rcases mem_twoPairs h with h | h
    · exact hne h.symm
    · exact absurd h (by decide)
  have hvalue : backslash ∉ Text.ofString "1" ++ c :: Text.ofString "b=2" := by
    have hends : backslash ∉ Text.ofString "1" ++ Text.ofString "b=2" := by decide
    simp only [List.mem_append, List.mem_cons, not_or] at hends ⊢
    exact ⟨hends.1, Ne.symm hne, hends.2⟩
  rw [parseAtFeeds, ofLines, logicalLines, hline, joinLines_cons_of_firm (twoPairs_ne_nil c) hfirm,
    hplain, if_neg (by simp), joinLines, List.map_cons, List.map_nil, Option.getD_none,
    List.nil_append, twoPairs, splitLine_mark (by decide) hvalue ?_]
  · rfl
  · intro d hd
    obtain rfl : CodePoint.ofChar '1' = d := by simpa [Text.ofString] using hd
    decide

/-- Every content is read by the line rule of the format once its boundaries are
    written as line feeds. As it stands, it has the natural lines of the format
    exactly if each of its boundaries is a feed, and then the properties of the
    format too; and a code point may stand anywhere among feeds exactly if it is
    no boundary beyond them. -/
theorem parse_lineRule (content : Text) (c : CodePoint) :
    parse content = parseAtFeeds (content.unifyLineEnds.map CodePoint.asFeed) ∧
      (content.lines = content.feedLines ↔ Plain content) ∧
      (Plain content → parse content = parseAtFeeds content) ∧
      ((∀ before after : Text, Plain before → Plain after →
          parse (before ++ c :: after) = parseAtFeeds (before ++ c :: after)) ↔
        c.isFurtherEnd = false) := by
  refine ⟨parse_eq_parseAtFeeds content, lines_eq_feedLines_iff,
    fun h => parse_eq_parseAtFeeds_of_plain h, ?_, ?_⟩
  · intro hall
    refine Bool.eq_false_iff.2 fun hc => ?_
    have hsame : parse (twoPairs c) = parseAtFeeds (twoPairs c) := by
      have hbefore : Plain (Text.ofString "a=1") := by unfold Plain; decide
      have hafter : Plain (Text.ofString "b=2") := by unfold Plain; decide
      exact hall _ _ hbefore hafter
    rw [parse_twoPairs hc, parseAtFeeds_twoPairs hc] at hsame
    exact absurd (congrArg List.length hsame) (by simp)
  · intro hc before after hbefore hafter
    refine parse_eq_parseAtFeeds_of_plain fun d hd => ?_
    rcases List.mem_append.1 hd with hd | hd
    · exact hbefore d hd
    · rcases List.mem_cons.1 hd with rfl | hd
      · exact hc
      · exact hafter d hd

theorem not_forall_lineRule : ¬∀ content : Text, parse content = parseAtFeeds content := by
  intro h
  have hc : (CodePoint.ofNat 0x85).isFurtherEnd = true := by decide
  have hsame := h (twoPairs (.ofNat 0x85))
  rw [parse_twoPairs hc, parseAtFeeds_twoPairs hc] at hsame
  exact absurd (congrArg List.length hsame) (by decide)

end Properties

end ArchiveCensus
