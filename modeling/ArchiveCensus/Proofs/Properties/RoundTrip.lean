import ArchiveCensus.Proofs.Properties.Spelling

/-!
# Writing and Reading Property Files

Whatever is written is read back: the logical lines of a written content are
those of its pairs, each line splits at its own separator, and the escapes
resolve to the letters. So the properties of the content are its pairs, a
repeated key at its first place with its last value.

## Theorems

* `Draft.word`: A word is held without its turns.
* `Entry.drafted`: The natural lines of an entry hold its logical line.
* `Entry.splitLine_line`: The logical line of an entry splits into its pair.
* `joinLines_write`: The logical lines of a content are those of its entries.
* `parse_write`: The properties of a written content are its pairs.
-/

namespace ArchiveCensus

namespace Properties

open Text

/-! ## Words -/

theorem Gap.passed (g : Gap) : ∀ c ∈ g.ink, isSpace c = true ∧ c.endsLine = false := by
  intro c hc
  rcases g.blank c hc with rfl | rfl <;> decide

theorem Draft.turns {written said begun : Text} (h : Draft written said begun)
    (gaps : List Gap) : ∃ begun', Draft (written ++ gaps.flatMap Gap.turn) said begun' := by
  induction gaps generalizing written begun with
  | nil => exact ⟨begun, by simpa using h⟩
  | cons g gaps ih =>
    obtain ⟨begun', hdraft⟩ := ih (h.turn g.passed)
    exact ⟨begun', by simpa [Gap.turn] using hdraft⟩

theorem Draft.letter {written said begun : Text} (h : Draft written said begun) (l : Letter) :
    Draft (written ++ l.ink) (said ++ l.ink) (begun ++ l.ink) :=
  h.put l.spells.unbroken l.spells.paired (.inr l.spells.firm)

theorem Draft.others {written said begun : Text} (h : Draft written said begun)
    (hne : begun ≠ []) (others : List (List Gap × Letter)) :
    ∃ begun' ≠ [], Draft (written ++ others.flatMap fun o => o.1.flatMap Gap.turn ++ o.2.ink)
      (said ++ others.flatMap fun o => o.2.ink) begun' := by
  induction others generalizing written said begun with
  | nil => exact ⟨begun, hne, by simpa using h⟩
  | cons o others ih =>
    obtain ⟨before, hturns⟩ := h.turns o.1
    have hnext : before ++ o.2.ink ≠ [] := by simp [o.2.spells.ne_nil]
    obtain ⟨begun', hne', hdraft⟩ := ih (hturns.letter o.2) hnext
    exact ⟨begun', hne', by simpa using hdraft⟩

/-- The turns of a word are lost in reading and nothing else is. -/
theorem Draft.word {written said begun : Text} (h : Draft written said begun) (w : Word) :
    ∃ begun', (begun ≠ [] ∨ w ≠ .empty → begun' ≠ []) ∧
      Draft (written ++ w.ink) (said ++ w.said) begun' := by
  cases w with
  | empty => exact ⟨begun, by simp, by simpa [Word.ink, Word.said, Word.letters] using h⟩
  | spelled first others =>
    have hne : begun ++ first.ink ≠ [] := by simp [first.spells.ne_nil]
    obtain ⟨begun', hne', hdraft⟩ := (h.letter first).others hne others
    refine ⟨begun', fun _ => hne', ?_⟩
    simpa [Word.ink, Word.said, Word.letters, List.flatMap_map] using hdraft

/-! ## Entries -/

theorem dropWhile_gap (g : Gap) {t : Text} (h : ∀ c ∈ t.head?, isSpace c = false) :
    (g.ink ++ t).dropWhile isSpace = t := by
  rw [List.dropWhile_append_of_pos fun c hc => (g.passed c hc).1]
  cases t with
  | nil => rfl
  | cons c t => simp [h c rfl]

namespace Separator

theorem mark_spec : ∀ colon : Bool, (mark colon = '=' ∨ mark colon = ':') ∧
    endsKey (mark colon) = true ∧ (mark colon).endsLine = false := by
  decide

theorem firm_mark (colon : Bool) (t : Text) : Firm (mark colon :: t) := by
  intro c hc
  obtain rfl : mark colon = c := by simpa using hc
  cases colon <;> decide

theorem endsKey_ink (s : Separator) : ∀ c ∈ s.ink, endsKey c = true := by
  have hgap : ∀ g : Gap, ∀ c ∈ g.ink, endsKey c = true := by
    intro g c hc
    simp [endsKey, (g.passed c hc).1]
  intro c hc
  cases s with
  | spaced g ne => exact hgap g c hc
  | marked before colon after =>
    rcases List.mem_append.1 hc with hc | hc
    · exact hgap before c hc
    · rcases List.mem_cons.1 hc with rfl | hc
      · exact (mark_spec colon).2.1
      · exact hgap after c hc

theorem unbroken (s : Separator) : Unbroken s.ink := by
  intro c hc
  cases s with
  | spaced g ne => exact (g.passed c hc).2
  | marked before colon after =>
    rcases List.mem_append.1 hc with hc | hc
    · exact (before.passed c hc).2
    · rcases List.mem_cons.1 hc with rfl | hc
      · exact (mark_spec colon).2.2
      · exact (after.passed c hc).2

theorem paired (s : Separator) : continues s.ink = false :=
  continues_of_not_mem fun h => ne_backslash_of_endsKey (s.endsKey_ink _ h) rfl

theorem ink_ne_nil (s : Separator) : s.ink ≠ [] := by
  cases s with
  | marked before colon after => simp [ink]
  | spaced gap ne => exact ne

/-- Past the separator the value is read as it is written. -/
theorem valueOf_append (s : Separator) (w : Word) : valueOf (s.ink ++ w.said) = w.said := by
  cases s with
  | marked before colon after =>
    obtain ⟨hmark, _⟩ := mark_spec colon
    have hdrop : ((marked before colon after).ink ++ w.said).dropWhile isSpace
        = mark colon :: (after.ink ++ w.said) := by
      rw [ink, List.append_assoc]
      exact dropWhile_gap before fun c hc => (firm_mark colon _ c hc).1
    rw [valueOf, hdrop]
    simp only [if_pos hmark]
    exact dropWhile_gap after (w.isSpace_head)
  | spaced gap ne =>
    have hdrop : ((spaced gap ne).ink ++ w.said).dropWhile isSpace = w.said :=
      dropWhile_gap gap (w.isSpace_head)
    rw [valueOf, hdrop]
    cases hw : w.said with
    | nil => rfl
    | cons c rest =>
      have hkey : endsKey c = false := w.endsKey_head c (by simp [hw])
      have hmark : ¬(c = '=' ∨ c = ':') := by
        rintro (rfl | rfl) <;> exact absurd hkey (by decide)
      simp [hmark]

/-- The separator from its mark on. -/
def tight : Separator → Separator
  | marked _ colon after => marked ⟨[], by simp⟩ colon after
  | spaced gap ne => spaced gap ne

end Separator

namespace Entry

/-- The part of the separator that reading reaches: in front of an empty key
    there is only indentation. -/
def reached (e : Entry) : Separator :=
  match e.key with
  | .empty => e.separator.tight
  | .spelled _ _ => e.separator

/-- The logical line of an entry. -/
def line (e : Entry) : Text :=
  e.key.said ++ e.reached.ink ++ e.value.said

theorem splitLine_line (e : Entry) : splitLine e.line = (e.key.text, e.value.text) := by
  have hstop : ∀ c ∈ (e.reached.ink ++ e.value.said).head?, endsKey c = true := by
    intro c hc
    have hink : c ∈ e.reached.ink.head? := by
      simpa [List.head?_append, e.reached.ink_ne_nil] using hc
    exact e.reached.endsKey_ink c (List.mem_of_mem_head? hink)
  have hsplit : splitKey e.line = (e.key.said, e.reached.ink ++ e.value.said) := by
    rw [line, List.append_assoc]
    exact e.key.splitKey_said hstop
  simp only [splitLine, hsplit, e.reached.valueOf_append, Word.unescape_said]

/-- In front of an empty key indentation and white space before the separator
    are one. -/
theorem drafted_of_empty (e : Entry) (h : e.key = .empty) :
    ∃ begun ≠ [], Draft (e.indent.ink ++ e.key.ink ++ e.separator.ink)
      (e.key.said ++ e.reached.ink) begun := by
  obtain ⟨before, colon, after, hsep⟩ :
      ∃ before colon after, e.separator = .marked before colon after := by
    cases hs : e.separator with
    | marked before colon after => exact ⟨before, colon, after, rfl⟩
    | spaced gap ne => simpa [hs, Separator.isMarked] using e.apart h
  have hreached : e.reached = .marked ⟨[], by simp⟩ colon after := by
    simp [reached, h, hsep, Separator.tight]
  have hindent : ∀ c ∈ e.indent.ink ++ before.ink, isSpace c = true := by
    intro c hc
    rcases List.mem_append.1 hc with hc | hc
    · exact (e.indent.passed c hc).1
    · exact (before.passed c hc).1
  have hfirm : Firm e.reached.ink := by
    rw [hreached]
    exact Separator.firm_mark colon after.ink
  have hdraft := (Draft.start hindent).put e.reached.unbroken e.reached.paired (.inr hfirm)
  refine ⟨e.reached.ink, e.reached.ink_ne_nil, ?_⟩
  simpa [h, hsep, hreached, Word.ink, Word.said, Word.letters, Separator.ink] using hdraft

theorem drafted_of_ne_empty (e : Entry) (h : e.key ≠ .empty) :
    ∃ begun ≠ [], Draft (e.indent.ink ++ e.key.ink ++ e.separator.ink)
      (e.key.said ++ e.reached.ink) begun := by
  have hreached : e.reached = e.separator := by
    cases hk : e.key with
    | empty => exact absurd hk h
    | spelled first others => simp [reached, hk]
  obtain ⟨begun, hne, hdraft⟩ := (Draft.start fun c hc => (e.indent.passed c hc).1).word e.key
  have hbegun : begun ≠ [] := hne (.inr h)
  rw [hreached]
  refine ⟨begun ++ e.separator.ink, by simp [hbegun], ?_⟩
  exact hdraft.put e.separator.unbroken e.separator.paired (.inl hbegun)

/-- Reading the line of an entry, however it is broken, holds its logical
    line. -/
theorem drafted (e : Entry) : ∃ begun ≠ [], Draft e.ink e.line begun := by
  have hkey : ∃ begun ≠ [], Draft (e.indent.ink ++ e.key.ink ++ e.separator.ink)
      (e.key.said ++ e.reached.ink) begun := by
    by_cases h : e.key = .empty
    · exact e.drafted_of_empty h
    · exact e.drafted_of_ne_empty h
  obtain ⟨begun, hne, hdraft⟩ := hkey
  obtain ⟨begun', hne', hdraft'⟩ := hdraft.word e.value
  exact ⟨begun', hne' (.inl hne), hdraft'⟩

end Entry

/-! ## Contents -/

namespace Row

/-- The logical lines of a row. -/
def lines : Row → List Text
  | entry e => [e.line]
  | comment _ _ _ _ => []
  | blank _ _ => []

theorem joinLines_ink (r : Row) {rest : Text} (hrest : AtLineEnd rest) :
    joinLines none (Text.lines (r.ink ++ rest))
      = r.lines ++ joinLines none (Text.lines rest) := by
  cases r with
  | entry e =>
    obtain ⟨begun, hne, hdraft⟩ := e.drafted
    exact hdraft.finish hne hrest
  | comment indent bang text whole =>
    have hmark : isComment (commentMark bang :: text) = true := by
      cases bang <;> simp [isComment, commentMark]
    have hline : Unbroken (commentMark bang :: text) := by
      intro c hc
      rcases List.mem_cons.1 hc with rfl | hc
      · cases bang <;> decide
      · exact whole c hc
    rw [ink, List.append_assoc, joinLines_gap indent.passed, joinLines_comment hline hmark hrest]
    rfl
  | blank text white => exact joinLines_blank white rest

end Row

theorem joinLines_write (rows : List Row) :
    joinLines none (lines (write rows)) = rows.flatMap Row.lines := by
  induction rows with
  | nil => rfl
  | cons r rows ih =>
    cases rows with
    | nil =>
      have hend : AtLineEnd [] := by simp [AtLineEnd]
      have hrow := r.joinLines_ink hend
      simpa [write, joinWith, lines, linesAt, joinLines] using hrow
    | cons r' rows =>
      have hwrite : write (r :: r' :: rows)
          = r.ink ++ CodePoint.ofChar '\n' :: write (r' :: rows) := by
        simp [write, joinWith]
      have hend : AtLineEnd (CodePoint.ofChar '\n' :: write (r' :: rows)) := by
        simp [AtLineEnd]
      have hrow := r.joinLines_ink hend
      rw [← joinLines_tail hend, List.tail_cons, ih] at hrow
      rw [hwrite, hrow]
      rfl

theorem map_splitLine_lines (rows : List Row) :
    (rows.flatMap Row.lines).map splitLine = pairs rows := by
  induction rows with
  | nil => rfl
  | cons r rows ih =>
    rw [List.flatMap_cons, List.map_append, ih]
    cases r with
    | entry e => simp [Row.lines, Row.pair?, pairs, e.splitLine_line]
    | comment _ _ _ _ => rfl
    | blank _ _ => rfl

theorem parse_write (rows : List Row) :
    (parse (write rows)).keys = ((pairs rows).map Prod.fst).eraseDups ∧
      ∀ key, (parse (write rows)).get? key = (pairs rows).reverse.lookup key := by
  have hparse : parse (write rows) = .ofPairs (pairs rows) := by
    rw [parse, ofLines, logicalLines, joinLines_write, map_splitLine_lines]
  rw [hparse]
  exact ⟨Dictionary.keys_ofPairs _, Dictionary.get?_ofPairs _⟩

end Properties

end ArchiveCensus
