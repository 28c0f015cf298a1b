import ArchiveCensus.Proofs.Manifest
import ArchiveCensus.Proofs.Path

/-!
# Folded Headers

A long value is folded: its first piece stands on the header line and every
further piece on a continuation line of its own. Whoever folds cuts wherever a
line is full, so a cut may fall next to white space inside the value.

Reading trims what stands on the header line and takes continuation lines as
they are. White space behind a cut is therefore kept, and white space in front of
the first cut is lost; in front of any later cut it is kept as well. So a folded
value is read back exactly if the first piece does not end in white space, and
then the folding makes no difference to a manifest that holds the header, whatever
stands above and below it.

## Main definitions

* `Manifest.Header`: A name and a value that can be written on one line.
* `Manifest.Folding`: A value in pieces.
* `Manifest.Header.folded`: The lines of a folded header.

## Theorems

* `readHeaders_append`: Reading starts anew at a header line.
* `readHeaders_folded`: A folded header is read as its trimmed first piece with
  the others behind it.
* `parse_folded_iff`: Which foldings are read back.
-/

namespace ArchiveCensus

namespace Manifest

open Text

/-- A name and a value that can be written on one line and are not changed by
    trimming. -/
structure Header where
  name : Text
  value : Text
  name_ne_nil : name ≠ []
  name_tight : name.Tight
  name_free : ∀ c ∈ name, c ≠ ':' ∧ c.isFeed = false
  value_tight : value.Tight
  value_free : ∀ c ∈ value, c.isFeed = false

/-- A value in pieces, of which any may be empty. -/
structure Folding (value : Text) where
  first : Text
  more : List Text
  joined : first ++ more.flatten = value

/-- What is left of a folded value: white space at the end of its first piece is
    not. -/
def Folding.kept {value : Text} (f : Folding value) : Text :=
  f.first.trim ++ f.more.flatten

/-- The value is not cut behind white space, or not there first. -/
def Folding.Clean {value : Text} (f : Folding value) : Prop :=
  ∀ c ∈ f.first.getLast?, c.isBlank = false

namespace Header

variable (h : Header)

/-- The header line with so much of the value. -/
def lineWith (piece : Text) : Text :=
  h.name ++ CodePoint.ofChar ':' :: CodePoint.ofChar ' ' :: piece

/-- The header on one line. -/
def line : Text :=
  h.lineWith h.value

/-- The header line with the first piece and a continuation line for each
    further one. -/
def folded (f : Folding h.value) : List Text :=
  h.lineWith f.first :: f.more.map (CodePoint.ofChar ' ' :: ·)

end Header

/-- The content that lines make up. -/
def write (lines : List Text) : Text :=
  joinWith [CodePoint.ofChar '\n'] lines

/-! ## Lines -/

/-- Lines that are written are read, whatever texts stand around them. -/
theorem feedLines_write (above : List Text) {lines : List Text}
    (hfree : ∀ line ∈ lines, line ≠ [] ∧ ∀ c ∈ line, c.isFeed = false) (hne : lines ≠ [])
    (below : List Text) :
    feedLines (write (above ++ lines ++ below))
      = above.flatMap (fun t => feedLines (t ++ [CodePoint.ofChar '\n'])) ++ lines
        ++ feedLines (write below) := by
  have hlines : feedLines (write (lines ++ below)) = lines ++ feedLines (write below) := by
    clear hne
    induction lines with
    | nil => rfl
    | cons line lines ih =>
      obtain ⟨hline, hinline⟩ := hfree line List.mem_cons_self
      by_cases hlast : lines ++ below = []
      · obtain ⟨rfl, rfl⟩ := List.append_eq_nil_iff.1 hlast
        exact feedLines_of_forall_not hinline hline
      · rw [write, List.cons_append, joinWith_cons hlast, List.append_assoc, List.singleton_append,
          feedLines_first hinline, List.cons_append]
        exact congrArg (line :: ·)
          (ih fun other hother => hfree other (List.mem_cons_of_mem _ hother))
  have hrest : lines ++ below ≠ [] := List.append_ne_nil_of_left_ne_nil hne below
  -- What stands above may hold feeds of its own, so it is cut line by line.
  induction above with
  | nil => rw [List.nil_append, hlines, List.flatMap_nil, List.nil_append]
  | cons t above ih =>
    have hjoin : above ++ lines ++ below ≠ [] := by
      rw [List.append_assoc]
      exact List.append_ne_nil_of_right_ne_nil above hrest
    have hcons : write (t :: (above ++ lines ++ below))
        = t ++ CodePoint.ofChar '\n' :: write (above ++ lines ++ below) := by
      rw [write, joinWith_cons hjoin, List.append_assoc, List.singleton_append]
      rfl
    rw [List.cons_append, List.cons_append, hcons, feedLines_append_feed, ih, List.flatMap_cons]
    simp only [List.append_assoc]

/-- A block without empty lines lies in the section whole, or not at all if the
    section ends above it. -/
theorem upToBlank_block (above : List Text) {block : List Text} (hblock : ∀ line ∈ block, line ≠ [])
    (hne : block ≠ []) (below : List Text) :
    upToBlank (above ++ block ++ below)
      = if [] ∈ above.dropWhile (·.isEmpty) then upToBlank above
        else above.dropWhile (·.isEmpty) ++ block ++ below.takeWhile (!·.isEmpty) := by
  have hdrop : (above ++ block ++ below).dropWhile (·.isEmpty)
      = above.dropWhile (·.isEmpty) ++ (block ++ below) := by
    have hstop : (block ++ below).dropWhile (·.isEmpty) = block ++ below := by
      cases block with
      | nil => exact absurd rfl hne
      | cons line block =>
        have hline : line.isEmpty = false := by simpa using hblock line List.mem_cons_self
        rw [List.cons_append, List.dropWhile_cons_of_neg (by simp [hline])]
    rw [List.append_assoc, List.dropWhile_append, hstop]
    split
    · rename_i hempty
      rw [List.isEmpty_iff.1 hempty, List.nil_append]
    · rfl
  rw [upToBlank, hdrop]
  split
  · rename_i hmem
    rw [List.takeWhile_append, if_neg]
    · rfl
    · -- An empty line above the block is where the section ends.
      intro hlength
      rw [← (List.takeWhile_prefix _).eq_of_length hlength] at hmem
      exact absurd (List.mem_takeWhile_imp hmem) (by simp)
  · rename_i hmem
    have habove : ∀ line ∈ above.dropWhile (·.isEmpty), (!line.isEmpty) = true := by
      intro line hline
      cases line with
      | nil => exact absurd hline hmem
      | cons c line => rfl
    rw [List.takeWhile_append_of_pos habove,
      List.takeWhile_append_of_pos fun line hline => by simpa using hblock line hline,
      List.append_assoc]

/-! ## Reading -/

theorem span_append {lines : List Text}
    (hlines : ∀ line ∈ lines.head?, isContinuation line = false) (rest : List Text) :
    (rest ++ lines).takeWhile isContinuation = rest.takeWhile isContinuation ∧
      (rest ++ lines).dropWhile isContinuation = rest.dropWhile isContinuation ++ lines := by
  induction rest with
  | nil =>
    cases lines with
    | nil => exact ⟨rfl, rfl⟩
    | cons line lines => simp [hlines line rfl]
  | cons line rest ih =>
    by_cases hline : isContinuation line = true
    · simp [hline, ih]
    · simp [hline]

/-- Reading starts anew at a header line. -/
theorem readHeaders_append {lines : List Text}
    (hlines : ∀ line ∈ lines.head?, isContinuation line = false) (above : List Text)
    (attributes : Dictionary Text Text) :
    readHeaders attributes (above ++ lines)
      = (readHeaders attributes above).bind fun d => readHeaders d lines := by
  fun_induction readHeaders attributes above with
  | case1 attributes => rfl
  | case2 attributes line rest hline =>
    rw [List.cons_append, readHeaders, if_pos hline]
    rfl
  | case3 attributes line rest hline hheader =>
    rw [List.cons_append, readHeaders, if_neg hline, hheader]
    rfl
  | case4 attributes line rest hline name value hheader ih =>
    obtain ⟨htake, hdrop⟩ := span_append hlines rest
    rw [List.cons_append, readHeaders, if_neg hline, hheader]
    simp only [htake, hdrop, ih]

namespace Header

variable (h : Header)

theorem isContinuation_lineWith (piece : Text) : isContinuation (h.lineWith piece) = false := by
  obtain ⟨c, rest, hname⟩ := List.exists_cons_of_ne_nil h.name_ne_nil
  have hblank : c.isBlank = false := h.name_tight.head c (by rw [hname]; rfl)
  have hc : c ≠ ' ' := by
    rintro rfl
    exact absurd hblank (by decide)
  simp [isContinuation, lineWith, hname, hc]

theorem header?_lineWith (piece : Text) :
    header? (h.lineWith piece) = some (h.name, piece.trim) := by
  have hfirst : CodePoint.ofChar ':' ∉ h.name := fun hmem => (h.name_free _ hmem).1 rfl
  have hspace : CodePoint.isBlank ' ' = true := by decide
  rw [lineWith, header?_append hfirst, h.name_tight.isBlank_eq_false h.name_ne_nil,
    h.name_tight.trim_eq, trim_blank hspace]
  rfl

/-- A folded header gives its name the trimmed first piece, the other pieces
    behind it, and whatever continuation lines follow. -/
theorem readHeaders_folded (f : Folding h.value) (attributes : Dictionary Text Text)
    (below : List Text) :
    readHeaders attributes (h.folded f ++ below)
      = readHeaders (attributes.put h.name
          (unfolded f.kept (below.takeWhile isContinuation)))
        (below.dropWhile isContinuation) := by
  have hvalue : unfolded f.first.trim
      (f.more.map (CodePoint.ofChar ' ' :: ·) ++ below.takeWhile isContinuation)
        = unfolded f.kept (below.takeWhile isContinuation) := by
    rw [Folding.kept, ← unfolded_block, unfolded, List.flatMap_append, ← List.append_assoc]
    rfl
  rw [folded, List.cons_append, readHeaders, h.isContinuation_lineWith, if_neg (by simp),
    h.header?_lineWith]
  simp only [List.takeWhile_append_of_pos isContinuation_of_mem_block,
    List.dropWhile_append_of_pos isContinuation_of_mem_block, hvalue]

/-- The header without a cut. -/
def whole : Folding h.value :=
  ⟨h.value, [], by simp⟩

theorem folded_whole : h.folded h.whole = [h.line] := rfl

theorem free_folded (f : Folding h.value) :
    ∀ line ∈ h.folded f, line ≠ [] ∧ ∀ c ∈ line, c.isFeed = false := by
  have hcolon : CodePoint.isFeed ':' = false := by decide
  have hspace : CodePoint.isFeed ' ' = false := by decide
  have hvalue : ∀ c ∈ f.first ++ f.more.flatten, c.isFeed = false := by
    rw [f.joined]
    exact h.value_free
  intro line hline
  rcases List.mem_cons.1 hline with rfl | hline
  · refine ⟨List.append_ne_nil_of_left_ne_nil h.name_ne_nil _, fun c hc => ?_⟩
    rcases List.mem_append.1 hc with hc | hc
    · exact (h.name_free c hc).2
    · rcases List.mem_cons.1 hc with rfl | hc
      · exact hcolon
      · rcases List.mem_cons.1 hc with rfl | hc
        · exact hspace
        · exact hvalue c (List.mem_append.2 (.inl hc))
  · obtain ⟨piece, hpiece, rfl⟩ := List.mem_map.1 hline
    refine ⟨List.cons_ne_nil _ _, fun c hc => ?_⟩
    rcases List.mem_cons.1 hc with rfl | hc
    · exact hspace
    · exact hvalue c (List.mem_append.2 (.inr (List.mem_flatten.2 ⟨piece, hpiece, hc⟩)))

theorem kept_eq_iff (f : Folding h.value) : f.kept = h.value ↔ f.Clean := by
  have hhead : ∀ c ∈ f.first.head?, c.isBlank = false := by
    intro c hc
    refine h.value_tight.head c ?_
    rw [← f.joined, List.head?_append]
    exact Option.mem_def.2 (by rw [Option.mem_def.1 hc]; rfl)
  calc f.kept = h.value ↔ f.first.trim ++ f.more.flatten = f.first ++ f.more.flatten := by
        rw [f.joined]
        rfl
    _ ↔ f.first.trim = f.first := List.append_left_inj _
    _ ↔ f.Clean := trim_eq_self_iff hhead

/-- Where the folded header lies in the section, if it does. -/
theorem mainLines_write (f : Folding h.value) (above below : List Text) :
    let lines := above.flatMap fun t => feedLines (t ++ [CodePoint.ofChar '\n'])
    mainLines (write (above ++ h.folded f ++ below))
      = if [] ∈ lines.dropWhile (·.isEmpty) then upToBlank lines
        else lines.dropWhile (·.isEmpty)
          ++ (h.folded f ++ (feedLines (write below)).takeWhile (!·.isEmpty)) := by
  have hne : h.folded f ≠ [] := List.cons_ne_nil _ _
  rw [mainLines, feedLines_write above (h.free_folded f) hne,
    upToBlank_block _ (fun line hline => (h.free_folded f line hline).1) hne, List.append_assoc]

/-- Of two foldings with the same rest one may stand for the other in any
    manifest. -/
theorem parse_write_congr {f g : Folding h.value} (hkept : f.kept = g.kept)
    (above below : List Text) :
    parse (write (above ++ h.folded f ++ below)) =
      parse (write (above ++ h.folded g ++ below)) := by
  have hstart : ∀ (k : Folding h.value) (rest : List Text),
      ∀ line ∈ (h.folded k ++ rest).head?, isContinuation line = false := by
    intro k rest line hline
    obtain rfl : h.lineWith k.first = line := by simpa [folded] using hline
    exact h.isContinuation_lineWith k.first
  rw [parse, parse, mainSection_eq_mainLines, mainSection_eq_mainLines, mainLines_write,
    mainLines_write]
  split
  · rfl
  -- In the section, the two differ by the value that is put, and in nothing below.
  · rw [readHeaders_append (hstart f _), readHeaders_append (hstart g _)]
    simp only [readHeaders_folded, hkept]

/-- A folded header alone is read as one attribute. -/
theorem parse_write_folded (f : Folding h.value) :
    parse (write (h.folded f)) = .ok [(h.name, f.kept)] := by
  have hlines : mainLines (write (h.folded f)) = h.folded f := by
    have hwrite := h.mainLines_write f [] []
    simpa [write, joinWith, feedLines, linesAt] using hwrite
  have hread := h.readHeaders_folded f [] []
  rw [List.append_nil] at hread
  rw [parse, mainSection_eq_mainLines, hlines, hread]
  simp [readHeaders, unfolded, Dictionary.put]

end Header

/-- A folded header is read with its whole value exactly if the value is not cut
    behind white space first; otherwise that white space is lost. A header that
    is not folded is always read with its whole value, and one whose folding is
    clean may stand for it in any manifest. -/
theorem parse_folded_iff (h : Header) (f : Folding h.value) :
    (parse (write (h.folded f)) = .ok [(h.name, h.value)] ↔ f.Clean) ∧
      parse (write (h.folded f)) = .ok [(h.name, f.kept)] ∧
      parse (write [h.line]) = .ok [(h.name, h.value)] ∧
      (f.Clean → ∀ above below : List Text,
        parse (write (above ++ h.folded f ++ below))
          = parse (write (above ++ [h.line] ++ below))) := by
  have hwhole : h.whole.kept = h.value := (h.kept_eq_iff h.whole).2 h.value_tight.last
  refine ⟨?_, h.parse_write_folded f, ?_, fun hclean above below => ?_⟩
  · rw [h.parse_write_folded f, ← h.kept_eq_iff f]
    simp
  · rw [← h.folded_whole, h.parse_write_folded, hwhole]
  · rw [← h.folded_whole]
    exact h.parse_write_congr (((h.kept_eq_iff f).2 hclean).trans hwhole.symm) above below

/-- The value `a b`, cut behind the space. -/
theorem not_forall_folded :
    ¬∀ (h : Header) (f : Folding h.value),
      parse (write (h.folded f)) = .ok [(h.name, h.value)] := by
  intro hall
  let h : Header :=
    { name := Text.ofString "N"
      value := Text.ofString "a b"
      name_ne_nil := by decide
      name_tight := ⟨by decide, by decide⟩
      name_free := by decide
      value_tight := ⟨by decide, by decide⟩
      value_free := by decide }
  let f : Folding h.value := ⟨Text.ofString "a ", [Text.ofString "b"], by decide⟩
  have hread := hall h f
  rw [h.parse_write_folded f] at hread
  exact absurd hread (by decide)

end Manifest

end ArchiveCensus
