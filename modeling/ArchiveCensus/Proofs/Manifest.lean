import ArchiveCensus.Manifest
import ArchiveCensus.Proofs.Lines
import Mathlib.Data.List.TakeWhile

/-!
# The Grammar of Manifests

What a manifest says, apart from how it is read. The main section is a list of
lines; `Malformed` says when it cannot be read, and `Gives` what it gives for a
name, both by looking at the lines alone. Reading goes through the section once
and writes attributes over each other; here the header that counts is picked out
of the section, with all that stands above it and below it, so there is no
order of writing to speak of.

Between the two stands `entries`, which lists every header with its value. A
block of continuation lines belongs to the header directly above it, so it must
be cut off where it ends and no earlier: that is what the condition on the line
below the block says.

## Main definitions

* `Manifest.mainLines`: The lines of the main section.
* `Manifest.nameOn`: The name on a header line.
* `Manifest.Malformed`: A section that cannot be read.
* `Manifest.Gives`: The value that a section gives for a name.

## Theorems

* `mainSection_eq_mainLines`: The section that is read is the section at feeds.
* `mainLines_append_blank`: What follows an empty line is not in the section.
* `lookup_entries_iff`: The last entry of a name is what the section gives.
* `readHeaders_eq_ok`, `exists_readHeaders_eq_error`: Reading by the entries.
* `parse_grammar`: What becomes of a content.
-/

namespace ArchiveCensus

namespace Manifest

open Text

/-! ## The main section -/

/-- The lines before the first empty one, empty lines at the top left out. -/
def upToBlank (lines : List Text) : List Text :=
  (lines.dropWhile (·.isEmpty)).takeWhile (!·.isEmpty)

/-- The lines of the main section. -/
def mainLines (content : Text) : List Text :=
  upToBlank content.feedLines

theorem upToBlank_concat_nil (lines : List Text) :
    upToBlank (lines ++ [[]]) = upToBlank lines := by
  rw [upToBlank, upToBlank, List.dropWhile_append]
  split
  · -- Empty lines only: one more is dropped with them.
    rename_i h
    rw [List.isEmpty_iff.1 h]
    rfl
  · rw [List.takeWhile_append]
    split
    · rename_i h
      simp [(List.takeWhile_prefix _).eq_of_length h]
    · rfl

theorem upToBlank_append_blank {lines : List Text} (h : upToBlank lines ≠ []) (below : List Text) :
    upToBlank (lines ++ [] :: below) = upToBlank lines := by
  rw [upToBlank] at h
  rw [upToBlank, upToBlank, List.dropWhile_append]
  split
  · rename_i hempty
    rw [List.isEmpty_iff.1 hempty] at h
    exact absurd rfl h
  · rw [List.takeWhile_append]
    split
    · rename_i hall
      simp [(List.takeWhile_prefix _).eq_of_length hall]
    · rfl

theorem mainLines_concat_feed {e : CodePoint} (he : e.isFeed = true) (content : Text) :
    mainLines (content ++ [e]) = mainLines content := by
  unfold mainLines
  rcases feedLines_concat_feed he content with h | h
  · rw [h]
  · rw [h, upToBlank_concat_nil]

theorem mainSection_eq_mainLines (content : Text) : mainSection content = mainLines content := by
  have hreturn : CodePoint.isFeed '\r' = true := by decide
  rw [← mainLines_concat_feed hreturn, mainLines, ← pieces_unifyLineEnds]
  rfl

/-- What follows an empty line is not in the section. -/
theorem mainLines_append_blank {content : Text} (h : mainLines content ≠ []) (below : Text) :
    mainLines (content ++ CodePoint.ofChar '\n' :: CodePoint.ofChar '\n' :: below)
      = mainLines content := by
  have hfeed : CodePoint.isFeed '\n' = true := by decide
  rw [← mainLines_concat_feed hfeed content] at h ⊢
  rw [mainLines, feedLines_append_feed, feedLines_feed]
  exact upToBlank_append_blank h (feedLines below)

/-! ## What a section says -/

/-- What stands before the first colon of a line. -/
def beforeColon (line : Text) : Text :=
  line.takeWhile (· ≠ CodePoint.ofChar ':')

/-- The name on a header line. -/
def nameOn (line : Text) : Text :=
  (beforeColon line).trim

/-- A section that cannot be read: it starts with a continuation line, or a line
    of it is no continuation and has no colon or only white space before its
    first one. -/
inductive Malformed (lines : List Text) : Prop
  | orphan {rest : Text} {below : List Text}
      (eq : lines = (CodePoint.ofChar ' ' :: rest) :: below)
  | nameless {line : Text} (mem : line ∈ lines) (header : isContinuation line = false)
      (blank : CodePoint.ofChar ':' ∉ line ∨ (beforeColon line).isBlank = true)

/-- The value that a section gives for a name: that of the last header line with
    this name, and of all continuation lines directly below it. -/
inductive Gives (lines : List Text) (name value : Text) : Prop
  | header (above : List Text) (before after : Text) (more : List Text) (below : List Text)
      (eq : lines = above ++ (before ++ CodePoint.ofChar ':' :: after)
        :: (more.map (CodePoint.ofChar ' ' :: ·) ++ below))
      (starts : isContinuation (before ++ CodePoint.ofChar ':' :: after) = false)
      (first : CodePoint.ofChar ':' ∉ before)
      (named : before.trim = name)
      (whole : ∀ line ∈ below.head?, isContinuation line = false)
      (last : ∀ line ∈ below, isContinuation line = false → nameOn line ≠ name)
      (joined : after.trim ++ more.flatten = value)

theorem isContinuation_iff {line : Text} :
    isContinuation line = true ↔ ∃ rest, line = CodePoint.ofChar ' ' :: rest := by
  cases line with
  | nil => simp [isContinuation]
  | cons c rest => simp [isContinuation]

/-! ## Header lines -/

/-- The value on a header line, continuation lines left out. -/
def valueOn (line : Text) : Text :=
  let fromColon : Text := line.dropWhile (· ≠ CodePoint.ofChar ':')
  trim fromColon.tail

section Cut

variable {before : Text} (h : CodePoint.ofChar ':' ∉ before) (after : Text)
include h

theorem forall_ne_colon : ∀ c ∈ before, decide (c ≠ CodePoint.ofChar ':') = true := by
  intro c hc
  rw [decide_eq_true_eq]
  rintro rfl
  exact h hc

theorem beforeColon_append : beforeColon (before ++ CodePoint.ofChar ':' :: after) = before := by
  rw [beforeColon, List.takeWhile_append_of_pos (forall_ne_colon h)]
  simp

theorem valueOn_append : valueOn (before ++ CodePoint.ofChar ':' :: after) = after.trim := by
  rw [valueOn, List.dropWhile_append_of_pos (forall_ne_colon h)]
  simp

theorem header?_append :
    header? (before ++ CodePoint.ofChar ':' :: after)
      = if before.isBlank then none else some (before.trim, after.trim) := by
  rw [header?, cutAt?_append_cons h]

end Cut

theorem header?_eq_none_iff {line : Text} :
    header? line = none ↔ CodePoint.ofChar ':' ∉ line ∨ (beforeColon line).isBlank = true := by
  by_cases hmem : CodePoint.ofChar ':' ∈ line
  · obtain ⟨before, after, rfl, hbefore⟩ := List.eq_append_cons_of_mem hmem
    rw [header?_append hbefore, beforeColon_append hbefore]
    simp
  · rw [header?, cutAt?_eq_none_iff.2 hmem]
    simp [hmem]

theorem eq_of_header? {line name value : Text} (h : header? line = some (name, value)) :
    name = nameOn line ∧ value = valueOn line := by
  have hmem : CodePoint.ofChar ':' ∈ line := by
    by_cases hmem : CodePoint.ofChar ':' ∈ line
    · exact hmem
    · rw [header?_eq_none_iff.2 (.inl hmem)] at h
      cases h
  obtain ⟨before, after, rfl, hbefore⟩ := List.eq_append_cons_of_mem hmem
  rw [header?_append hbefore] at h
  rw [nameOn, beforeColon_append hbefore, valueOn_append hbefore]
  split at h
  · cases h
  · cases h
    exact ⟨rfl, rfl⟩

/-! ## Entries -/

/-- Every header line of a section with its name and its value. -/
def entries : List Text → List (Text × Text)
  | [] => []
  | line :: rest =>
    if isContinuation line then entries rest
    else (nameOn line, unfolded (valueOn line) (rest.takeWhile isContinuation)) :: entries rest

theorem entries_dropWhile (lines : List Text) :
    entries (lines.dropWhile isContinuation) = entries lines := by
  induction lines with
  | nil => rfl
  | cons line rest ih =>
    by_cases hline : isContinuation line = true
    · rw [List.dropWhile_cons_of_pos hline, ih, entries, if_pos hline]
    · rw [List.dropWhile_cons_of_neg hline]

theorem map_fst_entries (lines : List Text) :
    (entries lines).map Prod.fst = (lines.filter (!isContinuation ·)).map nameOn := by
  induction lines with
  | nil => rfl
  | cons line rest ih =>
    by_cases hline : isContinuation line = true
    · rw [entries, if_pos hline, ih, List.filter_cons_of_neg (by simpa using hline)]
    · rw [entries, if_neg hline, List.map_cons, ih, List.filter_cons_of_pos (by simpa using hline)]
      rfl

/-- A block of continuation lines is written as a space and a piece each. -/
theorem map_space_tail {block : List Text} (h : ∀ line ∈ block, isContinuation line = true) :
    (block.map List.tail).map (CodePoint.ofChar ' ' :: ·) = block := by
  rw [List.map_map]
  refine (List.map_congr_left fun line hline => ?_).trans (List.map_id block)
  obtain ⟨rest, rfl⟩ := isContinuation_iff.1 (h line hline)
  rfl

theorem unfolded_block (value : Text) (more : List Text) :
    unfolded value (more.map (CodePoint.ofChar ' ' :: ·)) = value ++ more.flatten := by
  rw [unfolded, List.flatMap_map, List.flatMap_def]
  exact congrArg (value ++ List.flatten ·) (List.map_id more)

theorem isContinuation_of_mem_block {more : List Text} :
    ∀ line ∈ more.map (CodePoint.ofChar ' ' :: ·), isContinuation line = true := by
  intro line hline
  obtain ⟨rest, _, rfl⟩ := List.mem_map.1 hline
  exact isContinuation_iff.2 ⟨rest, rfl⟩

theorem takeWhile_block {more below : List Text}
    (whole : ∀ line ∈ below.head?, isContinuation line = false) :
    (more.map (CodePoint.ofChar ' ' :: ·) ++ below).takeWhile isContinuation
      = more.map (CodePoint.ofChar ' ' :: ·) := by
  rw [List.takeWhile_append_of_pos isContinuation_of_mem_block]
  cases below with
  | nil => simp
  | cons line below => simp [whole line rfl]

theorem lookup_entries_eq_none_iff {lines : List Text} {name : Text} :
    (entries lines).reverse.lookup name = none ↔
      ∀ line ∈ lines, isContinuation line = false → nameOn line ≠ name := by
  have hnames : (entries lines).reverse.lookup name = none ↔
      name ∉ (entries lines).map Prod.fst := by
    rw [List.lookup_eq_none_iff]
    constructor
    · intro h hmem
      obtain ⟨p, hp, hname⟩ := List.mem_map.1 hmem
      have hne := h p (List.mem_reverse.2 hp)
      rw [hname, bne_self_eq_false] at hne
      cases hne
    · intro h p hp
      rw [bne_iff_ne]
      rintro rfl
      exact h (List.mem_map.2 ⟨p, List.mem_reverse.1 hp, rfl⟩)
  rw [hnames, map_fst_entries]
  simp only [List.mem_map, List.mem_filter, Bool.not_eq_true', not_exists, not_and, and_imp, ne_eq]

theorem isContinuation_of_head? (lines : List Text) :
    ∀ line ∈ (lines.dropWhile isContinuation).head?, isContinuation line = false := by
  intro line hline
  have := List.head?_dropWhile_not isContinuation lines
  rw [Option.mem_def.1 hline] at this
  exact this

/-- A continuation line at the top belongs to no header below it. -/
theorem gives_cons_of_continuation {line name value : Text} {rest : List Text}
    (hline : isContinuation line = true) :
    Gives (line :: rest) name value ↔ Gives rest name value := by
  constructor
  · rintro ⟨above, before, after, more, below, eq, starts, first, named, whole, last, joined⟩
    cases above with
    | nil =>
      obtain ⟨rfl, _⟩ := List.cons.inj eq
      rw [hline] at starts
      cases starts
    | cons top above =>
      obtain ⟨_, rfl⟩ := List.cons.inj eq
      exact ⟨above, before, after, more, below, rfl, starts, first, named, whole, last, joined⟩
  · rintro ⟨above, before, after, more, below, rfl, starts, first, named, whole, last, joined⟩
    exact ⟨line :: above, before, after, more, below, rfl, starts, first, named, whole, last,
      joined⟩

/-- The first line of a section gives a value for its name if no header below has
    this name; what it gives is its own value. -/
theorem gives_cons_iff {line name value : Text} {rest : List Text}
    (hline : isContinuation line = false) (hcolon : CodePoint.ofChar ':' ∈ line) :
    Gives (line :: rest) name value ↔ Gives rest name value ∨
      (∀ other ∈ rest, isContinuation other = false → nameOn other ≠ name) ∧
        nameOn line = name ∧ unfolded (valueOn line) (rest.takeWhile isContinuation) = value := by
  constructor
  · rintro ⟨above, before, after, more, below, eq, starts, first, named, whole, last, joined⟩
    cases above with
    | nil =>
      -- The header that counts is the first line: its block is cut off below it.
      obtain ⟨rfl, rfl⟩ := List.cons.inj eq
      refine .inr ⟨fun other hother hstart => ?_, ?_, ?_⟩
      · rcases List.mem_append.1 hother with hmore | hbelow
        · rw [isContinuation_of_mem_block other hmore] at hstart
          cases hstart
        · exact last other hbelow hstart
      · rw [nameOn, beforeColon_append first, named]
      · rw [valueOn_append first, takeWhile_block whole, unfolded_block, joined]
    | cons top above =>
      obtain ⟨rfl, rfl⟩ := List.cons.inj eq
      exact .inl ⟨above, before, after, more, below, rfl, starts, first, named, whole, last, joined⟩
  · rintro (⟨above, before, after, more, below, eq, starts, first, named, whole, last, joined⟩ |
      ⟨hlast, hname, hvalue⟩)
    · exact ⟨line :: above, before, after, more, below, by rw [eq]; rfl, starts, first, named, whole,
        last, joined⟩
    · obtain ⟨before, after, rfl, hbefore⟩ := List.eq_append_cons_of_mem hcolon
      have hblock : (((rest.takeWhile isContinuation).map List.tail).map (CodePoint.ofChar ' ' :: ·))
          = rest.takeWhile isContinuation :=
        map_space_tail fun _ hother => List.mem_takeWhile_imp hother
      refine ⟨[], before, after, (rest.takeWhile isContinuation).map List.tail,
        rest.dropWhile isContinuation, ?_, hline, hbefore, ?_, ?_, ?_, ?_⟩
      · rw [hblock, List.takeWhile_append_dropWhile]
        rfl
      · rw [← hname, nameOn, beforeColon_append hbefore]
      · exact isContinuation_of_head? rest
      · exact fun other hother => hlast other ((List.dropWhile_sublist _).mem hother)
      · rw [← hvalue, valueOn_append hbefore, unfolded, List.flatMap_def]

theorem lookup_singleton_iff {k v key value : Text} :
    [(k, v)].lookup key = some value ↔ k = key ∧ v = value := by
  by_cases h : k = key
  · simp [h]
  · have hne : (key == k) = false := by simpa using Ne.symm h
    simp [List.lookup_cons, h, hne]

/-- The last entry of a name is what the section gives. -/
theorem lookup_entries_iff {lines : List Text} {name value : Text}
    (h : ∀ line ∈ lines, isContinuation line = false → CodePoint.ofChar ':' ∈ line) :
    (entries lines).reverse.lookup name = some value ↔ Gives lines name value := by
  induction lines with
  | nil =>
    constructor
    · intro hnone
      cases hnone
    · rintro ⟨above, _, _, _, _, eq, _⟩
      exact absurd eq.symm (List.append_ne_nil_of_right_ne_nil above (List.cons_ne_nil _ _))
  | cons line rest ih =>
    have ih := ih fun other hother => h other (List.mem_cons_of_mem _ hother)
    by_cases hline : isContinuation line = true
    · rw [entries, if_pos hline, ih, gives_cons_of_continuation hline]
    · have hstart : isContinuation line = false := by simpa using hline
      rw [entries, if_neg hline, List.reverse_cons, List.lookup_append, Option.or_eq_some_iff, ih,
        lookup_entries_eq_none_iff, lookup_singleton_iff,
        gives_cons_iff hstart (h line List.mem_cons_self hstart)]

/-! ## Reading -/

theorem malformed_cons_iff {line : Text} {rest : List Text} (hline : isContinuation line = false) :
    Malformed (line :: rest) ↔
      header? line = none ∨ Malformed (rest.dropWhile isContinuation) := by
  constructor
  · intro h
    cases h with
    | orphan eq =>
      obtain ⟨rfl, _⟩ := List.cons.inj eq
      rw [isContinuation_iff.2 ⟨_, rfl⟩] at hline
      cases hline
    | @nameless other mem header blank =>
      rcases List.mem_cons.1 mem with rfl | mem
      · exact .inl (header?_eq_none_iff.2 blank)
      -- A nameless line is no continuation, so it stands below the block.
      · refine .inr (.nameless ?_ header blank)
        rw [← List.takeWhile_append_dropWhile (p := isContinuation) (l := rest)] at mem
        rcases List.mem_append.1 mem with mem | mem
        · rw [List.mem_takeWhile_imp mem] at header
          cases header
        · exact mem
  · rintro (h | h)
    · exact .nameless List.mem_cons_self hline (header?_eq_none_iff.1 h)
    · cases h with
      | @orphan other below eq =>
        have hhead := isContinuation_of_head? rest
        rw [eq] at hhead
        have := hhead _ rfl
        rw [isContinuation_iff.2 ⟨_, rfl⟩] at this
        cases this
      | nameless mem header blank =>
        exact .nameless (List.mem_cons_of_mem _ ((List.dropWhile_sublist _).mem mem)) header blank

theorem exists_readHeaders_eq_error {lines : List Text} (h : Malformed lines)
    (attributes : Dictionary Text Text) : ∃ fault, readHeaders attributes lines = .error fault := by
  fun_induction readHeaders attributes lines with
  | case1 attributes =>
    cases h with
    | orphan eq => cases eq
    | nameless mem => cases mem
  -- The two faults end the reading; otherwise the fault is below the block.
  | case2 attributes line rest hline => exact ⟨_, rfl⟩
  | case3 attributes line rest hline hheader => exact ⟨_, rfl⟩
  | case4 attributes line rest hline name value hheader ih =>
    refine ih (((malformed_cons_iff (by simpa using hline)).1 h).resolve_left ?_)
    rw [hheader]
    exact Option.some_ne_none _

theorem readHeaders_eq_ok {lines : List Text} (h : ¬Malformed lines)
    (attributes : Dictionary Text Text) :
    readHeaders attributes lines
      = .ok ((entries lines).foldl (fun d p => d.put p.1 p.2) attributes) := by
  fun_induction readHeaders attributes lines with
  | case1 attributes => rfl
  | case2 attributes line rest hline =>
    obtain ⟨other, rfl⟩ := isContinuation_iff.1 hline
    exact absurd (.orphan rfl) h
  | case3 attributes line rest hline hheader =>
    exact absurd (.nameless List.mem_cons_self (by simpa using hline)
      (header?_eq_none_iff.1 hheader)) h
  | case4 attributes line rest hline name value hheader ih =>
    have hstart : isContinuation line = false := by simpa using hline
    obtain ⟨rfl, rfl⟩ := eq_of_header? hheader
    rw [ih fun hrest => h ((malformed_cons_iff hstart).2 (.inr hrest)), entries_dropWhile, entries,
      if_neg hline, List.foldl_cons]

theorem colon_mem_of_not_malformed {lines : List Text} (h : ¬Malformed lines) :
    ∀ line ∈ lines, isContinuation line = false → CodePoint.ofChar ':' ∈ line := by
  intro line hline hstart
  by_cases hmem : CodePoint.ofChar ':' ∈ line
  · exact hmem
  · exact absurd (.nameless hline hstart (.inl hmem)) h

/-- A content fails exactly if its main section is malformed. Otherwise it has
    an attribute for each name on a header line, in the order in which the names
    come first, and each has the value that the section gives. What is not in
    the section makes no difference. -/
theorem parse_grammar (content : Text) :
    ((∃ fault, parse content = .error fault) ↔ Malformed (mainLines content)) ∧
      (¬Malformed (mainLines content) → ∃ attributes, parse content = .ok attributes ∧
        attributes.keys
          = (((mainLines content).filter (!isContinuation ·)).map nameOn).eraseDups ∧
        ∀ name value, attributes.get? name = some value ↔ Gives (mainLines content) name value) ∧
      (∀ other, mainLines other = mainLines content → parse other = parse content) ∧
      (mainLines content ≠ [] → ∀ below : Text,
        parse (content ++ CodePoint.ofChar '\n' :: CodePoint.ofChar '\n' :: below)
          = parse content) := by
  have hparse : ∀ t, parse t = readHeaders [] (mainLines t) := fun t => by
    rw [parse, mainSection_eq_mainLines]
  have hok : ¬Malformed (mainLines content) →
      parse content = .ok (.ofPairs (entries (mainLines content))) := fun h => by
    rw [hparse, readHeaders_eq_ok h]
    rfl
  refine ⟨⟨fun ⟨fault, hfault⟩ => ?_, fun h => ?_⟩, fun h => ?_, fun other h => ?_,
    fun h below => ?_⟩
  · by_contra h
    rw [hok h] at hfault
    cases hfault
  · rw [hparse]
    exact exists_readHeaders_eq_error h []
  · refine ⟨_, hok h, ?_, fun name value => ?_⟩
    · rw [Dictionary.keys_ofPairs, map_fst_entries]
    · rw [Dictionary.get?_ofPairs]
      exact lookup_entries_iff (colon_mem_of_not_malformed h)
  · rw [hparse, hparse, h]
  · rw [hparse, hparse, mainLines_append_blank h]

end Manifest

end ArchiveCensus
