import ArchiveCensus.Proofs.Inspection.Scratch
import Mathlib.Data.List.Find

/-!
# How Scratch Directories Are Named

The system makes up the names of scratch directories. All of them lie in one place,
and behind a beginning that is always the same each has a key of its own, made of
small letters, digits and underscores.

Scope and directness are guessed from marks, which are looked for in the whole path and
so in the name of the directory too. A mark of one component cannot tell one key from
another. It begins with a slash and has no other but at its end, so what it finds lies
in front of the name, or behind it, or begins with the name. Only in the last case is
the key looked at, and this one does not come up if the mark and the common beginning
disagree. The marks that are built in are all of this kind, as `skips_builtIn` says.

The marks are looked for in lower case. Whether a sigma ends a word is a matter of the
code points around it, but never of those on the other side of a slash, so each
component has its lower case for itself.

## Main definitions

* `Inspector.Skips`: A mark that looks at no key.
* `Inspector.KeepsIn`: The directories are named by the system, in one place.

## Theorems

* `Text.lower_append_slash`: Lower case is taken between slashes.
* `Text.infix_append_cons_iff`: Where a mark of one component is found.
* `Inspector.blind_of_skips`: Such marks make no difference between directories.
* `Inspector.blind_builtIn`: So all that is built in is blind to them.
-/

namespace ArchiveCensus

theorem Span.covers_eq_false {table : Array Span} {c : CodePoint}
    (h : ∀ s ∈ table.toList, ¬(s.first ≤ c.val ∧ c.val ≤ s.last)) : covers table c = false := by
  rw [covers, Array.any_eq_false]
  intro n hn
  simpa only [Bool.and_eq_true, decide_eq_true_eq] using h _ (Array.getElem_mem_toList hn)

namespace Text

/-- In the table of small letters nothing comes in front of the capital ones, and
    nothing between them and the point after the small ones. -/
theorem lowerPoint_eq_self {c : CodePoint} (h : c.val ≤ 0x7A) (hc : c.isUpperLetter = false) :
    lowerPoint c = [c] := by
  have htable : ∀ s ∈ CaseTable.lowerShifts.toList,
      0x7A < s.first ∨ 0x41 ≤ s.first ∧ s.last ≤ 0x5A := by
    decide +kernel
  have hnone : Shift.image? CaseTable.lowerShifts c = none := by
    rw [Shift.image?, Option.map_eq_none_iff, Array.find?_eq_none]
    intro s hs
    have hplace := htable s (Array.mem_toList_iff.mpr hs)
    simp only [CodePoint.isUpperLetter, Bool.and_eq_false_iff, decide_eq_false_iff_not] at hc
    simp only [Bool.and_eq_true, decide_eq_true_eq]
    omega
  rw [lowerPoint, if_neg (by omega), hnone]
  rfl

/-- A text without capital letters, as far as the small ones go, is in lower case. -/
theorem lower_eq_self {t : Text} (h : ∀ c ∈ t, c.val ≤ 0x7A ∧ c.isUpperLetter = false) :
    lower t = t := by
  have hfrom : ∀ before, lowerFrom before t = t := by
    induction t with
    | nil => exact fun _ => rfl
    | cons c cs ih =>
        intro before
        have hc := h c List.mem_cons_self
        have hsigma : c.val ≠ 0x3A3 := by omega
        rw [lowerFrom, if_neg hsigma, lowerPoint_eq_self hc.1 hc.2,
          ih fun d hd => h d (List.mem_cons_of_mem c hd)]
        rfl
  exact hfrom []

theorem nextIsCased_append_slash (a b : Text) :
    nextIsCased (a ++ CodePoint.ofChar '/' :: b) = nextIsCased a := by
  have hkept : Span.covers CaseTable.caseIgnorableSpans (CodePoint.ofChar '/') = false :=
    Span.covers_eq_false (by decide +kernel)
  have hcased : Span.covers CaseTable.casedSpans (CodePoint.ofChar '/') = false :=
    Span.covers_eq_false (by decide +kernel)
  rw [← Bool.not_eq_true] at hkept
  unfold nextIsCased
  induction a with
  | nil =>
      rw [List.nil_append, List.dropWhile_cons_of_neg hkept]
      exact hcased
  | cons c cs ih =>
      by_cases hc : Span.covers CaseTable.caseIgnorableSpans c = true
      · rw [List.cons_append, List.dropWhile_cons_of_pos hc, List.dropWhile_cons_of_pos hc]
        exact ih
      · rw [List.cons_append, List.dropWhile_cons_of_neg hc, List.dropWhile_cons_of_neg hc]

theorem lowerFrom_append_slash (x y t : Text) :
    lowerFrom (x ++ CodePoint.ofChar '/' :: y) t = lowerFrom x t := by
  induction t generalizing x with
  | nil => rfl
  | cons c cs ih =>
      have hrest := ih (c :: x)
      rw [List.cons_append] at hrest
      rw [lowerFrom, lowerFrom, nextIsCased_append_slash, hrest]

theorem lowerFrom_append (before a b : Text) :
    lowerFrom before (a ++ CodePoint.ofChar '/' :: b) =
      lowerFrom before a ++ CodePoint.ofChar '/' :: lower b := by
  induction a generalizing before with
  | nil =>
      have himage : lowerPoint (CodePoint.ofChar '/') = [CodePoint.ofChar '/'] :=
        lowerPoint_eq_self (by decide) (by decide)
      have hstep : lowerFrom before (CodePoint.ofChar '/' :: b) =
          lowerPoint (CodePoint.ofChar '/') ++ lowerFrom (CodePoint.ofChar '/' :: before) b := rfl
      rw [List.nil_append, hstep, himage, ← List.nil_append (CodePoint.ofChar '/' :: before),
        lowerFrom_append_slash]
      rfl
  | cons c cs ih =>
      rw [List.cons_append, lowerFrom, lowerFrom, nextIsCased_append_slash, ih,
        List.append_assoc]

/-- Lower case is taken between slashes. -/
theorem lower_append_slash (a b : Text) :
    lower (a ++ CodePoint.ofChar '/' :: b) = lower a ++ CodePoint.ofChar '/' :: lower b :=
  lowerFrom_append [] a b

variable {rest a b name : Text} {s : CodePoint}

/-- Nothing but its last code point gets a text to the other side of a separator. -/
theorem prefix_append_cons_iff (h : s ∉ rest.dropLast) :
    rest <+: a ++ s :: b ↔ rest <+: a ++ [s] := by
  constructor
  · intro hstart
    have hboth : a ++ [s] <+: a ++ s :: b := ⟨b, by rw [List.append_assoc, List.singleton_append]⟩
    rcases List.prefix_or_prefix_of_prefix hstart hboth with hshort | ⟨more, rfl⟩
    · exact hshort
    · -- If it went on, the separator would not be the last one.
      by_cases hmore : more = []
      · subst hmore
        exact ⟨[], by rw [List.append_nil, List.append_nil]⟩
      · rw [List.dropLast_append_of_ne_nil hmore] at h
        exact absurd (List.mem_append_left _ (List.mem_append_right _ List.mem_cons_self)) h
  · exact fun hstart => hstart.trans ⟨b, by rw [List.append_assoc, List.singleton_append]⟩

theorem infix_append_iff_of_not_mem (h : s ∉ name) :
    s :: rest <:+: name ++ b ↔ s :: rest <:+: b := by
  induction name with
  | nil => rfl
  | cons c cs ih =>
      rw [List.mem_cons, not_or] at h
      rw [List.cons_append, List.infix_cons_iff, ih h.2, List.cons_prefix_cons]
      exact or_iff_right fun hstart => h.1 hstart.1

/-- A text with separators only at its ends is found in front of a name or behind it,
    unless it begins with the name. -/
theorem infix_append_cons_iff (hrest : s ∉ rest.dropLast) (hname : s ∉ name)
    (hapart : ¬ rest <+: name ++ s :: b) :
    s :: rest <:+: a ++ s :: (name ++ s :: b) ↔
      s :: rest <:+: a ++ [s] ∨ s :: rest <:+: s :: b := by
  induction a with
  | nil =>
      have hne : rest ≠ [] := fun h => hapart (h ▸ List.nil_prefix)
      rw [List.nil_append, List.infix_cons_iff, infix_append_iff_of_not_mem hname,
        List.cons_prefix_cons, List.nil_append]
      have hsingle : ¬ s :: rest <:+: [s] := fun h =>
        hne (List.eq_nil_of_length_eq_zero (by simpa using h.length_le))
      simp only [hapart, and_false, false_or, hsingle]
  | cons c cs ih =>
      have hfront : s :: rest <:+: c :: (cs ++ [s]) ↔
          s :: rest <+: c :: (cs ++ [s]) ∨ s :: rest <:+: cs ++ [s] := List.infix_cons_iff
      rw [List.cons_append, List.cons_append, List.infix_cons_iff, ih, hfront,
        List.cons_prefix_cons, List.cons_prefix_cons, prefix_append_cons_iff hrest, or_assoc]

end Text

namespace Path

/-- A path that is two components longer has those at the end of its writing. -/
theorem exists_toText_child_child {p : Path} (hp : p.IsAbsolute) :
    ∃ front : Text, ∀ c d : Text, ((p.child c).child d).toText =
      front ++ CodePoint.ofChar '/' :: (c ++ CodePoint.ofChar '/' :: d) := by
  have hwriting : ∀ c d : Text, ((p.child c).child d).toText =
      p.anchor.slashes ++ Text.joinWith "/" (p.parts ++ [c, d]) := by
    intro c d
    have hne : (p.child c).child d ≠ current := fun h => hp (congrArg Path.anchor h)
    rw [toText_eq hne]
    exact congrArg (p.anchor.slashes ++ Text.joinWith "/" ·) (List.append_assoc p.parts [c] [d])
  have htwo : ∀ c d : Text, Text.joinWith "/" [c, d] = c ++ CodePoint.ofChar '/' :: d :=
    fun c d => List.append_assoc c "/" d
  by_cases hparts : p.parts = []
  · -- The slash in front of the two is the last one of those that the path starts with.
    have hslashes : ∃ front : Text, p.anchor.slashes = front ++ [CodePoint.ofChar '/'] := by
      cases ha : p.anchor with
      | here => exact absurd ha hp
      | root => exact ⟨[], rfl⟩
      | doubleRoot => exact ⟨"/", rfl⟩
    rcases hslashes with ⟨front, hfront⟩
    refine ⟨front, fun c d => ?_⟩
    rw [hwriting, hparts, hfront, List.nil_append, htwo, List.append_assoc]
    rfl
  · refine ⟨p.anchor.slashes ++ Text.joinWith "/" p.parts, fun c d => ?_⟩
    rw [hwriting, Text.joinWith_append "/" hparts (List.cons_ne_nil c [d]), htwo,
      List.append_assoc, List.append_assoc]
    rfl

end Path

namespace Inspector

variable {i : Inspector} {temp : Path} {a b mark key : Text}

/-- The name of the scratch directory with this key. -/
def directoryName (key : Text) : Text :=
  Text.ofString "nested-archive-" ++ key

/-- What the system makes keys of. -/
def isKeyPoint (c : CodePoint) : Bool :=
  c.isLowerLetter || c.isDigit || c = CodePoint.ofChar '_'

/-- Scratch directories lie in one place, and the system makes up the keys in their
    names. -/
structure KeepsIn (i : Inspector) (temp : Path) : Prop where
  named : temp.Named
  absolute : temp.IsAbsolute
  directory : ∀ n, ∃ key : Text, (∀ c ∈ key, isKeyPoint c = true) ∧
    i.scratch n = (temp.child (directoryName key)).toText

/-- The mark begins with a slash and has no other but at its end, and behind the slash
    it disagrees with the beginning that the names of all directories have. -/
structure Skips (mark : Text) : Prop where
  head : mark.head? = some (CodePoint.ofChar '/')
  once : CodePoint.ofChar '/' ∉ mark.tail.dropLast
  apart : ¬ mark.tail <+: directoryName [] ∧ ¬ directoryName [] <+: mark.tail

instance (mark : Text) : Decidable (Skips mark) :=
  decidable_of_iff (mark.head? = some (CodePoint.ofChar '/') ∧
      CodePoint.ofChar '/' ∉ mark.tail.dropLast ∧
      ¬ mark.tail <+: directoryName [] ∧ ¬ directoryName [] <+: mark.tail)
    ⟨fun h => ⟨h.1, h.2.1, h.2.2⟩, fun h => ⟨h.head, h.once, h.apart⟩⟩

theorem small_of_isKeyPoint {c : CodePoint} (h : isKeyPoint c = true) :
    (c.val ≤ 0x7A ∧ c.isUpperLetter = false) ∧ c ≠ CodePoint.ofChar '/' := by
  have hunder : (CodePoint.ofChar '_').val = 0x5F := rfl
  have hslash : (CodePoint.ofChar '/').val = 0x2F := rfl
  simp only [isKeyPoint, CodePoint.isLowerLetter, CodePoint.isDigit, Bool.or_eq_true,
    Bool.and_eq_true, decide_eq_true_eq] at h
  simp only [CodePoint.isUpperLetter, Bool.and_eq_false_iff, decide_eq_false_iff_not]
  have hval : 0x61 ≤ c.val ∧ c.val ≤ 0x7A ∨ 0x30 ≤ c.val ∧ c.val ≤ 0x39 ∨ c.val = 0x5F := by
    rcases h with (h | h) | rfl
    · exact Or.inl h
    · exact Or.inr (Or.inl h)
    · exact Or.inr (Or.inr rfl)
  refine ⟨by omega, fun hc => ?_⟩
  rw [hc] at hval
  omega

theorem lower_directoryName (h : ∀ c ∈ key, isKeyPoint c = true) :
    (directoryName key).lower = directoryName key := by
  have hstart : ∀ c ∈ Text.ofString "nested-archive-",
      c.val ≤ 0x7A ∧ c.isUpperLetter = false := by
    decide
  refine Text.lower_eq_self fun c hc => ?_
  rcases List.mem_append.mp hc with hc | hc
  · exact hstart c hc
  · exact (small_of_isKeyPoint (h c hc)).1

theorem isName_directoryName (h : ∀ c ∈ key, isKeyPoint c = true) :
    Path.IsName (directoryName key) where
  ne_nil := List.cons_ne_nil _ _
  ne_dot := fun hdot => absurd (congrArg List.length hdot) (by
    rw [directoryName, List.length_append]
    have hlong : (Text.ofString "nested-archive-").length = 15 := rfl
    have hdot : (Text.ofString ".").length = 1 := rfl
    omega)
  no_slash := by
    intro hmem
    rcases List.mem_append.mp hmem with hmem | hmem
    · exact absurd hmem (by decide)
    · exact (small_of_isKeyPoint (h _ hmem)).2 rfl

/-- A mark of one component is found in front of the name of a directory or behind it. -/
theorem includes_directoryName (hmark : Skips mark) (h : ∀ c ∈ key, isKeyPoint c = true) :
    (a ++ CodePoint.ofChar '/' :: (directoryName key ++ CodePoint.ofChar '/' :: b)).includes mark =
        true ↔
      mark <:+: a ++ [CodePoint.ofChar '/'] ∨ mark <:+: CodePoint.ofChar '/' :: b := by
  have hcons := List.cons_head?_tail (Option.mem_def.mpr hmark.head)
  have hapart : ¬ mark.tail <+: directoryName key ++ CodePoint.ofChar '/' :: b := by
    intro hstart
    have hname : directoryName [] <+: directoryName key ++ CodePoint.ofChar '/' :: b :=
      ⟨key ++ CodePoint.ofChar '/' :: b, by simp only [directoryName, List.append_nil,
        List.append_assoc]⟩
    exact (List.prefix_or_prefix_of_prefix hstart hname).elim hmark.apart.1 hmark.apart.2
  rw [Text.includes_iff, ← hcons]
  exact Text.infix_append_cons_iff hmark.once (isName_directoryName h).no_slash hapart

/-- Such a mark is found in the path of every copy of a member, or in none of them. -/
theorem includes_scratchPath (hi : i.KeepsIn temp) (hmark : Skips mark) (m n : Nat)
    (name : Text) :
    (i.scratchPath m name).toText.lower.includes mark =
      (i.scratchPath n name).toText.lower.includes mark := by
  rcases Path.exists_toText_child_child hi.absolute with ⟨front, hfront⟩
  have hlies : ∀ n, ((i.scratchPath n name).toText.lower.includes mark = true ↔
      mark <:+: front.lower ++ [CodePoint.ofChar '/'] ∨
        mark <:+: CodePoint.ofChar '/' :: name.lower) := by
    intro n
    rcases hi.directory n with ⟨key, hkey, hn⟩
    have hpath : i.scratchPath n name = (temp.child (directoryName key)).child name := by
      rw [scratchPath, scratchDirectory, hn,
        Path.parse_toText (Path.named_child hi.named (isName_directoryName hkey))]
    rw [hpath, hfront, Text.lower_append_slash, Text.lower_append_slash,
      lower_directoryName hkey]
    exact includes_directoryName hmark hkey
  exact Bool.eq_iff_iff.mpr ((hlies m).trans (hlies n).symm)

theorem any_includes_scratchPath (hi : i.KeepsIn temp) {marks : List Text}
    (hmarks : ∀ mark ∈ marks, Skips mark) (m n : Nat) (name : Text) :
    marks.any (fun mark => (i.scratchPath m name).toText.lower.includes mark) =
      marks.any fun mark => (i.scratchPath n name).toText.lower.includes mark := by
  rw [Bool.eq_iff_iff, List.any_eq_true, List.any_eq_true]
  refine exists_congr fun mark => and_congr_right fun hmem => ?_
  rw [includes_scratchPath hi (hmarks mark hmem) m n]

/-- A checksum of the name and the size, and marks of one component, do not tell one
    scratch directory from another. -/
theorem blind_of_skips (hi : i.KeepsIn temp)
    (hchecksum : ∀ p q : Path, p.name = q.name → i.checksum p = i.checksum q)
    (hscope : ∀ rule ∈ i.scopeRules, ∀ mark ∈ rule.1, Skips mark)
    (hdirect : ∀ mark ∈ i.indirectMarks, Skips mark) : i.Blind where
  checksum := fun m n name size => by
    rw [hchecksum _ _ ((i.name_scratchPath m name).trans (i.name_scratchPath n name).symm)]
  scope := fun m n name => by
    rw [scopeOf, scopeOf, List.find?_congr fun rule hrule =>
      any_includes_scratchPath hi (hscope rule hrule) m n name]
  direct := fun m n name => by
    rw [isDirectAt, isDirectAt, any_includes_scratchPath hi hdirect m n name]

theorem skips_builtIn :
    (∀ rule ∈ ({} : Inspector).scopeRules, ∀ mark ∈ rule.1, Skips mark) ∧
      ∀ mark ∈ ({} : Inspector).indirectMarks, Skips mark := by
  decide

/-- All that is built in is blind, whatever the archives are told by. -/
theorem blind_builtIn {suffixes : List Text} {scratch : Nat → Text}
    (h : ({ suffixes, scratch } : Inspector).KeepsIn temp) :
    ({ suffixes, scratch } : Inspector).Blind := by
  refine blind_of_skips h (fun p q hname => ?_) skips_builtIn.1 skips_builtIn.2
  exact funext fun size => congrArg (Fingerprint.ofFile? · size) hname

end Inspector
end ArchiveCensus
