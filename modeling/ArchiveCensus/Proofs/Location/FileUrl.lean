import ArchiveCensus.Proofs.Location
import ArchiveCensus.Proofs.Path
import Mathlib.Data.List.TakeWhile

/-!
# Reading Back File URLs

A path is made a URL by escaping its writing, and a URL is read by other rules: white
space in front is dropped, tabs and line ends are dropped everywhere, the text is cut
at a colon, at slashes, at a question mark and at a number sign, and the authority may
be refused for its brackets. None of these rules meets anything of the path. The marks
they look for are all escaped, but for the slash; and the path starts with a slash, so
the authority in front of it is empty.

What is left is unescaped once and read as a path, and a path that is read back from
its own writing is the same path. Where the text is relative, the path goes on from
the names of a directory, so these must be texts that can be escaped and read back as
well.

## Main definitions

* `Path.Throughout`: A path whose names consist of code points of one kind.
* `Path.Scalar`: A path without surrogates in its names.

## Theorems

* `encode?_of_isScalar`: What disks call a text without surrogates.
* `throughout_parse`, `throughout_absolute`, `Throughout.toText`: A kind of code points
  is kept from a text to a path, and from a path to its writing.
* `filePath_escaped`: A path that is written behind a scheme is read back.
* `filePath_toUrl?`: A path is read back from its URL.
-/

namespace ArchiveCensus

namespace Text

variable {sep c : CodePoint} {t p : Text}

/-- The pieces of a text consist of its code points. -/
theorem mem_of_mem_pieces (hp : p ∈ pieces sep t) (hc : c ∈ p) : c ∈ t := by
  induction t generalizing p with
  | nil =>
      rw [pieces, List.mem_singleton] at hp
      rw [hp] at hc
      exact hc
  | cons d ds ih =>
      unfold pieces at hp
      by_cases hd : d = sep
      · rw [if_pos hd] at hp
        rcases List.mem_cons.mp hp with rfl | hp
        · exact absurd hc List.not_mem_nil
        · exact List.mem_cons_of_mem d (ih hp hc)
      · rw [if_neg hd] at hp
        -- The code point goes to the first of the pieces that follow.
        cases hds : pieces sep ds with
        | nil => exact absurd hds (pieces_ne_nil ds)
        | cons q qs =>
            rw [hds] at hp ih
            rcases List.mem_cons.mp hp with rfl | hp
            · rcases List.mem_cons.mp hc with rfl | hc
              · exact List.mem_cons_self
              · exact List.mem_cons_of_mem d (ih List.mem_cons_self hc)
            · exact List.mem_cons_of_mem d (ih (List.mem_cons_of_mem q hp) hc)

theorem mem_joinWith {s : Text} {ps : List Text} (h : c ∈ joinWith s ps) :
    c ∈ s ∨ ∃ p ∈ ps, c ∈ p := by
  induction ps with
  | nil => exact absurd h List.not_mem_nil
  | cons p ps ih =>
      by_cases hps : ps = []
      · rw [hps] at h ⊢
        exact .inr ⟨p, List.mem_cons_self, h⟩
      · rw [joinWith_cons hps] at h
        rcases List.mem_append.mp h with h | h
        · rcases List.mem_append.mp h with h | h
          · exact .inr ⟨p, List.mem_cons_self, h⟩
          · exact .inl h
        · rcases ih h with h | ⟨q, hq, h⟩
          · exact .inl h
          · exact .inr ⟨q, List.mem_cons_of_mem p hq, h⟩

theorem isScalar_iff : t.isScalar = true ↔ ∀ c ∈ t, c.isSurrogate = false := by
  simp only [isScalar, List.all_eq_true, Bool.not_eq_true']

end Text

namespace Path

variable {base p : Path} {c : CodePoint} {t : Text}

/-- What a path is written with. -/
theorem mem_toText (h : c ∈ p.toText) : c = '.' ∨ c = '/' ∨ ∃ name ∈ p.parts, c ∈ name := by
  by_cases hp : p = current
  · rw [hp] at h
    exact .inl (List.mem_singleton.mp h)
  · rw [toText_eq hp] at h
    have hslashes : ∀ d ∈ p.anchor.slashes, d = '/' := by
      cases p.anchor <;> decide
    rcases List.mem_append.mp h with h | h
    · exact .inr (.inl (hslashes c h))
    · rcases Text.mem_joinWith h with h | h
      · have hslash : Text.ofString "/" = [CodePoint.ofChar '/'] := by decide
        rw [hslash, List.mem_singleton] at h
        exact .inr (.inl h)
      · exact .inr (.inr h)

theorem mem_of_mem_parts_parse {name : Text} (hname : name ∈ (parse t).parts) (hc : c ∈ name) :
    c ∈ t :=
  Text.mem_of_mem_pieces (List.mem_filter.mp hname).1 hc

/-- The names of a path that is seen from a directory are its own or those of the
    directory. -/
theorem mem_parts_absolute {name : Text} (h : name ∈ (absolute base p).parts) :
    (¬p.IsAbsolute ∧ name ∈ base.parts) ∨ name ∈ p.parts := by
  by_cases hp : p.IsAbsolute
  · rw [absolute_of_isAbsolute hp] at h
    exact .inr h
  · have hanchor : p.anchor = .here := not_not.mp hp
    rw [absolute, hanchor] at h
    rcases List.mem_append.mp h with h | h
    · exact .inl ⟨hp, h⟩
    · exact .inr h

/-- The names in the path consist of code points of one kind. -/
def Throughout (p : Path) (P : CodePoint → Prop) : Prop :=
  ∀ name ∈ p.parts, ∀ c ∈ name, P c

/-- No name in the path holds a surrogate. -/
def Scalar (p : Path) : Prop :=
  p.Throughout fun c => c.isSurrogate = false

section Throughout

variable {P : CodePoint → Prop}

theorem Throughout.toText (h : p.Throughout P) (hdot : P '.') (hslash : P '/') :
    ∀ c ∈ p.toText, P c := by
  intro c hc
  rcases mem_toText hc with rfl | rfl | ⟨name, hname, hmem⟩
  · exact hdot
  · exact hslash
  · exact h name hname c hmem

theorem throughout_parse (h : ∀ c ∈ t, P c) : (parse t).Throughout P := by
  intro name hname c hc
  exact h c (mem_of_mem_parts_parse hname hc)

/-- The directory plays no part for a path that is absolute. -/
theorem throughout_absolute (hp : p.Throughout P) (hbase : p.IsAbsolute ∨ base.Throughout P) :
    (absolute base p).Throughout P := by
  intro name hname
  rcases mem_parts_absolute hname with ⟨hrelative, hname⟩ | hname
  · exact hbase.resolve_left hrelative name hname
  · exact hp name hname

end Throughout

theorem Scalar.isScalar_toText (h : p.Scalar) : p.toText.isScalar = true :=
  Text.isScalar_iff.mpr (Throughout.toText h (by decide) (by decide))

/-- On disks a text without surrogates is called by its UTF-8 form. -/
theorem encode?_of_isScalar (h : t.isScalar = true) :
    encode? t = some (t.flatMap Utf8.encodePoint) := by
  induction t with
  | nil => rfl
  | cons c t ih =>
      rw [Text.isScalar, List.all_cons, Bool.and_eq_true, Bool.not_eq_true'] at h
      have hrange := Utf8.not_surrogate h.1
      have hbytes : diskBytes? c = some (Utf8.encodePoint c) := by
        rw [diskBytes?, if_neg (by omega), h.1, if_neg Bool.false_ne_true]
      rw [encode?, hbytes, ih h.2, List.flatMap_cons]

end Path

namespace Location

open Text

variable {t rest : Text}

theorem escaped_slash (t : Text) :
    escaped (CodePoint.ofChar '/' :: t) = CodePoint.ofChar '/' :: escaped t := by
  have hone : escaped [CodePoint.ofChar '/'] = [CodePoint.ofChar '/'] := by decide
  have happ := escaped_append [CodePoint.ofChar '/'] t
  rw [hone] at happ
  exact happ

/-! ## Rules of reading -/

theorem tidy_eq_self {url : Text} (hhead : ∀ c ∈ url.head?, 0x20 < c.val)
    (hfree : ∀ c ∈ url, c ≠ '\t' ∧ c ≠ '\r' ∧ c ≠ '\n') : tidy url = url := by
  have hdrop : url.dropWhile (fun c : CodePoint => c.val ≤ 0x20) = url := by
    cases url with
    | nil => rfl
    | cons c cs =>
        have hc : ¬c.val ≤ 0x20 := Nat.not_le.mpr (hhead c rfl)
        rw [List.dropWhile_cons_of_neg]
        rw [decide_eq_true_eq]
        exact hc
  rw [tidy, hdrop, List.filter_eq_self]
  intro c hc
  simp only [Bool.and_eq_true, decide_eq_true_eq]
  exact ⟨⟨(hfree c hc).1, (hfree c hc).2.1⟩, (hfree c hc).2.2⟩

theorem splitScheme_file (rest : Text) :
    splitScheme (Text.ofString "file" ++ CodePoint.ofChar ':' :: rest)
      = (Text.ofString "file", rest) := by
  have hfree : CodePoint.ofChar ':' ∉ Text.ofString "file" := by decide
  rw [splitScheme, cutAt?_append_cons hfree]
  rfl

/-- In front of a path that starts with a slash the authority is empty. -/
theorem splitAuthority_slash (rest : Text) :
    splitAuthority (Text.ofString "//" ++ CodePoint.ofChar '/' :: rest)
      = ([], CodePoint.ofChar '/' :: rest) := by
  have hends : (!endsAuthority '/') = false := by decide
  rw [splitAuthority, afterStart?_append]
  dsimp only
  rw [List.takeWhile_cons_of_neg (by rw [hends]; exact Bool.false_ne_true),
    List.dropWhile_cons_of_neg (by rw [hends]; exact Bool.false_ne_true)]

/-- Neither a query nor a fragment is cut off from what is escaped. -/
theorem takeWhile_escaped (t : Text) :
    (escaped t).takeWhile (fun c : CodePoint => c ≠ '#' && c ≠ '?') = escaped t := by
  rw [List.takeWhile_eq_self_iff]
  intro c hc
  simp only [Bool.and_eq_true, decide_eq_true_eq]
  exact ⟨ne_of_mem_escaped hc (by decide), ne_of_mem_escaped hc (by decide)⟩

/-- Nothing is dropped from an escaped text behind the scheme. -/
theorem tidy_escaped (t : Text) :
    tidy (Text.ofString "file://" ++ escaped t) = Text.ofString "file://" ++ escaped t := by
  have hstart : ∀ c ∈ Text.ofString "file://", c ≠ '\t' ∧ c ≠ '\r' ∧ c ≠ '\n' := by decide
  refine tidy_eq_self ?_ ?_
  · intro c hc
    have hfirst : (Text.ofString "file://" ++ escaped t).head? = some (CodePoint.ofChar 'f') := rfl
    rw [hfirst] at hc
    rw [← Option.some.inj hc]
    decide
  · intro c hc
    rcases List.mem_append.mp hc with hc | hc
    · exact hstart c hc
    · exact ⟨ne_of_mem_escaped hc (by decide), ne_of_mem_escaped hc (by decide),
        ne_of_mem_escaped hc (by decide)⟩

/-- What starts with a slash and is written behind the scheme is read back as a path. -/
theorem filePath_escaped (h : t.isScalar = true) (hslash : t.head? = some (CodePoint.ofChar '/')) :
    filePath (Text.ofString "file://" ++ escaped t) = .ok (Path.parse t) := by
  have hcut : Text.ofString "file://" ++ escaped t
      = Text.ofString "file" ++ CodePoint.ofChar ':' :: (Text.ofString "//" ++ escaped t) := rfl
  have hauthority : splitAuthority (Text.ofString "//" ++ escaped t) = ([], escaped t) := by
    cases t with
    | nil => exact absurd hslash (by simp only [List.head?_nil, reduceCtorEq, not_false_eq_true])
    | cons c t =>
        have hc : c = CodePoint.ofChar '/' := Option.some.inj hslash
        rw [hc, escaped_slash, splitAuthority_slash]
  have hsound : Host.isSound [] = true := by decide
  rw [filePath, tidy_escaped, hcut, splitScheme_file]
  dsimp only
  rw [hauthority]
  dsimp only
  rw [hsound, if_neg (by decide), if_neg (by decide), takeWhile_escaped, decode_escaped h]

/-! ## Paths -/

/-- A path without surrogates has a URL, and is read back from it. -/
theorem filePath_of_scalar {p : Path} (habsolute : p.IsAbsolute) (hnamed : p.Named)
    (hscalar : p.Scalar) : ∃ url, p.toUrl? = some url ∧ filePath url = .ok p := by
  refine ⟨Text.ofString "file://" ++ escaped p.toText, ?_, ?_⟩
  · rw [Path.toUrl?, Path.encode?_of_isScalar hscalar.isScalar_toText]
    rfl
  · rw [filePath_escaped hscalar.isScalar_toText (Path.head?_toText habsolute),
      Path.parse_toText hnamed]

/-- A text that is no URL is made one, and what is read from that is the path that the
    text denotes, seen from the directory `base`. -/
theorem filePath_toUrl? {base : Path} {text : Text} (habsolute : base.IsAbsolute)
    (hnamed : base.Named) (hbase : (Path.parse text).IsAbsolute ∨ base.Scalar)
    (hscalar : text.isScalar = true) (hpath : isUrl text = false) :
    ∃ url, toUrl? base text = some url ∧
      filePath url = .ok (Path.absolute base (Path.parse text)) := by
  have hread := filePath_of_scalar (Path.isAbsolute_absolute habsolute (Path.parse text))
    (Path.named_absolute hnamed (Path.named_parse text))
    (Path.throughout_absolute (Path.throughout_parse (Text.isScalar_iff.mp hscalar)) hbase)
  rwa [toUrl?, hpath, if_neg Bool.false_ne_true]

/-- A relative text with the marks of a URL, white space at both ends and a way up. -/
theorem filePath_toUrl?_marks :
    let base : Path := Path.parse "//vroot/ü%20"
    let text : Text := Text.ofString " a:b/../%41#?;[x]\t\n/@\\\u0000 "
    base.IsAbsolute ∧ base.Named ∧ base.Scalar ∧ text.isScalar = true ∧ isUrl text = false ∧
      ∃ url, toUrl? base text = some url ∧ filePath url = .ok ⟨.doubleRoot,
        [Text.ofString "vroot", Text.ofString "ü%20", Text.ofString " a:b", Text.ofString "..",
          Text.ofString "%41#?;[x]\t\n", Text.ofString "@\\\u0000 "]⟩ := by
  intro base text
  have habsolute : base.IsAbsolute := by unfold Path.IsAbsolute; decide
  have hbase : base.Scalar := by unfold Path.Scalar Path.Throughout; decide
  have hscalar : text.isScalar = true := by decide
  have hpath : isUrl text = false := by decide
  have hread := filePath_toUrl? habsolute (Path.named_parse _) (.inr hbase) hscalar hpath
  refine ⟨habsolute, Path.named_parse _, hbase, hscalar, hpath, ?_⟩
  have hseen : Path.absolute base (Path.parse text) = ⟨.doubleRoot,
      [Text.ofString "vroot", Text.ofString "ü%20", Text.ofString " a:b", Text.ofString "..",
        Text.ofString "%41#?;[x]\t\n", Text.ofString "@\\\u0000 "]⟩ := by decide
  rwa [hseen] at hread

end Location

end ArchiveCensus
