import ArchiveCensus.Proofs.PackageUrl.Shape

/-!
# The Encoding of a Part

A part is escaped byte by byte, and what it keeps is decided for each byte alone.
The same text comes out of a general encoding, that of forms, which keeps less and
writes a blank as a plus sign, when three replacements are made in it: the plus signs
and two of the escapes are written anew.

Replacing looks at the text and knows nothing of bytes, so it could hit what does
not stand for a byte at all. It does not. The encoding of forms escapes the plus sign
and the percent sign, so each plus sign is a blank and each percent sign begins an
escape; and an escape that is searched begins with a percent sign, which is no digit,
so it is found at the beginning of an escape and nowhere across two of them.

## Main definitions

* `Text.replaceAll`: A text with all occurrences of another replaced.
* `Percent.formEncoded`: The encoding of forms.
* `PackageUrl.replaced`: What three replacements make of it.

## Theorems

* `replaceAll_append`, `replaceAll_cons`: Replacing goes from left to right.
* `replaceAll_encodeBytes`: Replacing an escape by its code point is keeping it.
* `replaced_eq`: The replacements make what parts keep.
* `encodePart_faithful`: What the encoding of a part looks like, and that it is read
  back.
-/

namespace ArchiveCensus

namespace Text

/-- Replaces all occurrences behind the first `skip` code points, which belong to an
    occurrence that is replaced already. -/
def replaceFrom (old new : Text) : (skip : Nat) → Text → Text
  | _, [] => []
  | skip + 1, _ :: cs => replaceFrom old new skip cs
  | 0, c :: cs =>
    if startsWith (c :: cs) old then new ++ replaceFrom old new (old.length - 1) cs
    else c :: replaceFrom old new 0 cs

/-- The text with all occurrences of `old` replaced, from left to right and without
    overlaps. -/
def replaceAll (t old new : Text) : Text :=
  replaceFrom old new 0 t

variable {old new : Text}

theorem replaceFrom_append (a t : Text) :
    replaceFrom old new a.length (a ++ t) = t.replaceAll old new := by
  induction a with
  | nil => rfl
  | cons c a ih => rw [List.length_cons, List.cons_append, replaceFrom, ih]

/-- An occurrence at the beginning is replaced, and the rest is searched behind it. -/
theorem replaceAll_append (h : old ≠ []) (t : Text) :
    (old ++ t).replaceAll old new = new ++ t.replaceAll old new := by
  cases old with
  | nil => exact absurd rfl h
  | cons c cs =>
      have hstarts : startsWith (c :: (cs ++ t)) (c :: cs) = true := by
        rw [startsWith, List.isPrefixOf_iff_prefix]
        exact List.prefix_append _ _
      rw [replaceAll, List.cons_append, replaceFrom, if_pos hstarts, List.length_cons,
        Nat.add_sub_cancel, replaceFrom_append]

/-- Where no occurrence begins a code point stays. -/
theorem replaceAll_cons {c : CodePoint} {t : Text} (h : ¬old <+: c :: t) :
    replaceAll (c :: t) old new = c :: replaceAll t old new := by
  have hstarts : startsWith (c :: t) old = false := by
    rw [startsWith, Bool.eq_false_iff, ne_eq, List.isPrefixOf_iff_prefix]
    exact h
  rw [replaceAll, replaceFrom, hstarts, if_neg Bool.false_ne_true]
  rfl

theorem head_eq_of_starts {x c : CodePoint} {xs t : Text} (h : x :: xs <+: c :: t) : x = c := by
  rcases h with ⟨more, hmore⟩
  exact (List.cons.inj hmore).1

/-! ## Single code points -/

theorem replaceAll_singleton_append (x : CodePoint) (s t : Text) :
    (s ++ t).replaceAll [x] new = s.replaceAll [x] new ++ t.replaceAll [x] new := by
  induction s with
  | nil => rfl
  | cons c s ih =>
      by_cases hc : x = c
      · subst hc
        have hhead : ∀ u : Text, replaceAll (x :: u) [x] new = new ++ u.replaceAll [x] new :=
          replaceAll_append (List.cons_ne_nil x [])
        rw [List.cons_append, hhead, hhead, ih, List.append_assoc]
      · have hnot : ∀ u : Text, ¬[x] <+: c :: u := fun u h => hc (head_eq_of_starts h)
        rw [List.cons_append, replaceAll_cons (hnot (s ++ t)), replaceAll_cons (hnot s), ih]
        rfl

theorem replaceAll_of_not_mem {x : CodePoint} {t : Text} (h : x ∉ t) :
    t.replaceAll [x] new = t := by
  induction t with
  | nil => rfl
  | cons c t ih =>
      rw [List.mem_cons, not_or] at h
      have hnot : ¬[x] <+: c :: t := fun hpre => h.1 (head_eq_of_starts hpre)
      rw [replaceAll_cons hnot, ih h.2]

end Text

namespace Percent

open Text

variable {keep : CodePoint → Bool} {b x : UInt8}

/-! ## Escapes -/

theorem escape_injective (h : escape x = escape b) : x = b := by
  have hdigits := (List.cons.inj h).2
  have hhigh := (List.cons.inj hdigits).1
  have hlow := (List.cons.inj (List.cons.inj hdigits).2).1
  have hvalue := byteOf?_escape x
  rw [hhigh, hlow, byteOf?_escape] at hvalue
  exact (Option.some.inj hvalue).symm

theorem unreserved_or_percent_of_mem_escape {c : CodePoint} (h : c ∈ escape x) :
    c = '%' ∨ c.isUnreserved = true := by
  rcases Spelled.isUpperDigit_of_escape x with ⟨hhigh, hlow⟩
  simp only [escape, List.mem_cons, List.not_mem_nil, or_false] at h
  rcases h with rfl | rfl | rfl
  · exact .inl rfl
  · exact .inr hhigh.isUnreserved
  · exact .inr hlow.isUnreserved

/-- Another escape stays as it is: the one that is searched neither is it nor begins
    inside it. -/
theorem replaceAll_escape_of_ne (h : x ≠ b) (new rest : Text) :
    (escape x ++ rest).replaceAll (escape b) new = escape x ++ rest.replaceAll (escape b) new := by
  have hwhole : ¬escape b <+: escape x ++ rest := by
    intro hpre
    have hlength : (escape b).length = (escape x).length := rfl
    have hstarts := List.prefix_of_prefix_length_le hpre (List.prefix_append _ _)
      (Nat.le_of_eq hlength)
    exact h (escape_injective (List.IsPrefix.eq_of_length hstarts hlength).symm)
  -- A digit is no percent sign, so nothing begins there.
  have hdigit : ∀ {d : CodePoint} (t : Text), IsUpperDigit d → ¬escape b <+: d :: t := by
    intro d t hd hpre
    have hsign : CodePoint.ofChar '%' = d := head_eq_of_starts hpre
    exact not_isUpperDigit_percent (hsign ▸ hd)
  rcases Spelled.isUpperDigit_of_escape x with ⟨hhigh, hlow⟩
  have hspread : ∀ t : Text, escape x ++ t = CodePoint.ofChar '%' ::
      hexDigitUpper (x.toNat / 16) :: hexDigitUpper (x.toNat % 16) :: t := fun _ => rfl
  rw [hspread] at hwhole ⊢
  rw [replaceAll_cons hwhole, replaceAll_cons (hdigit _ hhigh), replaceAll_cons (hdigit _ hlow),
    hspread]

theorem encodeBytes_cons (keep : CodePoint → Bool) (x : UInt8) (bytes : List UInt8) :
    encodeBytes keep (x :: bytes) = encodeByte keep x ++ encodeBytes keep bytes :=
  rfl

theorem encodeByte_of_kept
    (h : ((CodePoint.ofNat x.toNat).isAscii && keep (.ofNat x.toNat)) = true) :
    encodeByte keep x = [CodePoint.ofNat x.toNat] := by
  rw [encodeByte]
  exact if_pos h

theorem encodeByte_of_not_kept
    (h : ¬((CodePoint.ofNat x.toNat).isAscii && keep (.ofNat x.toNat)) = true) :
    encodeByte keep x = escape x := by
  rw [encodeByte]
  exact if_neg h

theorem ofNat_toNat_injective (h : CodePoint.ofNat x.toNat = CodePoint.ofNat b.toNat) : x = b := by
  have hlt : ∀ y : UInt8, y.toNat < 0x110000 := fun y => Nat.lt_trans y.toNat_lt (by decide)
  have hval := congrArg CodePoint.val h
  rw [CodePoint.val_ofNat (hlt x), CodePoint.val_ofNat (hlt b)] at hval
  exact UInt8.toNat_inj.mp hval

section Kept

variable (hkeep : keep '%' = false) (hb : (CodePoint.ofNat b.toNat).isAscii = true)
include hkeep hb

-- What stands for one byte is kept, is the escape that is searched, or is another one.
theorem replaceAll_encodeByte_append (x : UInt8) (rest : Text) :
    (encodeByte keep x ++ rest).replaceAll (escape b) [CodePoint.ofNat b.toNat]
      = encodeByte (fun d => keep d || d = CodePoint.ofNat b.toNat) x
        ++ rest.replaceAll (escape b) [CodePoint.ofNat b.toNat] := by
  by_cases hkept : ((CodePoint.ofNat x.toNat).isAscii && keep (.ofNat x.toNat)) = true
  · -- A code point that is kept is no percent sign.
    have hnot : ¬escape b <+: CodePoint.ofNat x.toNat :: rest := by
      intro hpre
      have hsign : CodePoint.ofChar '%' = .ofNat x.toNat := head_eq_of_starts hpre
      rw [← hsign, hkeep, Bool.and_false] at hkept
      exact Bool.false_ne_true hkept
    have hlonger : ((CodePoint.ofNat x.toNat).isAscii &&
        (keep (.ofNat x.toNat) || CodePoint.ofNat x.toNat = .ofNat b.toNat)) = true := by
      rw [Bool.and_eq_true] at hkept ⊢
      exact ⟨hkept.1, Bool.or_eq_true_iff.mpr (.inl hkept.2)⟩
    rw [encodeByte_of_kept hkept, encodeByte_of_kept hlonger, List.singleton_append,
      replaceAll_cons hnot, List.singleton_append]
  · rw [encodeByte_of_not_kept hkept]
    by_cases hx : x = b
    · subst hx
      have hown : ((CodePoint.ofNat x.toNat).isAscii &&
          (keep (.ofNat x.toNat) || CodePoint.ofNat x.toNat = .ofNat x.toNat)) = true := by
        rw [hb, decide_eq_true rfl, Bool.or_true, Bool.and_true]
      have hne : escape x ≠ [] := List.cons_ne_nil _ _
      rw [replaceAll_append hne, encodeByte_of_kept hown]
    · have hother : ¬((CodePoint.ofNat x.toNat).isAscii &&
          (keep (.ofNat x.toNat) || CodePoint.ofNat x.toNat = .ofNat b.toNat)) = true := by
        rwa [decide_eq_false fun h => hx (ofNat_toNat_injective h), Bool.or_false]
      rw [encodeByte_of_not_kept hother, replaceAll_escape_of_ne hx]

/-- Replacing the escape of an ASCII code point by the code point itself gives what an
    encoding gives that keeps it. -/
theorem replaceAll_encodeBytes (bytes : List UInt8) :
    (encodeBytes keep bytes).replaceAll (escape b) [CodePoint.ofNat b.toNat]
      = encodeBytes (fun d => keep d || d = CodePoint.ofNat b.toNat) bytes := by
  induction bytes with
  | nil => rfl
  | cons x bytes ih =>
      rw [encodeBytes_cons, encodeBytes_cons, replaceAll_encodeByte_append hkeep hb, ih]

end Kept

/-! ## Forms -/

/-- The encoding of forms: all but unreserved code points escaped, and plus signs for
    blanks. -/
def formEncoded (bytes : List UInt8) : Text :=
  (encodeBytes (fun c => c.isUnreserved || c = ' ') bytes).replaceAll " " "+"

/-- A blank is a plus sign and then an escape, and nothing else becomes either. -/
theorem replaceAll_plus_encodeByte (x : UInt8) :
    ((encodeByte (fun c => c.isUnreserved || c = ' ') x).replaceAll " " "+").replaceAll "+" "%20"
      = encodeByte CodePoint.isUnreserved x := by
  have hstays : ∀ {t : Text}, (∀ c ∈ t, c = '%' ∨ c.isUnreserved = true) →
      (t.replaceAll " " "+").replaceAll "+" "%20" = t := by
    intro t ht
    have hblank : CodePoint.ofChar ' ' ∉ t := fun h => absurd (ht _ h) (by decide)
    have hplus : CodePoint.ofChar '+' ∉ t := fun h => absurd (ht _ h) (by decide)
    have hfirst : t.replaceAll " " "+" = t := replaceAll_of_not_mem hblank
    rw [hfirst]
    exact replaceAll_of_not_mem hplus
  by_cases hblank : x = 0x20
  · rw [hblank]
    decide
  have hne : CodePoint.ofNat x.toNat ≠ ' ' := fun h =>
    hblank (ofNat_toNat_injective (b := 0x20) (h.trans (by decide)))
  have hsame : encodeByte (fun c => c.isUnreserved || c = ' ') x
      = encodeByte CodePoint.isUnreserved x := by
    simp only [encodeByte, hne, decide_false, Bool.or_false]
  rw [hsame]
  refine hstays fun c hc => ?_
  by_cases hkept : ((CodePoint.ofNat x.toNat).isAscii &&
      CodePoint.isUnreserved (.ofNat x.toNat)) = true
  · rw [encodeByte_of_kept hkept, List.mem_singleton] at hc
    rw [hc]
    exact .inr (Bool.and_eq_true_iff.mp hkept).2
  · rw [encodeByte_of_not_kept hkept] at hc
    exact unreserved_or_percent_of_mem_escape hc

/-- With its plus signs written as escapes the encoding of forms keeps what is
    unreserved. -/
theorem replaceAll_plus_formEncoded (bytes : List UInt8) :
    (formEncoded bytes).replaceAll "+" "%20" = encodeBytes CodePoint.isUnreserved bytes := by
  induction bytes with
  | nil => rfl
  | cons x bytes ih =>
      have hblank : Text.ofString " " = [CodePoint.ofChar ' '] := by decide
      have hplus : Text.ofString "+" = [CodePoint.ofChar '+'] := by decide
      have hunit := replaceAll_plus_encodeByte x
      rw [formEncoded] at ih ⊢
      rw [hblank, hplus] at ih hunit ⊢
      rw [encodeBytes_cons, encodeBytes_cons, replaceAll_singleton_append,
        replaceAll_singleton_append, hunit, ih]

end Percent

namespace PackageUrl

open Text

/-- The encoding of forms with plus signs written as escapes, and with two escapes
    written as the slash and the colon that they stand for. -/
def replaced (bytes : List UInt8) : Text :=
  (((Percent.formEncoded bytes).replaceAll "+" "%20").replaceAll "%2F" "/").replaceAll "%3A" ":"

/-- The replacements make what parts keep. -/
theorem replaced_eq (bytes : List UInt8) :
    replaced bytes = Percent.encodeBytes keptInPart bytes := by
  have hslash : Text.ofString "%2F" = Percent.escape 0x2F ∧
      Text.ofString "/" = [CodePoint.ofNat (0x2F : UInt8).toNat] := by decide
  have hcolon : Text.ofString "%3A" = Percent.escape 0x3A ∧
      Text.ofString ":" = [CodePoint.ofNat (0x3A : UInt8).toNat] := by decide
  rw [replaced, Percent.replaceAll_plus_formEncoded, hslash.1, hslash.2,
    Percent.replaceAll_encodeBytes (by decide) (by decide), hcolon.1, hcolon.2,
    Percent.replaceAll_encodeBytes (by decide) (by decide)]
  rfl

theorem isUnreserved_of_mem_blot {t : Text} {c : CodePoint} (h : c ∈ blot t) :
    c.isUnreserved = true := by
  rcases List.mem_map.mp h with ⟨d, _, hd⟩
  by_cases hplain : d.isUnreserved = true
  · rw [if_pos hplain] at hd
    exact hd ▸ hplain
  · rw [if_neg hplain] at hd
    rw [← hd]
    decide

/-- A part without surrogates is written in what parts keep and in whole escapes, as
    three replacements would write it, and decoding gives it back. A part with one is
    written in unreserved code points, one for each of its own. -/
theorem encodePart_faithful (t : Text) :
    (t.isScalar = true →
      encodePart t = replaced (t.flatMap Utf8.encodePoint) ∧
        Percent.decode (encodePart t) = t ∧ Percent.Spelled keptInPart (encodePart t)) ∧
      (t.isScalar = false →
        (encodePart t).length = t.length ∧ ∀ c ∈ encodePart t, c.isUnreserved = true) := by
  refine ⟨?_, ?_⟩
  · intro hscalar
    refine ⟨?_, decode_encodePart hscalar, spelled_encodePart t⟩
    rw [replaced_eq, encodePart, Utf8.encode?, if_pos hscalar]
  · intro hsurrogate
    have hblot : encodePart t = blot t := by
      rw [encodePart, Utf8.encode?, hsurrogate, if_neg Bool.false_ne_true]
    rw [hblot]
    exact ⟨List.length_map .., fun c hc => isUnreserved_of_mem_blot hc⟩

/-- What looks like an escape or a blank in the part itself is escaped. -/
example : encodePart "%2F +:/" = Text.ofString "%252F%20%2B:/" := by
  decide

end PackageUrl

end ArchiveCensus
