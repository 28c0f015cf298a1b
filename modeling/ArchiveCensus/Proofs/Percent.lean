import ArchiveCensus.Proofs.Utf8
import ArchiveCensus.Text.Percent

/-!
# Reading Back Percent Encoding

Decoding collects the bytes of escapes that stand side by side and reads them as
UTF-8 once a literal code point comes or the text ends. So an escape that is
read changes nothing but the bytes that are held, and the induction over the
text runs with any text held that is encoded whole: the bytes of a code point are
never parted, for either it is one byte that is kept, or all its bytes are
escaped.

What an encoding is made of is said for single code points, so that marks which
are set between encoded parts can be told from the parts. `Spelled` says it for
the text as a whole: where an escape begins, it is complete.

## Main definitions

* `escape`: The three code points that stand for a byte.
* `IsMark`: A code point that is no part of an escape.
* `Spelled`: A text of literal code points and whole escapes.

## Theorems

* `decodeFrom_encodeBytes`: Decoding takes back encoding, with a text held.
* `decode_encodeBytes`: Decoding takes back encoding.
* `mem_encodeBytes`: What an encoding is made of.
* `mem_of_mem_encodeBytes`: A mark in the encoding of a text stands in the text.
* `spelled_encodeBytes`: An encoding is spelled in what is kept.
* `Spelled.digits`: A percent sign that is not literal stands before two digits.
-/

namespace ArchiveCensus

namespace Percent

variable {keep : CodePoint → Bool}

/-- The three code points that stand for a byte. -/
def escape (b : UInt8) : Text :=
  [CodePoint.ofChar '%', Text.hexDigitUpper (b.toNat / 16), Text.hexDigitUpper (b.toNat % 16)]

theorem hexValue?_hexDigitUpper : ∀ n < 16, (Text.hexDigitUpper n).hexValue? = some n := by
  decide

theorem byteOf?_escape (b : UInt8) :
    byteOf? (Text.hexDigitUpper (b.toNat / 16)) (Text.hexDigitUpper (b.toNat % 16)) = some b := by
  have hb : b.toNat < 256 := b.toNat_lt
  have hvalue : 16 * (b.toNat / 16) + b.toNat % 16 = b.toNat := by omega
  simp only [byteOf?, hexValue?_hexDigitUpper _ (show b.toNat / 16 < 16 by omega),
    hexValue?_hexDigitUpper _ (show b.toNat % 16 < 16 by omega), hvalue, UInt8.ofNat_toNat]

/-! ## Decoding step by step -/

theorem decodeFrom_nil (held : List UInt8) : decodeFrom held [] = Utf8.decodeLossy held := by
  rw [decodeFrom]

/-- An escape adds its byte to the bytes that are held. -/
theorem decodeFrom_escape (held : List UInt8) (b : UInt8) (rest : Text) :
    decodeFrom held (escape b ++ rest) = decodeFrom (held ++ [b]) rest := by
  rw [escape, List.cons_append, List.cons_append, List.cons_append, List.nil_append, decodeFrom,
    if_pos rfl, byteOf?_escape]

theorem decodeFrom_escapes (held bytes : List UInt8) (rest : Text) :
    decodeFrom held (bytes.flatMap escape ++ rest) = decodeFrom (held ++ bytes) rest := by
  induction bytes generalizing held with
  | nil => rw [List.flatMap_nil, List.nil_append, List.append_nil]
  | cons b bytes ih =>
    rw [List.flatMap_cons, List.append_assoc, decodeFrom_escape, ih, List.append_assoc,
      List.singleton_append]

/-- A literal code point ends the bytes that are held. -/
theorem decodeFrom_cons {c : CodePoint} (hc : c ≠ '%') (held : List UInt8) (rest : Text) :
    decodeFrom held (c :: rest) = Utf8.decodeLossy held ++ c :: decodeFrom [] rest := by
  match rest with
  | [] => rw [decodeFrom_nil, Utf8.decodeLossy_nil, decodeFrom]
  | [d] => rw [decodeFrom, decodeFrom, Utf8.decodeLossy_nil, List.nil_append]
  | d :: e :: rest => rw [decodeFrom, if_neg hc]

/-! ## Encoding -/

theorem encodeByte_of_le {b : UInt8} (h : 0x80 ≤ b.toNat) : encodeByte keep b = escape b := by
  have hval : (CodePoint.ofNat b.toNat).val = b.toNat :=
    CodePoint.val_ofNat (Nat.lt_trans b.toNat_lt (by decide))
  have hascii : (CodePoint.ofNat b.toNat).isAscii = false := by
    simpa [CodePoint.isAscii, hval] using h
  rw [encodeByte, hascii]
  rfl

/-- A code point is kept as it is, or all its bytes are escaped. -/
theorem encodeBytes_encodePoint (keep : CodePoint → Bool) (c : CodePoint) :
    c.isAscii = true ∧ keep c = true ∧ encodeBytes keep (Utf8.encodePoint c) = [c] ∨
      encodeBytes keep (Utf8.encodePoint c) = (Utf8.encodePoint c).flatMap escape := by
  cases hascii : c.isAscii with
  | true =>
    have hval : (UInt8.ofNat c.val).toNat = c.val := by
      have hc : c.val < 0x80 := by simpa [CodePoint.isAscii] using hascii
      exact Utf8.toNat_ofNat (by omega)
    -- One byte, so whether it is kept is asked once.
    cases hkeep : keep c with
    | true =>
        simp [encodeBytes, Utf8.encodePoint_of_isAscii hascii, encodeByte, hval, hascii, hkeep]
    | false =>
      simp [encodeBytes, Utf8.encodePoint_of_isAscii hascii, encodeByte, escape, hval, hkeep]
  | false =>
    right
    rw [encodeBytes, List.flatMap_def, List.flatMap_def]
    exact congrArg List.flatten
      (List.map_congr_left fun b hb => encodeByte_of_le (Utf8.le_of_mem_encodePoint hascii hb))

/-- Decoding takes back encoding, also behind bytes that are held, as long as
    these are the bytes of a text. -/
theorem decodeFrom_encodeBytes (hkeep : keep '%' = false) {held t : Text}
    (hheld : held.isScalar = true) (ht : t.isScalar = true) :
    decodeFrom (held.flatMap Utf8.encodePoint) (encodeBytes keep (t.flatMap Utf8.encodePoint))
      = held ++ t := by
  induction t generalizing held with
  | nil => rw [List.flatMap_nil, encodeBytes, List.flatMap_nil, decodeFrom_nil,
      Utf8.decodeLossy_flatMap hheld, List.append_nil]
  | cons c t ih =>
    simp only [Text.isScalar, List.all_cons, Bool.and_eq_true, Bool.not_eq_true'] at hheld ht ih
    have hsplit : encodeBytes keep ((c :: t).flatMap Utf8.encodePoint)
        = encodeBytes keep (Utf8.encodePoint c)
          ++ encodeBytes keep (t.flatMap Utf8.encodePoint) := by
      rw [List.flatMap_cons, encodeBytes, List.flatMap_append]
      rfl
    rw [hsplit]
    -- A kept code point ends the held text, an escaped one is held with it.
    rcases encodeBytes_encodePoint keep c with ⟨_, hkept, hone⟩ | hall
    · have hc : c ≠ '%' := by
        rintro rfl
        rw [hkeep] at hkept
        cases hkept
      have hempty : List.all [] (fun c : CodePoint => !c.isSurrogate) = true := rfl
      have hrest := ih hempty ht.2
      rw [hone, List.singleton_append, decodeFrom_cons hc, Utf8.decodeLossy_flatMap hheld]
      exact congrArg (held ++ c :: ·) hrest
    · have hlonger : List.all (held ++ [c]) (fun c => !c.isSurrogate) = true := by
        simp [hheld, ht.1]
      have hrest := ih hlonger ht.2
      rw [List.flatMap_append, List.flatMap_cons, List.flatMap_nil, List.append_nil] at hrest
      rw [hall, decodeFrom_escapes, hrest, List.append_assoc, List.singleton_append]

/-- Decoding takes back encoding. -/
theorem decode_encodeBytes (hkeep : keep '%' = false) {t : Text} (ht : t.isScalar = true) :
    decode (encodeBytes keep (t.flatMap Utf8.encodePoint)) = t := by
  have hempty : Text.isScalar [] = true := rfl
  exact decodeFrom_encodeBytes hkeep hempty ht

/-! ## Marks -/

/-- What an encoding is made of: kept code points of ASCII, percent signs and
    digits of base sixteen. -/
theorem mem_encodeBytes {c : CodePoint} {bytes : List UInt8} (h : c ∈ encodeBytes keep bytes) :
    (∃ b ∈ bytes, c.val = b.toNat ∧ b.toNat < 0x80 ∧ keep c = true) ∨ c = '%' ∨
      ∃ n < 16, c = Text.hexDigitUpper n := by
  obtain ⟨b, hb, hc⟩ := List.mem_flatMap.1 h
  have hlt : b.toNat < 256 := b.toNat_lt
  rw [encodeByte] at hc
  split at hc
  · rename_i hkept
    obtain rfl : c = CodePoint.ofNat b.toNat := by simpa using hc
    have hval : (CodePoint.ofNat b.toNat).val = b.toNat := CodePoint.val_ofNat (by omega)
    simp only [Bool.and_eq_true, CodePoint.isAscii, decide_eq_true_eq, hval] at hkept
    exact .inl ⟨b, hb, hval, hkept.1, hkept.2⟩
  · simp only [List.mem_cons, List.not_mem_nil, or_false] at hc
    rcases hc with rfl | rfl | rfl
    · exact .inr (.inl rfl)
    · exact .inr (.inr ⟨_, by omega, rfl⟩)
    · exact .inr (.inr ⟨_, by omega, rfl⟩)

/-- A code point that is no part of an escape. -/
def IsMark (c : CodePoint) : Prop :=
  c ≠ '%' ∧ c.hexValue? = none

/-- A mark in the encoding of a text is kept and stands in the text. -/
theorem mem_of_mem_encodeBytes {c : CodePoint} (hc : IsMark c) {t : Text}
    (h : c ∈ encodeBytes keep (t.flatMap Utf8.encodePoint)) : keep c = true ∧ c ∈ t := by
  rcases mem_encodeBytes h with ⟨b, hb, hval, hlt, hkept⟩ | hpercent | ⟨n, hn, hdigit⟩
  · obtain ⟨d, hd, hbd⟩ := List.mem_flatMap.1 hb
    have hascii : d.isAscii = true := by
      cases hwide : d.isAscii with
      | true => rfl
      | false => exact absurd (Utf8.le_of_mem_encodePoint hwide hbd) (Nat.not_le.2 hlt)
    rw [Utf8.encodePoint_of_isAscii hascii, List.mem_singleton] at hbd
    have hdlt : d.val < 0x80 := by simpa [CodePoint.isAscii] using hascii
    have hsame : c = d := CodePoint.ext_val (by rw [hval, hbd, Utf8.toNat_ofNat (by omega)])
    exact ⟨hkept, hsame ▸ hd⟩
  · exact absurd hpercent hc.1
  · have hvalue := hc.2
    rw [hdigit, hexValue?_hexDigitUpper n hn] at hvalue
    cases hvalue

/-! ## Spelling -/

/-- A digit of base sixteen, in upper case. -/
def IsUpperDigit (c : CodePoint) : Prop :=
  c.isDigit = true ∨ 0x41 ≤ c.val ∧ c.val ≤ 0x46

theorem isUpperDigit_hexDigitUpper : ∀ n < 16, IsUpperDigit (Text.hexDigitUpper n) := by
  unfold IsUpperDigit
  decide

theorem IsUpperDigit.isUnreserved {c : CodePoint} (h : IsUpperDigit c) :
    c.isUnreserved = true := by
  have halnum : c.isAlphanumeric = true := by
    rcases h with h | ⟨hlow, hhigh⟩
    · simp [CodePoint.isAlphanumeric, h]
    · have hletter : c.isUpperLetter = true := by
        simp only [CodePoint.isUpperLetter, Bool.and_eq_true, decide_eq_true_eq]
        omega
      simp [CodePoint.isAlphanumeric, CodePoint.isLetter, hletter]
  simp [CodePoint.isUnreserved, halnum]

theorem not_isUpperDigit_percent : ¬IsUpperDigit '%' := by
  unfold IsUpperDigit
  decide

/-- A text of literal code points and whole escapes. -/
inductive Spelled (literal : CodePoint → Bool) : Text → Prop where
  | nil : Spelled literal []
  | literally {c : CodePoint} {t : Text} (hc : literal c = true) (ht : Spelled literal t) :
      Spelled literal (c :: t)
  | escaped (b : UInt8) {t : Text} (ht : Spelled literal t) : Spelled literal (escape b ++ t)

namespace Spelled

variable {literal : CodePoint → Bool} {s t : Text}

theorem of_forall (h : ∀ c ∈ t, literal c = true) : Spelled literal t := by
  induction t with
  | nil => exact .nil
  | cons c t ih =>
    exact .literally (h c List.mem_cons_self) (ih fun d hd => h d (List.mem_cons_of_mem c hd))

theorem append (hs : Spelled literal s) (ht : Spelled literal t) : Spelled literal (s ++ t) := by
  induction hs with
  | nil => exact ht
  | literally hc _ ih => exact .literally hc ih
  | escaped b _ ih =>
    rw [List.append_assoc]
    exact .escaped b ih

theorem mono {literal' : CodePoint → Bool} (h : ∀ c, literal c = true → literal' c = true)
    (ht : Spelled literal t) : Spelled literal' t := by
  induction ht with
  | nil => exact .nil
  | literally hc _ ih => exact .literally (h _ hc) ih
  | escaped b _ ih => exact .escaped b ih

/-- The digits of an escape. -/
theorem isUpperDigit_of_escape (b : UInt8) :
    IsUpperDigit (Text.hexDigitUpper (b.toNat / 16)) ∧
      IsUpperDigit (Text.hexDigitUpper (b.toNat % 16)) := by
  have hb : b.toNat < 256 := b.toNat_lt
  exact ⟨isUpperDigit_hexDigitUpper _ (by omega), isUpperDigit_hexDigitUpper _ (by omega)⟩

/-- All that a spelled text holds. -/
theorem mem (ht : Spelled literal t) {c : CodePoint} (hc : c ∈ t) :
    literal c = true ∨ c = '%' ∨ IsUpperDigit c := by
  induction ht with
  | nil => exact absurd hc List.not_mem_nil
  | literally hd _ ih =>
    rcases List.mem_cons.1 hc with rfl | hc
    · exact .inl hd
    · exact ih hc
  | escaped b _ ih =>
    obtain ⟨hhigh, hlow⟩ := isUpperDigit_of_escape b
    rcases List.mem_append.1 hc with hc | hc
    · simp only [escape, List.mem_cons, List.not_mem_nil, or_false] at hc
      rcases hc with rfl | rfl | rfl
      · exact .inr (.inl rfl)
      · exact .inr (.inr hhigh)
      · exact .inr (.inr hlow)
    · exact ih hc

/-- A percent sign that is never literal stands before two digits. -/
theorem digits (hpercent : literal '%' = false) (ht : Spelled literal t) {before after : Text}
    (h : t = before ++ CodePoint.ofChar '%' :: after) :
    ∃ high low rest, after = high :: low :: rest ∧ IsUpperDigit high ∧ IsUpperDigit low := by
  induction ht generalizing before with
  | nil => exact absurd h (List.append_ne_nil_of_right_ne_nil before (List.cons_ne_nil _ _)).symm
  | literally hc _ ih =>
    cases before with
    | nil =>
      rw [List.nil_append, List.cons.injEq] at h
      rw [h.1, hpercent] at hc
      cases hc
    | cons d before => exact ih (List.cons.inj h).2
  | escaped b _ ih =>
    obtain ⟨hhigh, hlow⟩ := isUpperDigit_of_escape b
    -- The sign is the one of this escape, or it stands behind the escape.
    match before with
    | [] => exact ⟨_, _, _, (List.cons.inj h).2.symm, hhigh, hlow⟩
    | [_] =>
      have hsign := (List.cons.inj (List.cons.inj h).2).1
      exact absurd (hsign ▸ hhigh) not_isUpperDigit_percent
    | [_, _] =>
      have hsign := (List.cons.inj (List.cons.inj (List.cons.inj h).2).2).1
      exact absurd (hsign ▸ hlow) not_isUpperDigit_percent
    | _ :: _ :: _ :: before =>
      exact ih (List.cons.inj (List.cons.inj (List.cons.inj h).2).2).2

end Spelled

theorem spelled_encodeByte (b : UInt8) : Spelled keep (encodeByte keep b) := by
  rw [encodeByte]
  split
  · rename_i hkept
    exact .literally (Bool.and_eq_true_iff.1 hkept).2 .nil
  · exact .escaped b .nil

/-- An encoding is spelled in what is kept. -/
theorem spelled_encodeBytes (bytes : List UInt8) : Spelled keep (encodeBytes keep bytes) := by
  induction bytes with
  | nil => exact .nil
  | cons b bytes ih => exact (spelled_encodeByte b).append ih

end Percent

end ArchiveCensus
