import ArchiveCensus.Text.Utf8

/-!
# Reading Back UTF-8

The bytes of a code point announce their number in the first of them, and the
ranges that the reader admits for the second byte shut out overlong forms,
surrogates and numbers past the last code point. What is encoded lies inside
these ranges, so each code point is read back, and the reader stands exactly
behind its bytes.

The cases are those of the encoding, one for each number of bytes. Among three
and four bytes the lead that has a range of its own is told apart inside
`lead?_three` and `lead?_four`, and nowhere else.

## Theorems

* `readFirst_encodePoint`: The bytes of a code point are read as this code point.
* `decodeLossy_append`: Decoding takes back encoding, whatever follows.
* `encodePoint_of_isAscii`, `le_of_mem_encodePoint`: One byte for an ASCII code
  point, and bytes from `0x80` on for any other.
-/

namespace ArchiveCensus

namespace Utf8

theorem toNat_ofNat {n : Nat} (h : n < 256) : (UInt8.ofNat n).toNat = n := by
  rw [UInt8.toNat_ofNat']
  exact Nat.mod_eq_of_lt h

/-! ## Bytes -/

theorem lead?_one {n : Nat} (h : n < 0x80) : lead? n = some ⟨0, 0x80, 0xBF, n⟩ := by
  rw [lead?, if_pos h]

theorem lead?_two {k : Nat} (hlow : 2 ≤ k) (hhigh : k < 32) :
    lead? (0xC0 + k) = some ⟨1, 0x80, 0xBF, k⟩ := by
  rw [lead?, if_neg (by omega), if_pos (by omega), Nat.add_sub_cancel_left]

/-- Three bytes: the lead `0xE0` admits no overlong form behind it and `0xED` no
    surrogate. -/
theorem lead?_three {k m : Nat} (hk : k < 16) (hm : m < 64) (hlong : k = 0 → 32 ≤ m)
    (hscalar : k = 13 → m < 32) :
    ∃ low high, lead? (0xE0 + k) = some ⟨2, low, high, k⟩ ∧ low ≤ 0x80 + m ∧ 0x80 + m ≤ high := by
  rw [lead?, if_neg (by omega), if_neg (by omega)]
  by_cases hzero : k = 0
  · subst hzero
    exact ⟨_, _, rfl, by omega, by omega⟩
  · rw [if_neg (by omega)]
    by_cases hd : k = 13
    · subst hd
      exact ⟨_, _, rfl, by omega, by omega⟩
    · rw [if_neg (by omega), if_pos (by omega), Nat.add_sub_cancel_left]
      exact ⟨0x80, 0xBF, rfl, by omega, by omega⟩

/-- Four bytes: the lead `0xF0` admits no overlong form behind it and `0xF4`
    nothing past the last code point. -/
theorem lead?_four {k m : Nat} (hk : k < 5) (hm : m < 64) (hlong : k = 0 → 16 ≤ m)
    (hlast : k = 4 → m < 16) :
    ∃ low high, lead? (0xF0 + k) = some ⟨3, low, high, k⟩ ∧ low ≤ 0x80 + m ∧ 0x80 + m ≤ high := by
  rw [lead?, if_neg (by omega), if_neg (by omega), if_neg (by omega), if_neg (by omega),
    if_neg (by omega)]
  by_cases hzero : k = 0
  · subst hzero
    exact ⟨_, _, rfl, by omega, by omega⟩
  · rw [if_neg (by omega)]
    by_cases hd : k = 4
    · subst hd
      exact ⟨_, _, rfl, by omega, by omega⟩
    · rw [if_pos (by omega), Nat.add_sub_cancel_left]
      exact ⟨0x80, 0xBF, rfl, by omega, by omega⟩

theorem readFollowers_cons {low high m : Nat} (hm : m < 64) (hlow : low ≤ 0x80 + m)
    (hhigh : 0x80 + m ≤ high) (count bits : Nat) (rest : List UInt8) :
    readFollowers (count + 1) low high bits (UInt8.ofNat (0x80 + m) :: rest)
      = ((readFollowers count 0x80 0xBF (bits * 64 + m) rest).1,
        (readFollowers count 0x80 0xBF (bits * 64 + m) rest).2 + 1) := by
  rw [readFollowers, toNat_ofNat (by omega), if_pos ⟨hlow, hhigh⟩, Nat.add_sub_cancel_left]

/-- Followers after the first lie in the full range. -/
theorem readFollowers_cons_full {m : Nat} (hm : m < 64) (count bits : Nat) (rest : List UInt8) :
    readFollowers (count + 1) 0x80 0xBF bits (UInt8.ofNat (0x80 + m) :: rest)
      = ((readFollowers count 0x80 0xBF (bits * 64 + m) rest).1,
        (readFollowers count 0x80 0xBF (bits * 64 + m) rest).2 + 1) :=
  readFollowers_cons hm (by omega) (by omega) count bits rest

theorem readFirst_of_lead {n : Nat} {lead : Lead} (hn : n < 256) (h : lead? n = some lead)
    (rest : List UInt8) :
    readFirst (UInt8.ofNat n) rest
      = ((readFollowers lead.followers lead.low lead.high lead.bits rest).1.map CodePoint.ofNat,
        (readFollowers lead.followers lead.low lead.high lead.bits rest).2) := by
  rw [readFirst, toNat_ofNat hn, h]

/-! ## Code points -/

variable {c : CodePoint}

theorem not_surrogate (h : c.isSurrogate = false) : c.val < 0xD800 ∨ 0xE000 ≤ c.val := by
  simp only [CodePoint.isSurrogate, Bool.and_eq_false_iff, decide_eq_false_iff_not] at h
  omega

/-- The bytes of a code point are read as this code point, and no byte more. -/
theorem readFirst_encodePoint (h : c.isSurrogate = false) :
    ∃ b bs, encodePoint c = b :: bs ∧
      ∀ rest, readFirst b (bs ++ rest) = (some c, bs.length) := by
  have hscalar := not_surrogate h
  have hlast := c.val_lt
  have hc := c.ofNat_val
  generalize hn : c.val = n at *
  rw [encodePoint, hn]
  -- By the number of bytes. What is read is the number in base 64, digit by digit.
  by_cases hone : n < 0x80
  · refine ⟨_, _, by rw [if_pos hone], fun rest => ?_⟩
    rw [readFirst_of_lead (by omega) (lead?_one hone)]
    simp [readFollowers, hc]
  by_cases htwo : n < 0x800
  · refine ⟨_, _, by rw [if_neg hone, if_pos htwo], fun rest => ?_⟩
    rw [readFirst_of_lead (by omega) (lead?_two (by omega) (by omega)), List.cons_append,
      readFollowers_cons_full (Nat.mod_lt _ (by omega))]
    have hbits : n / 64 * 64 + n % 64 = n := by omega
    simp [readFollowers, hbits, hc]
  by_cases hthree : n < 0x10000
  · obtain ⟨low, high, hlead, hlow, hhigh⟩ := lead?_three (k := n / 4096) (m := n / 64 % 64)
      (by omega) (by omega) (by omega) (by omega)
    refine ⟨_, _, by rw [if_neg hone, if_neg htwo, if_pos hthree], fun rest => ?_⟩
    rw [readFirst_of_lead (by omega) hlead, List.cons_append, List.cons_append,
      readFollowers_cons (by omega) hlow hhigh, readFollowers_cons_full (Nat.mod_lt _ (by omega))]
    have hbits : (n / 4096 * 64 + n / 64 % 64) * 64 + n % 64 = n := by omega
    simp [readFollowers, hbits, hc]
  · obtain ⟨low, high, hlead, hlow, hhigh⟩ := lead?_four (k := n / 262144) (m := n / 4096 % 64)
      (by omega) (by omega) (by omega) (by omega)
    refine ⟨_, _, by rw [if_neg hone, if_neg htwo, if_neg hthree], fun rest => ?_⟩
    rw [readFirst_of_lead (by omega) hlead, List.cons_append, List.cons_append, List.cons_append,
      readFollowers_cons (by omega) hlow hhigh, readFollowers_cons_full (Nat.mod_lt _ (by omega)),
      readFollowers_cons_full (Nat.mod_lt _ (by omega))]
    have hbits : ((n / 262144 * 64 + n / 4096 % 64) * 64 + n / 64 % 64) * 64 + n % 64 = n := by
      omega
    simp [readFollowers, hbits, hc]

theorem decodeLossy_nil : decodeLossy [] = [] := by
  rw [decodeLossy]

theorem decodeLossy_encodePoint (h : c.isSurrogate = false) (rest : List UInt8) :
    decodeLossy (encodePoint c ++ rest) = c :: decodeLossy rest := by
  obtain ⟨b, bs, hbytes, hread⟩ := readFirst_encodePoint h
  rw [hbytes, List.cons_append, decodeLossy, hread]
  simp

/-- Decoding takes back encoding, whatever follows. -/
theorem decodeLossy_append {t : Text} (h : t.isScalar = true) (rest : List UInt8) :
    decodeLossy (t.flatMap encodePoint ++ rest) = t ++ decodeLossy rest := by
  induction t with
  | nil => rfl
  | cons c t ih =>
    simp only [Text.isScalar, List.all_cons, Bool.and_eq_true, Bool.not_eq_true'] at h ih
    rw [List.flatMap_cons, List.append_assoc, decodeLossy_encodePoint h.1, ih h.2,
      List.cons_append]

theorem decodeLossy_flatMap {t : Text} (h : t.isScalar = true) :
    decodeLossy (t.flatMap encodePoint) = t := by
  have hall := decodeLossy_append h []
  rwa [decodeLossy_nil, List.append_nil, List.append_nil] at hall

theorem encodePoint_of_isAscii (h : c.isAscii = true) : encodePoint c = [UInt8.ofNat c.val] := by
  rw [encodePoint, if_pos (by simpa [CodePoint.isAscii] using h)]

/-- No byte of a code point beyond ASCII is one of ASCII. -/
theorem le_of_mem_encodePoint (h : c.isAscii = false) {b : UInt8} (hb : b ∈ encodePoint c) :
    0x80 ≤ b.toNat := by
  have hlow : ¬c.val < 0x80 := by simpa [CodePoint.isAscii] using h
  have hlast := c.val_lt
  rw [encodePoint, if_neg hlow] at hb
  split at hb
  · simp only [List.mem_cons, List.not_mem_nil, or_false] at hb
    rcases hb with rfl | rfl <;> rw [toNat_ofNat (by omega)] <;> omega
  · split at hb
    · simp only [List.mem_cons, List.not_mem_nil, or_false] at hb
      rcases hb with rfl | rfl | rfl <;> rw [toNat_ofNat (by omega)] <;> omega
    · simp only [List.mem_cons, List.not_mem_nil, or_false] at hb
      rcases hb with rfl | rfl | rfl | rfl <;> rw [toNat_ofNat (by omega)] <;> omega

end Utf8

end ArchiveCensus
