import ArchiveCensus.Text.CodePoint

/-!
# UTF-8

Encoding refuses surrogates. Decoding comes in three forms: `decode?` accepts
well-formed input only, `decodeLossy` puts one replacement character for every
longest run of bytes that could still have begun a code point, so that damage
never swallows the byte after it, and `decodeEscaping` keeps such bytes one by one.

All read one code point at a time through `readFirst`, which also says how
many bytes it looked at.

## Main definitions

* `encodePoint`, `encode?`: Code points to bytes.
* `readFirst`: The code point at the head of a byte sequence, if there is one.
* `decode?`, `decodeLossy`, `decodeEscaping`: Bytes to code points.
-/

namespace ArchiveCensus

namespace Utf8

/-- The bytes of one code point that is not a surrogate. -/
def encodePoint (c : CodePoint) : List UInt8 :=
  let n := c.val
  if n < 0x80 then [UInt8.ofNat n]
  else if n < 0x800 then [UInt8.ofNat (0xC0 + n / 64), UInt8.ofNat (0x80 + n % 64)]
  else if n < 0x10000 then
    [UInt8.ofNat (0xE0 + n / 4096), UInt8.ofNat (0x80 + n / 64 % 64), UInt8.ofNat (0x80 + n % 64)]
  else
    [UInt8.ofNat (0xF0 + n / 262144), UInt8.ofNat (0x80 + n / 4096 % 64),
      UInt8.ofNat (0x80 + n / 64 % 64), UInt8.ofNat (0x80 + n % 64)]

/-- The bytes of a text, provided that it holds no surrogate. -/
def encode? (t : Text) : Option (List UInt8) :=
  if t.isScalar then some (t.flatMap encodePoint) else none

/-- What a first byte announces: how many bytes follow, the range of the first
    of them, and the bits it carries itself. -/
structure Lead where
  followers : Nat
  low : Nat
  high : Nat
  bits : Nat

/-- The ranges of the second byte shut out overlong forms, surrogates and
    values past the last code point. -/
def lead? (b : Nat) : Option Lead :=
  if b < 0x80 then some ⟨0, 0x80, 0xBF, b⟩
  else if 0xC2 ≤ b ∧ b ≤ 0xDF then some ⟨1, 0x80, 0xBF, b - 0xC0⟩
  else if b = 0xE0 then some ⟨2, 0xA0, 0xBF, 0⟩
  else if b = 0xED then some ⟨2, 0x80, 0x9F, 0xD⟩
  else if 0xE1 ≤ b ∧ b ≤ 0xEF then some ⟨2, 0x80, 0xBF, b - 0xE0⟩
  else if b = 0xF0 then some ⟨3, 0x90, 0xBF, 0⟩
  else if 0xF1 ≤ b ∧ b ≤ 0xF3 then some ⟨3, 0x80, 0xBF, b - 0xF0⟩
  else if b = 0xF4 then some ⟨3, 0x80, 0x8F, 4⟩
  else none

/-- Reads `count` following bytes, the first of them in `[low, high]`, onto the
    bits read so far. The second component counts the bytes that fitted. -/
def readFollowers : (count low high bits : Nat) → List UInt8 → Option Nat × Nat
  | 0, _, _, bits, _ => (some bits, 0)
  | _ + 1, _, _, _, [] => (none, 0)
  | count + 1, low, high, bits, b :: rest =>
    if low ≤ b.toNat ∧ b.toNat ≤ high then
      let r := readFollowers count 0x80 0xBF (bits * 64 + (b.toNat - 0x80)) rest
      (r.1, r.2 + 1)
    else (none, 0)

/-- The code point that `b` and the bytes after it begin with, and how many of
    those bytes belong to it, or to the broken start of one. -/
def readFirst (b : UInt8) (rest : List UInt8) : Option CodePoint × Nat :=
  match lead? b.toNat with
  | none => (none, 0)
  | some lead =>
    let r := readFollowers lead.followers lead.low lead.high lead.bits rest
    (r.1.map CodePoint.ofNat, r.2)

/-- The text of a byte sequence, with a replacement character for each broken
    start. -/
def decodeLossy : List UInt8 → Text
  | [] => []
  | b :: rest =>
    let r := readFirst b rest
    r.1.getD .replacement :: decodeLossy (rest.drop r.2)
termination_by bytes => bytes.length
decreasing_by simp only [List.length_cons, List.length_drop]; omega

/-- The text of a well-formed byte sequence. -/
def decode? : List UInt8 → Option Text
  | [] => some []
  | b :: rest =>
    let r := readFirst b rest
    match r.1 with
    | none => none
    | some c => (decode? (rest.drop r.2)).map (c :: ·)
termination_by bytes => bytes.length
decreasing_by simp only [List.length_cons, List.length_drop]; omega

/-- The text of a byte sequence, with a surrogate for each byte that is part of no
    code point: `U+DC80` for `0x80`, and so on. -/
def decodeEscaping : List UInt8 → Text
  | [] => []
  | b :: rest =>
    let r := readFirst b rest
    match r.1 with
    | some c => c :: decodeEscaping (rest.drop r.2)
    | none => .ofNat (0xDC00 + b.toNat) :: decodeEscaping rest
termination_by bytes => bytes.length
decreasing_by all_goals simp only [List.length_cons, List.length_drop]; omega

example : decodeLossy [0x41, 0xE2, 0x82, 0x42, 0xC0, 0xF0, 0x9F, 0x98, 0x80]
    = [.ofChar 'A', .replacement, .ofChar 'B', .replacement, .ofNat 0x1F600] := by
  decide +kernel

end Utf8

end ArchiveCensus
