import ArchiveCensus.Text.Utf8

/-!
# Percent Encoding

A byte that may not appear literally is written as a percent sign and two
upper-case digits of base sixteen. Decoding accepts digits of either case,
leaves a percent sign without two digits alone, and reads every run of escaped
bytes as UTF-8, damage replaced.

## Main definitions

* `Percent.encodeBytes`: Bytes with all but the ones kept escaped.
* `Percent.decode`: A text with its escapes resolved.
* `CodePoint.isUnreserved`: What no percent encoding escapes.
-/

namespace ArchiveCensus

/-- Letters, digits and the four marks that stand for themselves in every part
    of a URL. -/
def CodePoint.isUnreserved (c : CodePoint) : Bool :=
  c.isAlphanumeric || c = '.' || c = '_' || c = '~' || c = '-'

namespace Percent

/-- One byte, escaped unless `keep` holds for it. -/
def encodeByte (keep : CodePoint → Bool) (b : UInt8) : Text :=
  let c := CodePoint.ofNat b.toNat
  if c.isAscii && keep c then [c]
  else ['%', Text.hexDigitUpper (b.toNat / 16), Text.hexDigitUpper (b.toNat % 16)]

/-- Bytes as text, with everything escaped for which `keep` does not hold. -/
def encodeBytes (keep : CodePoint → Bool) (bytes : List UInt8) : Text :=
  bytes.flatMap (encodeByte keep)

/-- The byte that two digits denote. -/
def byteOf? (h l : CodePoint) : Option UInt8 :=
  match h.hexValue?, l.hexValue? with
  | some a, some b => some (UInt8.ofNat (16 * a + b))
  | _, _ => none

/-- Decodes, holding the bytes of the escapes directly before the rest. -/
def decodeFrom (pending : List UInt8) : Text → Text
  | [] => Utf8.decodeLossy pending
  | [c] => Utf8.decodeLossy pending ++ [c]
  | [c, d] => Utf8.decodeLossy pending ++ [c, d]
  | c :: h :: l :: rest =>
    if c = '%' then
      match byteOf? h l with
      | some b => decodeFrom (pending ++ [b]) rest
      | none => Utf8.decodeLossy pending ++ c :: decodeFrom [] (h :: l :: rest)
    else Utf8.decodeLossy pending ++ c :: decodeFrom [] (h :: l :: rest)

/-- The text that a percent-encoded text stands for. -/
def decode (t : Text) : Text :=
  decodeFrom [] t

end Percent

end ArchiveCensus
