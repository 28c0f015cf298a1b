/-!
# Code Points and Texts

A text is a list of code points, surrogates included. `String` cannot hold a
lone surrogate, yet a property file may spell one with an escape, and every
rule below has to say what becomes of it. Two adjacent surrogates stay two
code points; nothing here joins them.

Literals are written as `Char` and `String` and coerced, so a rule that only
speaks about ASCII reads as it would over strings.

## Main definitions

* `CodePoint`: A number below `0x110000`.
* `Text`: A list of code points.
* `CodePoint.isSurrogate`: The points no encoding form can carry.
* `Text.ofString`: The text of a literal.
-/

namespace ArchiveCensus

/-- A Unicode code point. -/
structure CodePoint where
  val : Nat
  val_lt : val < 0x110000 := by decide
deriving DecidableEq

/-- A sequence of code points. -/
abbrev Text := List CodePoint

instance : LawfulBEq Text := inferInstance

namespace CodePoint

theorem ext_val {a b : CodePoint} (h : a.val = b.val) : a = b := by
  cases a; cases b; cases h; rfl

/-- The code point of a character. -/
def ofChar (c : Char) : CodePoint :=
  ⟨c.toNat, by
    have h : c.val.toNat.isValidChar := c.valid
    have e : c.toNat = c.val.toNat := rfl
    rcases h with h | ⟨_, h⟩ <;> omega⟩

instance : Coe Char CodePoint := ⟨ofChar⟩

/-- What stands in for a number or a byte sequence that denotes no code
    point. -/
def replacement : CodePoint := ⟨0xFFFD, by decide⟩

/-- The code point of a number, the replacement character when there is
    none. -/
def ofNat (n : Nat) : CodePoint :=
  if h : n < 0x110000 then ⟨n, h⟩ else replacement

theorem val_ofNat {n : Nat} (h : n < 0x110000) : (ofNat n).val = n := by
  simp [ofNat, h]

@[simp] theorem ofNat_val (c : CodePoint) : ofNat c.val = c :=
  ext_val (val_ofNat c.val_lt)

instance : Ord CodePoint := ⟨fun a b => compare a.val b.val⟩

instance : Inhabited CodePoint := ⟨replacement⟩

/-- Half of a UTF-16 pair, which stands for no character of its own. -/
def isSurrogate (c : CodePoint) : Bool :=
  0xD800 ≤ c.val && c.val < 0xE000

def isAscii (c : CodePoint) : Bool :=
  c.val < 0x80

def isDigit (c : CodePoint) : Bool :=
  0x30 ≤ c.val && c.val ≤ 0x39

def isUpperLetter (c : CodePoint) : Bool :=
  0x41 ≤ c.val && c.val ≤ 0x5A

def isLowerLetter (c : CodePoint) : Bool :=
  0x61 ≤ c.val && c.val ≤ 0x7A

/-- An ASCII letter. -/
def isLetter (c : CodePoint) : Bool :=
  c.isUpperLetter || c.isLowerLetter

/-- An ASCII letter or digit. -/
def isAlphanumeric (c : CodePoint) : Bool :=
  c.isLetter || c.isDigit

/-- An ASCII letter in lower case, anything else unchanged. -/
def lowerAscii (c : CodePoint) : CodePoint :=
  if c.isUpperLetter then .ofNat (c.val + 0x20) else c

/-- The value of a hexadecimal digit of either case. -/
def hexValue? (c : CodePoint) : Option Nat :=
  if c.isDigit then some (c.val - 0x30)
  else if 0x41 ≤ c.val && c.val ≤ 0x46 then some (c.val - 0x37)
  else if 0x61 ≤ c.val && c.val ≤ 0x66 then some (c.val - 0x57)
  else none

end CodePoint

namespace Text

/-- The text of a literal. -/
def ofString (s : String) : Text :=
  s.toList.map CodePoint.ofChar

instance : Coe String Text := ⟨ofString⟩

/-- No surrogate occurs. -/
def isScalar (t : Text) : Bool :=
  t.all fun c => !c.isSurrogate

/-- A number in decimal digits. -/
def ofNat (n : Nat) : Text :=
  ofString (Nat.repr n)

/-- An integer in decimal digits, with a sign when it is negative. -/
def ofInt (n : Int) : Text :=
  if n < 0 then (CodePoint.ofChar '-') :: ofNat n.natAbs else ofNat n.natAbs

/-- A digit of base sixteen in lower case. -/
def hexDigit (n : Nat) : CodePoint :=
  .ofNat (if n < 10 then 0x30 + n else 0x57 + n)

/-- A digit of base sixteen in upper case. -/
def hexDigitUpper (n : Nat) : CodePoint :=
  .ofNat (if n < 10 then 0x30 + n else 0x37 + n)

/-- The lowest `width` digits of base sixteen, in lower case. -/
def hex : Nat → Nat → Text
  | 0, _ => []
  | width + 1, n => hex width (n / 16) ++ [hexDigit (n % 16)]

end Text

end ArchiveCensus
