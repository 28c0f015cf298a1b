import ArchiveCensus.Decimal
import ArchiveCensus.Text.CodePoint

/-!
# Reading Decimal Numbers

Digits with or without a point, and a power of ten. At least one digit has to
stand before the power, on either side of the point.

## Main definitions

* `Decimal.natOf`: The value of digits.
* `Decimal.cutSign`: The sign in front of a number.
* `Decimal.parse?`: A number without a sign in writing.
-/

namespace ArchiveCensus

namespace Decimal

/-- The value of digits. -/
def natOf (digits : Text) : Nat :=
  digits.foldl (fun n c => 10 * n + (c.val - 0x30)) 0

/-- Whether a number is below zero by the sign in front of it, and the rest. -/
def cutSign : Text → Bool × Text
  | [] => (false, [])
  | c :: rest =>
    if c = '-' then (true, rest) else if c = '+' then (false, rest) else (false, c :: rest)

/-- Digits at the front, and the rest. -/
def cutDigits (t : Text) : Text × Text :=
  (t.takeWhile CodePoint.isDigit, t.dropWhile CodePoint.isDigit)

/-- A power of ten at the end of a number: nothing, or `e` with digits that may
    have a sign. -/
def exponent? : Text → Option Int
  | [] => some 0
  | c :: rest =>
    if c.lowerAscii = 'e' then
      let (negative, digits) := cutSign rest
      if digits.isEmpty || !digits.all CodePoint.isDigit then none
      else some (if negative then -(natOf digits : Int) else natOf digits)
    else none

/-- What follows a point at the front, cut after its digits. -/
def cutFraction : Text → Text × Text
  | [] => ([], [])
  | c :: rest => if c = '.' then cutDigits rest else ([], c :: rest)

/-- The number that a text denotes behind a sign. -/
def parse? (negative : Bool) (t : Text) : Option Decimal :=
  let (whole, rest) := cutDigits t
  let (fraction, rest) := cutFraction rest
  let digits := whole ++ fraction
  if digits.isEmpty then none
  else
    (exponent? rest).map fun e => ⟨negative, natOf digits, e - fraction.length⟩

end Decimal

end ArchiveCensus
