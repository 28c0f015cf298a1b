/-!
# Decimal Numbers

A decimal number is a sign, a digit string as a natural number and a power of
ten. `Decimal.toFloat` reads it as the nearest double, ties to even. Numbers far
outside the range of a double are told by their size first, which changes no
result and keeps the arithmetic small.

Rounding a double to decimal places goes the other way first: the double is
taken apart into whole numbers, so the rounding is exact, and only the rounded
number is read as a double again.

## Main definitions

* `Decimal`: A number in decimal notation.
* `Decimal.toFloat`: The nearest double.
* `Decimal.ofInt`: The double nearest to a whole number.
* `Decimal.magnitude`, `Decimal.ratio`: A double in whole numbers.
* `Decimal.truncate`: The whole part of a double.
* `Decimal.roundTo`: A double rounded to decimal places, ties to even.
-/

namespace ArchiveCensus

/-- A number `±digits · 10 ^ exponent`. -/
structure Decimal where
  negative : Bool
  digits : Nat
  exponent : Int

namespace Decimal

/-- A negative number or the zero below zero. -/
def signed (negative : Bool) (x : Float) : Float :=
  if negative then -x else x

/-- The nearest double. Ten binary digits are worth three decimal ones at least,
    and three of them one at most. -/
def toFloat (d : Decimal) : Float :=
  let bits := d.digits.log2
  if d.digits = 0 then signed d.negative 0.0
  else if d.exponent + (3 * bits / 10 : Nat) > 400 then signed d.negative (1.0 / 0.0)
  else if d.exponent + (bits / 3 + 1 : Nat) < -400 then signed d.negative 0.0
  else if d.exponent < 0 then signed d.negative (Float.ofScientific d.digits true d.exponent.natAbs)
  else signed d.negative (Float.ofScientific d.digits false d.exponent.natAbs)

/-- The double nearest to a whole number, infinite if it is beyond all of them. -/
def ofInt (n : Int) : Float :=
  toFloat ⟨n < 0, n.natAbs, 0⟩

/-- A finite double without its sign, as `m` and `e` for `m · 2 ^ e`. -/
def magnitude (x : Float) : Nat × Int :=
  let bits := x.abs.toBits
  let fraction := (bits &&& 0x000FFFFFFFFFFFFF).toNat
  let exponent := (bits >>> 52).toNat
  if exponent = 0 then (fraction, -1074) else (fraction + 1 <<< 52, exponent - 1075)

/-- A finite double as a whole number over a power of two. -/
def ratio (x : Float) : Int × Nat :=
  let (m, e) := magnitude x
  let num := m <<< e.toNat
  (if x < 0 then -(num : Int) else num, 1 <<< (-e).toNat)

/-- The whole part of a finite double, the fraction cut off. -/
def truncate (x : Float) : Int :=
  let (num, den) := ratio x
  num.tdiv den

/-- The whole number nearest to a quotient, the even one of two. -/
def roundedQuotient (num den : Nat) : Nat :=
  let q := num / den
  let r := num % den
  if 2 * r < den then q
  else if 2 * r = den then q + q % 2
  else q + 1

/-- A double rounded to decimal places. A double without a fraction stays as it
    is, and so does one that is no number. -/
def roundTo (places : Nat) (x : Float) : Float :=
  let (m, e) := magnitude x
  if x.isNaN || x.isInf || 0 ≤ e then x
  else
    let n := roundedQuotient (m * Nat.pow 10 places) (1 <<< e.natAbs)
    -- The sign bit and not the order decides, so that zero below zero stays below.
    toFloat ⟨x.toBits >>> 63 = 1, n, -(places : Int)⟩

end Decimal

end ArchiveCensus
