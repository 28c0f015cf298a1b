import ArchiveCensus.Decimal

/-!
# Numbers

A clock shows whole numbers or doubles, as its owner likes, and so does a
lifetime that is added to its readings. A number therefore keeps its kind. Sums
and differences of whole numbers are exact; a double makes the result a double.
The order looks at the values alone and is exact between the kinds.

## Main definitions

* `Number`: A whole number or a double.
* `Number.less`: The order of values.
* `Number.roundTo`, `Number.scale`, `Number.truncate?`: Rounding, whole multiples
  and whole parts.
-/

namespace ArchiveCensus

/-- A whole number or a double. -/
inductive Number where
  | whole (n : Int)
  | real (x : Float)

namespace Number

/-- The nearest double. -/
def toFloat : Number → Float
  | whole n => Decimal.ofInt n
  | real x => x

/-- The sum. -/
def add : Number → Number → Number
  | whole m, whole n => whole (m + n)
  | a, b => real (a.toFloat + b.toFloat)

/-- The difference. -/
def sub : Number → Number → Number
  | whole m, whole n => whole (m - n)
  | a, b => real (a.toFloat - b.toFloat)

/-- A whole multiple. -/
def scale (factor : Int) : Number → Number
  | whole n => whole (n * factor)
  | real x => real (x * Decimal.ofInt factor)

/-- A whole number is less than a double. -/
def wholeLess (n : Int) (x : Float) : Bool :=
  if x.isNaN then false
  else if x.isInf then 0 < x
  else n * (Decimal.ratio x).2 < (Decimal.ratio x).1

/-- A double is less than a whole number. -/
def lessWhole (x : Float) (n : Int) : Bool :=
  if x.isNaN then false
  else if x.isInf then x < 0
  else (Decimal.ratio x).1 < n * (Decimal.ratio x).2

/-- The value of one number is less than that of another. -/
def less : Number → Number → Bool
  | whole m, whole n => m < n
  | whole m, real x => wholeLess m x
  | real x, whole n => lessWhole x n
  | real x, real y => x < y

instance : Add Number := ⟨add⟩

instance : Sub Number := ⟨sub⟩

instance : LT Number := ⟨fun a b => a.less b = true⟩

instance : DecidableRel (α := Number) (· < ·) := fun a b =>
  inferInstanceAs (Decidable (a.less b = true))

/-- The number rounded to decimal places, ties to even. -/
def roundTo (places : Nat) : Number → Number
  | whole n => whole n
  | real x => real (Decimal.roundTo places x)

/-- Why a number has no whole part. -/
inductive Fault where
  /-- It is infinite. -/
  | infinite
  /-- It is no number at all. -/
  | undefined
deriving DecidableEq

/-- The whole part, the fraction cut off. -/
def truncate? : Number → Except Fault Int
  | whole n => .ok n
  | real x =>
    if x.isNaN then .error .undefined
    else if x.isInf then .error .infinite
    else .ok (Decimal.truncate x)

end Number

end ArchiveCensus
