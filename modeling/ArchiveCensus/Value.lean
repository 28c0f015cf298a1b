import ArchiveCensus.Dictionary
import ArchiveCensus.Number
import ArchiveCensus.Text.CodePoint

/-!
# Attribute Values

What an attribute of an event or a boundary may hold. Hosts choose some of
them, so the type has every shape that a host can write down.

A value can also serve as a key, as long as it is not a list or a map. Numbers
are one key when they are equal as numbers, whatever their kind, and truth
values count as the numbers one and zero.

## Main definitions

* `Value`: The values.
* `Value.ofNumber`, `Value.number?`: Numbers among them.
* `Value.Key`, `Value.asKey`: Values as keys.
-/

namespace ArchiveCensus

/-- A value of an attribute. -/
inductive Value where
  | null
  | bool (b : Bool)
  | int (n : Int)
  | float (x : Float)
  | text (t : Text)
  | list (items : List Value)
  | map (entries : List (Text × Value))
deriving Inhabited

namespace Value

/-- The value is none at all. -/
def isNull : Value → Bool
  | null => true
  | _ => false

/-- A text as a value, or the null value for none. -/
def ofOption (t : Option Text) : Value :=
  t.elim null text

/-- A number as a value. -/
def ofNumber : Number → Value
  | .whole n => int n
  | .real x => float x

/-- The number that a value is, if it is one. -/
def number? : Value → Option Number
  | int n => some (.whole n)
  | float x => some (.real x)
  | _ => none

/-- A value as a key. A number that is not whole is kept by its bits. -/
inductive Key where
  | whole (n : Int)
  | fraction (bits : UInt64)
  /-- What is no number equals no other key, so the occasion of its use tells it. -/
  | undefined (occasion : Nat)
  | text (t : Text)
deriving DecidableEq

/-- The whole number that a float equals, if it does. -/
def wholeOf? (x : Float) : Option Int :=
  if x.isNaN || x.isInf || x.floor != x then none else some (Decimal.truncate x)

/-- What a value is as a key. -/
inductive AsKey where
  /-- No value at all is no key. -/
  | absent
  /-- Lists and maps cannot be looked up. -/
  | unusable
  | key (k : Key)

/-- A double as a key. -/
def Key.ofFloat (occasion : Nat) (x : Float) : Key :=
  if x.isNaN then undefined occasion else (wholeOf? x).elim (fraction x.toBits) whole

/-- The value as a key, on an occasion that has a number of its own. -/
def asKey (occasion : Nat) : Value → AsKey
  | null => .absent
  | list _ | map _ => .unusable
  | bool b => .key (.whole (if b then 1 else 0))
  | int n => .key (.whole n)
  | float x => .key (.ofFloat occasion x)
  | text t => .key (.text t)

end Value

/-- The attributes of an event or a boundary. -/
abbrev Attributes := Dictionary Text Value

end ArchiveCensus
