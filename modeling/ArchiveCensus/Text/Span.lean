import ArchiveCensus.Text.CodePoint

/-!
# Spans of Code Points

The two shapes in which a character property is tabulated: a `Span` lists the
code points from `first` to `last`, a `Shift` moves every `stride`-th of them by
a fixed amount.

## Main definitions

* `Span.covers`: Some span of a table holds the code point.
* `Shift.image?`: The image of a code point under a table of shifts.
-/

namespace ArchiveCensus

/-- The code points from `first` to `last`. -/
structure Span where
  first : Nat
  last : Nat

/-- Some span of the table holds the code point. -/
def Span.covers (table : Array Span) (c : CodePoint) : Bool :=
  table.any fun s => s.first ≤ c.val && c.val ≤ s.last

/-- Every `stride`-th code point from `first` to `last` moves by `offset`. -/
structure Shift where
  first : Nat
  last : Nat
  stride : Nat
  offset : Int

/-- The image under the first shift that moves the code point. -/
def Shift.image? (table : Array Shift) (c : CodePoint) : Option CodePoint :=
  (table.find? fun s =>
      s.first ≤ c.val && c.val ≤ s.last && (c.val - s.first) % s.stride == 0).map
    fun s => .ofNat (Int.toNat (c.val + s.offset))

end ArchiveCensus
