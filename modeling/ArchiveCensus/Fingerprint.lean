import ArchiveCensus.Text.Utf16

/-!
# Fingerprints

A cheap mark by which a changed file can be told: its size and a hash of its
name. The hash is a polynomial in the UTF-16 units of the name, in 32-bit
arithmetic, so it is the same in every process. It resists nobody who looks
for collisions.

## Main definitions

* `Fingerprint.hash?`: The hash of a text without surrogates.
* `Fingerprint.ofFile?`: The fingerprint of a file name and size.
-/

namespace ArchiveCensus

namespace Fingerprint

/-- One more unit in the hash. -/
def mix (h : UInt32) (unit : Nat) : UInt32 :=
  31 * h + UInt32.ofNat unit

/-- The signed hash of code units. -/
def hashUnits (units : List Nat) : Int :=
  (units.foldl mix 0).toInt32.toInt

/-- The signed hash of a text, provided that it holds no surrogate. -/
def hash? (t : Text) : Option Int :=
  (Utf16.units? t).map hashUnits

/-- The fingerprint of a file, provided that its name can be hashed. -/
def ofFile? (name : Text) (size : Int) : Option Text :=
  (hash? name).map fun h =>
    Text.ofString "size-" ++ Text.ofInt size ++ Text.ofString "-" ++ Text.ofInt h

end Fingerprint

end ArchiveCensus
