import ArchiveCensus.Text.CodePoint

/-!
# UTF-16

The code units of a text: one below `U+10000`, a surrogate pair above. A
surrogate among the code points has no encoding form, so `units?` refuses it
rather than letting it pass for half of a pair.

## Main definitions

* `unitsOf`: The units of one code point.
* `units?`: The units of a text without surrogates.
-/

namespace ArchiveCensus

namespace Utf16

/-- The code units of one code point. -/
def unitsOf (c : CodePoint) : List Nat :=
  if c.val < 0x10000 then [c.val]
  else [0xD800 + (c.val - 0x10000) / 0x400, 0xDC00 + (c.val - 0x10000) % 0x400]

/-- The code units of a text, provided that it holds no surrogate. -/
def units? (t : Text) : Option (List Nat) :=
  if t.isScalar then some (t.flatMap unitsOf) else none

end Utf16

end ArchiveCensus
