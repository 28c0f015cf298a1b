import ArchiveCensus.Record
import ArchiveCensus.Value

/-!
# Records as Values

A record as a map from the names of its fields to what stands in them, in the
order of the fields.

## Main definitions

* `Record.valueIn`: What stands in a field.
* `Record.sheet`: All fields.
-/

namespace ArchiveCensus

namespace Record

/-- What stands in a field. -/
def valueIn (r : Record) : Field → Value
  | .fileSize => .int r.fileSize
  | .isDirect => .bool r.isDirect
  | f => .ofOption (r.textIn f)

/-- All fields by their names. -/
def sheet (r : Record) : List (Text × Value) :=
  Field.all.map fun f => (Text.ofString f.name, r.valueIn f)

end Record

end ArchiveCensus
