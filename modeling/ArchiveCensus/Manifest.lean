import ArchiveCensus.Dictionary
import ArchiveCensus.Text.Blank
import ArchiveCensus.Text.Lines
import ArchiveCensus.Text.Quoted

/-!
# Archive Manifests

The main section of a manifest: header lines `Name: value`, each followed by
any number of continuation lines, which start with one space and are appended
to the value without it. A blank line ends the section; blank lines before the
first header are skipped.

Names and values are trimmed where they stand on the header line. A
continuation is taken as it is, so a value folded at a space keeps it.

## Main definitions

* `Manifest.Fault`: The two ways in which a section is malformed.
* `Manifest.mainSection`: The lines of the section.
* `Manifest.readHeaders`: Headers with their continuation lines.
* `Manifest.parse`: The attributes of the section.
-/

namespace ArchiveCensus

namespace Manifest

/-- Why a manifest cannot be read. -/
inductive Fault where
  /-- A continuation line comes before any header. -/
  | orphanContinuation
  /-- A line has no colon, or nothing before it. -/
  | invalidLine (line : Text)
deriving DecidableEq

/-- The wording of a fault. -/
def Fault.message : Fault → Text
  | .orphanContinuation => "manifest continuation line without a header"
  | .invalidLine line => Text.ofString "invalid manifest line: " ++ line.quoted

/-- The lines before the first blank one, blank lines at the top left out. -/
def mainSection (content : Text) : List Text :=
  ((Text.pieces '\n' content.unifyLineEnds).dropWhile (·.isEmpty)).takeWhile (!·.isEmpty)

/-- A line that goes on with the value before it. -/
def isContinuation (line : Text) : Bool :=
  line.head? = some ' '

/-- The name and the value on a header line. -/
def header? (line : Text) : Option (Text × Text) :=
  match Text.cutAt? ':' line with
  | none => none
  | some (before, after) => if before.isBlank then none else some (before.trim, after.trim)

/-- A value with the continuation lines that go on with it. -/
def unfolded (value : Text) (more : List Text) : Text :=
  value ++ more.flatMap List.tail

/-- Reads headers, each with all continuation lines behind it, onto the attributes
    so far. -/
def readHeaders (attributes : Dictionary Text Text) :
    List Text → Except Fault (Dictionary Text Text)
  | [] => .ok attributes
  | line :: rest =>
    if isContinuation line then .error .orphanContinuation
    else
      match header? line with
      | none => .error (.invalidLine line)
      | some (name, value) =>
        readHeaders (attributes.put name (unfolded value (rest.takeWhile isContinuation)))
          (rest.dropWhile isContinuation)
termination_by lines => lines.length
decreasing_by exact Nat.lt_succ_of_le (List.dropWhile_sublist _).length_le

/-- The attributes of the main section. -/
def parse (content : Text) : Except Fault (Dictionary Text Text) :=
  readHeaders [] (mainSection content)

end Manifest

end ArchiveCensus
