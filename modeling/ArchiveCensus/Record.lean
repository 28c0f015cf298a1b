import ArchiveCensus.FileName
import ArchiveCensus.Text.Blank

/-!
# Records

What is known of one archive. A coordinate is absent when no source spoke of
it; the word `unknown` is a value and says that sources were asked in vain.

A record serves as its own draft. `fill` is how sources write into it: a field
that is set stays, unless the source may replace the word `unknown`, and blank
values are no values.

Two records are the same when they agree in everything that identifies an
archive. Scope, directness and the enclosing archive are guesses or back
references and do not count. The serial number of a scratch copy does: each
copy had a directory of its own, so records of two extractions differ even
where all their texts agree.

## Main definitions

* `Record`: One archive.
* `Record.Identity`, `Record.identity`: What makes two records the same.
* `Field`: The names of the twelve fields.
* `Record.fill`: Writing a value that a source offers.
-/

namespace ArchiveCensus

/-- One archive. -/
structure Record where
  group : Option Text := none
  artifact : Option Text := none
  version : Option Text := none
  packageType : Option Text := some "archive"
  classifier : Option Text := none
  filePath : Option Text := none
  checksum : Option Text := none
  fileSize : Int := 0
  manifestInfo : Option Text := none
  scope : Option Text := none
  isDirect : Bool := false
  parent : Option Text := none
  /-- The number of the scratch copy that was read, if it was one. -/
  copySerial : Option Nat := none
deriving DecidableEq

/-- A field of a record. -/
inductive Field where
  | group
  | artifact
  | version
  | packageType
  | classifier
  | filePath
  | checksum
  | fileSize
  | manifestInfo
  | scope
  | isDirect
  | parent
deriving DecidableEq

namespace Field

/-- All fields, in the order of a record. -/
def all : List Field :=
  [group, artifact, version, packageType, classifier, filePath, checksum, fileSize,
    manifestInfo, scope, isDirect, parent]

/-- The name of a field in what is written and read. -/
def name : Field → String
  | group => "group_id"
  | artifact => "artifact_id"
  | version => "version"
  | packageType => "package_type"
  | classifier => "classifier"
  | filePath => "file_path"
  | checksum => "checksum"
  | fileSize => "file_size"
  | manifestInfo => "manifest_info"
  | scope => "scope"
  | isDirect => "is_direct_dependency"
  | parent => "parent_dependency"

end Field

namespace Record

/-- What identifies a record. -/
structure Identity where
  group : Option Text
  artifact : Option Text
  version : Option Text
  packageType : Option Text
  classifier : Option Text
  filePath : Option Text
  checksum : Option Text
  fileSize : Int
  manifestInfo : Option Text
  copySerial : Option Nat
deriving DecidableEq

/-- The identity of a record. -/
def identity (r : Record) : Identity :=
  ⟨r.group, r.artifact, r.version, r.packageType, r.classifier, r.filePath, r.checksum,
    r.fileSize, r.manifestInfo, r.copySerial⟩

/-- Group, artifact and version are all set. -/
def hasCoordinates (r : Record) : Bool :=
  r.group.isSome && r.artifact.isSome && r.version.isSome

/-- The record as part of an enclosing archive. -/
def withParent (r : Record) (parent : Option Text) : Record :=
  { r with parent := parent }

/-- The text in a field; the size and the directness flag hold none. -/
def textIn (r : Record) : Field → Option Text
  | .group => r.group
  | .artifact => r.artifact
  | .version => r.version
  | .packageType => r.packageType
  | .classifier => r.classifier
  | .filePath => r.filePath
  | .checksum => r.checksum
  | .manifestInfo => r.manifestInfo
  | .scope => r.scope
  | .parent => r.parent
  | .fileSize | .isDirect => none

/-- Writes a text into a field; the size and the directness flag take none. -/
def setText (r : Record) : Field → Option Text → Record
  | .group, t => { r with group := t }
  | .artifact, t => { r with artifact := t }
  | .version, t => { r with version := t }
  | .packageType, t => { r with packageType := t }
  | .classifier, t => { r with classifier := t }
  | .filePath, t => { r with filePath := t }
  | .checksum, t => { r with checksum := t }
  | .manifestInfo, t => { r with manifestInfo := t }
  | .scope, t => { r with scope := t }
  | .parent, t => { r with parent := t }
  | .fileSize, _ => r
  | .isDirect, _ => r

/-- What a source may write over: nothing at all, or the word `unknown` if the
    source may replace that. -/
def givesWay (current : Option Text) (replaceUnknown : Bool) : Bool :=
  match current with
  | none => true
  | some t => replaceUnknown && t = unknown

/-- A field into which a source may write: a text field whose text gives way. -/
def isOpen (r : Record) (f : Field) (replaceUnknown : Bool) : Bool :=
  match f with
  | .fileSize | .isDirect => false
  | f => givesWay (r.textIn f) replaceUnknown

/-- Writes the value that a source offers, trimmed, if it is not blank and the
    field is open. The flag says whether it was written. -/
def fill (r : Record) (f : Field) (offer : Option Text) (replaceUnknown : Bool) :
    Record × Bool :=
  match offer with
  | none => (r, false)
  | some t =>
    if t.isBlank then (r, false)
    else if r.isOpen f replaceUnknown then (r.setText f (some t.trim), true)
    else (r, false)

end Record

/-- The records of which no two are the same, in order of first insertion. -/
abbrev RecordSet := List Record

namespace RecordSet

/-- The set with one record more, unless it holds the same already. -/
def insert (s : RecordSet) (r : Record) : RecordSet :=
  if s.any fun x => x.identity = r.identity then s else s ++ [r]

/-- The set with all records of another. -/
def union (s t : RecordSet) : RecordSet :=
  t.foldl insert s

/-- The set with a record, if there is one. -/
def insertSome (s : RecordSet) : Option Record → RecordSet
  | none => s
  | some r => insert s r

end RecordSet

end ArchiveCensus
