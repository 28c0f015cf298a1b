import ArchiveCensus.Archive
import ArchiveCensus.Disk
import ArchiveCensus.Fingerprint
import ArchiveCensus.Manifest
import ArchiveCensus.Notice
import ArchiveCensus.Properties
import ArchiveCensus.Record
import ArchiveCensus.Text.Case

/-!
# Inspecting One Archive

The record of one archive file. Three sources tell its coordinates: the
property file of a build descriptor inside it, the attributes of its manifest,
and its file name. They are asked in this order and each only fills what is
still open. A manifest may also replace the word `unknown`; the file name is
asked only when a coordinate is missing after the other two.

Scope and directness are guessed from the path, in lower case. A member of an archive
is copied to a directory of its own first, and what sees the path of the copy sees that
directory.

What is found and what follows from it are kept apart: `Findings` holds the
sources as read from the bytes, and `Findings.coordinates` is a function of
them alone.

## Main definitions

* `Inspector`: What a host may choose, and where scratch copies are put.
* `Findings`: The sources inside an archive.
* `Inspection.Fault`: Why there is no record.
* `Inspector.describe`: The record of a path and the bytes of its file.
* `Inspector.inspect`: The record of a path on a disk.
* `Inspector.inspectCopy`: The record of a scratch copy.
-/

namespace ArchiveCensus

/-- What a host may choose about inspecting archives, and where scratch copies are
    put. -/
structure Inspector where
  /-- The ends of names by which archives are told. -/
  suffixes : List Text := [".jar"]
  /-- Parts of a path and the scope that any of them suggests; the first rule
      that applies wins. -/
  scopeRules : List (List Text × Text) :=
    [(["/test/", "/test-", "/test_"], "test"), (["/runtime/", "/runtime-"], "runtime"),
      (["/provided/", "/provided-"], "provided")]
  /-- Parts of a path that suggest an indirect dependency. -/
  indirectMarks : List Text := ["/transitive/", "/nested/"]
  /-- The fingerprint of a path and a size, if there is one. -/
  checksum : Path → Nat → Option Text := fun p size => Fingerprint.ofFile? p.name size
  /-- The directory that each scratch copy has for itself, by the number of the copy. The
      system names them, and one name stands for all as long as nothing looks at it. -/
  scratch : Nat → Text := fun _ => "/scratch/nested-archive"

/-- The sources inside an archive. -/
structure Findings where
  descriptor : Option (Dictionary Text Text) := none
  manifest : Option (Dictionary Text Text) := none

namespace Inspection

/-- Why there is no record of a path. -/
inductive Fault where
  /-- The path leads to no file. -/
  | notFound
  /-- The path, or the path as it is seen from the root, cannot be walked. -/
  | unwalkable
  /-- The name has no fingerprint. -/
  | noChecksum
  /-- The file cannot be read as an archive. -/
  | archive (f : Archive.Fault)
deriving DecidableEq

/-- What there is to say about a fault. -/
def Fault.notice : Fault → Notice
  | .notFound => .debug "extractor.not_found"
  | .unwalkable | .archive .damaged | .archive .misplaced => .warning "extractor.read_failed"
  | .noChecksum | .archive _ => .error "extractor.unexpected_error"

/-- The entry that holds the manifest. -/
def manifestName : Text := "META-INF/MANIFEST.MF"

/-- The entry that holds the descriptor of the archive itself. -/
def ownDescriptor : Text := "META-INF/maven/pom.properties"

/-- A name of the form `META-INF/maven/<group>/<artifact>/pom.properties`. Group
    and artifact may hold slashes but no line feed. -/
def isDescriptor (name : Text) : Bool :=
  match Text.afterStart? "META-INF/maven/" name with
  | none => false
  | some rest =>
    let tail : Text := "/pom.properties"
    let middle := rest.take (rest.length - tail.length)
    rest.endsWith tail && !middle.contains (CodePoint.ofChar '\n')
      && (middle.tail.dropLast).contains (CodePoint.ofChar '/')

/-- The entry that holds the descriptor to use. -/
def descriptorIn? (names : List Text) : Option Text :=
  if ownDescriptor ∈ names then some ownDescriptor else names.find? isDescriptor

/-- The manifest of an archive, if it has one that can be read. -/
def readManifest (a : Archive) :
    Except Archive.Fault (Option (Dictionary Text Text)) × List Notice :=
  match a.readNamed? manifestName with
  | .error f => (.error f, [])
  | .ok none => (.ok none, [])
  | .ok (some bytes) =>
    match Manifest.parse (Utf8.decodeLossy bytes.toList) with
    | .ok attributes => (.ok (some attributes), [])
    | .error _ => (.ok none, [.debug "extractor.bad_manifest"])

/-- The properties of the descriptor of an archive, if it has one. -/
def readDescriptor (a : Archive) : Except Archive.Fault (Option (Dictionary Text Text)) :=
  match descriptorIn? a.names with
  | none => .ok none
  | some name =>
    (a.readNamed? name).map fun bytes? =>
      bytes?.map fun bytes => Properties.parse (latin1 bytes.toList)

/-- The sources inside the bytes of a file. -/
def readFindings (bytes : ByteArray) : Except Archive.Fault Findings × List Notice :=
  match Archive.open? bytes with
  | .error f => (.error f, [])
  | .ok a =>
    match readManifest a with
    | (.error f, notices) => (.error f, notices)
    | (.ok manifest, notices) =>
      ((readDescriptor a).map fun descriptor => { descriptor, manifest }, notices)

end Inspection

namespace Findings

/-- The fields that a descriptor tells, by the names of its properties. -/
def descriptorFields : List (Text × Field) :=
  [(Text.ofString "groupId", .group), (Text.ofString "artifactId", .artifact),
    (Text.ofString "version", .version)]

/-- The fields that a manifest tells, by the names of its attributes. -/
def manifestFields : List (Text × Field) :=
  [(Text.ofString "Implementation-Vendor-Id", .group),
    (Text.ofString "Implementation-Title", .artifact),
    (Text.ofString "Implementation-Version", .version),
    (Text.ofString "Specification-Vendor", .group),
    (Text.ofString "Specification-Title", .artifact),
    (Text.ofString "Specification-Version", .version)]

/-- Fills the fields that a source tells. -/
def fillFrom (source : Option (Dictionary Text Text)) (fields : List (Text × Field))
    (replaceUnknown : Bool) (r : Record) : Record :=
  match source with
  | none => r
  | some d => fields.foldl (fun r x => (r.fill x.2 (d.get? x.1) replaceUnknown).1) r

/-- Fills what is open from a file name; a group that is still missing is
    unknown. -/
def fillFromName (suffixes : List Text) (name : Text) (r : Record) : Record :=
  let parts := FileName.split (FileName.stripSuffix name suffixes)
  let r := (r.fill .artifact (some parts.artifact) false).1
  let r := (r.fill .version (some parts.version) false).1
  let r := (r.fill .classifier parts.classifier false).1
  { r with group := some (r.group.getD unknown) }

/-- The record with the coordinates that the sources and the file name tell. -/
def coordinates (f : Findings) (suffixes : List Text) (name : Text) (r : Record) : Record :=
  let r := fillFrom f.descriptor descriptorFields false r
  let r := fillFrom f.manifest manifestFields true r
  if r.hasCoordinates then r else fillFromName suffixes name r

/-- One line of the manifest in short. -/
def snapshotLine (manifest : Dictionary Text Text) (name : Text) : Text :=
  name ++ Text.ofString ": " ++ (manifest.get? name).getD "None"

/-- The manifest in short: title, version and vendor. -/
def snapshot (manifest : Dictionary Text Text) : Text :=
  Text.joinWith "\n"
    ([Text.ofString "Implementation-Title", Text.ofString "Implementation-Version",
      Text.ofString "Implementation-Vendor"].map (snapshotLine manifest))

end Findings

namespace Inspector

/-- The name is that of an archive. -/
def isArchiveName (i : Inspector) (name : Text) : Bool :=
  FileName.hasSuffix name i.suffixes

/-- The scope that a path suggests. -/
def scopeOf (i : Inspector) (lowered : Text) : Text :=
  match i.scopeRules.find? fun rule => rule.1.any fun m => lowered.includes m with
  | some rule => rule.2
  | none => "compile"

/-- A path suggests a direct dependency if no mark of an indirect one is part of it. -/
def isDirectAt (i : Inspector) (lowered : Text) : Bool :=
  !i.indirectMarks.any fun m => lowered.includes m

/-- The record that follows from the findings in a file. -/
def recordOf (i : Inspector) (path : Path) (size : Nat) (checksum : Text) (f : Findings) :
    Record :=
  let start : Record :=
    { filePath := some path.toText, fileSize := size, checksum := some checksum
      manifestInfo := f.manifest.map Findings.snapshot }
  let r := f.coordinates i.suffixes path.name start
  let lowered := path.toText.lower
  { r with
    scope := some (i.scopeOf lowered)
    isDirect := i.isDirectAt lowered }

/-- The record of a path and the bytes of its file. -/
def describe (i : Inspector) (path : Path) (bytes : ByteArray) :
    Except Inspection.Fault Record × List Notice :=
  match i.checksum path bytes.size with
  | none => (.error .noChecksum, [])
  | some checksum =>
    match Inspection.readFindings bytes with
    | (.error f, notices) => (.error (.archive f), notices)
    | (.ok findings, notices) => (.ok (i.recordOf path bytes.size checksum findings), notices)

/-- An attempt as its caller sees it: a record, or none and a notice why. -/
def settle (attempt : Except Inspection.Fault Record × List Notice) :
    Option Record × List Notice :=
  match attempt with
  | (.ok r, notices) => (some r, notices)
  | (.error f, notices) => (none, notices ++ [f.notice])

/-- The record of a path on a disk. Whether a file is there is asked of the path
    as it is, and the file is read from the path as it is seen from the root,
    which may be too long where the path itself is not. -/
def attempt (i : Inspector) (d : Disk) (path : Path) :
    Except Inspection.Fault Record × List Notice :=
  match d.fileAt path with
  | .error _ => (.error .unwalkable, [])
  | .ok none => (.error .notFound, [])
  | .ok (some _) =>
    match d.fileAt (d.absolute path) with
    | .ok (some bytes) => i.describe (d.absolute path) bytes
    | _ => (.error .unwalkable, [])

/-- The record of a path on a disk, if there is one. -/
def inspect (i : Inspector) (d : Disk) (path : Path) : Option Record × List Notice :=
  settle (i.attempt d path)

/-- The directory of a scratch copy. -/
def scratchDirectory (i : Inspector) (serial : Nat) : Path :=
  .parse (i.scratch serial)

/-- Where a scratch copy of a member lies. -/
def scratchPath (i : Inspector) (serial : Nat) (name : Text) : Path :=
  (i.scratchDirectory serial).child name

/-- The record of a scratch copy of a member, marked with its number. -/
def inspectCopy (i : Inspector) (name : Text) (bytes : ByteArray) (serial : Nat) :
    Option Record × List Notice :=
  let (r, notices) := settle (i.describe (i.scratchPath serial name) bytes)
  (r.map fun r => { r with copySerial := some serial }, notices)

end Inspector

end ArchiveCensus
