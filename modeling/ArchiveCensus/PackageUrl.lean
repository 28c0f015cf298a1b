import ArchiveCensus.Notice
import ArchiveCensus.Path
import ArchiveCensus.Record

/-!
# Package URLs

A package URL names an archive by its coordinates:
`pkg:maven/group/artifact@version?classifier=c` where there is a group, and
`pkg:generic/name@version` where there is none. Each part is encoded on its
own, keeping slashes and colons; so neither `@` nor `?` can come from a part,
and the last `@` always stands before the version.

A part that has no UTF-8 form cannot be encoded. It is written with an
underscore for everything but unreserved characters, and a notice says so.

## Main definitions

* `PackageUrl`: The parts before they are encoded.
* `PackageUrl.encodePart`: One part in writing.
* `PackageUrl.kindOf`: Which kind of package a record describes.
* `PackageUrl.ofRecord`, `PackageUrl.fallback`: The URL of a record, and the one
  that stands in when its kind cannot be told.
* `PackageUrl.render`: The URL in writing.
* `PackageUrl.Parts`, `PackageUrl.parse`: What can be read off a written URL.
-/

namespace ArchiveCensus

/-- The parts of a package URL, not yet encoded. -/
structure PackageUrl where
  type : Text
  group : Option Text
  name : Text
  version : Option Text
  classifier : Option Text

namespace PackageUrl

/-- The name of a record that has none. -/
def fallbackName : Text := "unknown-dependency"

/-- What a written part keeps literally. -/
def keptInPart (c : CodePoint) : Bool :=
  c.isUnreserved || c = '/' || c = ':'

/-- A part with everything but unreserved characters blotted out. -/
def blot (t : Text) : Text :=
  t.map fun c => if c.isUnreserved then c else '_'

/-- One part in writing. -/
def encodePart (t : Text) : Text :=
  match Utf8.encode? t with
  | some bytes => Percent.encodeBytes keptInPart bytes
  | none => blot t

/-- What writing a part has to say. -/
def partNotices (t : Text) : List Notice :=
  if t.isScalar then [] else [.warning "purl.encode_failed"]

/-- The kind of package that a record describes. -/
inductive Kind where
  | maven
  | gradle
  | generic
deriving DecidableEq

/-- The word for a kind. -/
def Kind.name : Kind → String
  | maven => "maven"
  | gradle => "gradle"
  | generic => "generic"

/-- A part that is neither absent nor empty. -/
def present (t : Option Text) : Option Text :=
  t.filter (!·.isEmpty)

/-- A version worth writing: not absent, empty or unknown. -/
def knownVersion (t : Option Text) : Option Text :=
  (present t).filter (· ≠ unknown)

/-- Parts of a path by which a repository can be told. -/
def repositoryMarks : List Text :=
  ["/maven/", "/.m2/", "/repository/"]

/-- The kind of package of a record: by its coordinates if it has a group, else
    by where its file lies. -/
def kindOf (r : Record) : Kind :=
  let grouped :=
    match r.group with
    | some g => r.artifact.isSome && !g.isBlank && g ≠ unknown
    | none => false
  if grouped then .maven
  else
    match r.filePath with
    | none => .generic
    | some path =>
      if path.includes ".gradle" then .gradle
      else if repositoryMarks.any fun m => path.includes m then .maven
      else .generic

/-- The URL of an archive with a group. -/
def grouped (r : Record) : PackageUrl :=
  { type := "maven"
    group := some ((present r.group).getD unknown)
    name := (present r.artifact).getD unknown
    version := knownVersion r.version
    classifier := present r.classifier }

/-- The file name of a record without its archive suffix. -/
def nameOfFile (suffixes : List Text) (r : Record) : Option Text :=
  (present r.filePath).map fun path => FileName.stripSuffix (Path.parse path).name suffixes

/-- The URL of an archive without a group: named by its artifact, else by its
    file. -/
def ungrouped (suffixes : List Text) (r : Record) : PackageUrl :=
  { type := "generic"
    group := none
    name := ((present r.artifact).or (present (nameOfFile suffixes r))).getD unknown
    version := knownVersion r.version
    classifier := none }

/-- The URL of a record whose kind cannot be told. -/
def fallback (r : Record) : PackageUrl :=
  { type := "generic"
    group := none
    name := (present r.artifact).getD fallbackName
    version := some ((present r.version).getD unknown)
    classifier := none }

/-- The URL of a record of a known kind. -/
def ofKind (suffixes : List Text) (kind : Kind) (r : Record) : PackageUrl :=
  match kind with
  | .maven | .gradle => grouped r
  | .generic => ungrouped suffixes r

/-- The URL of a record. -/
def ofRecord (suffixes : List Text) (r : Record) : PackageUrl :=
  ofKind suffixes (kindOf r) r

/-- A part in writing behind a mark, or nothing for a part that is absent. -/
def marked (mark : Text) : Option Text → Text
  | none => []
  | some t => mark ++ encodePart t

/-- The URL in writing. -/
def render (u : PackageUrl) : Text :=
  Text.ofString "pkg:" ++ u.type ++ Text.ofString "/"
    ++ (match u.group with | none => [] | some g => encodePart g ++ Text.ofString "/")
    ++ encodePart u.name
    ++ marked "@" u.version
    ++ marked "?classifier=" u.classifier

/-- What writing a URL has to say. -/
def notices (u : PackageUrl) : List Notice :=
  (u.group.toList ++ [u.name] ++ u.version.toList ++ u.classifier.toList).flatMap partNotices

/-- How the URLs of records are made. -/
structure Maker where
  suffixes : List Text := [".jar"]
  /-- Telling the kind of a record fails, as it may where a host replaces it. -/
  kindFails : Bool := false

/-- The written URL of a record, and what there is to say. -/
def Maker.generate (m : Maker) (r : Option Record) : Text × List Notice :=
  match r with
  | none => ((fallback {}).render, (fallback {}).notices)
  | some r =>
    if m.kindFails then
      ((fallback r).render, .warning "purl.generate_failed" :: (fallback r).notices)
    else ((ofRecord m.suffixes r).render, (ofRecord m.suffixes r).notices)

/-- What can be read off a written URL; all empty when it is none. -/
structure Parts where
  scheme : Text := []
  type : Text := []
  group : Text := []
  name : Text := []
  version : Text := []
deriving DecidableEq

/-- A text that can be read as a package URL. -/
def isValid (t : Text) : Bool :=
  t.startsWith "pkg:" && t.contains (CodePoint.ofChar '/')

/-- The sides of the last `sep`, everything on the right when there is none. -/
def cutGroup (t : Text) : Text × Text :=
  (Text.cutAtLast? '/' t).getD ([], t)

/-- The sides of the last `@`, everything on the left when there is none. -/
def cutVersion (t : Text) : Text × Text :=
  (Text.cutAtLast? '@' t).getD (t, [])

/-- Takes a written URL apart: the type ends at the first slash, the version
    begins after the last `@`, and the name after the last slash before that.
    Parts stay encoded, and qualifiers stay with the version. -/
def parse (t : Text) : Parts :=
  if isValid t then
    match Text.cutAt? '/' (t.drop 4) with
    | none => {}
    | some (type, rest) =>
      let (path, version) := cutVersion rest
      let (group, name) := cutGroup path
      { scheme := "pkg", type, group, name, version }
  else {}

end PackageUrl

end ArchiveCensus
