import ArchiveCensus.PackageUrl
import ArchiveCensus.Value

/-!
# Events

What a receiver is told of one archive: a name made of its coordinates, its
package URL, and attributes.

A name is sanitized in five steps: characters outside a small set become
hyphens, runs of hyphens one hyphen, hyphens at the ends go, a name that then
does not start with a letter or digit is put behind `dep-`, and letters turn to
lower case.

## Main definitions

* `Event`: One event.
* `Event.sanitize`: A text as part of an event name.
* `Event.nameOf`: The event name of a record.
* `Event.attributesOf`: The attributes of a record.
* `Event.ofRecord`: The event of a record.
-/

namespace ArchiveCensus

/-- What a receiver is told. -/
structure Event where
  name : Text
  purl : Text
  attributes : Attributes

namespace Event

/-- Two events are the same when name and package URL agree. -/
def sameAs (a b : Event) : Bool :=
  a.name = b.name && a.purl = b.purl

/-- What may stand in an event name. -/
def isNamePart (c : CodePoint) : Bool :=
  c.isAlphanumeric || c = '-' || c = '_' || c = '.'

/-- Each run of hyphens as one. -/
def squeeze : Text → Text
  | [] => []
  | [c] => [c]
  | c :: d :: rest =>
    if c = '-' ∧ d = '-' then squeeze (d :: rest) else c :: squeeze (d :: rest)

/-- A hyphen. -/
def isHyphen (c : CodePoint) : Bool :=
  c = '-'

/-- A text that starts with a letter or a digit. -/
def startsWell : Text → Bool
  | [] => false
  | c :: _ => c.isAlphanumeric

/-- A text as part of an event name, `unknown` for nothing. -/
def sanitize : Option Text → Text
  | none => unknown
  | some t =>
    if t.isBlank then unknown
    else
      let parts := t.map fun c => if isNamePart c then c else CodePoint.ofChar '-'
      let bare := Text.dropBoth isHyphen (squeeze parts)
      (if startsWell bare then bare else Text.ofString "dep-" ++ bare).map CodePoint.lowerAscii

/-- The group of a record, if it is worth naming. -/
def namedGroup (r : Record) : Option Text :=
  r.group.filter fun g => !g.isBlank && g ≠ unknown

/-- `dependency.`, the group with a dot if there is one, and the artifact. -/
def nameOf (r : Record) : Text :=
  let artifact := (r.artifact.filter (!·.isBlank)).getD PackageUrl.fallbackName
  let group :=
    match namedGroup r with
    | none => []
    | some g => sanitize (some g) ++ Text.ofString "."
  Text.ofString "dependency." ++ group ++ sanitize (some artifact)

/-- The text of a field, `unknown` if it is absent or empty. -/
def orUnknown (t : Option Text) : Value :=
  .text ((PackageUrl.present t).getD unknown)

/-- An attribute for a text that is neither absent nor empty. -/
def ifPresent (key : Text) (t : Option Text) : List (Text × Value) :=
  (PackageUrl.present t).toList.map fun t => (key, .text t)

/-- The attributes of a record. -/
def attributesOf (r : Record) (purl : Text) : Attributes :=
  [(Text.ofString "dependency.purl", .text purl),
    (Text.ofString "dependency.name", orUnknown r.artifact),
    (Text.ofString "dependency.type", .ofOption r.packageType),
    (Text.ofString "dependency.version", orUnknown r.version),
    (Text.ofString "code.namespace", orUnknown r.group),
    (Text.ofString "code.function", orUnknown r.artifact),
    (Text.ofString "dependency.scope", .text ((PackageUrl.present r.scope).getD "compile")),
    (Text.ofString "dependency.direct", .bool r.isDirect)]
    ++ ifPresent "dependency.classifier" r.classifier
    ++ ifPresent "dependency.file.path" r.filePath
    ++ (if r.fileSize > 0 then [(Text.ofString "dependency.file.size", .int r.fileSize)] else [])
    ++ ifPresent "dependency.checksum" r.checksum
    ++ r.parent.toList.map fun p => (Text.ofString "dependency.parent", .text p)

/-- The event of a record, and what there is to say. -/
def ofRecord (m : PackageUrl.Maker) (r : Record) : Event × List Notice :=
  let (purl, notices) := m.generate (some r)
  ({ name := nameOf r, purl, attributes := attributesOf r purl }, notices)

end Event

end ArchiveCensus
