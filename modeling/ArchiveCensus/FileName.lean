import ArchiveCensus.Text.Search

/-!
# Archive File Names

A file name without its archive suffix reads `artifact-version`, cut at the
last hyphen. A hyphen at the very start cuts nothing.

## Main definitions

* `FileName.stripSuffix`: A name without the first suffix that ends it.
* `FileName.hasSuffix`: Some suffix ends the name.
* `FileName.split`: Artifact, version and classifier in a stem.
-/

namespace ArchiveCensus

/-- The word for a coordinate that was looked for and not found. -/
def unknown : Text := "unknown"

namespace FileName

/-- Some suffix ends the name. -/
def hasSuffix (name : Text) (suffixes : List Text) : Bool :=
  suffixes.any fun s => name.endsWith s

/-- The name without the first suffix that ends it. An empty suffix ends every
    name and takes the whole of it. -/
def stripSuffix (name : Text) : List Text → Text
  | [] => name
  | s :: rest =>
    if name.endsWith s then
      if s.isEmpty then [] else name.take (name.length - s.length)
    else stripSuffix name rest

/-- What a stem tells. -/
structure Parts where
  artifact : Text
  version : Text
  classifier : Option Text
deriving DecidableEq

/-- The last hyphen parts the artifact from a tail; a hyphen inside the tail
    parts version from classifier. Without a hyphen to cut at, the stem is the
    artifact and the version unknown. -/
def split (stem : Text) : Parts :=
  match Text.cutAtLast? '-' stem with
  | none => ⟨stem, unknown, none⟩
  | some ([], _) => ⟨stem, unknown, none⟩
  | some (artifact, tail) =>
    match Text.cutAtLast? '-' tail with
    | some (v :: version, classifier) => ⟨artifact, v :: version, some classifier⟩
    | _ => ⟨artifact, tail, none⟩

end FileName

end ArchiveCensus
