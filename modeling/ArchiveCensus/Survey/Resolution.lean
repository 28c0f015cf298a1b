import ArchiveCensus.Disk.Search
import ArchiveCensus.Inspection
import ArchiveCensus.Location

/-!
# Resolving Locations

What a location leads to when nothing is remembered: the record of a file, or
of a member of an archive that is copied to a scratch file first. A location
may also lead to nothing, or fail.

This is the yardstick for the survey, which answers the same from memory where
it can.

## Main definitions

* `Surroundings`: The inspector and the disk.
* `Resolution.Fault`: Why a location leads nowhere.
* `Resolution`: The record of a location, if any, and what happened on the way.
* `Surroundings.member?`: The member that a scratch copy is made of.
* `Surroundings.resolveFile`, `Surroundings.resolveNested`: The record of a path
  and of a nested URL.
-/

namespace ArchiveCensus

/-- What a survey looks at. -/
structure Surroundings where
  inspector : Inspector := {}
  disk : Disk

namespace Resolution

/-- Why a location leads nowhere. -/
inductive Fault where
  /-- The URL names no archive. -/
  | location (f : Location.Fault)
  /-- The outer archive is not there. -/
  | noFile (path : Text)
  /-- The outer archive cannot be read. -/
  | archive (f : Archive.Fault)
  /-- A path cannot be walked, or a copy has too long a name. -/
  | nameTooLong
  /-- The copy would have the name of a directory. -/
  | copyIsDirectory
  /-- The item is no text. -/
  | notText
  /-- The end of names is no pattern. -/
  | badPattern
  /-- The source cannot be asked whether it has a list. -/
  | sourceUnreadable
  /-- The source cannot be asked for its parent. -/
  | parentUnreadable
deriving DecidableEq

/-- The wording of a fault, where it has one. -/
def Fault.message? : Fault → Option Text
  | .location .notUrl => none
  | .location f => some f.message
  | .noFile path => some (Text.ofString "Archive not found or not a regular file: " ++ path)
  | _ => none

end Resolution

/-- The record of a location, if any, and what happened on the way. -/
structure Resolution where
  record : Except Resolution.Fault (Option Record)
  notices : List Notice := []
  /-- How many files were inspected. -/
  inspected : Nat := 0

namespace Resolution

/-- Nothing was inspected. -/
def failed (f : Fault) : Resolution :=
  { record := .error f }

/-- Nothing is there, and nothing was inspected. -/
def empty : Resolution :=
  { record := .ok none }

/-- One file was inspected. -/
def ofInspection (answer : Option Record × List Notice) : Resolution :=
  { record := .ok answer.1, notices := answer.2, inspected := 1 }

end Resolution

namespace Surroundings

/-- The record of a path. -/
def resolveFile (w : Surroundings) (p : Path) : Resolution :=
  .ofInspection (w.inspector.inspect w.disk p)

/-- The name that a scratch copy of an entry gets. -/
def copyName (entry : Text) : Text :=
  (Path.parse entry).name

/-- The bytes of the member `entry` of the archive in `bytes`, if it is an
    archive by its name. -/
def memberOf (i : Inspector) (bytes : ByteArray) (entry : Text) :
    Except Resolution.Fault (Option ByteArray) :=
  match Archive.open? bytes with
  | .error f => .error (.archive f)
  | .ok a =>
    match a.find? entry with
    | none => .ok none
    | some (n, e) =>
      if entry.endsWith "/" || !i.isArchiveName entry then .ok none
      else
        match a.packed n e with
        | .error f => .error (.archive f)
        | .ok bytes =>
          if copyName entry = [] ∨ copyName entry = Text.ofString ".." then
            .error .copyIsDirectory
          else if Disk.isTooLong (copyName entry) then .error .nameTooLong
          else
            match e.unpack .pieces bytes with
            | .error f => .error (.archive f)
            | .ok content => .ok (some content)

/-- The member that a scratch copy is made of, by outer path and entry. -/
def member? (w : Surroundings) (outer entry : Text) :
    Except Resolution.Fault (Option ByteArray) :=
  match w.disk.fileAt (.parse outer) with
  | .error _ => .error .nameTooLong
  | .ok none => .error (.noFile outer)
  | .ok (some bytes) => memberOf w.inspector bytes entry

/-- The record of a nested URL, its scratch copy being number `serial`. -/
def resolveNested (w : Surroundings) (url : Text) (serial : Nat) : Resolution :=
  match Location.splitNested url with
  | .error f => .failed (.location f)
  | .ok (outer, entry) =>
    match w.member? outer entry with
    | .error f => .failed f
    | .ok none => .empty
    | .ok (some content) =>
      let (record, notices) := w.inspector.inspectCopy (copyName entry) content serial
      let parent := (w.disk.absolute (.parse outer)).toText
      .ofInspection (record.map fun r => r.withParent (some parent), notices)

/-- The path of a URL that is not nested, if an archive lies there. -/
def archivePath? (w : Surroundings) (url : Text) : Except Resolution.Fault (Option Path) :=
  match Location.filePath url with
  | .error f => .error (.location f)
  | .ok p =>
    match w.disk.isFile p with
    | .error _ => .error .nameTooLong
    | .ok there => .ok (if there && w.inspector.isArchiveName p.name then some p else none)

/-- A URL of a member of an archive. -/
def isNestedUrl (url : Text) : Bool :=
  url.startsWith "jar:"

/-- The record of a URL. -/
def resolveUrl (w : Surroundings) (url : Text) (serial : Nat) : Resolution :=
  if isNestedUrl url then w.resolveNested url serial
  else
    match w.archivePath? url with
    | .error f => .failed f
    | .ok none => .empty
    | .ok (some p) => w.resolveFile p

/-- The paths below a directory with the given ends of names, up to the first
    end with which no search can be made. -/
def pathsBelow (w : Surroundings) (p : Path) (place : List Text) :
    (suffixes : List Text) → List Path × Option Resolution.Fault
  | [] => ([], none)
  | suffix :: rest =>
    match Disk.Ending.ofText? suffix with
    | none => ([], some .badPattern)
    | some ending =>
      match w.disk.hits? p place ending with
      | .error _ => ([], some .nameTooLong)
      | .ok hits =>
        let more := w.pathsBelow p place rest
        (hits ++ more.1, more.2)

/-- The paths that a path argument stands for, and the fault that ends them if
    there is one: all archives below a directory, and else the path itself. -/
def pathsOf (w : Surroundings) (p : Path) : List Path × Option Resolution.Fault :=
  match w.disk.find p with
  | .error _ => ([], some .nameTooLong)
  | .ok (some (place, .directory)) => w.pathsBelow p place w.inspector.suffixes
  | .ok _ => ([p], none)

end Surroundings

end ArchiveCensus
