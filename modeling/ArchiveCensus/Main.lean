import ArchiveCensus.CommandLine.Listing

/-!
# The Command Line

Copies what the arguments lead to from the real disk into a `Disk`, runs one of
the two programs on it, and prints what comes of it. The first argument
`listing` asks for the listing program, everything else goes to the census
program.

Only the content of files that a scan may open is read.

## Main definitions

* `Loading.loadBelow`: Copies a directory.
* `Loading.load`: Copies what a path leads to.
* `main`: Runs a program.
-/

namespace ArchiveCensus

namespace Loading

/-- How deep directories are copied. -/
def deepest : Nat := 64

/-- The names in a directory, if there is one. -/
def namesIn (path : String) : IO (Option (List String)) := do
  try
    let entries ← (← IO.FS.realPath path).readDir
    return some (entries.toList.map fun e => e.fileName)
  catch _ => return none

/-- The content of a file, if there is one. -/
def contentOf (path : String) : IO (Option ByteArray) := do
  try
    return some (← IO.FS.readBinFile path)
  catch _ => return none

/-- Copies what lies at `path` to a place of the disk, down to a depth. -/
def loadBelow : (depth : Nat) → (path : String) → (place : List Text) → Disk → IO Disk
  | 0, _, _, disk => return disk
  | depth + 1, path, place, disk => do
    match ← namesIn path with
    | some names =>
      names.foldlM (fun disk name =>
        loadBelow depth (path ++ "/" ++ name) (place ++ [Text.ofString name]) disk)
        (disk.put place .directory)
    | none =>
      match ← contentOf path with
      | some content => return disk.put place (.file content)
      | none => return disk

/-- The places of the directories on the way, two dots leading back. -/
def placesOn (parts : List Text) : List (List Text) :=
  (parts.foldl (fun (places : List (List Text)) part =>
    let last := places.headD []
    (if part = Text.ofString ".." then last.dropLast else last ++ [part]) :: places) [[]]).reverse

/-- Copies what a path leads to, with the directories on the way. -/
def load (base : Path) (disk : Disk) (path : String) : IO Disk := do
  let places := placesOn (Path.absolute base (.parse path)).parts
  let disk ← loadBelow deepest path (places.getLastD []) disk
  return places.dropLast.foldl (fun d place =>
    if place.isEmpty || (d.nodeAt? place).isSome then d else d.put place .directory) disk

/-- The variables that the programs look at, as far as they are set. -/
def environment : IO Environment := do
  let mut found := []
  for name in ["CLASSPATH", "DEPSENTINEL_LOG_LEVEL"] do
    if let some value ← IO.getEnv name then
      found := found ++ [(Text.ofString name, Text.ofString value)]
  return found

/-- A text for printing. -/
def printable (t : Text) : String :=
  String.ofList (t.map fun c => Char.ofNat c.val)

/-- What the programs see. -/
def session (args : List String) : IO CommandLine.Session := do
  let base := Path.parse (← IO.currentDir).toString
  let environment ← environment
  let listed := searchPath (environment.get? CommandLine.Session.searchVariable)
  let start : Disk := { nodes := [(base.parts, .directory)], current := base.parts }
  let disk ← (args ++ listed.map printable).foldlM (load base) start
  return { disk, environment }

end Loading

end ArchiveCensus

open ArchiveCensus in
/-- Runs a program. -/
def main (args : List String) : IO UInt32 := do
  let session ← Loading.session args
  let texts := args.map Text.ofString
  let outcome :=
    match args with
    | "listing" :: _ =>
      match CommandLine.Listing.run session texts.tail with
      | .ok outcome => outcome
      | .error _ => .failure (CommandLine.line "Error: a path cannot be walked")
    | _ => CommandLine.Census.run session texts
  IO.print (Loading.printable outcome.output)
  IO.eprint (Loading.printable outcome.errors)
  return UInt32.ofNat outcome.status
