import ArchiveCensus.Path

/-!
# Disks

What lies on a disk, and what a path leads to. A path is walked component by
component from where it starts, so `a/..` leads nowhere unless `a` is a
directory. A text that disks cannot name leads nowhere either; a path with too many
bytes is an error of its own, and so is a component with too many, once the walk gets
as far as it.

Links and permissions are left out: a node is what it is by its one place, and
everything may be listed and read. A search below a directory comes to paths by listing,
and the limits are not applied to those.

## Main definitions

* `Node`: A file or a directory.
* `Disk`: Nodes by the components that lead to them from the root, and the
  directory in which relative paths start.
* `Disk.find`: What a path leads to.
* `Disk.isFile`, `Disk.isDirectory`, `Disk.exists?`: Tests of a path.
-/

namespace ArchiveCensus

/-- A file or a directory. -/
inductive Node where
  | file (content : ByteArray)
  | directory

/-- A directory, not a file. -/
def Node.isDirectory : Node → Bool
  | .directory => true
  | .file _ => false

/-- Nodes below the root, and the current directory. -/
structure Disk where
  nodes : List (List Text × Node)
  current : List Text

namespace Disk

/-- Why a walk fails without an answer. -/
inductive Fault where
  | nameTooLong
deriving DecidableEq

/-- The node that components lead to, without looking at dots. -/
def nodeAt? (d : Disk) : List Text → Option Node
  | [] => some .directory
  | place => (d.nodes.find? fun n => n.1 = place).map Prod.snd

/-- The greatest number of bytes in a component. -/
def longestName : Nat := 255

/-- The greatest number of bytes in a path. -/
def longestPath : Nat := 4095

/-- A component has too many bytes. -/
def isTooLong (component : Text) : Bool :=
  ((Path.encode? component).map List.length).getD 0 > longestName

/-- Where components lead from a place. -/
def walk (d : Disk) (place : List Text) :
    List Text → Except Fault (Option (List Text × Node))
  | [] => .ok ((d.nodeAt? place).map fun n => (place, n))
  | c :: rest =>
    match d.nodeAt? place with
    | some .directory =>
      if c = Text.ofString ".." then d.walk place.dropLast rest
      else if isTooLong c then .error .nameTooLong
      else d.walk (place ++ [Path.onDisk c]) rest
    | _ => .ok none

/-- Where a path starts. -/
def startOf (d : Disk) (p : Path) : List Text :=
  match p.anchor with
  | .here => d.current
  | _ => []

/-- The place and the node that a path leads to. -/
def find (d : Disk) (p : Path) : Except Fault (Option (List Text × Node)) :=
  match Path.encode? p.toText with
  | none => .ok none
  | some bytes =>
    if bytes.contains 0 then .ok none
    else if bytes.length > longestPath then .error .nameTooLong
    else d.walk (d.startOf p) p.parts

/-- The content of the file that a path leads to, if it leads to one. -/
def fileAt (d : Disk) (p : Path) : Except Fault (Option ByteArray) :=
  (d.find p).map fun
    | some (_, .file content) => some content
    | _ => none

/-- The path leads to a file. -/
def isFile (d : Disk) (p : Path) : Except Fault Bool :=
  (d.fileAt p).map Option.isSome

/-- The path leads to a directory. -/
def isDirectory (d : Disk) (p : Path) : Except Fault Bool :=
  (d.find p).map fun
    | some (_, .directory) => true
    | _ => false

/-- The path leads somewhere. -/
def exists? (d : Disk) (p : Path) : Except Fault Bool :=
  (d.find p).map Option.isSome

/-- The current directory as a path. -/
def base (d : Disk) : Path :=
  ⟨.root, d.current⟩

/-- A path as it is seen from the root. -/
def absolute (d : Disk) (p : Path) : Path :=
  Path.absolute d.base p

/-- The disk with a node at a place, and directories on the way to it. -/
def put (d : Disk) (place : List Text) (n : Node) : Disk :=
  let parents := (List.range place.length).tail.map fun i => place.take i
  let missing := parents.filter fun p => (d.nodeAt? p).isNone
  { d with
    nodes := (d.nodes.filter fun x => x.1 ≠ place) ++ (missing.map fun p => (p, .directory))
      ++ [(place, n)] }

/-- The disk without the node at a place and all below it. -/
def remove (d : Disk) (place : List Text) : Disk :=
  { d with nodes := d.nodes.filter fun x => !place.isPrefixOf x.1 }

end Disk

end ArchiveCensus
