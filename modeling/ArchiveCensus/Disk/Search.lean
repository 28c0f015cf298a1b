import ArchiveCensus.Disk
import ArchiveCensus.Disk.Pattern

/-!
# Searching Directories

All that lies below a directory and ends in a given text, at any depth, hidden
names and directories included. The text is the end of a pattern that starts
with a star, so stars, question marks and brackets in it are wild, and a slash
in it asks for a component more.

A search walks from the directory stage by stage, one component of the pattern
at a time. Hits are sorted by their components, whose order is that of code
points, and none is listed twice.

Three things are left out that a search may meet on a real disk: links, which it would
not follow, directories that it may not list, and paths that get too long on the way
down. Here it goes as deep as the directories do.

## Main definitions

* `Disk.Stage`: A component of a pattern.
* `Disk.Ending`: A text as the end of a pattern.
* `Disk.reach`: Where the stages of a pattern lead.
* `Disk.hits?`: The paths below a directory that fit.

## Theorems

* `mem_of_gather`: What is found from several places is found from one of them.
-/

namespace ArchiveCensus

namespace Disk

/-- A component of a pattern. -/
inductive Stage where
  /-- A directory at any depth, or the one that the search has come to. -/
  | anyDepth
  /-- A name that fits. -/
  | fitting (p : Pattern)
  /-- This name, or two dots. -/
  | named (t : Text)

/-- What the end of a hit has to look like. -/
structure Ending where
  stages : List Stage
  /-- Only directories are hits. -/
  directoriesOnly : Bool

/-- Two stars next to each other. -/
def hasDoubleStar (t : Text) : Bool :=
  t.includes "**"

/-- A code point that is wild in a pattern. -/
def isWild (c : CodePoint) : Bool :=
  c = '*' || c = '?' || c = '['

/-- The component of a pattern that a text denotes. Two stars are none unless
    they stand alone. -/
def Stage.ofText? (t : Text) : Option Stage :=
  if t = Text.ofString "**" then some .anyDepth
  else if hasDoubleStar t then none
  else if t.any isWild then some (.fitting (.parse t))
  else some (.named t)

/-- The end of a pattern that a text denotes behind a star. -/
def Ending.ofText? (t : Text) : Option Ending :=
  let pattern : Text := CodePoint.ofChar '*' :: t
  ((Path.components pattern).mapM Stage.ofText?).map fun stages =>
    { stages, directoriesOnly := pattern.endsWith "/" }

/-- What lies below a place: components and nodes. -/
def below (d : Disk) (place : List Text) : List (List Text × Node) :=
  d.nodes.filterMap fun x =>
    if place.isPrefixOf x.1 && place.length < x.1.length then
      some (x.1.drop place.length, x.2)
    else none

/-- A path on a search, and the place where it leads. -/
structure Spot where
  path : Path
  place : List Text

namespace Spot

/-- The spot further down. -/
def descend (s : Spot) (components : List Text) : Spot :=
  ⟨{ s.path with parts := s.path.parts ++ components }, s.place ++ components⟩

end Spot

/-- The directory at a spot and all directories below it. -/
def directoriesFrom (d : Disk) (s : Spot) : List Spot :=
  s :: ((d.below s.place).filter fun x => x.2.isDirectory).map fun x => s.descend x.1

/-- The nodes right below a spot whose names fit. -/
def childrenOf (d : Disk) (s : Spot) (p : Pattern) (directoriesOnly : Bool) : List Spot :=
  (d.below s.place).filterMap fun x =>
    match x.1 with
    | [name] =>
      if p.fits name && (!directoriesOnly || x.2.isDirectory) then some (s.descend [name])
      else none
    | _ => none

/-- What a name leads to from a spot, if it leads anywhere. -/
def namedChild (d : Disk) (s : Spot) (name : Text) (directoriesOnly : Bool) :
    Except Fault (List Spot) :=
  let path := s.path.child name
  (d.find path).map fun
    | some (place, n) => if !directoriesOnly || n.isDirectory then [⟨path, place⟩] else []
    | none => []

/-- Where one stage leads from a directory. -/
def advance (d : Disk) (directoriesOnly : Bool) (s : Spot) : Stage → Except Fault (List Spot)
  | .anyDepth => .ok (d.directoriesFrom s)
  | .fitting p => .ok (d.childrenOf s p directoriesOnly)
  | .named t => d.namedChild s t directoriesOnly

/-- What a search finds from each of several places, unless one of them faults. -/
def gather {α β : Type} (search : α → Except Fault (List β)) : List α → Except Fault (List β)
  | [] => .ok []
  | a :: rest =>
    match search a with
    | .error f => .error f
    | .ok found => (gather search rest).map (found ++ ·)

/-- What is found from several places is what is found from one of them. -/
theorem mem_of_gather {α β : Type} {search : α → Except Fault (List β)} {places : List α}
    {found : List β} (h : gather search places = .ok found) (b : β) :
    b ∈ found ↔ ∃ a ∈ places, ∃ here, search a = .ok here ∧ b ∈ here := by
  induction places generalizing found with
  | nil =>
    cases h
    simp
  | cons a rest ih =>
    unfold gather at h
    cases hs : search a with
    | error f => simp [hs] at h
    | ok here =>
      rw [hs] at h
      cases hg : gather search rest with
      | error f => simp [hg, Except.map] at h
      | ok more =>
        simp only [hg, Except.map, Except.ok.injEq] at h
        subst h
        simp [hs, ih hg]

/-- Where stages lead from a directory. All but the last have to lead to
    directories, for the search to go on there. -/
def reach (d : Disk) (directoriesOnly : Bool) : List Stage → Spot → Except Fault (List Path)
  | [], s => .ok [s.path]
  | stage :: rest, s =>
    match d.advance (directoriesOnly || !rest.isEmpty) s stage with
    | .error f => .error f
    | .ok next => gather (d.reach directoriesOnly rest) next

/-- Lists of components in the order of code points. -/
def componentsLe (a b : List Text) : Bool :=
  compare a b != .gt

/-- The paths below the directory `p`, which lies at `place`, that fit. -/
def hits? (d : Disk) (p : Path) (place : List Text) (e : Ending) : Except Fault (List Path) :=
  (d.reach e.directoriesOnly (.anyDepth :: e.stages) ⟨p, place⟩).map fun found =>
    found.eraseDups.mergeSort fun a b => componentsLe a.parts b.parts

end Disk

end ArchiveCensus
