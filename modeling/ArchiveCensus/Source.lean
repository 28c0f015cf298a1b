import ArchiveCensus.Location
import ArchiveCensus.Text.Quoted

/-!
# Sources of Locations

A source lists the URLs of the archives that it makes available, and may have a
parent. Sources belong to the host: some have no list at all, some fail when
they are asked, some list things that are no URLs, and chains of parents may
close in a circle or never end.

Sources are told apart by number, as two sources with the same list are still
two.

## Main definitions

* `Offer`, `ParentLink`, `Source`: What a source answers when it is asked.
* `Sources`: The source of each number.
* `PathList`: A source made of paths and URLs.
* `systemEntries`: The paths of the source that belongs to the process.
-/

namespace ArchiveCensus

/-- By which sources are told apart. -/
abbrev SourceId := Nat

/-- What comes of asking a source for its list. -/
inductive Offer where
  /-- It has no list. -/
  | nothing
  /-- Even looking for a list fails. -/
  | unreadable
  /-- It has a list and fails to give it. -/
  | failing
  /-- Its list; an item that is no text is absent. -/
  | items (urls : List (Option Text))

/-- What comes of asking a source for its parent. -/
inductive ParentLink where
  | root
  | parent (id : SourceId)
  /-- Asking fails. -/
  | unreadable

/-- What a source answers when it is asked. -/
structure Source where
  offer : Offer := .nothing
  parent : ParentLink := .root

/-- The source of each number. -/
abbrev Sources := SourceId → Source

/-- A source made of paths and URLs. -/
structure PathList where
  urls : List Text
  name : Text := "path-list"

namespace PathList

/-- The source of entries that are paths seen from `base`, or URLs. It cannot be
    made if some path has no name on disks. -/
def ofEntries? (base : Path) (entries : List Text) (name : Text) : Option PathList :=
  (entries.mapM (Location.toUrl? base)).map fun urls => { urls, name }

/-- How a message shows the source. -/
def describe (p : PathList) : Text :=
  Text.ofString "PathListLoader(name=" ++ p.name.quoted ++ Text.ofString ", urls="
    ++ Text.ofNat p.urls.length ++ Text.ofString ")"

/-- The list as it answers. -/
def offer (p : PathList) : Offer :=
  .items (p.urls.map some)

end PathList

/-- Texts without empty ones and without repetitions. -/
def distinctEntries (entries : List Text) : List Text :=
  entries.foldl (fun seen e => if e.isEmpty || e ∈ seen then seen else seen ++ [e]) []

/-- The paths of a search path variable. -/
def searchPath (listed : Option Text) : List Text :=
  (Text.pieces ':' (listed.getD [])).filter (!·.isEmpty)

/-- The paths of the source that belongs to the process: those of its own search
    path, then those of the variable, each once. -/
def systemEntries (own : List Text) (listed : Option Text) : List Text :=
  distinctEntries (own ++ searchPath listed)

end ArchiveCensus
