import ArchiveCensus.Proofs.Survey.Resolution
import ArchiveCensus.Survey
import Mathlib.Data.Finset.Union

/-!
# Surveys Without a Memory

What a survey answers if it resolves every location anew. There is no store
here, no clock and no count of copies, so an answer depends on the disk and on
the sources that are asked and on nothing else. Records go without the numbers
of copies and their directories, and a set of records is just a set.

There is one number in it all the same: where a member is inspected its copy has to
lie somewhere, and here it is the copy number zero. For an inspector that is blind to
the directory any other number does as well.

What is kept from the scan is which sources were asked before. That is no
memory of records: asking a source again would change no set, but a source that
cannot be asked at all fails only once.

## Main definitions

* `Afresh.url`, `Afresh.arguments`, `Afresh.items`: Locations.
* `Afresh.source`, `Afresh.chain`: One source, and one with its parents.
* `Afresh.inTurn`: Sources one after the other, up to the first failure.
* `Afresh.stages`, `Afresh.all`: Everything.

## Theorems

* `url_of_nested`, `url_of_plain`: What the record of a URL is the record of.
* `mem_items`: The records of a list are those of the URLs in it.
-/

namespace ArchiveCensus

namespace Survey

namespace Afresh

/-- A set of records, or a fault. -/
abbrev Outcome := Except Resolution.Fault (Finset Record)

section Locations

variable (w : Surroundings)

/-- The record of a URL. -/
def url (u : Text) : Except Resolution.Fault (Option Record) :=
  (w.resolveUrl u 0).record.map (Option.map Record.erased)

/-- The record of a path. -/
def file (p : Path) : Option Record :=
  (w.inspector.inspect w.disk p).1

/-- The records of one path argument: those found before a fault, if there is
    one. -/
def argument (entry : Text) : Finset Record :=
  ((w.pathsOf (.parse entry)).1.filterMap (file w)).toFinset

/-- The records of path arguments. -/
def arguments (entries : List Text) : Finset Record :=
  entries.toFinset.biUnion (argument w)

/-- The record of an item of a list. An item that leads nowhere has none, as has
    one that is no text. -/
def item : Option Text → Option Record
  | none => none
  | some u => (url w u).toOption.join

/-- The records of the items of a list. -/
def items (urls : List (Option Text)) : Finset Record :=
  (urls.filterMap (item w)).toFinset

variable {w}

theorem erased_file (hd : w.disk.Sound) (p : Path) :
    (file w p).map Record.erased = file w p := by
  cases hr : file w p with
  | none => rfl
  | some r =>
      exact congrArg some (Record.erased_eq_self (Inspector.of_inspect_eq_some hd hr).2)

/-- The record of a member, whatever number its copy gets, for a blind inspector. -/
theorem url_of_nested (hi : w.inspector.Blind) {u : Text}
    (h : Surroundings.isNestedUrl u = true) (n : Nat) :
    url w u = (w.resolveNested u n).record.map (Option.map Record.erased) := by
  rw [url, Surroundings.resolveUrl, if_pos h]
  exact Surroundings.erased_resolveNested hi u 0 n

/-- The record of the archive that a URL leads to, if it leads to one. -/
theorem url_of_plain (hd : w.disk.Sound) {u : Text} (h : ¬ Surroundings.isNestedUrl u = true) :
    url w u = (w.archivePath? u).map fun p => p.bind (file w) := by
  rw [url, Surroundings.resolveUrl, if_neg h]
  rcases w.archivePath? u with f | _ | p
  · rfl
  · rfl
  · exact congrArg Except.ok (erased_file hd p)

theorem item_eq_some_iff {x : Option Text} {r : Record} :
    item w x = some r ↔ ∃ u, x = some u ∧ url w u = .ok (some r) := by
  cases x with
  | none => simp only [item, reduceCtorEq, false_and, exists_false]
  | some u =>
      simp only [item, Option.some.injEq, exists_eq_left']
      rcases url w u with f | _ | s
      · simp only [Except.toOption, Option.join_none, reduceCtorEq]
      · simp only [Except.toOption, Option.join_some, reduceCtorEq, Except.ok.injEq]
      · simp only [Except.toOption, Option.join_some, Option.some.injEq, Except.ok.injEq]

/-- The records of a list are those of the URLs in it. -/
theorem mem_items {urls : List (Option Text)} {r : Record} :
    r ∈ items w urls ↔ ∃ u, some u ∈ urls ∧ url w u = .ok (some r) := by
  rw [items, List.mem_toFinset, List.mem_filterMap]
  constructor
  · rintro ⟨x, hx, hr⟩
    rcases item_eq_some_iff.mp hr with ⟨u, rfl, hu⟩
    exact ⟨u, hx, hu⟩
  · rintro ⟨u, hu, hr⟩
    exact ⟨some u, hu, item_eq_some_iff.mpr ⟨u, rfl, hr⟩⟩

end Locations

section Sources

variable (w : Surroundings) (sources : Sources)

/-- What a source makes available. -/
def offered (id : SourceId) : Outcome :=
  match (sources id).offer with
  | .nothing => .ok ∅
  | .unreadable => .error .sourceUnreadable
  | .failing => .ok ∅
  | .items urls => .ok (items w urls)

/-- The records of a source, unless it was asked before, and the sources asked
    so far. -/
def source (id : SourceId) (visited : List SourceId) : Outcome × List SourceId :=
  if id ∈ visited then (.ok ∅, visited) else (offered w sources id, id :: visited)

/-- The records of a source that may be none at all. -/
def sourceIf : Option SourceId → List SourceId → Outcome × List SourceId
  | none, visited => (.ok ∅, visited)
  | some id, visited => source w sources id visited

/-- The records of a source and its parents, `fuel` sources at most. -/
def chainFrom : (fuel : Nat) → Option SourceId → List SourceId → Outcome × List SourceId
  | _, none, visited => (.ok ∅, visited)
  | 0, some _, visited => (.ok ∅, visited)
  | fuel + 1, some id, visited =>
    match source w sources id visited with
    | (.error f, visited) => (.error f, visited)
    | (.ok here, visited) =>
      match (sources id).parent with
      | .root => (.ok here, visited)
      | .unreadable => (.error .parentUnreadable, visited)
      | .parent next =>
        let above := chainFrom fuel (some next) visited
        (above.1.map (here ∪ ·), above.2)

/-- The records of a source and its parents. -/
def chain (id : Option SourceId) (visited : List SourceId) : Outcome × List SourceId :=
  chainFrom w sources longestChain id visited

end Sources

/-- Asks for one after the other until one fails; what was found before stays. -/
def inTurn (ask : Option SourceId → List SourceId → Outcome × List SourceId) :
    List (Option SourceId) → List SourceId →
      Finset Record × Option Resolution.Fault × List SourceId
  | [], visited => (∅, none, visited)
  | id :: rest, visited =>
    match ask id visited with
    | (.error f, visited) => (∅, some f, visited)
    | (.ok here, visited) =>
      let more := inTurn ask rest visited
      (here ∪ more.1, more.2)

section Scenes

variable (w : Surroundings) (c : Scene)

/-- The records of the source of the process. -/
def system (visited : List SourceId) : Outcome × List SourceId :=
  match c.system with
  | .source id => source w c.sources id visited
  | .absent | .failing => (.ok ∅, visited)

/-- The records of the source of the scanning thread. -/
def own (visited : List SourceId) : Outcome × List SourceId :=
  sourceIf w c.sources (c.roster.sourceOf c.caller) visited

/-- The records of all sources up to a failure that no part of the scan took on
    itself. A failure among the other threads ends only their part. -/
def stages : Finset Record × Option Resolution.Fault × List SourceId :=
  match system w c [] with
  | (.error f, visited) => (∅, some f, visited)
  | (.ok first, visited) =>
    match own w c visited with
    | (.error f, visited) => (first, some f, visited)
    | (.ok second, visited) =>
      let others := inTurn (sourceIf w c.sources) (othersOf c) visited
      let chains := inTurn (chain w c.sources) c.extra others.2.2
      (first ∪ second ∪ others.1 ∪ chains.1, chains.2)

/-- The records of all sources. -/
def all : Finset Record :=
  (stages w c).1

end Scenes

end Afresh

end Survey

end ArchiveCensus
