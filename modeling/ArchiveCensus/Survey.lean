import ArchiveCensus.ExpiringStore
import ArchiveCensus.Roster
import ArchiveCensus.Survey.Resolution

/-!
# Surveys

A survey asks sources for URLs and resolves them, remembering records in an
expiring store: those of files under their absolute path, those of members
under the URL by which they were asked for.

Every failure is kept to the smallest thing that fails. A URL that leads
nowhere costs that URL, a source that fails to give its list costs that source,
and an error that gets past both ends only the chain of parents or the scan it
happened in.

A scan passes along which sources were asked already; a source is asked at most
once per scan, in whichever of its roles it comes up first.

## Main definitions

* `Survey.Memory`: What a survey remembers from one scan to the next.
* `Survey.scanFile`, `Survey.scanUrl`: One path and one URL, by way of the store.
* `Survey.scanPaths`: Path arguments.
* `Survey.scanSource`, `Survey.scanChain`: One source, and one with its parents.
* `Survey.Scene`: All sources that a scan starts from.
* `Survey.scanAll`: Everything.
-/

namespace ArchiveCensus

namespace Survey

/-- What a survey remembers from one scan to the next. -/
structure Memory (τ : Type) where
  store : ExpiringStore Text Record τ
  /-- How often the clock was read. -/
  readings : Nat := 0
  /-- The number of the next scratch copy. -/
  copies : Nat := 0
  /-- How many files were inspected. -/
  inspected : Nat := 0
  /-- What there was to say, in order. -/
  notices : List Notice := []

/-- What a survey looks at, and the clock it reads. -/
structure Site (τ : Type) extends Surroundings where
  /-- The time that each reading of the clock shows. -/
  clock : Nat → τ

/-- The most sources asked in one chain of parents. -/
def longestChain : Nat := 64

variable {τ : Type} [Add τ] [LT τ] [DecidableRel (α := τ) (· < ·)]

namespace Memory

/-- One thing more to say. -/
def say (m : Memory τ) (n : Notice) : Memory τ :=
  { m with notices := m.notices ++ [n] }

/-- The record remembered under a key. -/
def lookUp (m : Memory τ) (clock : Nat → τ) (key : Text) : Option Record × Memory τ :=
  let (r, store) := m.store.read key (clock m.readings)
  (r, { m with store, readings := m.readings + 1 })

/-- Remembers a record, if there is one. -/
def keep (m : Memory τ) (clock : Nat → τ) (key : Text) (r : Option Record) : Memory τ :=
  { m with store := m.store.writeIf (some key) r (clock m.readings), readings := m.readings + 1 }

/-- Takes note of a resolution. -/
def note (m : Memory τ) (r : Resolution) : Memory τ :=
  { m with notices := m.notices ++ r.notices, inspected := m.inspected + r.inspected }

end Memory

/-- The record of a path. -/
def scanFile (w : Site τ) (p : Path) (m : Memory τ) : Option Record × Memory τ :=
  let key := (w.disk.absolute p).toText
  match m.lookUp w.clock key with
  | (some r, m) => (some r, m)
  | (none, m) =>
    let answer := w.inspector.inspect w.disk p
    (answer.1, (m.note (.ofInspection answer)).keep w.clock key answer.1)

/-- The record of a nested URL. -/
def scanNested (w : Site τ) (url : Text) (m : Memory τ) :
    Except Resolution.Fault (Option Record) × Memory τ :=
  match m.lookUp w.clock url with
  | (some r, m) => (.ok (some r), m)
  | (none, m) =>
    let resolution := w.resolveNested url m.copies
    let m := { m.note resolution with copies := m.copies + resolution.inspected }
    match resolution.record with
    | .error f => (.error f, m)
    | .ok none => (.ok none, m)
    | .ok (some r) => (.ok (some r), m.keep w.clock url (some r))

/-- The record of a URL. -/
def scanUrl (w : Site τ) (url : Text) (m : Memory τ) :
    Except Resolution.Fault (Option Record) × Memory τ :=
  if Surroundings.isNestedUrl url then scanNested w url m
  else
    match w.archivePath? url with
    | .error f => (.error f, m)
    | .ok none => (.ok none, m)
    | .ok (some p) =>
      let (r, m) := scanFile w p m
      (.ok r, m)

/-- Adds the records of paths. -/
def scanFiles (w : Site τ) (records : RecordSet) :
    List Path → Memory τ → RecordSet × Memory τ
  | [], m => (records, m)
  | p :: rest, m =>
    let (r, m) := scanFile w p m
    scanFiles w (records.insertSome r) rest m

/-- Adds the records of path arguments. -/
def scanPathsFrom (w : Site τ) (records : RecordSet) :
    List Text → Memory τ → RecordSet × Memory τ
  | [], m => (records, m)
  | entry :: rest, m =>
    let (paths, fault) := w.pathsOf (.parse entry)
    let (records, m) := scanFiles w records paths m
    let m := if fault.isSome then m.say (.error "enumerator.path_failed") else m
    scanPathsFrom w records rest m

/-- The records of path arguments. -/
def scanPaths (w : Site τ) (entries : List Text) (m : Memory τ) : RecordSet × Memory τ :=
  scanPathsFrom w [] entries m

/-- The record of an item of a list, which may be no text at all. -/
def scanItem (w : Site τ) (item : Option Text) (m : Memory τ) :
    Except Resolution.Fault (Option Record) × Memory τ :=
  match item with
  | none => (.error .notText, m)
  | some url => scanUrl w url m

/-- Adds the records of the items of a list. An item that leads nowhere is
    passed over. -/
def scanItems (w : Site τ) (records : RecordSet) :
    List (Option Text) → Memory τ → RecordSet × Memory τ
  | [], m => (records, m)
  | item :: rest, m =>
    match scanItem w item m with
    | (.ok r, m) => scanItems w (records.insertSome r) rest m
    | (.error _, m) => scanItems w records rest (m.say (.warning "enumerator.url_failed"))

/-- Where a scan stands: what is remembered, and which sources were asked. -/
structure Walk (τ : Type) where
  memory : Memory τ
  visited : List SourceId := []

/-- The walk with one thing more to say. -/
def Walk.say (k : Walk τ) (n : Notice) : Walk τ :=
  { k with memory := k.memory.say n }

/-- The records of what one source lists, unless it was asked before. -/
def scanSource (w : Site τ) (sources : Sources) (id : SourceId) (k : Walk τ) :
    Except Resolution.Fault RecordSet × Walk τ :=
  if id ∈ k.visited then (.ok [], k)
  else
    let k := { k with visited := id :: k.visited }
    match (sources id).offer with
    | .nothing => (.ok [], k)
    | .unreadable => (.error .sourceUnreadable, k)
    | .failing => (.ok [], k.say (.error "enumerator.loader_failed"))
    | .items urls =>
      let (records, memory) := scanItems w [] urls k.memory
      (.ok records, { k with memory })

/-- Adds the records of a source and its parents, `fuel` sources at most. -/
def scanChainFrom (w : Site τ) (sources : Sources) :
    (fuel : Nat) → RecordSet → Option SourceId → Walk τ →
      Except Resolution.Fault RecordSet × Walk τ
  | _, records, none, k => (.ok records, k)
  | 0, records, some _, k => (.ok records, k.say (.warning "enumerator.loader_chain_truncated"))
  | fuel + 1, records, some id, k =>
    match scanSource w sources id k with
    | (.error f, k) => (.error f, k)
    | (.ok more, k) =>
      let records := records.union more
      match (sources id).parent with
      | .root => (.ok records, k)
      | .unreadable => (.error .parentUnreadable, k)
      | .parent next => scanChainFrom w sources fuel records (some next) k

/-- The records of a source and its parents. -/
def scanChain (w : Site τ) (sources : Sources) (id : Option SourceId) (k : Walk τ) :
    Except Resolution.Fault RecordSet × Walk τ :=
  scanChainFrom w sources longestChain [] id k

/-- The source that belongs to the process. -/
inductive SystemSource where
  | absent
  /-- It cannot be made. -/
  | failing
  | source (id : SourceId)

/-- All sources that a scan starts from. -/
structure Scene where
  sources : Sources
  system : SystemSource := .absent
  roster : Roster SourceId := .initial
  /-- The thread that scans. -/
  caller : ThreadId := Roster.mainThread
  /-- Sources that are asked with their parents. -/
  extra : List (Option SourceId) := []

/-- The records of a source that may be none at all. -/
def scanIf (w : Site τ) (sources : Sources) (id : Option SourceId) (k : Walk τ) :
    Except Resolution.Fault RecordSet × Walk τ :=
  match id with
  | none => (.ok [], k)
  | some id => scanSource w sources id k

/-- The records of the source of the process. -/
def scanSystem (w : Site τ) (c : Scene) (k : Walk τ) :
    Except Resolution.Fault RecordSet × Walk τ :=
  match c.system with
  | .absent => (.ok [], k)
  | .failing => (.ok [], k.say (.error "enumerator.system_loader_failed"))
  | .source id => scanSource w c.sources id k

/-- The records of the source of the scanning thread. -/
def scanOwn (w : Site τ) (c : Scene) (k : Walk τ) :
    Except Resolution.Fault RecordSet × Walk τ :=
  scanIf w c.sources (c.roster.sourceOf c.caller) k

/-- Adds the records of sources until one of them fails beyond its list. -/
def scanEach (w : Site τ) (sources : Sources) (records : RecordSet) :
    List (Option SourceId) → Walk τ → RecordSet × Option Resolution.Fault × Walk τ
  | [], k => (records, none, k)
  | id :: rest, k =>
    match scanIf w sources id k with
    | (.error f, k) => (records, some f, k)
    | (.ok more, k) => scanEach w sources (records.union more) rest k

/-- The sources of the other running threads, leaving out those that are the
    scanning thread's own. -/
def othersOf (c : Scene) : List (Option SourceId) :=
  (c.roster.running.filter fun x =>
    x.1 ≠ c.caller && x.2.2 ≠ c.roster.sourceOf c.caller).map fun x => x.2.2

/-- The records of the sources of the other threads. -/
def scanOthers (w : Site τ) (c : Scene) (k : Walk τ) : RecordSet × Walk τ :=
  match scanEach w c.sources [] (othersOf c) k with
  | (records, none, k) => (records, k)
  | (records, some _, k) => (records, k.say (.error "enumerator.thread_scan_failed"))

/-- Adds the records of chains until one of them fails. -/
def scanChains (w : Site τ) (sources : Sources) (records : RecordSet) :
    List (Option SourceId) → Walk τ → RecordSet × Option Resolution.Fault × Walk τ
  | [], k => (records, none, k)
  | id :: rest, k =>
    match scanChain w sources id k with
    | (.error f, k) => (records, some f, k)
    | (.ok more, k) => scanChains w sources (records.union more) rest k

/-- The records of all sources up to a failure that no part of the scan took on
    itself. -/
def scanStages (w : Site τ) (c : Scene) (k : Walk τ) :
    RecordSet × Option Resolution.Fault × Walk τ :=
  match scanSystem w c k with
  | (.error f, k) => ([], some f, k)
  | (.ok system, k) =>
    match scanOwn w c k with
    | (.error f, k) => (RecordSet.union [] system, some f, k)
    | (.ok own, k) =>
      let (others, k) := scanOthers w c k
      let records := ((RecordSet.union [] system).union own).union others
      scanChains w c.sources records c.extra k

/-- The records of all sources. -/
def scanAll (w : Site τ) (c : Scene) (m : Memory τ) : RecordSet × Memory τ :=
  match scanStages w c { memory := m } with
  | (records, none, k) => (records, k.memory.say (.info "enumerator.discovered"))
  | (records, some _, k) => (records, k.memory.say (.error "enumerator.scan_failed"))

end Survey

end ArchiveCensus
