import ArchiveCensus.Proofs.Disk.Search
import ArchiveCensus.Proofs.Survey.Transparency

/-!
# What Path Arguments Stand For

A path argument that leads to a directory stands for the archives below it, and any
other for itself. Arguments may overlap: one directory lies in another, a file is
named and found as well, from where one is and from the root. And what is found by
its name may be a directory, or no archive.

None of this shows in the records. `Meant` says which files the arguments stand for,
without a search and without an order, and the records are one for each absolute path
of such a file, the one that inspecting it gives, if it gives one. Two ways of writing
a file that are the same from the root have one record because records are told apart
by their identities; two that are not have two, as the absolute path is part of that.

The search and the walk have to agree for this. A search looks at the nodes below a
place and a record is read by walking the path of the hit, so a disk has to spell its
names as it lists them (`Disk.Proper`).

## Main definitions

* `Meant`: The files that path arguments stand for.

## Theorems

* `mem_arguments_iff`: The records of path arguments without a memory.
* `mem_scanPaths_iff`: The same by way of a memory that is empty at first.
* `scanPaths_exact`: One record for each absolute path.
-/

namespace ArchiveCensus

namespace Survey

open Surroundings

/-- The end of the names of archives, unless a host chooses others. -/
def archiveEnd : Text := ".jar"

/-- The path is one that the arguments stand for: an argument that leads to no
    directory, or a file below one that does, if its name is that of an archive. -/
inductive Meant (d : Disk) (entries : List Text) : Path → Prop
  | argument {entry : Text} (h : entry ∈ entries)
      (hplain : ∀ place, d.find (.parse entry) ≠ .ok (some (place, .directory))) :
      Meant d entries (.parse entry)
  | below {entry : Text} {place rel : List Text} {name : Text} {content : ByteArray}
      (h : entry ∈ entries) (hdir : d.find (.parse entry) = .ok (some (place, .directory)))
      (hfile : d.nodeAt? (place ++ (rel ++ [name])) = some (.file content))
      (hname : archiveEnd <:+ name) :
      Meant d entries
        { Path.parse entry with parts := (Path.parse entry).parts ++ (rel ++ [name]) }

section Meaning

variable {w : Surroundings} {entries more : List Text} {entry name : Text} {p q : Path}
  {place rel : List Text} {content : ByteArray} {n : Node} {r : Record}

theorem Meant.mono (h : Meant w.disk entries p) (hsub : entries ⊆ more) : Meant w.disk more p := by
  cases h with
  | argument h hplain => exact .argument (hsub h) hplain
  | below h hdir hfile hname => exact .below (hsub h) hdir hfile hname

theorem meant_append_iff :
    Meant w.disk (entries ++ more) p ↔ Meant w.disk entries p ∨ Meant w.disk more p := by
  constructor
  · intro h
    cases h with
    | argument h hplain =>
        exact (List.mem_append.mp h).imp (fun h => .argument h hplain) fun h => .argument h hplain
    | below h hdir hfile hname =>
        exact (List.mem_append.mp h).imp (fun h => .below h hdir hfile hname)
          fun h => .below h hdir hfile hname
  · rintro (h | h)
    · exact h.mono (List.subset_append_left _ _)
    · exact h.mono (List.subset_append_right _ _)

/-- The components of a hit are names as the disk lists them. -/
theorem isListed_of_nodeAt (hd : w.disk.Proper)
    (h : w.disk.nodeAt? (place ++ (rel ++ [name])) = some n) :
    ∀ c ∈ rel ++ [name], Disk.IsListed c := fun c hc =>
  hd.nodes _ (Disk.mem_nodes_of_nodeAt (by simp) h) c (List.mem_append_right _ hc)

theorem Meant.named (hd : w.disk.Proper) (h : Meant w.disk entries p) : p.Named := by
  cases h with
  | argument h hplain => exact Path.named_parse _
  | below h hdir hfile hname =>
      exact Path.named_append (Path.named_parse _) fun c hc =>
        (isListed_of_nodeAt hd hfile c hc).toIsName

theorem exists_find_of_file (hd : w.disk.Sound) (h : Afresh.file w q = some r) :
    ∃ place content, w.disk.find q = .ok (some (place, .file content)) := by
  rcases (Inspector.inspect_eq_some_iff hd).mp h with ⟨content, habs, _⟩
  rcases Disk.fileAt_eq_some_iff.mp (Disk.fileAt_of_absolute hd habs) with ⟨place, hplace⟩
  exact ⟨place, content, hplace⟩

/-- A hit below a directory, by its path, is the node in the place that the search saw,
    with directories in between. -/
theorem of_find_below (hdir : w.disk.find p = .ok (some (place, .directory)))
    (hlisted : ∀ c ∈ rel ++ [name], Disk.IsListed c) {x : List Text × Node}
    (h : w.disk.find { p with parts := p.parts ++ (rel ++ [name]) } = .ok (some x)) :
    (rel = [] ∨ (place ++ rel, .directory) ∈ w.disk.nodes) ∧
      w.disk.nodeAt? (place ++ (rel ++ [name])) = some x.2 := by
  rcases Disk.find_eq_some_iff.mp hdir with ⟨_, _, _, _, hfront⟩
  rcases Disk.find_eq_some_iff.mp h with ⟨_, _, _, _, hwalk⟩
  refine Disk.of_walk_listed (fun c hc => hlisted c (List.mem_append_left _ hc))
    (hlisted name (List.mem_append_right _ (List.mem_singleton_self _))) (x := x) ?_
  rw [← Disk.walk_eq_of_walk hfront]
  exact hwalk

variable (hsuffix : w.inspector.suffixes = [archiveEnd])

include hsuffix

theorem pathsOf_of_directory (hdir : w.disk.find p = .ok (some (place, .directory))) :
    w.disk.hits? p place (.literal archiveEnd) = .ok (w.pathsOf p).1 := by
  rcases Disk.mem_hits_literal w.disk p place archiveEnd with ⟨hits, hhits, _⟩
  have hending : Disk.Ending.ofText? archiveEnd = some (.literal archiveEnd) := rfl
  rw [pathsOf, hdir]
  simp only [hsuffix, pathsBelow, hending, hhits, List.append_nil]

/-- The records of path arguments are those of the files that they stand for. -/
theorem mem_arguments_iff (hd : w.disk.Proper) :
    r ∈ Afresh.arguments w entries ↔ ∃ p, Meant w.disk entries p ∧ Afresh.file w p = some r := by
  rw [Afresh.arguments, Finset.mem_biUnion]
  simp only [List.mem_toFinset, Afresh.argument, List.mem_filterMap]
  constructor
  · rintro ⟨entry, hentry, q, hq, hr⟩
    rcases exists_find_of_file hd.sound hr with ⟨_, content, hfind⟩
    refine ⟨q, ?_, hr⟩
    by_cases hdir : ∃ place, w.disk.find (.parse entry) = .ok (some (place, .directory))
    · -- A hit, which is a file as it has a record.
      rcases hdir with ⟨place, hdir⟩
      rcases Disk.mem_hits_literal w.disk (.parse entry) place archiveEnd with ⟨hits, hhits, hmem⟩
      rw [pathsOf_of_directory hsuffix hdir] at hhits
      rw [Except.ok.inj hhits, hmem] at hq
      rcases hq with ⟨rel, name, n, _, hnode, hname, rfl⟩
      have hlisted : ∀ c ∈ rel ++ [name], Disk.IsListed c := fun c hc =>
        hd.nodes _ hnode c (List.mem_append_right _ hc)
      exact .below hentry hdir (of_find_below hdir hlisted hfind).2 hname
    · rw [not_exists] at hdir
      have hself : q = Path.parse entry := by
        rw [pathsOf] at hq
        split at hq
        · exact absurd hq List.not_mem_nil
        · rename_i place hplace
          exact absurd hplace (hdir place)
        · exact List.mem_singleton.mp hq
      rw [hself]
      exact .argument hentry hdir
  · rintro ⟨p, hmeant, hr⟩
    rcases exists_find_of_file hd.sound hr with ⟨_, content, hfind⟩
    cases hmeant with
    | @argument entry hentry hplain =>
        refine ⟨entry, hentry, .parse entry, ?_, hr⟩
        rw [pathsOf, hfind]
        exact List.mem_singleton_self _
    | @below entry place rel name _ hentry hdir hfile hname =>
        refine ⟨entry, hentry, _, ?_, hr⟩
        rcases Disk.mem_hits_literal w.disk (.parse entry) place archiveEnd with ⟨hits, hhits, hmem⟩
        rw [pathsOf_of_directory hsuffix hdir] at hhits
        rw [Except.ok.inj hhits, hmem]
        -- The search sees the file, as the walk to it goes through directories.
        have hway := (of_find_below hdir (isListed_of_nodeAt hd hfile) hfind).1
        exact ⟨rel, name, _, hway, Disk.mem_nodes_of_nodeAt (by simp) hfile, hname, rfl⟩

end Meaning

section Scans

variable {τ : Type} [Add τ] [LT τ] [DecidableRel (α := τ) (· < ·)] {w : Site τ}

theorem distinct_scanFiles (w : Site τ) {s : RecordSet} (h : s.Distinct) (paths : List Path)
    (m : Memory τ) : (scanFiles w s paths m).1.Distinct := by
  induction paths generalizing s m with
  | nil => exact h
  | cons p rest ih =>
      rw [scanFiles]
      rcases scanFile w p m with ⟨_ | r, m'⟩
      · exact ih h m'
      · exact ih (h.insert r) m'

/-- Path arguments give no record twice. -/
theorem distinct_scanPathsFrom (w : Site τ) {s : RecordSet} (h : s.Distinct) (entries : List Text)
    (m : Memory τ) : (scanPathsFrom w s entries m).1.Distinct := by
  induction entries generalizing s m with
  | nil => exact h
  | cons entry rest ih => exact ih (distinct_scanFiles w h _ m) _

/-- The records are those of the files that the arguments stand for, whatever is
    remembered of them on the way. -/
theorem mem_scanPaths_iff (hd : w.disk.Proper) (hsuffix : w.inspector.suffixes = [archiveEnd])
    (lifetime : τ) (capacity : Nat) (entries : List Text) (r : Record) :
    r ∈ (scanPaths w entries (.empty lifetime capacity)).1 ↔
      ∃ p, Meant w.disk entries p ∧ (w.inspector.inspect w.disk p).1 = some r := by
  have hgath := scanPathsFrom_gathered hd.sound entries
    ⟨recalls_empty w.toSurroundings lifetime capacity, allBacked_nil, shown_nil⟩
  rw [Finset.empty_union] at hgath
  -- No copy is made of a member, so no record has a number to go without.
  have hplain : ∀ x ∈ (scanPaths w entries (.empty lifetime capacity)).1, x.erased = x := by
    intro x hx
    rcases hgath.backed x hx with ⟨key, hbacked⟩
    cases hbacked with
    | file hp hr =>
        exact Record.erased_eq_self (Inspector.of_inspect_eq_some hd.sound hr).2
    | copy hurl hn hr => cases hn
  have hshown : r ∈ (scanPaths w entries (.empty lifetime capacity)).1 ↔
      r ∈ shown (scanPaths w entries (.empty lifetime capacity)).1 := by
    rw [mem_shown]
    constructor
    · exact fun hr => ⟨r, hr, hplain r hr⟩
    · rintro ⟨x, hx, rfl⟩
      rw [hplain x hx]
      exact hx
  rw [hshown]
  exact (iff_of_eq (congrArg (r ∈ ·) hgath.shown)).trans (mem_arguments_iff hsuffix hd)

theorem filter_eq_toList {α : Type} {l : List α} {P : α → Bool} {o : Option α} (hl : l.Nodup)
    (h : ∀ x, x ∈ l ∧ P x = true ↔ o = some x) : l.filter P = o.toList := by
  cases o with
  | none =>
      rw [Option.toList_none, List.filter_eq_nil_iff]
      exact fun x hx hP => Option.some_ne_none x ((h x).mp ⟨hx, hP⟩).symm
  | some a =>
      rw [Option.toList_some, ← List.perm_singleton]
      refine (List.perm_ext_iff_of_nodup (hl.filter P) (List.nodup_singleton a)).mpr fun x => ?_
      rw [List.mem_filter, h, List.mem_singleton, Option.some.injEq, eq_comm]

/-- Path arguments give exactly one record for each absolute path of a file that they
    stand for, the one that inspecting it gives, and none if it gives none. Their order
    and their repetitions make no difference, nor do the lifetime and the capacity of
    the memory, and arguments together give what they give apart. -/
theorem scanPaths_exact (w : Site τ) (hd : w.disk.Proper)
    (hsuffix : w.inspector.suffixes = [archiveEnd]) (lifetime : τ) (capacity : Nat)
    (entries : List Text) :
    (∀ p, Meant w.disk entries p →
        (scanPaths w entries (.empty lifetime capacity)).1.filter
            (fun r => r.filePath = some (w.disk.absolute p).toText) =
          (w.inspector.inspect w.disk p).1.toList) ∧
      (∀ r ∈ (scanPaths w entries (.empty lifetime capacity)).1,
        ∃ p, Meant w.disk entries p ∧ r.filePath = some (w.disk.absolute p).toText) ∧
      (∀ (lifetime' : τ) (capacity' : Nat) (entries' : List Text),
        (∀ entry, entry ∈ entries' ↔ entry ∈ entries) →
          ∀ r, r ∈ (scanPaths w entries' (.empty lifetime' capacity')).1 ↔
            r ∈ (scanPaths w entries (.empty lifetime capacity)).1) ∧
      ∀ (more : List Text) (r : Record),
        r ∈ (scanPaths w (entries ++ more) (.empty lifetime capacity)).1 ↔
          r ∈ (scanPaths w entries (.empty lifetime capacity)).1 ∨
            r ∈ (scanPaths w more (.empty lifetime capacity)).1 := by
  have hmem := mem_scanPaths_iff hd hsuffix
  refine ⟨fun p hp => ?_, fun r hr => ?_, fun lifetime' capacity' entries' hsame r => ?_,
    fun more r => ?_⟩
  · have hnil : RecordSet.Distinct [] := List.nodup_nil
    have hdistinct : (scanPaths w entries (.empty lifetime capacity)).1.Distinct :=
      distinct_scanPathsFrom w hnil entries _
    refine filter_eq_toList (List.Nodup.of_map _ hdistinct) fun r => ?_
    rw [hmem, decide_eq_true_eq]
    constructor
    · -- A record with this absolute path is that of the path, by which ever path it was found.
      rintro ⟨⟨q, hq, hr⟩, hpath⟩
      rw [(Inspector.of_inspect_eq_some hd.sound hr).1] at hpath
      have habs := Path.toText_injective (hd.sound.named_absolute (hq.named hd))
        (hd.sound.named_absolute (hp.named hd)) (Option.some.inj hpath)
      rw [← Inspector.inspect_congr hd.sound habs]
      exact hr
    · exact fun hr => ⟨⟨p, hp, hr⟩, (Inspector.of_inspect_eq_some hd.sound hr).1⟩
  · rcases (hmem lifetime capacity entries r).mp hr with ⟨p, hp, hrecord⟩
    exact ⟨p, hp, (Inspector.of_inspect_eq_some hd.sound hrecord).1⟩
  · rw [hmem, hmem]
    exact exists_congr fun p => and_congr_left' ⟨fun h => h.mono fun e he => (hsame e).mp he,
      fun h => h.mono fun e he => (hsame e).mpr he⟩
  · rw [hmem, hmem, hmem, ← exists_or]
    exact exists_congr fun p => by rw [meant_append_iff, or_and_right]

/-- A disk with an archive, a directory that is named like one and has another archive
    in it, and a file that is no archive. -/
def overlapSite : Site Nat :=
  { disk := ((Disk.put ⟨[], ["home"]⟩ ["home", "a.jar"] (.file nestingArchive)).put
      ["home", "b.jar", "c.jar"] (.file nestingArchive)).put
      ["home", "b.jar", "d.jar"] (.file (ByteArray.mk #[]))
    clock := id }

theorem proper_overlapSite : overlapSite.disk.Proper := by
  have hhome : Disk.IsListed "home" := ⟨⟨by decide, by decide, by decide⟩, by decide, by decide⟩
  have ha : Disk.IsListed "a.jar" := ⟨⟨by decide, by decide, by decide⟩, by decide, by decide⟩
  have hb : Disk.IsListed "b.jar" := ⟨⟨by decide, by decide, by decide⟩, by decide, by decide⟩
  have hc : Disk.IsListed "c.jar" := ⟨⟨by decide, by decide, by decide⟩, by decide, by decide⟩
  have hd : Disk.IsListed "d.jar" := ⟨⟨by decide, by decide, by decide⟩, by decide, by decide⟩
  have hstart : Disk.Proper ⟨[], ["home"]⟩ :=
    ⟨fun _ h => absurd h List.not_mem_nil, fun c h => List.mem_singleton.mp h ▸ hhome⟩
  refine ((hstart.put ?_ _).put ?_ _).put ?_ _ <;>
    simp only [List.forall_mem_cons, hhome, ha, hb, hc, hd, true_and] <;>
    exact fun _ h => absurd h List.not_mem_nil

/-- The current directory, the same from the root, one of its directories and a file in
    it, twice, and what is not there. -/
def overlapEntries : List Text :=
  [".", "b.jar", "/home", "a.jar", "./a.jar", "a.jar", "missing.jar"]

/-- One of the archives is found in three ways and has one record. -/
theorem scanPaths_exact_overlapEntries :
    overlapSite.disk.Proper ∧ overlapSite.inspector.suffixes = [archiveEnd] ∧
      Meant overlapSite.disk overlapEntries (.parse "b.jar/c.jar") ∧
      (overlapSite.inspector.inspect overlapSite.disk (.parse "b.jar/c.jar")).1.isSome ∧
      (scanPaths overlapSite overlapEntries (.empty 100 1)).1.filter
          (fun r => r.filePath = some (overlapSite.disk.absolute (.parse "b.jar/c.jar")).toText) =
        (overlapSite.inspector.inspect overlapSite.disk (.parse "b.jar/c.jar")).1.toList ∧
      (∀ r ∈ (scanPaths overlapSite overlapEntries (.empty 100 1)).1,
        ∃ p, Meant overlapSite.disk overlapEntries p ∧
          r.filePath = some (overlapSite.disk.absolute p).toText) ∧
      (∀ r, r ∈ (scanPaths overlapSite overlapEntries.reverse (.empty 0 5)).1 ↔
        r ∈ (scanPaths overlapSite overlapEntries (.empty 100 1)).1) ∧
      ∀ r, r ∈ (scanPaths overlapSite (overlapEntries ++ overlapEntries) (.empty 100 1)).1 ↔
        r ∈ (scanPaths overlapSite overlapEntries (.empty 100 1)).1 ∨
          r ∈ (scanPaths overlapSite overlapEntries (.empty 100 1)).1 := by
  have hexact := scanPaths_exact overlapSite proper_overlapSite rfl 100 1 overlapEntries
  have hmeant : Meant overlapSite.disk overlapEntries (.parse "b.jar/c.jar") :=
    @Meant.below overlapSite.disk overlapEntries "b.jar" ["home", "b.jar"] [] "c.jar" nestingArchive
      (by decide) rfl rfl ⟨"c", rfl⟩
  exact ⟨proper_overlapSite, rfl, hmeant, by decide +kernel, hexact.1 _ hmeant, hexact.2.1,
    hexact.2.2.1 0 5 _ fun _ => List.mem_reverse, hexact.2.2.2 overlapEntries⟩

end Scans

end Survey

end ArchiveCensus
