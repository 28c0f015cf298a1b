import ArchiveCensus.CommandLine.Census
import ArchiveCensus.Proofs.CommandLine
import ArchiveCensus.Proofs.Source
import ArchiveCensus.Proofs.Survey.Arguments
import ArchiveCensus.Proofs.Survey.Retention

/-!
# The Report of the Census

The report of a scan lists records by artifact, then by version, then by path. The path is
the last resort, and it settles the order where no two records have the same one. Then the
report is that of the set, whichever way the set is gone through.

A scan of this program gives such records. It resolves paths, and what the process lists
is resolved by URLs that are made of paths; no URL of a member is among them, as that
would have a colon and the list is cut at colons. So all records are those of files. A
file has its absolute path in its record, and what is known of it depends on that path
and the disk alone, also if it was remembered; so two records with one path are the same,
and a set does not have it twice.

## Main definitions

* `Survey.Filed`: A record of a file.

## Theorems

* `Survey.Filed.eq_of_filePath`: A path has one record.
* `Session.filed_survey`: All records of a scan are of files.
* `Session.pathsApart_survey`: No two have the same path.
* `report_perm`: The report is that of the set.
-/

namespace ArchiveCensus

namespace Survey

open Surroundings

section Filed

variable {w : Surroundings} {r r' : Record}

/-- A record that inspecting a path gives. -/
def Filed (w : Surroundings) (r : Record) : Prop :=
  ∃ p : Path, p.Named ∧ (w.inspector.inspect w.disk p).1 = some r

theorem Filed.exists_filePath (hd : w.disk.Sound) (h : Filed w r) :
    ∃ p, r.filePath = some p ∧ p ≠ [] := by
  rcases h with ⟨p, _, hr⟩
  refine ⟨_, (Inspector.of_inspect_eq_some hd hr).1, fun hempty => ?_⟩
  have hhead := Path.head?_toText (Path.isAbsolute_absolute (Disk.isAbsolute_base (d := w.disk)) p)
  rw [Disk.absolute] at hempty
  rw [hempty] at hhead
  exact absurd hhead (by simp)

/-- What is known of a file depends on its absolute path, which its record has. -/
theorem Filed.eq_of_filePath (hd : w.disk.Sound) (h : Filed w r) (h' : Filed w r')
    (hpath : r.filePath = r'.filePath) : r = r' := by
  rcases h with ⟨p, hp, hr⟩
  rcases h' with ⟨p', hp', hr'⟩
  rw [(Inspector.of_inspect_eq_some hd hr).1, (Inspector.of_inspect_eq_some hd hr').1,
    Option.some.injEq] at hpath
  -- The two paths may be written differently, so they are compared by what their absolute
  -- path gives.
  have hsame : (w.inspector.inspect w.disk p).1 = (w.inspector.inspect w.disk p').1 := by
    rw [← recordAt_absolute hd hp 0, hpath, recordAt_absolute hd hp' 0]
  exact Option.some.inj (hr.symm.trans (hsame.trans hr'))

/-- A lead to a file: a path, or an item that is not the URL of a member. -/
def Lead.ToFile : Lead → Prop
  | .item x => ∀ u, x = some u → isNestedUrl u = false
  | .path _ _ => True

theorem Lead.ToFile.exists_path {lead : Lead} (h : lead.ToFile) {key : Text}
    (hkey : lead.key? w = some key) : ∃ p : Path, p.Named ∧ key = (w.disk.absolute p).toText := by
  cases lead with
  | path p hp => exact ⟨p, hp, (Option.some.inj hkey).symm⟩
  | item x =>
      cases x with
      | none => exact absurd hkey (by simp only [key?, reduceCtorEq, not_false_eq_true])
      | some u =>
          have hplain : ¬isNestedUrl u = true := Bool.eq_false_iff.mp (h u rfl)
          rw [key?, if_neg hplain] at hkey
          rcases hpath : w.archivePath? u with f | _ | p
          · rw [hpath] at hkey
            exact absurd hkey (by simp only [reduceCtorEq, not_false_eq_true])
          · rw [hpath] at hkey
            exact absurd hkey (by simp only [reduceCtorEq, not_false_eq_true])
          · rw [hpath] at hkey
            exact ⟨p, named_of_archivePath hpath, (Option.some.inj hkey).symm⟩

end Filed

section Scans

variable {τ : Type} [Add τ] [LT τ] [DecidableRel (α := τ) (· < ·)] {w : Site τ} {m : Memory τ}

/-- A call that asks for files only gives records of files, and what is remembered stays
    genuine. -/
theorem filed_of_asks (hd : w.disk.Sound) (h : Genuine w.toSurroundings m) {c : Call}
    (hfiles : ∀ lead, c.Asks w.toSurroundings lead → lead.ToFile) :
    Genuine w.toSurroundings (c.perform w m).2 ∧ ∀ r ∈ c.found w m, Filed w.toSurroundings r := by
  rcases perform_trail hd c m with ⟨l, htrail, hasks, hrecords⟩
  rcases trail_genuine hd htrail h with ⟨hgenuine, hanswers⟩
  refine ⟨hgenuine, fun r hr => ?_⟩
  rcases hrecords r hr with ⟨lead, hmem⟩
  rcases hanswers lead r hmem with ⟨key, n, hkey, hrecord⟩
  rcases (hfiles lead (hasks _ hmem)).exists_path hkey with ⟨p, hp, rfl⟩
  rw [recordAt_absolute hd hp] at hrecord
  exact ⟨p, hp, hrecord⟩

end Scans

end Survey

namespace CommandLine

open Survey

namespace Session

variable {s : Session}

/-- What the process lists is no URL of a member: the list is cut at colons, and so there
    are only paths to make URLs of. -/
theorem isNestedUrl_of_systemSource {source : Source} (h : s.systemSource? = some source)
    {u : Text} {id : SourceId} (hu : some u ∈ listed (fun _ => source) id) :
    Surroundings.isNestedUrl u = false := by
  rw [systemSource?, PathList.ofEntries?, Option.map_map, Option.map_eq_some_iff] at h
  rcases h with ⟨urls, hurls, rfl⟩
  rcases List.mem_map.mp hu with ⟨v, hv, heq⟩
  obtain rfl : v = u := Option.some.inj heq
  rcases PathList.exists_of_mem_mapM hurls hv with ⟨e, he, hurl⟩
  have hentries : systemEntries [] (s.environment.get? searchVariable)
      = PathList.promised [] (Text.pieces ':' ((s.environment.get? searchVariable).getD [])) :=
    PathList.systemEntries_eq [] _
  rw [hentries, PathList.mem_promised_iff] at he
  -- An entry with a scheme would be kept as it is, but it would have a colon.
  have hpath : ¬Location.isUrl e = true := fun hisurl =>
    PathList.not_mem_pieces_of_isUrl hisurl _ (he.2.resolve_left List.not_mem_nil)
  rw [Location.toUrl?, if_neg hpath, Path.toUrl?, Option.map_eq_some_iff] at hurl
  rcases hurl with ⟨bytes, _, rfl⟩
  rfl

theorem listed_sources {id : SourceId} {u : Text} (hu : some u ∈ listed s.scene.sources id) :
    Surroundings.isNestedUrl u = false := by
  rw [scene] at hu
  cases hsource : s.systemSource? with
  | none =>
      rw [hsource] at hu
      exact absurd hu List.not_mem_nil
  | some source =>
      rw [hsource] at hu
      exact isNestedUrl_of_systemSource hsource hu

/-- All records of a scan are of files. -/
theorem filed_survey (hd : s.disk.Sound) (paths : List Text) (runtime : Bool) :
    ∀ r ∈ s.survey paths runtime, Filed s.site.toSurroundings r := by
  have hpaths : ∀ lead, (Call.paths paths).Asks s.site.toSurroundings lead → lead.ToFile := by
    intro lead hasks
    cases hasks
    trivial
  have hall : ∀ lead, (Call.all s.scene).Asks s.site.toSurroundings lead → lead.ToFile := by
    intro lead hasks
    cases hasks with
    | all _ hitem => exact fun u hu => listed_sources (hu ▸ hitem)
  -- The second scan begins with what the first has remembered.
  rcases filed_of_asks (w := s.site) hd (genuine_empty _ 3600 1000) hpaths
    with ⟨hgenuine, hfirst⟩
  rcases filed_of_asks (w := s.site) hd hgenuine hall with ⟨_, hsecond⟩
  intro r hr
  rw [survey] at hr
  cases runtime with
  | false => exact hfirst r hr
  | true => exact (RecordSet.mem_of_mem_union hr).elim (hfirst r) (hsecond r)

/-- A set does not have the record of a path twice. -/
theorem pathsApart_survey (hd : s.disk.Sound) (paths : List Text) (runtime : Bool) :
    PathsApart (s.survey paths runtime) := by
  have hfiled := filed_survey hd paths runtime
  have hdistinct : RecordSet.Distinct (s.survey paths runtime) := by
    have hnil : RecordSet.Distinct [] := List.nodup_nil
    have hfirst : RecordSet.Distinct (Survey.scanPaths s.site paths memory).1 :=
      distinct_scanPathsFrom s.site hnil paths memory
    rw [survey]
    cases runtime with
    | false => exact hfirst
    | true => exact hfirst.union _
  refine ⟨fun r hr => (hfiled r hr).exists_filePath hd, ?_⟩
  refine List.Nodup.map_on (fun r hr r' hr' hpath => ?_) (List.Nodup.of_map _ hdistinct)
  exact (hfiled r hr).eq_of_filePath hd (hfiled r' hr') hpath

end Session

namespace Census

variable {records records' : List Record}

/-- The key tells all records apart, as it ends in the path. -/
theorem sortKey_injOn (h : PathsApart records) :
    ∀ a ∈ records, ∀ b ∈ records, sortKey a = sortKey b → a = b := by
  intro a ha b hb hkey
  rcases h.placed a ha with ⟨p, hp, _⟩
  rcases h.placed b hb with ⟨q, hq, _⟩
  have hsame : a.filePath.getD [] = b.filePath.getD [] := by
    simp only [sortKey, List.cons.injEq, and_true] at hkey
    exact hkey.2.2
  rw [hp, hq, Option.getD_some, Option.getD_some] at hsame
  exact List.inj_on_of_nodup_map h.nodup ha hb (by rw [hp, hq, hsame])

/-- The report of records of which no two have the same path is that of the set, whichever
    way the set is gone through. A scan gives such records, and so the program shows the
    same in whatever order it goes through what was found, as soon as the arguments pass the
    check, whichever it is. -/
theorem report_perm (json : Bool) :
    (∀ records records' : List Record, PathsApart records → records.Perm records' →
        report json records = report json records') ∧
      ∀ s : Session, s.disk.Sound → ∀ r : Reading Key,
        PathsApart (s.survey r.words (r.isOn .runtime true)) ∧
          ∀ check : Text → Session.Presence, (∀ t ∈ r.words, check t = .present) →
            ∀ records : List Record, (s.survey r.words (r.isOn .runtime true)).Perm records →
              scan s r check = .success (report (r.isOn .json false) records) := by
  have hreport : ∀ (json : Bool) (records records' : List Record), PathsApart records →
      records.Perm records' → report json records = report json records' := by
    intro json records records' hapart hperm
    rw [report, report, sortRecords_of_perm (sortKey_injOn hapart) hperm]
  refine ⟨hreport json, fun s hd r => ?_⟩
  have hapart := Session.pathsApart_survey hd r.words (r.isOn .runtime true)
  refine ⟨hapart, fun check hpresent records hperm => ?_⟩
  have hnone : r.words.find? (fun t => check t ≠ .present) = none :=
    List.find?_eq_none.mpr fun t ht => by simp [hpresent t ht]
  rw [scan, hnone, hreport _ _ _ hapart hperm]

/-- Two archives with one name, listed in either order. -/
theorem report_perm_twins :
    let r : Reading Key := { words := ["nested/b.jar", "a/b.jar"] }
    let records := twinSession.survey r.words true
    twinSession.disk.Sound ∧ records.length = 2 ∧ PathsApart records ∧
      records.Perm records.reverse ∧ report true records = report true records.reverse ∧
      (∀ t ∈ r.words, twinSession.presence t = .present) ∧
      scan twinSession r = .success (report false records.reverse) := by
  intro r records
  have hperm : records.Perm records.reverse := (List.reverse_perm records).symm
  have hpresent : ∀ t ∈ r.words, twinSession.presence t = .present := by decide +kernel
  rcases (report_perm true).2 twinSession sound_twinSession r with ⟨hapart, hscan⟩
  exact ⟨sound_twinSession, by decide +kernel, hapart, hperm,
    (report_perm true).1 records records.reverse hapart hperm, hpresent,
    hscan twinSession.presence hpresent records.reverse hperm⟩

end Census

end CommandLine

end ArchiveCensus
