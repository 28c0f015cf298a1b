import ArchiveCensus.Proofs.Inspection.Completeness
import ArchiveCensus.Proofs.Survey.Retention

/-!
# Where an Archive Lies

An archive may be moved. What its record says of the archive itself stays the same
then, as long as the file keeps its name: the sources inside are in its bytes, and
besides those only the name is looked at. What the record says of the place is
another matter: the path, and what is guessed from it.

So a record is compared with another one without these fields, as `placeless`, and
the argument is that of `placeless_recordOf`. The rest is carrying it through the ways
on which a record comes about.

One of these ways leads through an outer archive. The copy of a member gets the
last part of the entry's name and a directory of its own. A host may choose its own
fingerprint of a path, and that could tell one directory from another; the one that is
built in does not. Nothing else that sees the directory is left in what is compared, so
it makes no difference that a remembered record was made of an older copy.

## Main definitions

* `Disk.Reads`: A file that can be read.

## Theorems

* `placeless_describe`: What is left of a record follows from the bytes and the name.
* `scanNested_genuine`: An answer, remembered or not, is that of some copy.
* `placeless_of_reads`: Two files, or a file and a member.
-/

namespace ArchiveCensus

theorem map_toOption {α β ε : Type} (f : α → β) (a : Except ε α) :
    a.toOption.map f = (a.map f).toOption := by
  cases a <;> rfl

/-- The file that a path leads to can be read, by the path and as it is seen from
    the root, and holds these bytes. -/
structure Disk.Reads (d : Disk) (p : Path) (bytes : ByteArray) : Prop where
  here : d.fileAt p = .ok (some bytes)
  fromRoot : d.fileAt (d.absolute p) = .ok (some bytes)

namespace Inspector

variable {i : Inspector} {d d' : Disk} {p q : Path} {bytes : ByteArray}

/-- With the fingerprint that is built in, what is left of a record follows from the
    bytes and the name. -/
theorem placeless_describe (hi : i.checksum = ({} : Inspector).checksum)
    (hname : p.name = q.name) (bytes : ByteArray) :
    (i.describe p bytes).1.map Record.placeless = (i.describe q bytes).1.map Record.placeless := by
  have hchecksum : i.checksum p bytes.size = i.checksum q bytes.size := by
    rw [hi]
    exact congrArg (Fingerprint.ofFile? · bytes.size) hname
  unfold describe
  rw [hchecksum]
  cases i.checksum q bytes.size with
  | none => rfl
  | some checksum =>
      rcases Inspection.readFindings bytes with ⟨f | findings, notices⟩
      · rfl
      · have hrecord := placeless_recordOf i p bytes.size checksum findings
        rw [hname, ← placeless_recordOf] at hrecord
        exact congrArg Except.ok hrecord

theorem inspect_of_reads (i : Inspector) (h : d.Reads p bytes) :
    (i.inspect d p).1 = (i.describe (d.absolute p) bytes).1.toOption := by
  rw [inspect, settle_fst]
  unfold attempt
  rw [h.here, h.fromRoot]

/-- Two files with the same bytes and the same name have the same record, but for
    the place, or none both. -/
theorem placeless_inspect (hi : i.checksum = ({} : Inspector).checksum) (hp : d.Reads p bytes)
    (hq : d'.Reads q bytes) (hname : (d.absolute p).name = (d'.absolute q).name) :
    (i.inspect d p).1.map Record.placeless = (i.inspect d' q).1.map Record.placeless := by
  rw [inspect_of_reads i hp, inspect_of_reads i hq, map_toOption, map_toOption,
    placeless_describe hi hname]

/-- A scratch copy has the record of a file with its bytes and its name. -/
theorem placeless_inspectCopy (hi : i.checksum = ({} : Inspector).checksum) (hq : d.Reads q bytes)
    (serial : Nat) :
    (i.inspectCopy (d.absolute q).name bytes serial).1.map Record.placeless =
      (i.inspect d q).1.map Record.placeless := by
  have hname := i.name_scratchPath serial (d.absolute q).name
  have hnumber : Record.placeless ∘ (fun r => { r with copySerial := some serial }) =
      Record.placeless := rfl
  rw [inspectCopy_fst, Option.map_map, hnumber, inspect_of_reads i hq, map_toOption,
    map_toOption, placeless_describe hi hname]

end Inspector

namespace Location

theorem isNestedUrl_of_splitNested {url : Text} {x : Text × Text} (h : splitNested url = .ok x) :
    Surroundings.isNestedUrl url = true := by
  unfold splitNested at h
  cases hstart : afterNestedStart? url with
  | none =>
      rw [hstart] at h
      exact absurd h (by simp only [reduceCtorEq, not_false_eq_true])
  | some rest =>
      rcases List.exists_of_findSome?_eq_some hstart with ⟨start, hmem, hrest⟩
      have hjar : ∀ start ∈ nestedStarts, (Text.ofString "jar:") <+: start := by decide
      rw [Surroundings.isNestedUrl, Text.startsWith, List.isPrefixOf_iff_prefix,
        Text.eq_of_afterStart? hrest]
      exact (hjar start hmem).trans (List.prefix_append start rest)

end Location

namespace Surroundings

variable {w : Surroundings} {url outer entry : Text} {content : ByteArray}

/-- The record of a member is that of its copy, with the outer archive as parent. -/
theorem record_resolveNested_of_member (hsplit : Location.splitNested url = .ok (outer, entry))
    (hmember : w.member? outer entry = .ok (some content)) (n : Nat) :
    (w.resolveNested url n).record =
      .ok ((w.inspector.inspectCopy (copyName entry) content n).1.map fun r =>
        r.withParent (some (w.disk.absolute (.parse outer)).toText)) := by
  unfold resolveNested
  rw [hsplit]
  simp only [hmember]
  rfl

end Surroundings

namespace Survey

open Surroundings

variable {τ : Type} [Add τ] [LT τ] [DecidableRel (α := τ) (· < ·)]

/-- The answer for a nested URL, remembered or not, is that of some copy. -/
theorem scanNested_genuine {w : Site τ} {m : Memory τ} (h : Genuine w.toSurroundings m)
    {url : Text} (hurl : isNestedUrl url = true) :
    ∃ n, (scanNested w url m).1 = (w.resolveNested url n).record := by
  unfold scanNested
  split
  · -- It is remembered, and the copy is the one that it was made of.
    rename_i r m' hlook
    rcases ExpiringStore.entry?_of_read (congrArg Prod.fst hlook) with ⟨e, hentry, _, hvalue⟩
    rcases ExpiringStore.mem_of_entry_eq hentry with ⟨hmem, rfl⟩
    rcases h.entries e hmem with ⟨n, hn⟩
    rw [hvalue] at hn
    exact ⟨n, ((recordAt_of_nested hurl).mp hn).symm⟩
  · rename_i m' _
    refine ⟨m'.copies, ?_⟩
    dsimp only
    split <;> rename_i hrecord <;> exact hrecord.symm

/-- The answer for a nested URL, remembered or not, is the record of a file with the
    bytes of the member and the name of its copy. -/
theorem placeless_scanUrl {w : Site τ} (hi : w.inspector.checksum = ({} : Inspector).checksum)
    {m : Memory τ} (h : Genuine w.toSurroundings m) {url outer entry : Text}
    {content : ByteArray} (hsplit : Location.splitNested url = .ok (outer, entry))
    (hmember : w.member? outer entry = .ok (some content)) {d : Disk} {q : Path}
    (hq : d.Reads q content) (hname : (d.absolute q).name = copyName entry) :
    ∃ answer, (scanUrl w url m).1 = .ok answer ∧
      answer.map (fun r => (r.withParent none).placeless) =
        (w.inspector.inspect d q).1.map fun r => (r.withParent none).placeless := by
  have hurl := Location.isNestedUrl_of_splitNested hsplit
  rcases scanNested_genuine h hurl with ⟨n, hn⟩
  rw [record_resolveNested_of_member hsplit hmember, ← hname] at hn
  refine ⟨_, by rw [scanUrl, if_pos hurl, hn], ?_⟩
  -- Neither the number nor the parent of a record is left in the end.
  have hfile := congrArg (Option.map (Record.withParent · none))
    (Inspector.placeless_inspectCopy hi hq n)
  rw [Option.map_map, Option.map_map] at hfile
  rw [Option.map_map]
  exact hfile

/-- With the fingerprint that is built in, the place of a file makes a difference to
    the place that its record tells, and to nothing else: two files with the same
    bytes and the same name have the same record but for that, or none both. The
    answer for a nested URL, whatever was asked before, is the record of a file with
    the bytes and the name of the member but for that and for the parent. -/
theorem placeless_of_reads (i : Inspector) (hi : i.checksum = ({} : Inspector).checksum) :
    (∀ (d d' : Disk) (p q : Path) (bytes : ByteArray), d.Reads p bytes → d'.Reads q bytes →
      (d.absolute p).name = (d'.absolute q).name →
      (i.inspect d p).1.map Record.placeless = (i.inspect d' q).1.map Record.placeless) ∧
    ∀ (w : Site τ) (lifetime : τ) (capacity : Nat) (calls : List Call) (url outer entry : Text)
      (content : ByteArray) (d : Disk) (q : Path), w.inspector = i → w.disk.Sound →
      Location.splitNested url = .ok (outer, entry) →
      w.member? outer entry = .ok (some content) → d.Reads q content →
      (d.absolute q).name = copyName entry →
      ∃ answer,
        (scanUrl w url (performAll w calls (.empty lifetime capacity)).2).1 = .ok answer ∧
        answer.map (fun r => (r.withParent none).placeless) =
          (i.inspect d q).1.map fun r => (r.withParent none).placeless := by
  refine ⟨fun _ _ _ _ _ hp hq hname => Inspector.placeless_inspect hi hp hq hname, ?_⟩
  rintro w lifetime capacity calls url outer entry content d q rfl hd hsplit hmember hq hname
  have hgenuine := performAll_genuine hd calls (genuine_empty w.toSurroundings lifetime capacity)
  exact placeless_scanUrl hi hgenuine hsplit hmember hq hname

/-- A disk with the member of `nestingArchive` in two directories. -/
def memberDisk : Disk :=
  let first := Disk.put ⟨[], ["home"]⟩ ["home", "test", "b.jar"] (.file Inspector.emptyArchive)
  first.put ["home", "nested", "b.jar"] (.file Inspector.emptyArchive)

/-- A file in a directory of tests, one in a directory that speaks of nesting, and
    the member: each has a record with a scope and a directness of its own. -/
theorem placeless_of_reads_member :
    let p : Path := ⟨.here, ["test", "b.jar"]⟩
    let q : Path := ⟨.here, ["nested", "b.jar"]⟩
    let i := nestingSite.inspector
    let answer := (scanUrl nestingSite "jar:file:a.jar!/b.jar"
      (performAll nestingSite nestingCalls (.empty 100 2)).2).1
    memberDisk.Reads p Inspector.emptyArchive ∧ memberDisk.Reads q Inspector.emptyArchive ∧
      nestingSite.disk.Sound ∧
      ((i.inspect memberDisk p).1.map fun r => (r.scope, r.isDirect)) =
        some (some (Text.ofString "test"), true) ∧
      ((i.inspect memberDisk q).1.map fun r => (r.scope, r.isDirect)) =
        some (some (Text.ofString "compile"), false) ∧
      ((i.inspect memberDisk p).1.map Record.placeless =
        (i.inspect memberDisk q).1.map Record.placeless) ∧
      ∃ r, answer = .ok r ∧
        r.map (fun r => (r.withParent none).placeless) =
          (i.inspect memberDisk p).1.map fun r => (r.withParent none).placeless := by
  intro p q i answer
  have hp : memberDisk.Reads p Inspector.emptyArchive := ⟨by decide +kernel, by decide +kernel⟩
  have hq : memberDisk.Reads q Inspector.emptyArchive := ⟨by decide +kernel, by decide +kernel⟩
  have hsplit : Location.splitNested "jar:file:a.jar!/b.jar" =
      .ok (Text.ofString "a.jar", Text.ofString "b.jar") := by decide +kernel
  have hmember : nestingSite.member? (Text.ofString "a.jar") (Text.ofString "b.jar") =
      .ok (some Inspector.emptyArchive) := by decide +kernel
  have hboth := placeless_of_reads (τ := Nat) i rfl
  exact ⟨hp, hq, sound_nestingSite, by decide +kernel, by decide +kernel,
    hboth.1 memberDisk memberDisk p q Inspector.emptyArchive hp hq rfl,
    hboth.2 nestingSite 100 2 nestingCalls _ _ _ _ memberDisk p rfl sound_nestingSite hsplit
      hmember hp (by decide +kernel)⟩

end Survey

end ArchiveCensus
