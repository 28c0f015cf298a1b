import ArchiveCensus.Inspection
import ArchiveCensus.Proofs.Record

/-!
# Where Coordinates Come From

A record is filled by three sources in turn, in two modes, and the last of them is
asked only if one of three fields is still open. All the same each coordinate is
settled by itself. The offers to one field are a run of their own; the descriptor
finds its field empty, where the two modes are one; and where the file name is
asked although this field is set, its offer is not taken.

So there is one list of candidates for each coordinate: the property of the
descriptor, then the two attributes of the manifest. The file name counts only
where the list is empty.

## Main definitions

* `Coordinate`: Group, artifact and version, with the names under which sources
  tell them.
* `Coordinate.candidates`, `Coordinate.inName`: What the sources in an archive
  offer, and what its file name tells.
* `Inspection.Entries`: The two entries that an archive keeps for its coordinates.
* `Inspector.Yields`: An archive that inspecting turns into a record.

## Theorems

* `textIn_sources`: What the two sources in an archive leave in a field.
* `textIn_fillFromName`: What the file name adds to it.
* `exists_recordOf`: A record follows from the findings in the archive.
* `textIn_of_yields`: Each coordinate follows from its own candidates.
-/

namespace ArchiveCensus

/-- What tells an archive from others of its kind. -/
inductive Coordinate where
  | group
  | artifact
  | version
deriving DecidableEq

namespace Coordinate

/-- The field of a record that holds it. -/
def field : Coordinate → Field
  | group => .group
  | artifact => .artifact
  | version => .version

/-- The property of a descriptor that tells it. -/
def property : Coordinate → Text
  | group => "groupId"
  | artifact => "artifactId"
  | version => "version"

/-- The attribute of a manifest that tells it of the implementation. -/
def implementation : Coordinate → Text
  | group => "Implementation-Vendor-Id"
  | artifact => "Implementation-Title"
  | version => "Implementation-Version"

/-- The attribute of a manifest that tells it of the specification. -/
def specification : Coordinate → Text
  | group => "Specification-Vendor"
  | artifact => "Specification-Title"
  | version => "Specification-Version"

/-- What the sources in an archive offer, in order, without what is blank. -/
def candidates (c : Coordinate) (properties attributes : Option (Dictionary Text Text)) :
    List Text :=
  [properties.bind (Dictionary.get? · c.property),
    attributes.bind (Dictionary.get? · c.implementation),
    attributes.bind (Dictionary.get? · c.specification)].filterMap Text.candidate?

/-- What the name of an archive tells: nothing of the group, and of artifact and
    version its two parts, if they are not blank. -/
def inName (suffixes : List Text) (name : Text) : Coordinate → Option Text
  | group => some unknown
  | artifact =>
    Text.candidate? (some (FileName.split (FileName.stripSuffix name suffixes)).artifact)
  | version => Text.candidate? (some (FileName.split (FileName.stripSuffix name suffixes)).version)

end Coordinate

theorem Record.hasCoordinates_iff {r : Record} :
    r.hasCoordinates = true ↔ ∀ c : Coordinate, (r.textIn c.field).isSome = true := by
  simp only [hasCoordinates, Bool.and_eq_true]
  constructor
  · rintro ⟨⟨hgroup, hartifact⟩, hversion⟩ c
    cases c with
    | group => exact hgroup
    | artifact => exact hartifact
    | version => exact hversion
  · exact fun h => ⟨⟨h .group, h .artifact⟩, h .version⟩

namespace Findings

open Record

/-! ## Sources -/

theorem textIn_fillFrom (source : Option (Dictionary Text Text)) {fields : List (Text × Field)}
    (hfields : ∀ x ∈ fields, x.2.HoldsText) (replaceUnknown : Bool) (r : Record) (g : Field) :
    (fillFrom source fields replaceUnknown r).textIn g
      = ((fields.filter (·.2 = g)).map fun x => source.bind (Dictionary.get? · x.1)).foldl
        (pour replaceUnknown) (r.textIn g) := by
  cases source with
  | none =>
    -- Nothing is offered, so nothing changes.
    have hnone : ∀ (keys : List (Text × Field)) (t : Option Text),
        (keys.map fun _ => (none : Option Text)).foldl (pour replaceUnknown) t = t := by
      intro keys t
      induction keys with
      | nil => rfl
      | cons key keys ih => exact ih
    exact (hnone _ _).symm
  | some d => exact textIn_foldl_fill (Dictionary.get? d) replaceUnknown hfields r g

theorem filter_descriptorFields (c : Coordinate) :
    descriptorFields.filter (·.2 = c.field) = [(c.property, c.field)] := by
  cases c <;> rfl

theorem filter_manifestFields (c : Coordinate) :
    manifestFields.filter (·.2 = c.field)
      = [(c.implementation, c.field), (c.specification, c.field)] := by
  cases c <;> rfl

/-- What the two sources in an archive leave in a field that was empty. -/
theorem textIn_sources (f : Findings) (c : Coordinate) {r : Record}
    (h : r.textIn c.field = none) :
    (fillFrom f.manifest manifestFields true
        (fillFrom f.descriptor descriptorFields false r)).textIn c.field
      = settle (c.candidates f.descriptor f.manifest) := by
  have hdescriptor : ∀ x ∈ descriptorFields, x.2.HoldsText := by
    unfold Field.HoldsText
    decide
  have hmanifest : ∀ x ∈ manifestFields, x.2.HoldsText := by
    unfold Field.HoldsText
    decide
  have hempty : settle [] = none := rfl
  rw [textIn_fillFrom _ hmanifest, textIn_fillFrom _ hdescriptor, filter_manifestFields,
    filter_descriptorFields, h]
  -- The descriptor finds nothing, so it may as well be asked in the other mode.
  simp only [List.map_cons, List.map_nil, List.foldl_cons, List.foldl_nil, pour_none]
  have hall := foldl_pour [] [f.descriptor.bind (Dictionary.get? · c.property),
    f.manifest.bind (Dictionary.get? · c.implementation),
    f.manifest.bind (Dictionary.get? · c.specification)]
  simpa only [hempty, List.foldl_cons, List.foldl_nil, pour_none, List.nil_append,
    Coordinate.candidates] using hall

/-- What the file name adds: something only where nothing is set. -/
theorem textIn_fillFromName (suffixes : List Text) (name : Text) (r : Record) (c : Coordinate) :
    (fillFromName suffixes name r).textIn c.field
      = (r.textIn c.field).or (c.inName suffixes name) := by
  have hartifact : Field.HoldsText .artifact := ⟨by decide, by decide⟩
  have hversion : Field.HoldsText .version := ⟨by decide, by decide⟩
  have hclassifier : Field.HoldsText .classifier := ⟨by decide, by decide⟩
  let parts := FileName.split (FileName.stripSuffix name suffixes)
  let filled := (((r.fill .artifact (some parts.artifact) false).1.fill .version
    (some parts.version) false).1.fill .classifier parts.classifier false).1
  cases c with
  | group =>
    have hgroup : filled.textIn .group = r.textIn .group := by
      rw [textIn_fill hclassifier, if_neg (by decide), textIn_fill hversion, if_neg (by decide),
        textIn_fill hartifact, if_neg (by decide)]
    have hlast : (fillFromName suffixes name r).textIn .group
        = some ((filled.textIn .group).getD unknown) := rfl
    rw [Coordinate.field, hlast, hgroup]
    cases r.textIn .group <;> rfl
  | artifact =>
    have hlast : (fillFromName suffixes name r).textIn .artifact = filled.textIn .artifact := rfl
    rw [Coordinate.field, hlast, textIn_fill hclassifier, if_neg (by decide),
      textIn_fill hversion, if_neg (by decide), textIn_fill hartifact, if_pos rfl, pour_false]
    rfl
  | version =>
    have hlast : (fillFromName suffixes name r).textIn .version = filled.textIn .version := rfl
    rw [Coordinate.field, hlast, textIn_fill hclassifier, if_neg (by decide),
      textIn_fill hversion, if_pos rfl, textIn_fill hartifact, if_neg (by decide), pour_false]
    rfl

theorem textIn_coordinates (f : Findings) (suffixes : List Text) (name : Text) {r : Record}
    (h : ∀ c : Coordinate, r.textIn c.field = none) (c : Coordinate) :
    (f.coordinates suffixes name r).textIn c.field
      = (settle (c.candidates f.descriptor f.manifest)).or (c.inName suffixes name) := by
  have hsources := textIn_sources f c (h c)
  unfold coordinates
  simp only
  split
  · rename_i hcomplete
    have hset := hasCoordinates_iff.1 hcomplete c
    rw [hsources] at hset ⊢
    exact (Option.or_of_isSome hset).symm
  · rw [textIn_fillFromName, hsources]

end Findings

/-! ## Archives -/

namespace Inspection

/-- The two entries that an archive keeps for its coordinates, as far as it has
    them. -/
structure Entries (bytes : ByteArray) where
  archive : Archive
  descriptor : Option ByteArray
  manifest : Option ByteArray
  opened : Archive.open? bytes = .ok archive
  descriptor_read : match descriptorIn? archive.names with
    | none => descriptor = none
    | some name => archive.readNamed? name = .ok descriptor
  manifest_read : archive.readNamed? manifestName = .ok manifest

namespace Entries

variable {bytes : ByteArray}

/-- The properties of the descriptor. -/
def properties (e : Entries bytes) : Option (Dictionary Text Text) :=
  e.descriptor.map fun content => Properties.parse (latin1 content.toList)

/-- The attributes of the manifest; a manifest that cannot be read has none. -/
def attributes (e : Entries bytes) : Option (Dictionary Text Text) :=
  e.manifest.bind fun content => (Manifest.parse (Utf8.decodeLossy content.toList)).toOption

end Entries

variable {a : Archive}

theorem exists_of_map_eq_ok {α β : Type} {x : Except Archive.Fault α} {g : α → β} {y : β}
    (h : x.map g = .ok y) : ∃ content, x = .ok content ∧ g content = y := by
  cases x with
  | error f => cases h
  | ok content => exact ⟨content, rfl, Except.ok.inj h⟩

theorem of_readManifest {attributes : Option (Dictionary Text Text)}
    (h : (readManifest a).1 = .ok attributes) :
    ∃ content, a.readNamed? manifestName = .ok content ∧
      attributes = content.bind fun content =>
        (Manifest.parse (Utf8.decodeLossy content.toList)).toOption := by
  unfold readManifest at h
  split at h
  · cases h
  · rename_i hread
    exact ⟨none, hread, (Except.ok.inj h).symm⟩
  · rename_i content hread
    refine ⟨some content, hread, ?_⟩
    split at h
    · rename_i hparse
      rw [← Except.ok.inj h, Option.bind_some, hparse]
      rfl
    · rename_i hparse
      rw [← Except.ok.inj h, Option.bind_some, hparse]
      rfl

theorem of_readDescriptor {properties : Option (Dictionary Text Text)}
    (h : readDescriptor a = .ok properties) :
    ∃ content : Option ByteArray,
      (match descriptorIn? a.names with
        | none => content = none
        | some name => a.readNamed? name = .ok content) ∧
      properties = content.map fun content => Properties.parse (latin1 content.toList) := by
  unfold readDescriptor at h
  cases hname : descriptorIn? a.names with
  | none =>
    rw [hname] at h
    exact ⟨none, rfl, (Except.ok.inj h).symm⟩
  | some name =>
    rw [hname] at h
    obtain ⟨content, hread, rfl⟩ := exists_of_map_eq_ok h
    exact ⟨content, hread, rfl⟩

/-- The findings in an archive are what its two entries tell. -/
theorem exists_entries {bytes : ByteArray} {f : Findings} (h : (readFindings bytes).1 = .ok f) :
    ∃ e : Entries bytes, f.descriptor = e.properties ∧ f.manifest = e.attributes := by
  unfold readFindings at h
  split at h
  · cases h
  · rename_i a hopen
    split at h
    · cases h
    · rename_i attributes _ hmanifest
      obtain ⟨properties, hdescriptor, rfl⟩ := exists_of_map_eq_ok h
      obtain ⟨manifest, hmanifestRead, rfl⟩ := of_readManifest (congrArg Prod.fst hmanifest)
      obtain ⟨descriptor, hdescriptorRead, rfl⟩ := of_readDescriptor hdescriptor
      exact ⟨⟨a, descriptor, manifest, hopen, hdescriptorRead, hmanifestRead⟩, rfl, rfl⟩

end Inspection

namespace Inspector

/-- An archive that inspecting turns into a record, by its name and its bytes: a
    file on a disk, or a scratch copy of a member. -/
inductive Yields (i : Inspector) : Text → ByteArray → Record → Prop where
  | file {d : Disk} {p : Path} {bytes : ByteArray} {r : Record}
      (hfile : d.fileAt (d.absolute p) = .ok (some bytes))
      (hr : (i.inspect d p).1 = some r) : Yields i (d.absolute p).name bytes r
  | copy {name : Text} {bytes : ByteArray} {serial : Nat} {r : Record}
      (hr : (i.inspectCopy name bytes serial).1 = some r) : Yields i name bytes r

variable {i : Inspector} {name : Text} {bytes : ByteArray} {r : Record}

theorem of_describe {p : Path} (h : (i.describe p bytes).1 = .ok r) :
    ∃ checksum f, (Inspection.readFindings bytes).1 = .ok f ∧
      r = i.recordOf p bytes.size checksum f := by
  unfold describe at h
  split at h
  · cases h
  · rename_i checksum _
    split at h
    · cases h
    · rename_i findings _ hfindings
      exact ⟨checksum, findings, by rw [hfindings], (Except.ok.inj h).symm⟩

theorem settle_fst (a : Except Inspection.Fault Record × List Notice) :
    (settle a).1 = a.1.toOption := by
  rcases a with ⟨f | r, notices⟩ <;> rfl

theorem toOption_eq_some_iff {a : Except Inspection.Fault Record} :
    a.toOption = some r ↔ a = .ok r := by
  cases a with
  | error f => simp only [Except.toOption, reduceCtorEq]
  | ok s => simp only [Except.toOption, Option.some.injEq, Except.ok.injEq]

/-- The file is looked for by the path that was given and read by the absolute one. -/
theorem exists_describe_of_inspect {d : Disk} {p : Path} (h : (i.inspect d p).1 = some r) :
    ∃ bytes, d.fileAt (d.absolute p) = .ok (some bytes) ∧
      (i.describe (d.absolute p) bytes).1 = .ok r := by
  rw [inspect, settle_fst, toOption_eq_some_iff] at h
  unfold attempt at h
  split at h
  · cases h
  · cases h
  · split at h
    · rename_i bytes habs
      exact ⟨bytes, habs, h⟩
    · cases h

theorem name_scratchPath (i : Inspector) (serial : Nat) (name : Text) :
    (i.scratchPath serial name).name = name :=
  List.getLastD_concat

theorem inspectCopy_fst (i : Inspector) (name : Text) (bytes : ByteArray) (serial : Nat) :
    (i.inspectCopy name bytes serial).1
      = (i.describe (i.scratchPath serial name) bytes).1.toOption.map fun r =>
        { r with copySerial := some serial } := by
  rw [← settle_fst]
  rfl

theorem exists_describe_of_inspectCopy {serial : Nat}
    (h : (i.inspectCopy name bytes serial).1 = some r) :
    ∃ s, (i.describe (i.scratchPath serial name) bytes).1 = .ok s ∧
      r = { s with copySerial := some serial } := by
  rw [inspectCopy_fst] at h
  obtain ⟨s, hs, hrecord⟩ := Option.map_eq_some_iff.1 h
  exact ⟨s, toOption_eq_some_iff.1 hs, hrecord.symm⟩

/-- A record follows from the path of the archive and from the findings in it. -/
theorem Yields.exists_recordOf (h : i.Yields name bytes r) :
    ∃ p checksum f serial, Path.name p = name ∧ (Inspection.readFindings bytes).1 = .ok f ∧
      r = { i.recordOf p bytes.size checksum f with copySerial := serial } := by
  cases h with
  | @file d p _ _ hfile hr =>
    obtain ⟨content, hcontent, hdescribe⟩ := exists_describe_of_inspect hr
    obtain rfl : content = bytes := by simpa [hcontent] using hfile
    obtain ⟨checksum, f, hf, hrecord⟩ := of_describe hdescribe
    exact ⟨d.absolute p, checksum, f, r.copySerial, rfl, hf, by rw [← hrecord]⟩
  | @copy _ _ serial _ hr =>
    obtain ⟨s, hs, rfl⟩ := exists_describe_of_inspectCopy hr
    obtain ⟨checksum, f, hf, rfl⟩ := of_describe hs
    exact ⟨i.scratchPath serial name, checksum, f, some serial, i.name_scratchPath serial name, hf,
      rfl⟩

/-- Scope, directness and number are written into other fields than coordinates. -/
theorem textIn_recordOf (i : Inspector) (p : Path) (size : Nat) (checksum : Text) (f : Findings)
    (serial : Option Nat) (c : Coordinate) :
    ({ i.recordOf p size checksum f with copySerial := serial } : Record).textIn c.field
      = (Record.settle (c.candidates f.descriptor f.manifest)).or (c.inName i.suffixes p.name) := by
  have hstart : ∀ c' : Coordinate, Record.textIn
      { filePath := some p.toText, fileSize := size, checksum := some checksum
        manifestInfo := f.manifest.map Findings.snapshot } c'.field = none := by
    intro c'
    cases c' <;> rfl
  rw [← Findings.textIn_coordinates f i.suffixes p.name hstart c]
  cases c <;> rfl

/-- Each coordinate of a record follows from its own candidates in the descriptor
    and in the manifest, the first that is known or else the word `unknown`; and
    from the name of the archive where it has no candidates. -/
theorem textIn_of_yields (h : i.Yields name bytes r) :
    ∃ e : Inspection.Entries bytes, ∀ c : Coordinate,
      r.textIn c.field
        = (Record.settle (c.candidates e.properties e.attributes)).or
          (c.inName i.suffixes name) := by
  obtain ⟨p, checksum, f, serial, rfl, hf, rfl⟩ := h.exists_recordOf
  obtain ⟨e, hdescriptor, hmanifest⟩ := Inspection.exists_entries hf
  refine ⟨e, fun c => ?_⟩
  rw [textIn_recordOf, hdescriptor, hmanifest]

/-- An archive whose descriptor is `groupId=unknown` and whose manifest is
    `Specification-Vendor:g`. -/
def splitArchive : ByteArray :=
  ⟨#[80, 75, 3, 4, 20, 0, 0, 0, 0, 0, 0, 0, 33, 0, 93, 87, 7, 35, 15, 0, 0, 0, 15, 0, 0, 0,
    29, 0, 0, 0, 77, 69, 84, 65, 45, 73, 78, 70, 47, 109, 97, 118, 101, 110, 47, 112, 111,
    109, 46, 112, 114, 111, 112, 101, 114, 116, 105, 101, 115, 103, 114, 111, 117, 112, 73,
    100, 61, 117, 110, 107, 110, 111, 119, 110, 80, 75, 3, 4, 20, 0, 0, 0, 0, 0, 0, 0, 33,
    0, 92, 229, 13, 29, 22, 0, 0, 0, 22, 0, 0, 0, 20, 0, 0, 0, 77, 69, 84, 65, 45, 73, 78,
    70, 47, 77, 65, 78, 73, 70, 69, 83, 84, 46, 77, 70, 83, 112, 101, 99, 105, 102, 105, 99,
    97, 116, 105, 111, 110, 45, 86, 101, 110, 100, 111, 114, 58, 103, 80, 75, 1, 2, 20, 3,
    20, 0, 0, 0, 0, 0, 0, 0, 33, 0, 93, 87, 7, 35, 15, 0, 0, 0, 15, 0, 0, 0, 29, 0, 0, 0, 0,
    0, 0, 0, 0, 0, 0, 0, 128, 1, 0, 0, 0, 0, 77, 69, 84, 65, 45, 73, 78, 70, 47, 109, 97,
    118, 101, 110, 47, 112, 111, 109, 46, 112, 114, 111, 112, 101, 114, 116, 105, 101, 115,
    80, 75, 1, 2, 20, 3, 20, 0, 0, 0, 0, 0, 0, 0, 33, 0, 92, 229, 13, 29, 22, 0, 0, 0, 22,
    0, 0, 0, 20, 0, 0, 0, 0, 0, 0, 0, 0, 0, 0, 0, 128, 1, 74, 0, 0, 0, 77, 69, 84, 65, 45,
    73, 78, 70, 47, 77, 65, 78, 73, 70, 69, 83, 84, 46, 77, 70, 80, 75, 5, 6, 0, 0, 0, 0, 2,
    0, 2, 0, 141, 0, 0, 0, 146, 0, 0, 0, 0, 0]⟩

/-- Descriptor, manifest and file name each have a say: the group is `unknown` in
    the first and replaced by the second, and the rest is told by the third. -/
theorem textIn_of_yields_splitArchive :
    ∃ r : Record, ({} : Inspector).Yields "n-1.jar" splitArchive r ∧
      (r.group, r.artifact, r.version)
        = (some (Text.ofString "g"), some (Text.ofString "n"), some (Text.ofString "1")) ∧
      ∃ e : Inspection.Entries splitArchive, ∀ c : Coordinate,
        r.textIn c.field
          = (Record.settle (c.candidates e.properties e.attributes)).or
            (c.inName [".jar"] "n-1.jar") := by
  let home : Disk := Disk.put ⟨[], ["home"]⟩ ["home", "n-1.jar"] (.file splitArchive)
  have hrun : ((({} : Inspector).inspect home ⟨.here, ["n-1.jar"]⟩).1.map fun r =>
      (r.group, r.artifact, r.version))
      = some (some (Text.ofString "g"), some (Text.ofString "n"), some (Text.ofString "1")) := by
    decide +kernel
  obtain ⟨r, hr, hcoordinates⟩ := Option.map_eq_some_iff.1 hrun
  have hyields : ({} : Inspector).Yields "n-1.jar" splitArchive r := .file rfl hr
  exact ⟨r, hyields, hcoordinates, textIn_of_yields hyields⟩

end Inspector

end ArchiveCensus
