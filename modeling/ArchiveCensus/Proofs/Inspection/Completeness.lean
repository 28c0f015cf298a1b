import ArchiveCensus.Proofs.FileName
import ArchiveCensus.Proofs.Inspection

/-!
# When Coordinates Are Complete

The file name is asked last, to complete what the archive leaves open. For the
group it always can: the word `unknown` is written where nothing is found. For
artifact and version it offers a part of the stem, and a part that is blank is
not taken, so the field stays open: an empty archive named `a-.jar` has no
version, and one named `.jar` no artifact.

These are the only gaps. A record is complete unless artifact or version have no
candidate in the archive and a blank part in its name, and all blank parts come
from the two shapes `FileName.Nameless` and `FileName.Versionless`.

## Main definitions

* `Coordinate.Untold`: The stem of a file name tells nothing of a coordinate.

## Theorems

* `inName_eq_none_iff`: When a file name adds nothing.
* `hasCoordinates_iff_of_yields`: Which coordinates are set, and when all are.
* `not_forall_hasCoordinates`: Not all records are.
-/

namespace ArchiveCensus

namespace Coordinate

/-- The stem of a file name tells nothing of the coordinate. -/
def Untold (stem : Text) : Coordinate → Prop
  | group => False
  | artifact => FileName.Nameless stem
  | version => FileName.Versionless stem

theorem candidate?_eq_none_iff {t : Text} :
    Text.candidate? (some t) = none ↔ t.isBlank = true := by
  rw [Text.candidate?, Option.bind_some]
  split <;> simp [*]

/-- A file name adds nothing exactly where its stem tells nothing. -/
theorem inName_eq_none_iff (c : Coordinate) (suffixes : List Text) (name : Text) :
    c.inName suffixes name = none ↔ c.Untold (FileName.stripSuffix name suffixes) := by
  cases c with
  | group => simp [inName, Untold]
  | artifact => exact candidate?_eq_none_iff.trans FileName.isBlank_artifact_iff
  | version => exact candidate?_eq_none_iff.trans FileName.isBlank_version_iff

end Coordinate

namespace Inspector

variable {i : Inspector} {name : Text} {bytes : ByteArray} {r : Record}

/-- A coordinate is set exactly if it has a candidate in the archive or the stem of
    the name is not silent on it, and the record is complete if that is so for all
    of them. -/
theorem hasCoordinates_iff_of_yields (h : i.Yields name bytes r) :
    ∃ e : Inspection.Entries bytes,
      let known : Coordinate → Prop := fun c =>
        c.candidates e.properties e.attributes = [] →
          ¬c.Untold (FileName.stripSuffix name i.suffixes)
      (∀ c : Coordinate, (r.textIn c.field).isSome = true ↔ known c) ∧
        (r.hasCoordinates = true ↔ ∀ c : Coordinate, known c) := by
  obtain ⟨p, checksum, f, serial, rfl, hf, rfl⟩ := h.exists_recordOf
  obtain ⟨e, hdescriptor, hmanifest⟩ := Inspection.exists_entries hf
  refine ⟨e, ?_⟩
  intro known
  have hfield : ∀ c : Coordinate,
      (({ i.recordOf p bytes.size checksum f with copySerial := serial } : Record).textIn
        c.field).isSome = true ↔ known c := by
    intro c
    rw [textIn_recordOf, hdescriptor, hmanifest, ← Option.ne_none_iff_isSome, ne_eq,
      Option.or_eq_none_iff, Record.settle_eq_none_iff, c.inName_eq_none_iff, not_and]
  exact ⟨hfield, Record.hasCoordinates_iff.trans (forall_congr' hfield)⟩

/-- An archive without entries. -/
def emptyArchive : ByteArray :=
  ⟨#[80, 75, 5, 6, 0, 0, 0, 0, 0, 0, 0, 0, 0, 0, 0, 0, 0, 0, 0, 0, 0, 0]⟩

/-- An archive without entries has a record, and by the name `a-.jar` one without a
    version. -/
theorem exists_yields_emptyArchive :
    ∃ r : Record, ({} : Inspector).Yields "a-.jar" emptyArchive r ∧ r.version = none := by
  let home : Disk := Disk.put ⟨[], ["home"]⟩ ["home", "a-.jar"] (.file emptyArchive)
  have hrun : (({} : Inspector).inspect home ⟨.here, ["a-.jar"]⟩).1.map Record.version
      = some none := by
    decide +kernel
  obtain ⟨r, hr, hversion⟩ := Option.map_eq_some_iff.1 hrun
  exact ⟨r, .file rfl hr, hversion⟩

/-- The archive has no candidates, and its name is silent on the version alone. -/
theorem hasCoordinates_iff_of_yields_emptyArchive :
    ∃ r : Record, ({} : Inspector).Yields "a-.jar" emptyArchive r ∧ r.version = none ∧
      ∃ e : Inspection.Entries emptyArchive,
        let known : Coordinate → Prop := fun c =>
          c.candidates e.properties e.attributes = [] →
            ¬c.Untold (FileName.stripSuffix "a-.jar" [".jar"])
        (∀ c : Coordinate, (r.textIn c.field).isSome = true ↔ known c) ∧
          (r.hasCoordinates = true ↔ ∀ c : Coordinate, known c) := by
  obtain ⟨r, hyields, hversion⟩ := exists_yields_emptyArchive
  exact ⟨r, hyields, hversion, hasCoordinates_iff_of_yields hyields⟩

/-- Not every archive has a record with all coordinates. -/
theorem not_forall_hasCoordinates :
    ¬∀ (name : Text) (bytes : ByteArray) (r : Record),
      ({} : Inspector).isArchiveName name = true → ({} : Inspector).Yields name bytes r →
        r.hasCoordinates = true := by
  intro h
  obtain ⟨r, hyields, hversion⟩ := exists_yields_emptyArchive
  have hcomplete := h "a-.jar" emptyArchive r (by decide) hyields
  rw [Record.hasCoordinates, hversion] at hcomplete
  simp at hcomplete

end Inspector

end ArchiveCensus
