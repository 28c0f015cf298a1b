import ArchiveCensus.Proofs.FileName
import ArchiveCensus.Proofs.Inspection
import ArchiveCensus.Proofs.PackageUrl.Shape

/-!
# No Archive Has a Classifier

A record has a field for a classifier and a package URL has a qualifier for it,
but an inspection fills neither. No property of a descriptor and no attribute of a
manifest is written into that field, so it could only come from the file name. The
file name is cut at its last hyphen, and a classifier would be what stands behind
one more hyphen in the tail, which is free of hyphens. The artifact `n-1` has the
version `sources` in `n-1-sources.jar`.

A URL has a qualifier only for a classifier, and by no other part of it does a
question mark get into the writing. So the URLs of inspected archives hold none.

## Theorems

* `textIn_classifier_coordinates`: No source writes into the field.
* `question_not_mem_generate`: No qualifier without a classifier.
* `unclassified_of_yields`: What is read off stems, and hence of archives.
-/

namespace ArchiveCensus

namespace Findings

open Record

/-- No source in an archive tells of a classifier. -/
theorem textIn_classifier_fillFrom (source : Option (Dictionary Text Text))
    {fields : List (Text × Field)} (hfields : ∀ x ∈ fields, x.2.HoldsText)
    (hother : ∀ x ∈ fields, x.2 ≠ .classifier) (replaceUnknown : Bool) (r : Record) :
    (fillFrom source fields replaceUnknown r).textIn .classifier = r.textIn .classifier := by
  have hnone : fields.filter (·.2 = .classifier) = [] := by
    rw [List.filter_eq_nil_iff]
    exact fun x hx => by simpa using hother x hx
  rw [textIn_fillFrom source hfields, hnone]
  rfl

theorem textIn_classifier_fillFromName (suffixes : List Text) (name : Text) (r : Record) :
    (fillFromName suffixes name r).textIn .classifier = r.textIn .classifier := by
  have hartifact : Field.HoldsText .artifact := ⟨by decide, by decide⟩
  have hversion : Field.HoldsText .version := ⟨by decide, by decide⟩
  let parts := FileName.split (FileName.stripSuffix name suffixes)
  let filled := ((r.fill .artifact (some parts.artifact) false).1.fill .version
    (some parts.version) false).1
  have hlast : (fillFromName suffixes name r).textIn .classifier
      = (filled.fill .classifier parts.classifier false).1.textIn .classifier := rfl
  -- The offer of a classifier is none, whatever the stem.
  rw [hlast, FileName.classifier_split]
  change filled.textIn .classifier = r.textIn .classifier
  rw [textIn_fill hversion, if_neg (by decide), textIn_fill hartifact, if_neg (by decide)]

/-- No source writes into the field, and neither does the file name. -/
theorem textIn_classifier_coordinates (f : Findings) (suffixes : List Text) (name : Text)
    (r : Record) :
    (f.coordinates suffixes name r).textIn .classifier = r.textIn .classifier := by
  have hdescriptor : ∀ x ∈ descriptorFields, x.2.HoldsText := by
    unfold Field.HoldsText
    decide
  have hmanifest : ∀ x ∈ manifestFields, x.2.HoldsText := by
    unfold Field.HoldsText
    decide
  have hsources : (fillFrom f.manifest manifestFields true
      (fillFrom f.descriptor descriptorFields false r)).textIn .classifier
        = r.textIn .classifier := by
    rw [textIn_classifier_fillFrom _ hmanifest (by decide),
      textIn_classifier_fillFrom _ hdescriptor (by decide)]
  unfold coordinates
  simp only
  split
  · exact hsources
  · rw [textIn_classifier_fillFromName, hsources]

end Findings

namespace PackageUrl

/-- A URL has no qualifier unless there is a classifier, and no other part of it
    lets a question mark through. -/
theorem question_not_mem_generate {r : Record} (h : r.classifier = none) (m : Maker) :
    CodePoint.ofChar '?' ∉ (m.generate (some r)).1 := by
  have hrender : ∀ {u : PackageUrl}, IsType u.type → u.classifier = none →
      CodePoint.ofChar '?' ∉ u.render := by
    intro u htype hnone
    rw [← List.count_eq_zero, count_question_render htype, hnone]
    rfl
  rw [Maker.generate]
  split
  · exact hrender (List.mem_cons_of_mem _ List.mem_cons_self) rfl
  · refine hrender (isType_ofRecord m.suffixes r) ?_
    rw [ofRecord]
    cases kindOf r with
    | maven => rw [ofKind, grouped, h]; rfl
    | gradle => rw [ofKind, grouped, h]; rfl
    | generic => rfl

end PackageUrl

namespace Inspector

variable {i : Inspector} {name : Text} {bytes : ByteArray} {r : Record}

theorem classifier_eq_none (h : i.Yields name bytes r) : r.classifier = none := by
  obtain ⟨p, checksum, f, serial, rfl, _, rfl⟩ := h.exists_recordOf
  exact Findings.textIn_classifier_coordinates f i.suffixes p.name _

/-- A stem is cut at its last hyphen into artifact and version, or it is the
    artifact as a whole, exactly if no hyphen stands behind its first sign; it never
    has a classifier. So no record of an archive has one, and no URL that is made of
    such a record has a qualifier. -/
theorem unclassified_of_yields :
    (∀ stem : Text,
      (FileName.split stem = ⟨stem, unknown, none⟩ ↔ FileName.hyphen ∉ stem.tail) ∧
        (FileName.hyphen ∈ stem.tail → ∃ artifact version,
          FileName.split stem = ⟨artifact, version, none⟩ ∧ artifact ≠ [] ∧
            FileName.hyphen ∉ version ∧ artifact ++ FileName.hyphen :: version = stem)) ∧
      ∀ (i : Inspector) (name : Text) (bytes : ByteArray) (r : Record), i.Yields name bytes r →
        r.classifier = none ∧
          ∀ m : PackageUrl.Maker, CodePoint.ofChar '?' ∉ (m.generate (some r)).1 := by
  refine ⟨fun stem => ⟨FileName.split_eq_whole_iff, FileName.exists_split_eq⟩,
    fun i name bytes r h => ?_⟩
  have hnone := classifier_eq_none h
  exact ⟨hnone, PackageUrl.question_not_mem_generate hnone⟩

/-- What stands in the place of a classifier is read as the version. -/
theorem unclassified_of_yields_sources :
    ∃ r : Record, ({} : Inspector).Yields "n-1-sources.jar" splitArchive r ∧
      (r.artifact, r.version) = (some (Text.ofString "n-1"), some (Text.ofString "sources")) ∧
      r.classifier = none ∧
      ∀ m : PackageUrl.Maker, CodePoint.ofChar '?' ∉ (m.generate (some r)).1 := by
  let home : Disk := Disk.put ⟨[], ["home"]⟩ ["home", "n-1-sources.jar"] (.file splitArchive)
  have hrun : ((({} : Inspector).inspect home ⟨.here, ["n-1-sources.jar"]⟩).1.map fun r =>
      (r.artifact, r.version))
      = some (some (Text.ofString "n-1"), some (Text.ofString "sources")) := by
    decide +kernel
  obtain ⟨r, hr, hparts⟩ := Option.map_eq_some_iff.1 hrun
  have hyields : ({} : Inspector).Yields "n-1-sources.jar" splitArchive r := .file rfl hr
  exact ⟨r, hyields, hparts, unclassified_of_yields.2 {} _ _ r hyields⟩

end Inspector

end ArchiveCensus
