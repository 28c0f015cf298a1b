import ArchiveCensus.Proofs.Inspection

/-!
# What a Record Says of the Archive Itself

A record tells two things, what an archive is and where it lies. The place is the path,
the scratch copy that it may be, and what is guessed from the path. `Record.placeless` is
a record without these.

No source writes into the fields of the place and none is asked because of them, so they
can be left out before the sources are asked as well as afterward. What is left follows
from the findings, the name and the size.

## Main definitions

* `Field.TellsPlace`: The fields of the place that are texts or flags.
* `Record.placeless`: What a record says of the archive itself.

## Theorems

* `placeless_coordinates`: Sources do not care for the place.
* `placeless_recordOf`: What is left of a record follows from the findings, the
  name and the size.
-/

namespace ArchiveCensus

/-- The field speaks of the place of a file. -/
def Field.TellsPlace (f : Field) : Prop :=
  f ∈ [Field.filePath, .scope, .isDirect]

instance (f : Field) : Decidable f.TellsPlace :=
  inferInstanceAs (Decidable (f ∈ [Field.filePath, .scope, .isDirect]))

namespace Record

/-- What a record says of the archive itself: the record without the path, the
    scratch copy that it may be, and what is guessed from the path. -/
def placeless (r : Record) : Record :=
  { r with filePath := none, scope := none, isDirect := false, copySerial := none }

variable {f : Field}

theorem placeless_setText (r : Record) (hf : ¬ f.TellsPlace) (t : Option Text) :
    (r.setText f t).placeless = r.placeless.setText f t := by
  cases f with
  | filePath => exact absurd (by decide) hf
  | scope => exact absurd (by decide) hf
  | _ => rfl

theorem isOpen_placeless (r : Record) (hf : ¬ f.TellsPlace) (replaceUnknown : Bool) :
    r.placeless.isOpen f replaceUnknown = r.isOpen f replaceUnknown := by
  cases f with
  | filePath => exact absurd (by decide) hf
  | scope => exact absurd (by decide) hf
  | _ => rfl

/-- What is offered to a field is taken wherever the file lies. -/
theorem placeless_fill (r : Record) (hf : ¬ f.TellsPlace) (offer : Option Text)
    (replaceUnknown : Bool) :
    (r.fill f offer replaceUnknown).1.placeless = (r.placeless.fill f offer replaceUnknown).1 := by
  cases offer with
  | none => rfl
  | some t =>
      simp only [fill, isOpen_placeless r hf]
      split
      · rfl
      · split
        · exact placeless_setText r hf _
        · rfl

/-- The records are of one file, as far as they say. -/
def SameFile (r s : Record) : Prop :=
  r.filePath = s.filePath ∧ r.copySerial = s.copySerial

theorem SameFile.trans {r s t : Record} (h : SameFile r s) (h' : SameFile s t) : SameFile r t :=
  ⟨h.1.trans h'.1, h.2.trans h'.2⟩

theorem sameFile_setText (r : Record) {f : Field} (hf : f ≠ .filePath) (t : Option Text) :
    SameFile (r.setText f t) r := by
  cases f with
  | filePath => exact absurd rfl hf
  | _ => exact ⟨rfl, rfl⟩

theorem sameFile_fill (r : Record) {f : Field} (hf : f ≠ .filePath) (offer : Option Text)
    (replaceUnknown : Bool) : SameFile (r.fill f offer replaceUnknown).1 r := by
  unfold fill
  split
  · exact ⟨rfl, rfl⟩
  · split
    · exact ⟨rfl, rfl⟩
    · split
      · exact sameFile_setText r hf _
      · exact ⟨rfl, rfl⟩

end Record

namespace Findings

theorem placeless_fillFrom (source : Option (Dictionary Text Text))
    {fields : List (Text × Field)} (hfields : ∀ x ∈ fields, ¬ x.2.TellsPlace)
    (replaceUnknown : Bool) (r : Record) :
    (fillFrom source fields replaceUnknown r).placeless =
      fillFrom source fields replaceUnknown r.placeless := by
  cases source with
  | none => rfl
  | some d =>
      unfold fillFrom
      induction fields generalizing r with
      | nil => rfl
      | cons x rest ih =>
          have hrest := ih (fun y hy => hfields y (List.mem_cons_of_mem x hy))
            (r.fill x.2 (d.get? x.1) replaceUnknown).1
          rw [Record.placeless_fill r (hfields x List.mem_cons_self)] at hrest
          exact hrest

theorem placeless_fillFromName (suffixes : List Text) (name : Text) (r : Record) :
    (fillFromName suffixes name r).placeless = fillFromName suffixes name r.placeless := by
  have hfill : ∀ (f : Field) (r : Record) (offer : Option Text), ¬ f.TellsPlace →
      (r.fill f offer false).1.placeless = (r.placeless.fill f offer false).1 :=
    fun _ r offer hf => Record.placeless_fill r hf offer false
  unfold fillFromName
  simp only [← hfill .artifact _ _ (by decide), ← hfill .version _ _ (by decide),
    ← hfill .classifier _ _ (by decide)]
  rfl

/-- Sources do not care for the place: it may be left out before they are asked. -/
theorem placeless_coordinates (f : Findings) (suffixes : List Text) (name : Text) (r : Record) :
    (f.coordinates suffixes name r).placeless = f.coordinates suffixes name r.placeless := by
  have hdescriptor : ∀ x ∈ descriptorFields, ¬ x.2.TellsPlace := by decide
  have hmanifest : ∀ x ∈ manifestFields, ¬ x.2.TellsPlace := by decide
  unfold coordinates
  simp only [← placeless_fillFrom _ hdescriptor, ← placeless_fillFrom _ hmanifest]
  -- Whether the name is asked is a matter of three fields that stay.
  have hcomplete : ∀ r : Record, r.placeless.hasCoordinates = r.hasCoordinates := fun _ => rfl
  rw [hcomplete, ← placeless_fillFromName]
  exact apply_ite Record.placeless _ _ _

theorem sameFile_fillFrom (source : Option (Dictionary Text Text)) (fields : List (Text × Field))
    (hfields : ∀ x ∈ fields, x.2 ≠ .filePath) (replaceUnknown : Bool) (r : Record) :
    Record.SameFile (fillFrom source fields replaceUnknown r) r := by
  cases source with
  | none => exact ⟨rfl, rfl⟩
  | some d =>
      unfold fillFrom
      induction fields generalizing r with
      | nil => exact ⟨rfl, rfl⟩
      | cons x rest ih =>
          have hx := Record.sameFile_fill r (hfields x List.mem_cons_self) (d.get? x.1)
            replaceUnknown
          exact (ih (fun y hy => hfields y (List.mem_cons_of_mem _ hy)) _).trans hx

theorem sameFile_fillFromName (suffixes : List Text) (name : Text) (r : Record) :
    Record.SameFile (fillFromName suffixes name r) r := by
  have hartifact := fun r o b => Record.sameFile_fill r (f := .artifact) (by decide) o b
  have hversion := fun r o b => Record.sameFile_fill r (f := .version) (by decide) o b
  have hclassifier := fun r o b => Record.sameFile_fill r (f := .classifier) (by decide) o b
  exact ((hclassifier _ _ _).trans (hversion _ _ _)).trans (hartifact _ _ _)

/-- What the sources and the file name tell does not change the file. -/
theorem sameFile_coordinates (f : Findings) (suffixes : List Text) (name : Text) (r : Record) :
    Record.SameFile (f.coordinates suffixes name r) r := by
  have hdescriptor := sameFile_fillFrom f.descriptor descriptorFields (by decide) false r
  have hmanifest := sameFile_fillFrom f.manifest manifestFields (by decide) true
    (fillFrom f.descriptor descriptorFields false r)
  have hboth := hmanifest.trans hdescriptor
  unfold coordinates
  simp only
  split
  · exact hboth
  · exact (sameFile_fillFromName suffixes name _).trans hboth

end Findings

namespace Inspector

/-- What is left of a record follows from the findings, the name and the size. -/
theorem placeless_recordOf (i : Inspector) (p : Path) (size : Nat) (checksum : Text)
    (f : Findings) :
    (i.recordOf p size checksum f).placeless =
      f.coordinates i.suffixes p.name
        { fileSize := size, checksum := some checksum
          manifestInfo := f.manifest.map Findings.snapshot } := by
  have hplaceless := Findings.placeless_coordinates f i.suffixes p.name
    { filePath := some p.toText, fileSize := size, checksum := some checksum
      manifestInfo := f.manifest.map Findings.snapshot }
  exact hplaceless

end Inspector

end ArchiveCensus
