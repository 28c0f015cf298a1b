import ArchiveCensus.Proofs.Inspection.Place
import ArchiveCensus.Proofs.Path

/-!
# Records of Scratch Copies

A member of an archive is copied before it is inspected, and each copy has a directory
for itself. Nobody knows the name of that directory beforehand and no two copies have
the same one, so a record is compared with others without it: `Record.erased` forgets
the number of the copy, and of the path it keeps the last component.

The directory may still show in what is left. A checksum is a function of the whole
path, and so are the scope and the directness that are guessed from it. A host that
chooses a checksum of the whole path gets another one for every copy of one member.
`Inspector.Blind` says that none of the three tells one directory from another, and then
all copies of one member have one record.

## Main definitions

* `Record.erased`: A record without the directory of its scratch copy.
* `Inspector.Blind`: Nothing that sees a path tells one scratch directory from another.

## Theorems

* `blind_of_constant`: An inspector that has one name for all directories is blind.
* `erased_recordOf`: What is left of the record of a copy.
* `erased_inspectCopy`: It is the same for all copies, for a blind inspector.
-/

namespace ArchiveCensus

namespace Record

/-- The record without the number of its scratch copy and the directory of it. -/
def erased (r : Record) : Record :=
  match r.copySerial with
  | none => r
  | some _ =>
    { r with copySerial := none, filePath := r.filePath.map fun t => (Path.parse t).name }

theorem erased_eq_self {r : Record} (h : r.copySerial = none) : r.erased = r := by
  rw [erased, h]

theorem erased_withParent (r : Record) (parent : Option Text) :
    (r.withParent parent).erased = r.erased.withParent parent := by
  rcases r with ⟨_, _, _, _, _, _, _, _, _, _, _, _, _ | serial⟩ <;> rfl

end Record

namespace Inspector

variable {i : Inspector} {p : Path} {name : Text}

/-- Nothing that sees a path tells one scratch directory from another: neither the
    checksum nor the rules for the scope nor the marks of indirect dependencies. -/
structure Blind (i : Inspector) : Prop where
  checksum : ∀ m n name size,
    i.checksum (i.scratchPath m name) size = i.checksum (i.scratchPath n name) size
  scope : ∀ m n name,
    i.scopeOf (i.scratchPath m name).toText.lower = i.scopeOf (i.scratchPath n name).toText.lower
  direct : ∀ m n name,
    i.isDirectAt (i.scratchPath m name).toText.lower =
      i.isDirectAt (i.scratchPath n name).toText.lower

/-- If one name stands for all directories there is nothing to tell. -/
theorem blind_of_constant (h : ∀ m n, i.scratch m = i.scratch n) : i.Blind := by
  have hpath : ∀ m n name, i.scratchPath m name = i.scratchPath n name := by
    intro m n name
    rw [scratchPath, scratchPath, scratchDirectory, scratchDirectory, h m n]
  refine ⟨fun m n name size => ?_, fun m n name => ?_, fun m n name => ?_⟩ <;>
    rw [hpath m n name]

theorem named_scratchPath (i : Inspector) (serial : Nat) (h : Path.IsName name) :
    (i.scratchPath serial name).Named :=
  Path.named_child (Path.named_parse _) h

/-- What is left of the record of a copy: what follows from the findings, the name and
    the size, the name itself, and what is guessed from the path. -/
theorem erased_recordOf (i : Inspector) (hp : p.Named) (size : Nat) (checksum : Text)
    (f : Findings) (serial : Nat) :
    ({ i.recordOf p size checksum f with copySerial := some serial } : Record).erased =
      { f.coordinates i.suffixes p.name
          { fileSize := size, checksum := some checksum
            manifestInfo := f.manifest.map Findings.snapshot } with
        filePath := some p.name
        scope := some (i.scopeOf p.toText.lower)
        isDirect := i.isDirectAt p.toText.lower } := by
  have hfile : (i.recordOf p size checksum f).filePath = some p.toText :=
    (Findings.sameFile_coordinates f i.suffixes p.name _).1
  rw [← placeless_recordOf, Record.erased]
  dsimp only
  rw [hfile, Option.map_some, Path.parse_toText hp]
  rfl

/-- All copies of a member have one record, for a blind inspector. -/
theorem erased_inspectCopy (hi : i.Blind) (hname : Path.IsName name) (bytes : ByteArray)
    (m n : Nat) :
    (i.inspectCopy name bytes m).1.map Record.erased =
      (i.inspectCopy name bytes n).1.map Record.erased := by
  rw [inspectCopy_fst, inspectCopy_fst, describe, describe, hi.checksum m n]
  cases i.checksum (i.scratchPath n name) bytes.size with
  | none => rfl
  | some checksum =>
      rcases Inspection.readFindings bytes with ⟨f | findings, notices⟩
      · rfl
      · have hfirst := erased_recordOf i (i.named_scratchPath m hname) bytes.size checksum
          findings m
        have hsecond := erased_recordOf i (i.named_scratchPath n hname) bytes.size checksum
          findings n
        rw [name_scratchPath, hi.scope m n, hi.direct m n] at hfirst
        rw [name_scratchPath] at hsecond
        exact congrArg some (hfirst.trans hsecond.symm)

end Inspector

end ArchiveCensus
