import ArchiveCensus.Record.Sheet

/-!
# Drafts of Records

A record that is being made, for hosts that make records themselves. A host may
set any name to any value: the names of fields set the fields, and other names
are notes, which never become part of the record. Sources fill fields and notes
by the rule of `Record.fill`.

## Main definitions

* `Draft`: What stands under each name.
* `Draft.set`: Setting a name.
* `Draft.fill`: Writing a text that a source offers.
* `Draft.sheet`: The record as it is so far.
-/

namespace ArchiveCensus

/-- A record that is being made: all fields, and what a host noted beside them. -/
structure Draft where
  entries : Attributes := Record.sheet {}

namespace Draft

/-- What stands in a field. -/
def valueIn (d : Draft) (f : Field) : Value :=
  (d.entries.get? (Text.ofString f.name)).getD .null

/-- Sets a name. -/
def set (d : Draft) (name : Text) (v : Value) : Draft :=
  ⟨d.entries.put name v⟩

/-- A value over which a source may write. -/
def givesWay (replaceUnknown : Bool) : Value → Bool
  | .null => Record.givesWay none replaceUnknown
  | .text t => Record.givesWay (some t) replaceUnknown
  | _ => false

/-- What a draft does goes by names too, and a source cannot write over them. -/
def actions : List Text :=
  ["has_coordinates", "set_if_unset", "build"]

/-- Why a source cannot write. -/
inductive Fault where
  /-- What it offers is neither a text nor nothing. -/
  | notText
  /-- Nothing is known by the name. -/
  | noSuchName
deriving DecidableEq

/-- Writes a text under a name if what stands there gives way. -/
def write (d : Draft) (name t : Text) (replaceUnknown : Bool) : Except Fault (Draft × Bool) :=
  match d.entries.get? name with
  | some v => .ok (if givesWay replaceUnknown v then (d.set name (.text t), true) else (d, false))
  | none => if name ∈ actions then .ok (d, false) else .error .noSuchName

/-- Writes the text that a source offers, trimmed, if it is not blank. The flag
    says whether it was written. -/
def fill (d : Draft) (name : Text) (offer : Value) (replaceUnknown : Bool) :
    Except Fault (Draft × Bool) :=
  match offer with
  | .null => .ok (d, false)
  | .text t => if t.isBlank then .ok (d, false) else d.write name t.trim replaceUnknown
  | _ => .error .notText

/-- Group, artifact and version are there. -/
def hasCoordinates (d : Draft) : Bool :=
  [Field.group, .artifact, .version].all fun f => !(d.valueIn f).isNull

/-- The record as it is so far, as a map. -/
def sheet (d : Draft) : Attributes :=
  Field.all.map fun f => (Text.ofString f.name, d.valueIn f)

end Draft

end ArchiveCensus
