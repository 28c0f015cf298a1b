import ArchiveCensus.Dictionary
import ArchiveCensus.Path

/-!
# Environments

The variables of a process. They are kept as bytes, as paths are, so a process
sees the one text that stands for the bytes, whichever text was set. Some texts
cannot be set at all.

## Main definitions

* `Environment`: The names that are set, and what a process sees under them.
* `Environment.set`: Setting a variable.
* `Environment.ofPairs`: Setting several.
-/

namespace ArchiveCensus

/-- The names that are set, and what a process sees under them. -/
abbrev Environment := Dictionary Text Text

namespace Environment

/-- Why a variable cannot be set. -/
inductive Fault where
  /-- No bytes stand for a text. -/
  | noBytes
  /-- A text holds a NUL. -/
  | zeroByte
  /-- The name holds the sign that divides names from values. -/
  | dividedName
  /-- The name is empty. -/
  | noName
deriving DecidableEq

/-- What keeps a name and a value, both given as bytes, from being set. -/
def faultIn? (name value : List UInt8) : Option Fault :=
  if name.contains 0 || value.contains 0 then some .zeroByte
  else if name.contains 0x3D then some .dividedName
  else if name.isEmpty then some .noName
  else none

/-- The environment with one variable set. -/
def set (e : Environment) (name value : Text) : Except Fault Environment :=
  match Path.encode? name, Path.encode? value with
  | some n, some v =>
    match faultIn? n v with
    | some f => .error f
    | none => .ok (e.put (Path.onDisk name) (Path.onDisk value))
  | _, _ => .error .noBytes

/-- The environment with variables set one after the other. -/
def ofPairs (pairs : List (Text × Text)) : Except Fault Environment :=
  pairs.foldlM (fun e p => e.set p.1 p.2) []

end Environment

end ArchiveCensus
