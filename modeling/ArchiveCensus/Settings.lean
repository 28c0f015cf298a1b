import ArchiveCensus.Decimal.Reading
import ArchiveCensus.Dictionary
import ArchiveCensus.Text.Case
import ArchiveCensus.Text.Blank
import ArchiveCensus.Value

/-!
# Settings

Whether to look for archives at all, after which delay, and at which interval.
A host gives values of any kind, and each setting says what it takes for its
own: a flag takes words and the numbers zero and one, a number takes numbers,
flags and numbers in writing. Values that cannot be taken are reported together,
in the order of the settings.

## Main definitions

* `Settings`: The three settings.
* `Settings.flag`, `Settings.number`: Reading one value.
* `Settings.Offers`, `Settings.ofOffers`: Reading all of them.
* `Settings.ofProperties`, `Settings.ofEnvironment`: Where values come from.
-/

namespace ArchiveCensus

/-- Whether, after which delay and at which interval. -/
structure Settings where
  enabled : Bool := true
  /-- Seconds before the first campaign. -/
  delay : Float := 5.0
  /-- Hours before each further one; at or below zero there is none. -/
  hours : Float := 6.0

namespace Settings

/-- Seconds before each further campaign. -/
def interval (s : Settings) : Float :=
  s.hours * 3600.0

/-- One of the settings. -/
inductive Item where
  | enabled
  | delay
  | hours
deriving DecidableEq

/-- The name of a setting. -/
def Item.name : Item → String
  | enabled => "enabled"
  | delay => "delay_seconds"
  | hours => "interval_hours"

/-- Under which name a host gives a setting. -/
def Item.property : Item → String
  | enabled => "depsentinel.dependency.discovery.enabled"
  | delay => "depsentinel.dependency.discovery.delay.seconds"
  | hours => "depsentinel.dependency.discovery.interval.hours"

/-- Which variable gives a setting. -/
def Item.variableName : Item → String
  | enabled => "DEPSENTINEL_DISCOVERY_ENABLED"
  | delay => "DEPSENTINEL_DISCOVERY_DELAY_SECONDS"
  | hours => "DEPSENTINEL_DISCOVERY_INTERVAL_HOURS"

/-- Why a value cannot be taken. -/
inductive Problem where
  /-- A text or a whole number of 64 bits that is no flag. -/
  | unreadableFlag
  /-- A value of a kind that is no flag. -/
  | noFlag
  /-- A text that is no number. -/
  | unreadableNumber
  /-- A value of a kind that is no number. -/
  | noNumber
  /-- A number below zero where none may be. -/
  | negative
  /-- A text that is no Unicode. -/
  | notUnicode
deriving DecidableEq

/-! ### Flags -/

/-- Words for yes and for no that may stand between blanks. -/
def roomyWords : List (String × Bool) :=
  [("true", true), ("1", true), ("yes", true), ("on", true),
    ("false", false), ("0", false), ("no", false), ("off", false)]

/-- Further words, which may not. -/
def tightWords : List (String × Bool) :=
  [("t", true), ("y", true), ("f", false), ("n", false)]

/-- What a text means in a list of words. -/
def wordIn (words : List (String × Bool)) (t : Text) : Option Bool :=
  (words.find? fun w => Text.ofString w.1 = t).map Prod.snd

/-- A text as a flag. -/
def flagOfText (t : Text) : Except Problem Bool :=
  match wordIn roomyWords t.trim.lower with
  | some b => .ok b
  | none =>
    if !t.isScalar then .error .notUnicode
    else (wordIn tightWords (t.map CodePoint.lowerAscii)).elim (.error .unreadableFlag) .ok

/-- The least whole number that fits into 64 bits; the greatest is its opposite
    less one. -/
def leastWord : Int := -(1 <<< 63 : Nat)

/-- A whole number as a flag. Outside of 64 bits it is not looked at. -/
def flagOfInt (n : Int) : Except Problem Bool :=
  if n < leastWord || -leastWord ≤ n then .error .noFlag
  else if n = 0 then .ok false
  else if n = 1 then .ok true
  else .error .unreadableFlag

/-- A double as a flag. It has to be whole and lie strictly inside the range of
    64 bits. -/
def flagOfFloat (x : Float) : Except Problem Bool :=
  match Value.wholeOf? x with
  | none => .error .noFlag
  | some n => if n = leastWord then .error .noFlag else flagOfInt n

/-- A value as a flag. -/
def flag : Value → Except Problem Bool
  | .bool b => .ok b
  | .text t => flagOfText t
  | .int n => flagOfInt n
  | .float x => flagOfFloat x
  | .null | .list _ | .map _ => .error .noFlag

/-! ### Numbers -/

/-- White space around a number: the Unicode spaces, without the information
    separators. -/
def isSpace (c : CodePoint) : Bool :=
  c.isBlank && !(0x1C ≤ c.val && c.val ≤ 0x1F)

/-- The words for numbers that have no digits. -/
def numberWord? (t : Text) : Option Float :=
  if t = Text.ofString "inf" || t = Text.ofString "infinity" then some (1.0 / 0.0)
  else if t = Text.ofString "nan" then some (0.0 / 0.0)
  else none

/-- A number in writing, with nothing around it. -/
def bareNumber? (t : Text) : Option Float :=
  let (negative, rest) := Decimal.cutSign t
  match numberWord? (rest.map CodePoint.lowerAscii) with
  | some x => some (Decimal.signed negative x)
  | none => (Decimal.parse? negative rest).map Decimal.toFloat

/-- A number in writing, without the space around it. -/
def spacedNumber? (t : Text) : Option Float :=
  bareNumber? (Text.dropBoth isSpace t)

/-- The text without its underscores, if it has any. Each has to stand alone, and
    none at an end. -/
def ungrouped? (t : Text) : Option Text :=
  if t.contains '_' && t.head? ≠ some '_' && t.getLast? ≠ some '_' && !t.includes "__" then
    some (t.filter (· ≠ '_'))
  else none

/-- A number in writing: with space around it, or with underscores in it. -/
def numberOfText (t : Text) : Except Problem Float :=
  if !t.isScalar then .error .notUnicode
  else
    ((spacedNumber? t).or ((ungrouped? t).bind bareNumber?)).elim (.error .unreadableNumber) .ok

/-- A whole number as the nearest double, unless it is too large for any. -/
def numberOfInt (n : Int) : Except Problem Float :=
  let x := Decimal.ofInt n
  if x.isInf then .error .noNumber else .ok x

/-- A value as a number. -/
def number : Value → Except Problem Float
  | .bool b => .ok (if b then 1.0 else 0.0)
  | .int n => numberOfInt n
  | .float x => .ok x
  | .text t => numberOfText t
  | .null | .list _ | .map _ => .error .noNumber

/-- A value as a number that is not below zero. -/
def delayNumber (v : Value) : Except Problem Float :=
  match number v with
  | .error p => .error p
  | .ok x => if x < 0.0 then .error .negative else .ok x

/-! ### Reading all settings -/

/-- The values that a host gives, where it gives any. -/
abbrev Offers := Item → Option Value

/-- A setting that may not be given. -/
def orElse {α : Type} (usual : α) (read : Value → Except Problem α) (v : Option Value) :
    Except Problem α :=
  v.elim (.ok usual) read

/-- The problem with a setting, if it has one. -/
def problemIn {α : Type} (i : Item) : Except Problem α → List (Item × Problem)
  | .ok _ => []
  | .error p => [(i, p)]

/-- The settings that a host gives, or all problems with them. -/
def ofOffers (offers : Offers) : Except (List (Item × Problem)) Settings :=
  let usual : Settings := {}
  let enabled := orElse usual.enabled flag (offers .enabled)
  let delay := orElse usual.delay delayNumber (offers .delay)
  let hours := orElse usual.hours number (offers .hours)
  match enabled, delay, hours with
  | .ok enabled, .ok delay, .ok hours => .ok { enabled, delay, hours }
  | _, _, _ =>
    .error (problemIn .enabled enabled ++ problemIn .delay delay ++ problemIn .hours hours)

/-- The values under the names of settings. -/
def offersBy (name : Item → String) (values : Dictionary Text Value) : Offers := fun i =>
  values.get? (Text.ofString (name i))

/-- A value that is no value is none given. -/
def given : Option Value → Option Value
  | some .null => none
  | v => v

/-- The settings among the properties of a host. -/
def ofProperties (values : Dictionary Text Value) : Except (List (Item × Problem)) Settings :=
  ofOffers fun i => given (offersBy Item.property values i)

/-- The settings among the variables of a process. -/
def ofEnvironment (values : Dictionary Text Value) : Except (List (Item × Problem)) Settings :=
  ofOffers fun i => given (offersBy Item.variableName values i)

/-- The settings under their own names. -/
def ofNamed (values : Dictionary Text Value) : Except (List (Item × Problem)) Settings :=
  ofOffers (offersBy Item.name values)

end Settings

end ArchiveCensus
