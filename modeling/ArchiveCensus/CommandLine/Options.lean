import ArchiveCensus.Text.Search

/-!
# Options

Arguments that start with a hyphen. A long option has two hyphens and may take
its value behind an equals sign; short options have one hyphen and one letter,
may stand together, and the last of them may have its value right behind it. An
option takes its value from the next argument whatever that looks like. A lone
hyphen is a word, and behind two lone hyphens there are only words.

## Main definitions

* `Grammar`: Which options there are.
* `Reading`: What was read.
* `Grammar.read`: Reading arguments.
* `Reading.last?`: How an option was set last.
-/

namespace ArchiveCensus

namespace CommandLine

/-- What an option does. -/
inductive Effect (κ : Type) where
  /-- It sets a flag. -/
  | flag (key : κ) (on : Bool)
  /-- It takes a value. -/
  | value (key : κ)

/-- Which options there are. -/
structure Grammar (κ : Type) where
  options : List (Text × Effect κ)
  /-- Options may follow words. -/
  mixed : Bool := true

/-- How an option was set. -/
inductive Setting where
  | flag (on : Bool)
  | value (t : Text)

/-- What was read: settings in order, and words. -/
structure Reading (κ : Type) where
  settings : List (κ × Setting) := []
  words : List Text := []

/-- Why arguments cannot be read. -/
inductive Misuse where
  | noSuchOption
  | missingValue
  | unwantedValue
deriving DecidableEq

namespace Reading

variable {κ : Type}

/-- One setting more. -/
def set (r : Reading κ) (key : κ) (s : Setting) : Reading κ :=
  { r with settings := r.settings ++ [(key, s)] }

/-- One word more. -/
def addWord (r : Reading κ) (t : Text) : Reading κ :=
  { r with words := r.words ++ [t] }

variable [DecidableEq κ]

/-- How an option was set last. -/
def last? (r : Reading κ) (key : κ) : Option Setting :=
  (r.settings.reverse.find? fun s => s.1 = key).map Prod.snd

/-- The value that an option was given last. -/
def value? (r : Reading κ) (key : κ) : Option Text :=
  match r.last? key with
  | some (.value t) => some t
  | _ => none

/-- Whether a flag was set last, or else the default. -/
def isOn (r : Reading κ) (key : κ) (usual : Bool) : Bool :=
  match r.last? key with
  | some (.flag on) => on
  | _ => usual

/-- The first of some options that was set. -/
def firstOf? (r : Reading κ) (keys : List κ) : Option κ :=
  (r.settings.find? fun s => s.1 ∈ keys).map Prod.fst

end Reading

namespace Grammar

variable {κ : Type}

/-- What a spelling does. -/
def effect? (g : Grammar κ) (spelling : Text) : Option (Effect κ) :=
  (g.options.find? fun o => o.1 = spelling).map Prod.snd

/-- A text that starts as long options do. -/
def isLong (t : Text) : Bool :=
  t.startsWith "--"

/-- An option and its value, at the first equals sign. -/
def splitValue (t : Text) : Text × Option Text :=
  match Text.cutAt? '=' t with
  | some (name, value) => (name, some value)
  | none => (t, none)

/-- Sets an option that takes a value from the arguments that follow, unless it
    has one already. -/
def takeValue (r : Reading κ) (key : κ) (given : Option Text) (rest : List Text) :
    Except Misuse (Reading κ × List Text) :=
  match given, rest with
  | some v, rest => .ok (r.set key (.value v), rest)
  | none, v :: rest => .ok (r.set key (.value v), rest)
  | none, [] => .error .missingValue

/-- Reads the letters of short options. -/
def readLetters (g : Grammar κ) (rest : List Text) :
    Text → Reading κ → Except Misuse (Reading κ × List Text)
  | [], r => .ok (r, rest)
  | c :: more, r =>
    match g.effect? [CodePoint.ofChar '-', c] with
    | none => .error .noSuchOption
    | some (.flag key on) => readLetters g rest more (r.set key (.flag on))
    | some (.value key) => takeValue r key (if more.isEmpty then none else some more) rest

/-- Reads the argument `arg`, which starts with a hyphen. -/
def readOption (g : Grammar κ) (arg : Text) (rest : List Text) (r : Reading κ) :
    Except Misuse (Reading κ × List Text) :=
  let (name, given) := splitValue arg
  match (if isLong name then g.effect? name else none), given with
  | some (.value key), given => takeValue r key given rest
  | some (.flag key on), none => .ok (r.set key (.flag on), rest)
  | some (.flag _ _), some _ => .error .unwantedValue
  | none, _ => if isLong arg then .error .noSuchOption else readLetters g rest arg.tail r

/-- An argument that is read as an option. -/
def looksLikeOption (t : Text) : Bool :=
  t.startsWith "-" && 1 < t.length

/-- Reads up to `fuel` arguments. -/
def readFor (g : Grammar κ) : (fuel : Nat) → List Text → Reading κ → Except Misuse (Reading κ)
  | 0, rest, r => .ok { r with words := r.words ++ rest }
  | _, [], r => .ok r
  | fuel + 1, arg :: rest, r =>
    if arg = Text.ofString "--" then .ok { r with words := r.words ++ rest }
    else if looksLikeOption arg then
      match readOption g arg rest r with
      | .error m => .error m
      | .ok (r, rest) => readFor g fuel rest r
    else if g.mixed then readFor g fuel rest (r.addWord arg)
    else .ok { r with words := r.words ++ arg :: rest }

/-- Reads arguments. -/
def read (g : Grammar κ) (args : List Text) : Except Misuse (Reading κ) :=
  readFor g args.length args {}

end Grammar

end CommandLine

end ArchiveCensus
