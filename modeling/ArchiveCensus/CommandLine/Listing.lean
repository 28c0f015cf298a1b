import ArchiveCensus.CommandLine.Census
import ArchiveCensus.Text.Digit

/-!
# The Listing Program

A program with one purpose: to list the archives at paths, grouped by scope. Its
options may be cut short as long as only one of them starts that way. All paths
have to stand together; options may stand in front of them or behind, but not
between.

## Main definitions

* `Listing.Item`, `Listing.itemOf`: What an argument is.
* `Listing.read`: Reading all arguments.
* `Listing.report`: The output.
* `Listing.run`: The program.
-/

namespace ArchiveCensus

namespace CommandLine

namespace Listing

/-! ### Arguments -/

/-- The options. -/
inductive Key where
  | help
  | runtime
  | json
deriving DecidableEq

/-- What an argument is. -/
inductive Item where
  | word (t : Text)
  /-- Two lone hyphens. -/
  | stop
  | option (key : Key)
  /-- An option that there is not. -/
  | unknown
  /-- An option that there is, with something it does not take. -/
  | spoilt
  /-- The start of several options. -/
  | ambiguous
deriving DecidableEq

/-- The long options. -/
def options : List (Text × Key) :=
  [(Text.ofString "--help", .help), (Text.ofString "--runtime", .runtime),
    (Text.ofString "--json", .json)]

/-- The letter of the one short option. -/
def isHelpLetter (c : CodePoint) : Bool :=
  c = 'h'

/-- The short option with what stands behind it. It may be repeated, also behind
    an equals sign, and takes nothing else. -/
def shortItem (behind : Text) : Item :=
  match behind with
  | [] => .option .help
  | c :: more =>
    let letters := if c = '=' then more else behind
    if !letters.isEmpty && letters.all isHelpLetter then .option .help else .spoilt

/-- A long option, which may be cut short. -/
def longItem? (t : Text) : Option Item :=
  let (name, value) := Grammar.splitValue t
  match options.filter fun o => o.1.startsWith name with
  | [] => none
  | [o] => some (if value.isSome then .spoilt else .option o.2)
  | _ => some .ambiguous

/-- A short option. -/
def shortItem? : Text → Option Item
  | h :: c :: behind => if h = '-' ∧ isHelpLetter c then some (shortItem behind) else none
  | _ => none

/-- Digits of any script, one at least. -/
def areDigits (t : Text) : Bool :=
  !t.isEmpty && t.all CodePoint.isDecimal

/-- A text without a line feed at its end. -/
def dropLineEnd (t : Text) : Text :=
  if t.getLast? = some '\n' then t.dropLast else t

/-- A negative number, which is a word: digits, or a point with digits behind
    it and maybe before it. A line may end behind it. -/
def isNegativeNumber : Text → Bool
  | [] => false
  | h :: t =>
    let t := dropLineEnd t
    h = '-' &&
      match Text.cutAt? '.' t with
      | none => areDigits t
      | some (whole, fraction) => (whole.isEmpty || areDigits whole) && areDigits fraction

/-- A space. -/
def isSpace (c : CodePoint) : Bool :=
  c = ' '

/-- What an argument is that starts with a hyphen and is no option. -/
def strayItem (t : Text) : Item :=
  if isNegativeNumber t || t.any isSpace then .word t else .unknown

/-- What an argument is, in front of two lone hyphens. -/
def itemOf (t : Text) : Item :=
  if t = Text.ofString "--" then .stop
  else if !Grammar.looksLikeOption t then .word t
  else if Grammar.isLong t then (longItem? t).getD (strayItem t)
  else (shortItem? t).getD (strayItem t)

/-- What all arguments are. Behind two lone hyphens there are only words. -/
def itemsOf : List Text → List Item
  | [] => []
  | t :: rest =>
    match itemOf t with
    | .stop => .stop :: rest.map .word
    | item => item :: itemsOf rest

/-- What was read. -/
structure Reading where
  keys : List Key := []
  /-- The paths, once they have been read. -/
  paths : Option (List Text) := none
  /-- There are arguments that nothing takes. -/
  surplus : Bool := false

/-- What comes of reading. -/
inductive Answer where
  | read (r : Reading)
  | help
  | misuse

/-- Reads what arguments are. Words are the paths as long as nothing has come
    between; `open_` holds the paths that are still being read, in reverse. -/
def readItems (open_ : Option (List Text)) (r : Reading) : List Item → Answer
  | [] => .read { r with paths := open_.elim r.paths fun ws => some ws.reverse }
  | item :: rest =>
    -- Whatever is no word ends the paths.
    let closed : Reading := { r with paths := open_.elim r.paths fun ws => some ws.reverse }
    match item with
    | .word t =>
      match open_, r.paths with
      | some ws, _ => readItems (some (t :: ws)) r rest
      | none, none => readItems (some [t]) r rest
      | none, some _ => readItems none { r with surplus := true } rest
    | .stop =>
      match open_, r.paths with
      | none, some _ => readItems none { r with surplus := true } rest
      | ws, _ => readItems (some (ws.getD [])) r rest
    | .option .help => .help
    | .option key => readItems none { closed with keys := closed.keys ++ [key] } rest
    | .unknown => readItems none { closed with surplus := true } rest
    | .spoilt | .ambiguous => .misuse

/-- Reads arguments. An option that could be several makes no sense wherever it
    stands, and an argument that nothing takes makes none unless help is wanted. -/
def read (args : List Text) : Answer :=
  let items := itemsOf args
  if .ambiguous ∈ items then .misuse
  else
    match readItems none {} items with
    | .read r => if r.surplus then .misuse else .read r
    | answer => answer

/-! ### Output -/

/-- Records are listed by artifact, then by version. -/
def sortKey (r : Record) : List Text :=
  [r.artifact.getD [], r.version.getD []]

/-- The scope of a record. -/
def scopeOf (r : Record) : Text :=
  (PackageUrl.present r.scope).getD "compile"

/-- What is shown of a record. -/
def row (r : Record) : Value :=
  .map [(Text.ofString "purl", .text (Census.purlOf r)),
    (Text.ofString "group_id", r.valueIn .group),
    (Text.ofString "artifact_id", r.valueIn .artifact),
    (Text.ofString "version", r.valueIn .version),
    (Text.ofString "classifier", r.valueIn .classifier), (Text.ofString "scope", r.valueIn .scope),
    (Text.ofString "direct", r.valueIn .isDirect), (Text.ofString "file_path", r.valueIn .filePath),
    (Text.ofString "parent", r.valueIn .parent)]

/-- Records by scope, scopes in the order of their first record. -/
def byScope (records : List Record) : Dictionary Text (List Record) :=
  records.foldl (fun d r =>
    let scope := scopeOf r
    d.put scope (((d.get? scope).getD []) ++ [r])) []

/-- The line of a record. -/
def recordLine (r : Record) : Text :=
  let mark : Text := if r.isDirect then [] else "  (indirect)"
  line (Text.ofString "    " ++ Census.purlOf r ++ mark)

/-- The lines of a scope. -/
def scopeLines (g : Text × List Record) : Text :=
  line (Text.ofString "  " ++ g.1) ++ g.2.flatMap recordLine ++ line []

/-- How many records there are, and in how many scopes. -/
def summary (records scopes : Nat) : Text :=
  line (Text.ofString "Found " ++ Text.ofNat records ++ Text.ofString " dependencies in "
    ++ Text.ofNat scopes ++ Text.ofString " scope(s)") ++ line []

/-- The output. -/
def report (json : Bool) (records : List Record) : Text :=
  let sorted := sortRecords sortKey records
  if sorted.isEmpty then nothingFound
  else if json then line ((Value.list (sorted.map row)).render (.indented 2))
  else
    let groups := byScope sorted
    let ordered := groups.mergeSort fun a b => textsLe [a.1] [b.1]
    summary sorted.length groups.length ++ ordered.flatMap scopeLines

/-! ### The program -/

/-- How the program is called. -/
def usage : Text :=
  line "usage: [-h] [--runtime] [--json] [targets ...]"

/-- The paths that lead nowhere, unless one of them cannot be walked. -/
def missing (s : Session) : List Text → Except Disk.Fault (List Text)
  | [] => .ok []
  | t :: rest =>
    match s.disk.exists? (.parse t) with
    | .error f => .error f
    | .ok there => (missing s rest).map fun more => if there then more else t :: more

/-- What the program says about paths that lead nowhere. -/
def missingText (paths : List Text) : Text :=
  line (Text.ofString "Error: " ++ Text.joinWith ", " paths ++ Text.ofString " not found")

/-- What the program does with arguments that make sense. It breaks off at a path
    that cannot be walked. -/
def list (s : Session) (r : Reading) : Except Disk.Fault Outcome :=
  let paths := r.paths.getD []
  let runtime := r.keys.contains .runtime
  (missing s paths).map fun missing =>
    if !missing.isEmpty then .failure (missingText missing)
    else if paths.isEmpty && !runtime then .misuse
    else .success (report (r.keys.contains .json) (s.survey paths runtime))

/-- The program. -/
def run (s : Session) (args : List Text) : Except Disk.Fault Outcome :=
  match read args with
  | .misuse => .ok .misuse
  | .help => .ok (.success usage)
  | .read r => list s r

end Listing

end CommandLine

end ArchiveCensus
