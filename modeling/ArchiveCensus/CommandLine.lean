import ArchiveCensus.Environment
import ArchiveCensus.Survey

/-!
# Command Lines

What the programs of this library see and do: a disk and the variables of the
process on one side, a status and texts on the other.

## Main definitions

* `CommandLine.Session`: What a program sees.
* `CommandLine.Outcome`: What a program does.
* `Session.survey`: Looking for archives at paths, and among those of the process.
* `CommandLine.withoutCodes`, `CommandLine.showSurrogate`: What a terminal shows
  of a text.
* `Session.presence`: Whether an argument is the path of something.
-/

namespace ArchiveCensus

namespace CommandLine

/-- What a program sees. -/
structure Session where
  disk : Disk
  environment : Environment := []

/-- What a program does. -/
structure Outcome where
  status : Nat
  /-- What it prints. -/
  output : Text := []
  /-- What it complains about. -/
  errors : Text := []
  /-- The level of the log, if it was set up. -/
  level : Option Text := none

namespace Outcome

/-- All is well. -/
def success (output : Text) : Outcome :=
  { status := 0, output }

/-- The arguments make no sense. -/
def misuse : Outcome :=
  { status := 2 }

/-- Something failed, and here is what. -/
def failure (errors : Text) : Outcome :=
  { status := 1, errors }

end Outcome

/-- A text and the end of its line. -/
def line (t : Text) : Text :=
  t ++ Text.ofString "\n"

/-- The code point that starts a terminal code. -/
def escape : CodePoint := .ofNat 0x1B

/-- A parameter of a terminal code: a digit, or a mark from `:` to `?`. -/
def isCodeParameter (c : CodePoint) : Bool :=
  0x30 ≤ c.val && c.val ≤ 0x3F

/-- What may stand behind the parameters: a space, or a mark before the digits. -/
def isCodeFiller (c : CodePoint) : Bool :=
  0x20 ≤ c.val && c.val ≤ 0x2F

/-- What ends a terminal code: a letter, or a mark that stands among them. -/
def isCodeEnd (c : CodePoint) : Bool :=
  0x40 ≤ c.val && c.val ≤ 0x7E

/-- What follows a terminal code: a bracket, parameters, fillers and an end. -/
def afterCode? : Text → Option Text
  | b :: rest =>
    if b = '[' then
      match (rest.dropWhile isCodeParameter).dropWhile isCodeFiller with
      | last :: after => if isCodeEnd last then some after else none
      | [] => none
    else none
  | [] => none

/-- A text without its terminal codes, of which there are at most `fuel`. -/
def withoutCodesFor : (fuel : Nat) → Text → Text
  | 0, t => t
  | fuel + 1, t =>
    match Text.cutAt? escape t with
    | none => t
    | some (before, rest) =>
      match afterCode? rest with
      | some after => before ++ withoutCodesFor fuel after
      | none => before ++ escape :: withoutCodesFor fuel rest

/-- A text without the codes that move a terminal or colour what it shows. -/
def withoutCodes (t : Text) : Text :=
  withoutCodesFor t.length t

/-- A surrogate cannot be shown, and is written with its number instead. -/
def showSurrogate (c : CodePoint) : Text :=
  if c.isSurrogate then CodePoint.ofChar '\x5c' :: CodePoint.ofChar 'u' :: Text.hex 4 c.val else [c]

/-- What a program prints when there is nothing to report. -/
def nothingFound : Text :=
  line "No dependencies found."

namespace Session

/-- The site of a scan. A program is over before anything expires, so its clock
    stands still. -/
def site (s : Session) : Survey.Site Nat :=
  { disk := s.disk, clock := fun _ => 0 }

/-- The memory of a program: it remembers for an hour, and up to a thousand
    records. -/
def memory : Survey.Memory Nat :=
  { store := ⟨3600, 1000, []⟩ }

/-- The variable that lists the archives of the process. -/
def searchVariable : Text := "CLASSPATH"

/-- The source that belongs to the process. -/
def systemSource? (s : Session) : Option Source :=
  let entries := systemEntries [] (s.environment.get? searchVariable)
  (PathList.ofEntries? s.disk.base entries "system").map fun p => { offer := p.offer }

/-- The sources of a program: that of the process and no other. -/
def scene (s : Session) : Survey.Scene :=
  match s.systemSource? with
  | some source => { sources := fun _ => source, system := .source 0 }
  | none => { sources := fun _ => {}, system := .failing }

/-- The records at paths, and among the archives of the process if wanted. -/
def survey (s : Session) (paths : List Text) (runtime : Bool) : RecordSet :=
  let (records, memory) := Survey.scanPaths s.site paths memory
  if runtime then records.union (Survey.scanAll s.site s.scene memory).1 else records

/-- What an argument leads to. -/
inductive Presence where
  | present
  | absent
  /-- No disk can name it. -/
  | unnameable
deriving DecidableEq

/-- A text that ends like the path of a directory. -/
def namesDirectory (t : Text) : Bool :=
  t.endsWith "/" || t.endsWith "/."

/-- What an argument leads to. The empty text leads nowhere, and one that ends
    like the path of a directory leads to no file. -/
def presence (s : Session) (t : Text) : Presence :=
  match Path.encode? t with
  | none => .unnameable
  | some bytes =>
    if bytes.contains 0 then .unnameable
    else if t.isEmpty then .absent
    else
      match s.disk.find (.parse t) with
      | .ok (some (_, .directory)) => .present
      | .ok (some (_, .file _)) => if namesDirectory t then .absent else .present
      | _ => .absent

end Session

/-- Lists of texts in the order of code points. -/
def textsLe (a b : List Text) : Bool :=
  compare a b != .gt

/-- Records by a key, in the order of code points. -/
def sortRecords (key : Record → List Text) (records : List Record) : List Record :=
  records.mergeSort fun a b => textsLe (key a) (key b)

end CommandLine

end ArchiveCensus
