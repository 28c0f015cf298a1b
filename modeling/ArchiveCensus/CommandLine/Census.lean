import ArchiveCensus.CommandLine
import ArchiveCensus.CommandLine.Options
import ArchiveCensus.LogSetup
import ArchiveCensus.PackageUrl
import ArchiveCensus.Record.Sheet
import ArchiveCensus.Value.Json

/-!
# The Census Program

The main program, with three commands. `scan` looks for archives at paths and
among those of the process, `purl` writes a package URL for coordinates, and
`parse` takes one apart.

Options in front of the command belong to the program; the log is set up as soon
as they are read, so also when the command then turns out to make no sense.

## Main definitions

* `Census.report`: The output of a scan.
* `Census.run`: The program.
-/

namespace ArchiveCensus

namespace CommandLine

namespace Census

/-- The options of the program and its commands. -/
inductive Key where
  | help
  | version
  | level
  | json
  | runtime
  | group
  | artifact
  | release
  | classifier
deriving DecidableEq

/-- The commands. -/
inductive Command where
  | scan
  | purl
  | parse
deriving DecidableEq

/-- The command of a name. -/
def Command.ofName? (t : Text) : Option Command :=
  [(Text.ofString "scan", scan), (Text.ofString "purl", purl), (Text.ofString "parse", parse)].find?
    (fun c => c.1 = t) |>.map Prod.snd

/-- The option that every program and command has. -/
def helpOption : Text × Effect Key :=
  (Text.ofString "--help", .flag .help true)

/-- The options in front of the command. -/
def grammar : Grammar Key :=
  { options :=
      [(Text.ofString "--version", .flag .version true),
        (Text.ofString "--log-level", .value .level), helpOption]
    mixed := false }

/-- The options of a command. -/
def Command.grammar : Command → Grammar Key
  | scan =>
    { options :=
        [(Text.ofString "--json", .flag .json true),
          (Text.ofString "--include-runtime", .flag .runtime true),
          (Text.ofString "--no-include-runtime", .flag .runtime false), helpOption] }
  | purl =>
    { options :=
        [(Text.ofString "-g", .value .group), (Text.ofString "--group", .value .group),
          (Text.ofString "-a", .value .artifact), (Text.ofString "--artifact", .value .artifact),
          (Text.ofString "-v", .value .release), (Text.ofString "--version", .value .release),
          (Text.ofString "-c", .value .classifier),
          (Text.ofString "--classifier", .value .classifier), helpOption] }
  | parse => { options := [helpOption] }

/-- How the program is called. -/
def usage : Text :=
  line "Usage: main [--version] [--log-level LEVEL] scan|purl|parse [ARGUMENTS]"

/-- Which program this is. -/
def versionText : Text :=
  line "main, version 0.1.0"

/-! ### Scan -/

/-- Records are listed by artifact, then by version, then by path. -/
def sortKey (r : Record) : List Text :=
  [r.artifact.getD [], r.version.getD [], r.filePath.getD []]

/-- The package URL of a record. -/
def purlOf (r : Record) : Text :=
  (PackageUrl.Maker.generate {} (some r)).1

/-- A record and its package URL. -/
def row (r : Record) : Value :=
  .map (r.sheet ++ [(Text.ofString "purl", .text (purlOf r))])

/-- The output of a scan. -/
def report (json : Bool) (records : List Record) : Text :=
  let sorted := sortRecords sortKey records
  if json then line ((Value.list (sorted.map row)).render (.indented 2))
  else if sorted.isEmpty then nothingFound
  else sorted.flatMap fun r => line (purlOf r)

/-- Looks for archives, if all arguments pass the check. Usually that is whether they are
    paths of something. -/
def scan (s : Session) (r : Reading Key) (check : Text → Session.Presence := s.presence) :
    Outcome :=
  match r.words.find? fun t => check t ≠ .present with
  | some t => if check t = .unnameable then .failure [] else .misuse
  | none => .success (report (r.isOn .json false) (s.survey r.words (r.isOn .runtime true)))

/-! ### Package URLs -/

/-- Writes a package URL. -/
def purl (r : Reading Key) : Outcome :=
  match r.value? .artifact, r.words with
  | some artifact, [] =>
    .success (line (purlOf
      { group := r.value? .group, artifact := some artifact, version := r.value? .release
        classifier := r.value? .classifier }))
  | _, _ => .misuse

/-- The parts of a package URL by their names. -/
def parts (p : PackageUrl.Parts) : Value :=
  .map [(Text.ofString "scheme", .text p.scheme), (Text.ofString "type", .text p.type),
    (Text.ofString "namespace", .text p.group), (Text.ofString "name", .text p.name),
    (Text.ofString "version", .text p.version)]

/-- What the program says about a text that is no package URL. -/
def notAUrl (t : Text) : Text :=
  line ((withoutCodes (Text.ofString "Error: not a valid package URL: " ++ t)).flatMap
    showSurrogate)

/-- Takes a package URL apart. -/
def parse (r : Reading Key) : Outcome :=
  match r.words with
  | [t] =>
    let p := PackageUrl.parse t
    if p.scheme.isEmpty then .failure (notAUrl t)
    else .success (line ((parts p).render (.indented 2)))
  | _ => .misuse

/-! ### The program -/

/-- Runs a command on what was read. -/
def Command.run (s : Session) (r : Reading Key) : Command → Outcome
  | scan => Census.scan s r
  | purl => Census.purl r
  | parse => Census.parse r

/-- Runs a command on its arguments. -/
def Command.start (s : Session) (c : Command) (args : List Text) : Outcome :=
  match c.grammar.read args with
  | .error _ => .misuse
  | .ok r => if (r.firstOf? [.help]).isSome then .success usage else c.run s r

/-- The levels that the log may have. -/
def levels : List Text :=
  ["DEBUG", "INFO", "WARNING", "ERROR"]

/-- The level that a text names, in whatever case. -/
def levelOf? (t : Text) : Option Text :=
  levels.find? fun l => l.lower = t.lower

/-- The level that is wanted: by an option, or else by a variable that is not
    empty, or else a default. -/
def wantedLevel (s : Session) (r : Reading Key) : Text :=
  (r.value? .level).getD
    (((s.environment.get? LogSetup.levelVariable).filter (!·.isEmpty)).getD "WARNING")

/-- What is told about the program if options ask for it, the first one of them. -/
def told? (r : Reading Key) : Option Outcome :=
  match r.firstOf? [.help, .version] with
  | some .help => some (.success usage)
  | some _ => some (.success versionText)
  | none => none

/-- What comes of arguments that name no command. They are read once more, since
    what stands behind two lone hyphens may have been meant as an option. -/
def withoutCommand (args : List Text) : Outcome :=
  ((grammar.read args).toOption.bind told?).getD .misuse

/-- The program. -/
def run (s : Session) (args : List Text) : Outcome :=
  match args, grammar.read args with
  | [], _ | _, .error _ => .misuse
  | _, .ok r =>
    match told? r with
    | some outcome => outcome
    | none =>
      match levelOf? (wantedLevel s r), r.words with
      | some level, name :: rest =>
        match Command.ofName? name with
        | some c => { c.start s rest with level := some level }
        | none => withoutCommand (name :: rest)
      | _, _ => .misuse

end Census

end CommandLine

end ArchiveCensus
