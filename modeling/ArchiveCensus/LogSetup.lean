import ArchiveCensus.Text.Case

/-!
# Setting up a Log

How a program that uses the library sets up its log, as a value. The level is
taken as it is given, in upper case; whether there is such a level is for the
log to find out. An unknown format is the format for people.

## Main definitions

* `LogSetup`: Level and format.
* `LogSetup.choose`: From arguments and variables.
* `LogSetup.loggers`: The level of each named log.
* `LogSetup.Stage`: What is done with each line.
-/

namespace ArchiveCensus

/-- How lines look. -/
inductive LogFormat where
  /-- For people. -/
  | console
  /-- For programs. -/
  | json
deriving DecidableEq

/-- How a log is set up. -/
structure LogSetup where
  level : Text
  format : LogFormat
deriving DecidableEq

namespace LogSetup

/-- The format that a word names. -/
def formatOf (t : Text) : LogFormat :=
  if t.lower = Text.ofString "json" then .json else .console

/-- An argument, unless it is empty, or else a variable, or else a default. -/
def pick (argument listed : Option Text) (usual : Text) : Text :=
  match argument.filter (!·.isEmpty) with
  | some t => t
  | none => listed.getD usual

/-- The set-up by arguments and variables. -/
def choose (level format levelListed formatListed : Option Text) : LogSetup :=
  { level := (pick level levelListed "INFO").upper
    format := formatOf (pick format formatListed "console") }

/-- The variable that gives the level. -/
def levelVariable : Text := "DEPSENTINEL_LOG_LEVEL"

/-- The variable that gives the format. -/
def formatVariable : Text := "DEPSENTINEL_LOG_FORMAT"

/-- The logs that are held back, as they tell much of little use. -/
def quietLoggers : List Text :=
  ["asyncio", "concurrent.futures"]

/-- The level of each named log. -/
def loggers (s : LogSetup) : List (Text × Text) :=
  (Text.ofString "depsentinel", s.level)
    :: quietLoggers.map fun name => (name, Text.ofString "WARNING")

/-- Where the lines go. -/
def handlers : List Text :=
  ["stderr"]

/-- What is done with each line, in order, before it is handed over. -/
inductive Stage where
  | context
  | level
  | loggerName
  | timestamp
  | stack
  | failure
  | decoding
  | handOver
deriving DecidableEq

/-- All stages. -/
def stages : List Stage :=
  [.context, .level, .loggerName, .timestamp, .stack, .failure, .decoding, .handOver]

end LogSetup

end ArchiveCensus
