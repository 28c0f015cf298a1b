import ArchiveCensus.Text.CodePoint

/-!
# Notices

What the library tells a log. A notice is a severity and the name of the event;
functions that have something to say return their notices beside their result,
in order.

## Main definitions

* `Severity`: How grave a notice is.
* `Notice`: One log line without its details.
-/

namespace ArchiveCensus

/-- How grave a notice is, from least to most. -/
inductive Severity where
  | debug
  | info
  | warning
  | error
deriving DecidableEq

namespace Severity

/-- The word for a severity. -/
def name : Severity → String
  | debug => "debug"
  | info => "info"
  | warning => "warning"
  | error => "error"

/-- Position in the order of gravity. -/
def rank : Severity → Nat
  | debug => 0
  | info => 1
  | warning => 2
  | error => 3

end Severity

/-- A log line: how grave it is and what happened. -/
structure Notice where
  severity : Severity
  event : String
deriving DecidableEq

namespace Notice

def debug (event : String) : Notice := ⟨.debug, event⟩

def info (event : String) : Notice := ⟨.info, event⟩

def warning (event : String) : Notice := ⟨.warning, event⟩

def error (event : String) : Notice := ⟨.error, event⟩

end Notice

end ArchiveCensus
