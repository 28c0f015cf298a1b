import ArchiveCensus.Dictionary
import ArchiveCensus.Source

/-!
# Sources of Threads

Each thread may have a source of its own. The roster knows which threads are
running, in the order in which they started, and what was assigned to them. An
assignment outlives its thread, but only running threads are listed.

Threads have names, and several may have the same one, even that of the main
thread. So they are told apart by their number in the order of starting.

## Main definitions

* `ThreadId`: A thread by its number.
* `Roster`: Threads and their sources.
* `Roster.start`, `Roster.finish`: The life of a thread.
* `Roster.assign`, `Roster.withdraw`, `Roster.sourceOf`: Writing and reading.
* `Roster.running`: The running threads that have an assignment.
-/

namespace ArchiveCensus

/-- By which threads are told apart. -/
abbrev ThreadId := Nat

/-- Threads and their sources. An assigned source may still be none at all. -/
structure Roster (σ : Type) where
  /-- How many threads have been started, the main one included. -/
  count : Nat
  /-- The running threads with their names, in the order of starting. -/
  threads : List (ThreadId × Text)
  assigned : Dictionary ThreadId (Option σ)

namespace Roster

variable {σ : Type}

/-- The thread that is there from the start. -/
def mainThread : ThreadId := 0

/-- Its name. -/
def mainName : Text := "MainThread"

/-- Only the main thread, and nothing assigned. -/
def initial : Roster σ :=
  ⟨1, [(mainThread, mainName)], []⟩

/-- The number of the next thread. -/
def next (r : Roster σ) : ThreadId :=
  r.count

/-- Starts the next thread. -/
def start (r : Roster σ) (name : Text) : Roster σ :=
  { r with count := r.count + 1, threads := r.threads ++ [(r.next, name)] }

def finish (r : Roster σ) (thread : ThreadId) : Roster σ :=
  { r with threads := r.threads.filter (·.1 ≠ thread) }

def assign (r : Roster σ) (thread : ThreadId) (source : Option σ) : Roster σ :=
  { r with assigned := r.assigned.put thread source }

def withdraw (r : Roster σ) (thread : ThreadId) : Roster σ :=
  { r with assigned := r.assigned.filter (·.1 ≠ thread) }

/-- The source of a thread, none if nothing was assigned. -/
def sourceOf (r : Roster σ) (thread : ThreadId) : Option σ :=
  (r.assigned.get? thread).join

/-- The running threads that have an assignment: number, name and source. -/
def running (r : Roster σ) : List (ThreadId × Text × Option σ) :=
  r.threads.filterMap fun t => (r.assigned.get? t.1).map fun source => (t.1, t.2, source)

end Roster

end ArchiveCensus
