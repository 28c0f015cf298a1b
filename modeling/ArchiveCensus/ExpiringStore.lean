/-!
# Expiring Stores

A bounded memory. An entry expires a fixed lifetime after it was written, which
is noticed when it is read: an expired entry is gone from then on. A write of a
new key into a full store first drops the oldest tenth of the entries, at least
one. Age is the time of the last write; of equally old entries those go first
that stand first. Reading does not make an entry younger.

Times are of any type with a sum and an order, so that the rules can be stated
in exact arithmetic and run on a clock.

## Main definitions

* `ExpiringStore`: The entries and the two bounds.
* `ExpiringStore.read`: The value under a key, and the store after reading.
* `ExpiringStore.write`: The store with a value under a key.
* `ExpiringStore.evict`: The store without its oldest entries.
-/

namespace ArchiveCensus

/-- A value with the times of its writing and its expiry. -/
structure ExpiringStore.Entry (κ ν τ : Type) where
  key : κ
  value : ν
  created : τ
  expires : τ

/-- A bounded memory of entries that expire. -/
structure ExpiringStore (κ ν τ : Type) where
  lifetime : τ
  capacity : Nat
  entries : List (ExpiringStore.Entry κ ν τ)

namespace ExpiringStore

variable {κ ν τ : Type}

/-- Why there is no store. -/
inductive Fault where
  | noCapacity
deriving DecidableEq

/-- The wording of a fault. -/
def Fault.message : Fault → String
  | noCapacity => "max_size must be at least 1"

/-- An empty store, provided that it may hold something. -/
def create (lifetime : τ) (capacity : Int) : Except Fault (ExpiringStore κ ν τ) :=
  if capacity < 1 then .error .noCapacity else .ok ⟨lifetime, capacity.toNat, []⟩

/-- How many entries the store holds. -/
def size (s : ExpiringStore κ ν τ) : Nat :=
  s.entries.length

/-- The store without entries. -/
def clear (s : ExpiringStore κ ν τ) : ExpiringStore κ ν τ :=
  { s with entries := [] }

section Keys

variable [DecidableEq κ]

/-- The entry under a key. -/
def entry? (s : ExpiringStore κ ν τ) (key : κ) : Option (Entry κ ν τ) :=
  s.entries.find? fun e => e.key = key

/-- The store without the entry under a key. -/
def erase (s : ExpiringStore κ ν τ) (key : κ) : ExpiringStore κ ν τ :=
  { s with entries := s.entries.filter fun e => e.key ≠ key }

end Keys

section Times

variable [DecidableEq κ] [LT τ] [DecidableRel (α := τ) (· < ·)]

/-- The time of expiry has passed. -/
def Entry.isExpired (e : Entry κ ν τ) (now : τ) : Bool :=
  e.expires < now

/-- The value under a key, if it has not expired. -/
def read (s : ExpiringStore κ ν τ) (key : κ) (now : τ) : Option ν × ExpiringStore κ ν τ :=
  match s.entry? key with
  | none => (none, s)
  | some e => if e.isExpired now then (none, s.erase key) else (some e.value, s)

/-- No later than. -/
def Entry.olderOrEqual (a b : Entry κ ν τ) : Bool :=
  !decide (b.created < a.created)

/-- How many entries go when the store is full. -/
def evictionCount (s : ExpiringStore κ ν τ) : Nat :=
  max 1 (s.capacity / 10)

/-- The entries that go when the store is full: the oldest ones. -/
def oldest (s : ExpiringStore κ ν τ) : List (Entry κ ν τ) :=
  (s.entries.mergeSort Entry.olderOrEqual).take s.evictionCount

/-- The store without its oldest entries. -/
def evict (s : ExpiringStore κ ν τ) : ExpiringStore κ ν τ :=
  let gone := s.oldest
  { s with entries := s.entries.filter fun e => !(gone.any fun o => o.key = e.key) }

/-- Entries with one more at its key: in place, or at the end. -/
def putEntry : List (Entry κ ν τ) → Entry κ ν τ → List (Entry κ ν τ)
  | [], e => [e]
  | x :: rest, e => if x.key = e.key then e :: rest else x :: putEntry rest e

/-- The store with a value under a key, written at the time `now`. -/
def write [Add τ] (s : ExpiringStore κ ν τ) (key : κ) (value : ν) (now : τ) :
    ExpiringStore κ ν τ :=
  let room := if s.capacity ≤ s.size && (s.entry? key).isNone then s.evict else s
  { room with entries := putEntry room.entries ⟨key, value, now, now + s.lifetime⟩ }

/-- Reads under a key that may be absent, and then holds nothing. -/
def readIf (s : ExpiringStore κ ν τ) (key : Option κ) (now : τ) :
    Option ν × ExpiringStore κ ν τ :=
  match key with
  | none => (none, s)
  | some key => s.read key now

/-- Writes, if there are a key and a value. -/
def writeIf [Add τ] (s : ExpiringStore κ ν τ) (key : Option κ) (value : Option ν) (now : τ) :
    ExpiringStore κ ν τ :=
  match key, value with
  | some key, some value => s.write key value now
  | _, _ => s

/-- A value that has not expired is under the key; reading has its effect. -/
def holds (s : ExpiringStore κ ν τ) (key : Option κ) (now : τ) : Bool × ExpiringStore κ ν τ :=
  let (value, s) := s.readIf key now
  (value.isSome, s)

end Times

end ExpiringStore

end ArchiveCensus
