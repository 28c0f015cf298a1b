import ArchiveCensus.Event

/-!
# Receivers

A receiver is told of archives. It groups what it is told by boundaries: one is
started, gets attributes, and is ended. The receiver belongs to the host and
may refuse any request; a refused request has no effect, but it was made. It may
also do what it is asked and complain all the same, and whoever asks cannot tell
that from a refusal.

So a receiver is a rule about how it responds to a request after all that went
before, and its journal holds both sides: all requests in order with the
responses to them, and what they led to. Boundaries are told apart by their
number in the order of starting.

## Main definitions

* `Request`, `Response`, `Exchange`, `Log`: What a receiver is asked, what it
  makes of it, both together, and all of it in order.
* `Receiver`: How a receiver responds.
* `Boundary`, `Journal`: What a receiver was asked and what it keeps.
* `Journal.ask`: Making a request.

## Theorems

* `log_ask`: Every request is noted with its response.
* `asked_ask`: Every request is noted, granted or not.
* `boundaries_ask`: Only a start that has its effect adds a boundary.
-/

namespace ArchiveCensus

/-- What a receiver is asked. -/
inductive Request where
  /-- To start a boundary. -/
  | start
  /-- To give a boundary an attribute. -/
  | set (boundary : Nat) (key : Text) (value : Value)
  /-- To end a boundary. -/
  | finish (boundary : Nat)
  /-- To take an event, as part of a boundary if there is one. -/
  | record (event : Event) (parent : Option Nat)

namespace Request

/-- The request ends the boundary `b`. -/
def finishes (b : Nat) : Request → Bool
  | finish b' => b' = b
  | _ => false

/-- The request starts a boundary. -/
def isStart : Request → Bool
  | start => true
  | _ => false

end Request

/-- What a receiver makes of a request. -/
inductive Response where
  /-- It does what it is asked. -/
  | granted
  /-- It does nothing. -/
  | refused
  /-- It does what it is asked, and complains. -/
  | grudged
deriving DecidableEq

namespace Response

/-- The request has its effect, and there is no complaint. -/
def isGranted : Response → Bool
  | granted => true
  | refused | grudged => false

/-- The request has its effect. -/
def isEffective : Response → Bool
  | granted | grudged => true
  | refused => false

end Response

/-- A request and the response to it. -/
structure Exchange where
  request : Request
  response : Response

/-- All requests in order, each with the response to it. -/
abbrev Log := List Exchange

/-- What a receiver keeps of a boundary. -/
structure Boundary where
  attributes : Attributes := []
  ended : Bool := false

/-- What a receiver was asked, and what it keeps. -/
structure Journal where
  log : Log := []
  boundaries : List Boundary := []
  events : List (Event × Option Nat) := []

/-- How a receiver responds to a request, given its journal until then. -/
structure Receiver where
  respond : Journal → Request → Response

namespace Receiver

/-- Everything is granted. -/
def willing : Receiver :=
  ⟨fun _ _ => .granted⟩

end Receiver

namespace Journal

/-- All requests in order. -/
def asked (j : Journal) : List Request :=
  j.log.map (·.request)

/-- How a receiver shows a boundary. -/
def idOf (boundary : Nat) : Text :=
  Text.ofString "scan-" ++ Text.ofNat (boundary + 1)

/-- What a request leads to. -/
def grant (j : Journal) : Request → Journal
  | .start => { j with boundaries := j.boundaries ++ [{}] }
  | .set b key value =>
    { j with
      boundaries := j.boundaries.modify b fun x =>
        { x with attributes := x.attributes.put key value } }
  | .finish b => { j with boundaries := j.boundaries.modify b fun x => { x with ended := true } }
  | .record event parent => { j with events := j.events ++ [(event, parent)] }

/-- Notes a request and the response to it. -/
def note (j : Journal) (r : Request) (a : Response) : Journal :=
  { j with log := j.log ++ [⟨r, a⟩] }

/-- Makes a request, and says whether it was granted without a complaint. -/
def ask (w : Receiver) (j : Journal) (r : Request) : Bool × Journal :=
  let a := w.respond j r
  let j := j.note r a
  (a.isGranted, if a.isEffective then j.grant r else j)

@[simp] theorem log_grant (j : Journal) (r : Request) : (j.grant r).log = j.log := by
  cases r <;> rfl

/-- Every request is noted with its response. -/
@[simp] theorem log_ask (w : Receiver) (j : Journal) (r : Request) :
    (j.ask w r).2.log = j.log ++ [⟨r, w.respond j r⟩] := by
  unfold ask
  dsimp only
  split <;> simp [note]

/-- Every request is noted, granted or not. -/
@[simp] theorem asked_ask (w : Receiver) (j : Journal) (r : Request) :
    (j.ask w r).2.asked = j.asked ++ [r] := by
  simp [asked]

@[simp] theorem boundaries_grant (j : Journal) (r : Request) :
    (j.grant r).boundaries.length = j.boundaries.length + if r.isStart then 1 else 0 := by
  cases r <;> simp [grant, Request.isStart]

/-- Only a start that has its effect adds a boundary. -/
theorem boundaries_ask (w : Receiver) (j : Journal) (r : Request) :
    (j.ask w r).2.boundaries.length =
      j.boundaries.length + if (w.respond j r).isEffective && r.isStart then 1 else 0 := by
  unfold ask
  dsimp only
  split <;> simp_all [note]

/-- The package URLs of all events, in order. -/
def purls (j : Journal) : List Text :=
  j.events.map fun x => x.1.purl

end Journal

end ArchiveCensus
