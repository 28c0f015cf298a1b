import ArchiveCensus.Cadence
import ArchiveCensus.Campaign
import ArchiveCensus.Survey

/-!
# The Service

What a host deals with: a survey of its sources, a receiver for what is found,
and a cadence that says when. The receiver may come later than the service. The
first one that is bound stays; until then every campaign fails before it looks
at anything.

A binding makes two parts for a receiver, a correlation that asks it for boundaries and
an emitter that offers it events, and notes the receiver itself. A host sees each of
these for itself: whether a receiver was bound before is told by the receiver, whether
the service is ready by the emitter, and a campaign needs both parts.

The journals of all receivers are kept side by side, so that it can be said
that no receiver but the bound one ever hears anything.

## Main definitions

* `Service.Setting`: What stays the same over the life of a service.
* `Service`: What changes.
* `Service.bind`, `Service.campaign`: Binding a receiver, and one campaign.
* `Service.correlate`: What a host does about boundaries.
* `Service.start`, `Service.force`, `Service.shutdown`: The cadence, with the
  campaigns that it leads to.

## Theorems

* `bind_of_bound`: A second receiver is not bound.
* `campaign_of_unbound`: Without a receiver a campaign changes nothing.
-/

namespace ArchiveCensus

/-- By which receivers are told apart. -/
abbrev ReceiverId := Nat

namespace Service

/-- What stays the same over the life of a service. -/
structure Setting (τ : Type) where
  site : Survey.Site τ
  scene : Survey.Scene
  maker : PackageUrl.Maker := {}
  receivers : ReceiverId → Receiver

end Service

/-- A survey, receivers and a cadence. -/
structure Service (τ : Type) where
  memory : Survey.Memory τ
  cadence : Cadence
  journals : ReceiverId → Journal := fun _ => {}
  /-- The receiver that was bound. -/
  sink : Option ReceiverId := none
  /-- The receiver that the correlation was made for. -/
  context : Option ReceiverId := none
  /-- The receiver that the emitter was made for. -/
  emitter : Option ReceiverId := none
  /-- A boundary is open. -/
  isOpen : Bool := false
  /-- The boundary that is open. -/
  current : Option Nat := none
  notices : List Notice := []

namespace Service

variable {τ : Type}

/-- One thing more to say. -/
def say (s : Service τ) (n : Notice) : Service τ :=
  { s with notices := s.notices ++ [n] }

/-- There is an emitter. -/
def isReady (s : Service τ) : Bool :=
  s.emitter.isSome

/-- Makes all parts for a receiver. -/
def wire (s : Service τ) (id : ReceiverId) : Service τ :=
  { s with sink := some id, context := some id, emitter := some id }

/-- Binds a receiver, unless one is bound. -/
def bind (s : Service τ) (id : ReceiverId) : Service τ :=
  match s.sink with
  | some _ => s.say (.debug "processor.sink_already_bound")
  | none => (s.wire id).say (.info "processor.ready")

/-- A second receiver is not bound. -/
theorem bind_of_bound (s : Service τ) (id : ReceiverId) {first : ReceiverId}
    (h : s.sink = some first) : s.bind id = s.say (.debug "processor.sink_already_bound") := by
  simp [bind, h]

/-- Who is told of a campaign: the receiver of the emitter, if there is a correlation as
    well. -/
def told (s : Service τ) : Option ReceiverId :=
  match s.emitter, s.context with
  | some id, some _ => some id
  | _, _ => none

/-- The correlation of a receiver. -/
def correlation (s : Service τ) (id : ReceiverId) : Correlation :=
  { journal := s.journals id, isOpen := s.isOpen, current := s.current }

/-- Takes over what became of a correlation. -/
def resume (s : Service τ) (id : ReceiverId) (c : Correlation) : Service τ :=
  { s with
    journals := fun i => if i = id then c.journal else s.journals i
    isOpen := c.isOpen
    current := c.current
    notices := s.notices ++ c.notices }

/-- Does something with the correlation, if there is one. -/
def correlate {α : Type} (w : Setting τ) (s : Service τ)
    (act : Receiver → Correlation → α × Correlation) : Option α × Service τ :=
  match s.context with
  | none => (none, s)
  | some id =>
    let (answer, c) := act (w.receivers id) (s.correlation id)
    (some answer, s.resume id c)

variable [Add τ] [LT τ] [DecidableRel (α := τ) (· < ·)]

/-- Surveys all sources. -/
def survey (w : Setting τ) (s : Service τ) : RecordSet × Service τ :=
  let (records, memory) := Survey.scanAll w.site w.scene { s.memory with notices := [] }
  (records, { s with memory, notices := s.notices ++ memory.notices })

/-- Surveys all sources and tells the receiver; `elapsed` is how long the telling
    takes in milliseconds. -/
def campaign (w : Setting τ) (elapsed : Except Campaign.Fault Int) (s : Service τ) :
    Except Campaign.Fault Campaign.Report × Service τ :=
  match s.told with
  | none => (.error .noReceiver, s)
  | some id =>
    let (records, s) := s.survey w
    let (report, c) := Campaign.run (w.receivers id) w.maker records elapsed (s.correlation id)
    (report, s.resume id c)

/-- Without a receiver a campaign changes nothing. -/
theorem campaign_of_unbound (w : Setting τ) (elapsed : Except Campaign.Fault Int)
    (s : Service τ) (h : s.emitter = none) :
    s.campaign w elapsed = (.error .noReceiver, s) := by
  simp [campaign, told, h]

/-- Calls and runs the campaign that has its turn. -/
def serveActive (w : Setting τ) (s : Service τ) : Service τ :=
  match s.cadence.active with
  | none => s
  | some _ =>
    let (report, s) := { s with cadence := s.cadence.step .call }.campaign w (.ok 0)
    let success := report.toOption.isSome
    { s with cadence := s.cadence.step (.finish success) }.say
      (if success then .info "scheduler.campaign" else .error "scheduler.campaign_failed")

/-- Gives up to `fuel` tickets their turn. -/
def serve (w : Setting τ) : Nat → Service τ → Service τ
  | 0, s => s
  | fuel + 1, s => serve w fuel ({ s with cadence := s.cadence.step .turn }.serveActive w)

/-- Makes a move of the cadence, and runs the campaigns that wait for a turn. -/
def move (w : Setting τ) (s : Service τ) (m : Cadence.Move) : Service τ :=
  let s := { s with cadence := s.cadence.step m }
  s.serve w s.cadence.line.length

/-- Starts the cadence, and says whether it was not started before. -/
def start (w : Setting τ) (s : Service τ) : Bool × Service τ :=
  (s.cadence.canStart, s.move w .start)

/-- Forces a campaign. -/
def force (w : Setting τ) (s : Service τ) : Service τ :=
  s.move w .force

/-- Stops the cadence. No campaign is running at that moment, so everything ends
    within any grace period. -/
def shutdown (w : Setting τ) (s : Service τ) : Service τ :=
  (s.move w .close).move w .announce

end Service

end ArchiveCensus
