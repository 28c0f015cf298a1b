import ArchiveCensus.Cadence.Timeline
import ArchiveCensus.Service
import ArchiveCensus.Settings

/-!
# Registration

How a host that gives settings gets a service, or none if the settings say so.
Settings come from the host directly, from its properties, or from the
variables of the process; one that comes from nowhere comes from the variables.

## Main definitions

* `Registration.Origin`: Where settings come from.
* `Registration`: A service and its times.
* `Registration.ofSettings?`: The service that settings ask for.
-/

namespace ArchiveCensus

/-- A service and its times in seconds. -/
structure Registration (τ : Type) where
  service : Service τ
  delay : Float
  interval : Float

namespace Registration

/-- Where settings come from. -/
inductive Origin where
  /-- Under their own names. -/
  | named (values : Dictionary Text Value)
  /-- Among the properties of a host. -/
  | properties (values : Dictionary Text Value)
  /-- Among the variables of the process. -/
  | environment (values : Dictionary Text Value)

/-- The settings of an origin. -/
def Origin.settings : Origin → Except (List (Settings.Item × Settings.Problem)) Settings
  | named values => Settings.ofNamed values
  | properties values => Settings.ofProperties values
  | environment values => Settings.ofEnvironment values

/-- The service that settings ask for, with a receiver if there is one already,
    and what there is to say. -/
def ofSettings? {τ : Type} (s : Settings) (memory : Survey.Memory τ)
    (receiver : Option ReceiverId) : Option (Registration τ) × List Notice :=
  if s.enabled then
    let timeline := Timeline.make s.delay s.interval
    let service : Service τ := { memory, cadence := timeline.cadence }
    let service := receiver.elim service service.bind
    let notices := service.notices ++ [.info "autoconfig.discovery_registered"]
    (some ⟨{ service with notices := [] }, timeline.delay, timeline.interval⟩, notices)
  else (none, [.info "autoconfig.discovery_disabled"])

end Registration

end ArchiveCensus
