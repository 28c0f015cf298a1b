import ArchiveCensus.Correlation

/-!
# Deliveries

A record reaches the receiver as an event, under the boundary that is open at
that moment. A receiver that refuses costs the one event and nothing else.

## Main definitions

* `Delivery.deliver`: One record.
* `Delivery.deliverAll`: Records one after the other, and how many arrived.

## Theorems

* `isOpen_deliver`, `current_deliver`: A delivery opens and closes nothing.
-/

namespace ArchiveCensus

namespace Delivery

/-- Offers a record to the receiver, and says whether it arrived. -/
def deliver (w : Receiver) (maker : PackageUrl.Maker) (record : Option Record)
    (c : Correlation) : Bool × Correlation :=
  match record with
  | none => (false, c.say (.warning "emitter.null_record"))
  | some r =>
    let (event, notices) := Event.ofRecord maker r
    let c := { c with notices := c.notices ++ notices }
    let (granted, c) := c.ask w (.record event c.parent)
    (granted, c.say (if granted then .debug "emitter.emitted" else .warning "emitter.emit_failed"))

/-- Offers records one after the other, and counts those that arrived. -/
def deliverAll (w : Receiver) (maker : PackageUrl.Maker) :
    List (Option Record) → Correlation → Nat × Correlation
  | [], c => (0, c)
  | r :: rest, c =>
    let (arrived, c) := deliver w maker r c
    let (n, c) := deliverAll w maker rest c
    (if arrived then n + 1 else n, c)

/-- A delivery opens and closes nothing. -/
@[simp] theorem current_deliver (w : Receiver) (maker : PackageUrl.Maker) (r : Option Record)
    (c : Correlation) : (deliver w maker r c).2.current = c.current := by
  cases r <;> rfl

@[simp] theorem isOpen_deliver (w : Receiver) (maker : PackageUrl.Maker) (r : Option Record)
    (c : Correlation) : (deliver w maker r c).2.isOpen = c.isOpen := by
  cases r <;> rfl

@[simp] theorem current_deliverAll (w : Receiver) (maker : PackageUrl.Maker)
    (rs : List (Option Record)) (c : Correlation) :
    (deliverAll w maker rs c).2.current = c.current := by
  induction rs generalizing c with
  | nil => rfl
  | cons r rest ih => simp [deliverAll, ih]

@[simp] theorem isOpen_deliverAll (w : Receiver) (maker : PackageUrl.Maker)
    (rs : List (Option Record)) (c : Correlation) :
    (deliverAll w maker rs c).2.isOpen = c.isOpen := by
  induction rs generalizing c with
  | nil => rfl
  | cons r rest ih => simp [deliverAll, ih]

end Delivery

end ArchiveCensus
