import ArchiveCensus.Delivery
import ArchiveCensus.Proofs.Log

/-!
# What a Delivery Adds to the Log

Delivering records adds one offer per record to the log, in order, and nothing
else; the receiver decides about the responses and about nothing else. All that
is said about deliveries is read off that one list: which records arrived, how
many, and that no boundary is touched.

The responses are found along with the offers, by induction on the records. A
receiver may answer each request by all that went before it, so there is no
saying beforehand which records it will refuse.

## Main definitions

* `offers`: Records as they are offered under a boundary, with the responses.
* `accepted`: The records whose offer was granted.

## Theorems

* `deliverAll_offers`: What delivering records adds to the log, and how many
  arrive.
* `arrivals_offers`: The accepted records arrive, each with its event.
-/

namespace ArchiveCensus

namespace Delivery

/-- Records as they are offered under `parent`, with the responses to them. -/
def offers (maker : PackageUrl.Maker) (parent : Option Nat) (records : List Record)
    (answers : List Response) : Log :=
  List.zipWith (fun r a => ⟨.record (Event.ofRecord maker r).1 parent, a⟩) records answers

/-- The records whose offer was granted. -/
def accepted (records : List Record) (answers : List Response) : List Record :=
  ((records.zip answers).filter fun x => x.2.isGranted).map Prod.fst

@[simp] theorem accepted_cons (r : Record) (rest : List Record) (a : Response)
    (answers : List Response) : accepted (r :: rest) (a :: answers) =
      if a.isGranted then r :: accepted rest answers else accepted rest answers := by
  unfold accepted
  rw [List.zip_cons_cons, List.filter_cons]
  split <;> rfl

theorem exists_of_mem_offers {maker : PackageUrl.Maker} {parent : Option Nat}
    {records : List Record} {answers : List Response} {x : Exchange}
    (h : x ∈ offers maker parent records answers) : ∃ event, x.request = .record event parent := by
  rw [offers, ← List.map_uncurry_zip_eq_zipWith, List.mem_map] at h
  rcases h with ⟨p, _, rfl⟩
  exact ⟨_, rfl⟩

section Reading

variable (maker : PackageUrl.Maker) (parent : Option Nat) (records : List Record)
  (answers : List Response)

@[simp] theorem starts_offers : (offers maker parent records answers).starts = 0 := by
  rw [Log.starts, List.countP_eq_zero]
  intro x hx
  rcases exists_of_mem_offers hx with ⟨event, hr⟩
  rw [Exchange.starts, hr]
  exact Bool.false_ne_true

@[simp] theorem endings_offers (b : Nat) :
    (offers maker parent records answers).endings b = 0 := by
  refine Log.endings_eq_zero fun x hx => ?_
  rcases exists_of_mem_offers hx with ⟨event, hr⟩
  rw [hr]
  rfl

@[simp] theorem describes_offers (b : Nat) (key : Text) :
    (offers maker parent records answers).describes b key = false := by
  rw [Log.describes, List.any_eq_false]
  intro x hx
  rcases exists_of_mem_offers hx with ⟨event, hr⟩
  rw [Exchange.describes, hr]
  exact Bool.false_ne_true

@[simp] theorem offers_offers : (offers maker parent records answers).offers =
    offers maker parent records answers := by
  rw [Log.offers, List.filter_eq_self]
  intro x hx
  rcases exists_of_mem_offers hx with ⟨event, hr⟩
  rw [Exchange.offers, hr]
  rfl

/-- The accepted records arrive, each with its event. -/
@[simp] theorem arrivals_offers : (offers maker parent records answers).arrivals =
    (accepted records answers).map fun r => ((Event.ofRecord maker r).1, parent) := by
  induction records generalizing answers with
  | nil => rfl
  | cons r rest ih =>
      cases answers with
      | nil => rfl
      | cons a answers =>
          have ih := ih answers
          unfold offers Log.arrivals at ih ⊢
          rw [List.zipWith_cons_cons, accepted_cons, List.filterMap_cons, ih]
          cases a <;> rfl

end Reading

theorem deliver_fst (w : Receiver) (maker : PackageUrl.Maker) (r : Record) (c : Correlation) :
    (deliver w maker (some r) c).1 =
      (w.respond c.journal (.record (Event.ofRecord maker r).1 c.parent)).isGranted := rfl

theorem journal_deliver (w : Receiver) (maker : PackageUrl.Maker) (r : Record)
    (c : Correlation) : (deliver w maker (some r) c).2.journal =
      (c.journal.ask w (.record (Event.ofRecord maker r).1 c.parent)).2 := rfl

@[simp] theorem parent_deliver (w : Receiver) (maker : PackageUrl.Maker) (r : Option Record)
    (c : Correlation) : (deliver w maker r c).2.parent = c.parent := by
  rw [Correlation.parent, isOpen_deliver, current_deliver]
  rfl

theorem boundaries_ask_record (w : Receiver) (j : Journal) (event : Event)
    (parent : Option Nat) : (j.ask w (.record event parent)).2.boundaries = j.boundaries := by
  unfold Journal.ask
  dsimp only
  split <;> rfl

-- An offer that is grudged is kept and counts as refused, so it is left out here.
theorem events_ask_record {w : Receiver} {j : Journal} {event : Event} {parent : Option Nat}
    (h : w.respond j (.record event parent) ≠ .grudged) :
    (j.ask w (.record event parent)).2.events = j.events ++
      if (w.respond j (.record event parent)).isGranted then [(event, parent)] else [] := by
  unfold Journal.ask
  dsimp only
  generalize w.respond j (.record event parent) = a at h ⊢
  cases a with
  | granted => rfl
  | refused => exact (List.append_nil _).symm
  | grudged => exact absurd rfl h

/-- What delivering records adds to the log, and how many arrive. The receiver
    keeps what arrives and nothing else, unless it grudges.

    The responses are not known beforehand: the one to the first record decides
    about the journal from which the receiver answers the others. -/
theorem deliverAll_offers (w : Receiver) (maker : PackageUrl.Maker) (records : List Record)
    (c : Correlation) : ∃ answers, answers.length = records.length ∧
      (deliverAll w maker (records.map some) c).2.journal.log =
        c.journal.log ++ offers maker c.parent records answers ∧
      (deliverAll w maker (records.map some) c).1 = (accepted records answers).length ∧
      (deliverAll w maker (records.map some) c).2.journal.boundaries = c.journal.boundaries ∧
      ((∀ a ∈ answers, a ≠ .grudged) →
        (deliverAll w maker (records.map some) c).2.journal.events = c.journal.events ++
          (accepted records answers).map fun r => ((Event.ofRecord maker r).1, c.parent)) := by
  induction records generalizing c with
  | nil => exact ⟨[], rfl, (List.append_nil _).symm, rfl, rfl, fun _ => (List.append_nil _).symm⟩
  | cons r rest ih =>
      rcases ih (deliver w maker (some r) c).2 with ⟨answers, hlen, hlog, hnum, hbound, hkept⟩
      rw [parent_deliver, journal_deliver] at hlog hkept
      rw [journal_deliver, boundaries_ask_record] at hbound
      -- The rest is delivered from the journal that has the first offer in it.
      refine ⟨w.respond c.journal (.record (Event.ofRecord maker r).1 c.parent) :: answers,
        ?_, ?_, ?_, hbound, fun hall => ?_⟩
      · rw [List.length_cons, List.length_cons, hlen]
      · rw [List.map_cons, deliverAll]
        dsimp only
        rw [hlog, Journal.log_ask, List.append_assoc]
        rfl
      · rw [List.map_cons, deliverAll, accepted_cons]
        dsimp only
        rw [hnum, deliver_fst]
        split <;> rfl
      · rw [List.map_cons, deliverAll, accepted_cons]
        dsimp only
        rw [hkept fun a ha => hall a (List.mem_cons_of_mem _ ha),
          events_ask_record (hall _ List.mem_cons_self), List.append_assoc]
        split <;> rfl

end Delivery

end ArchiveCensus
