import ArchiveCensus.Receiver
import Mathlib.Data.List.Basic

/-!
# What a Log Shows

Readings of a receiver's log. All that is proved about boundaries compares what
a correlation believes with what the log shows, so the readings look at the log
alone: how often a boundary was ended, which boundaries were handed over, which
attributes a boundary got.

A log only ever grows at its end. Each reading therefore comes with one lemma on
appending, and whatever a step adds to the log is read by itself. Only
`handedFrom` needs to know what came before: a boundary has no name but its
number, and the number counts all starts that had their effect, also those that
came with a complaint and left nobody in possession of the boundary.

## Main definitions

* `Log.starts`: How many boundaries were started.
* `Log.handed`: The boundaries that whoever asked for them was given.
* `Log.endings`: How often a boundary was asked to end.
* `Log.describes`: A boundary got an attribute of some name.
* `Log.arrivals`: The events that arrived.
* `Journal.Counted`: A journal keeps as many boundaries as its log shows.

## Theorems

* `handed_append`: What is handed over later is numbered on from what was
  started before.
* `lt_of_mem_handed`: A boundary that was handed over was started.
* `counted_ask`: A request keeps the count.
-/

namespace ArchiveCensus

/-- The request gives the boundary `b` an attribute of the name `key`. -/
def Request.describes (b : Nat) (key : Text) : Request → Bool
  | set b' key' _ => b' = b && key' = key
  | _ => false

/-- The request offers an event. -/
def Request.isRecord : Request → Bool
  | record _ _ => true
  | _ => false

namespace Exchange

/-- A request that is granted. -/
def granted (r : Request) : Exchange :=
  ⟨r, .granted⟩

/-- A boundary is started, with or without a complaint. -/
def starts (x : Exchange) : Bool :=
  x.request.isStart && x.response.isEffective

/-- A boundary is started and handed over. -/
def hands (x : Exchange) : Bool :=
  x.request.isStart && x.response.isGranted

/-- The boundary `b` gets an attribute of the name `key`. -/
def describes (b : Nat) (key : Text) (x : Exchange) : Bool :=
  x.request.describes b key && x.response.isGranted

/-- An event is offered. -/
def offers (x : Exchange) : Bool :=
  x.request.isRecord

/-- The event that arrives, if one does, and the boundary it belongs to. -/
def arrival? : Exchange → Option (Event × Option Nat)
  | ⟨.record event parent, .granted⟩ => some (event, parent)
  | _ => none

end Exchange

namespace Log

/-- How many boundaries were started. -/
def starts (l : Log) : Nat :=
  l.countP Exchange.starts

/-- The boundaries that were handed over if `n` were started before. -/
def handedFrom (n : Nat) : Log → List Nat
  | [] => []
  | x :: rest =>
    (if x.hands then [n] else []) ++ handedFrom (if x.starts then n + 1 else n) rest

/-- The boundaries that were handed over to whoever asked for them. -/
def handed (l : Log) : List Nat :=
  handedFrom 0 l

/-- How often the boundary `b` was asked to end. -/
def endings (l : Log) (b : Nat) : Nat :=
  l.countP fun x => x.request.finishes b

/-- The boundary `b` got an attribute of the name `key`. -/
def describes (l : Log) (b : Nat) (key : Text) : Bool :=
  l.any (Exchange.describes b key)

/-- All that was done to offer events. -/
def offers (l : Log) : Log :=
  l.filter Exchange.offers

/-- The events that arrived, each with the boundary it belongs to. -/
def arrivals (l : Log) : List (Event × Option Nat) :=
  l.filterMap Exchange.arrival?

@[simp] theorem starts_append (xs ys : Log) : starts (xs ++ ys) = xs.starts + ys.starts :=
  List.countP_append

@[simp] theorem endings_append (xs ys : Log) (b : Nat) :
    endings (xs ++ ys) b = xs.endings b + ys.endings b :=
  List.countP_append

@[simp] theorem describes_append (xs ys : Log) (b : Nat) (key : Text) :
    describes (xs ++ ys) b key = (xs.describes b key || ys.describes b key) :=
  List.any_append

@[simp] theorem offers_append (xs ys : Log) : offers (xs ++ ys) = xs.offers ++ ys.offers :=
  List.filter_append ..

@[simp] theorem arrivals_append (xs ys : Log) :
    arrivals (xs ++ ys) = xs.arrivals ++ ys.arrivals :=
  List.filterMap_append

theorem starts_cons (x : Exchange) (l : Log) :
    starts (x :: l) = l.starts + if x.starts then 1 else 0 :=
  List.countP_cons

theorem endings_cons (x : Exchange) (l : Log) (b : Nat) :
    endings (x :: l) b = l.endings b + if x.request.finishes b then 1 else 0 :=
  List.countP_cons

theorem describes_cons (x : Exchange) (l : Log) (b : Nat) (key : Text) :
    describes (x :: l) b key = (x.describes b key || l.describes b key) :=
  List.any_cons

theorem offers_cons (x : Exchange) (l : Log) :
    offers (x :: l) = (if x.offers then [x] else []) ++ l.offers := by
  rw [offers, List.filter_cons]
  split <;> rfl

@[simp] theorem starts_nil : starts [] = 0 := rfl

@[simp] theorem endings_nil (b : Nat) : endings [] b = 0 := rfl

@[simp] theorem describes_nil (b : Nat) (key : Text) : describes [] b key = false := rfl

-- Only offers arrive.
theorem arrivals_of_offers (l : Log) : l.offers.arrivals = l.arrivals := by
  rw [offers, arrivals, List.filterMap_filter, arrivals]
  congr 1
  funext x
  rcases x with ⟨r, a⟩
  cases r <;> rfl

theorem offers_eq_nil {l : Log} (h : ∀ x ∈ l, x.offers = false) : l.offers = [] :=
  List.filter_eq_nil_iff.mpr fun x hx => Bool.eq_false_iff.mp (h x hx)

theorem endings_eq_zero {l : Log} {b : Nat} (h : ∀ x ∈ l, x.request.finishes b = false) :
    l.endings b = 0 := by
  rw [endings, List.countP_eq_zero]
  intro x hx
  rw [h x hx]
  exact Bool.false_ne_true

theorem handedFrom_append (n : Nat) (xs ys : Log) :
    handedFrom n (xs ++ ys) = handedFrom n xs ++ handedFrom (n + starts xs) ys := by
  induction xs generalizing n with
  | nil => simp [handedFrom]
  | cons x rest ih =>
      have hn : (if x.starts then n + 1 else n) + starts rest = n + starts (x :: rest) := by
        rw [starts_cons]
        split <;> omega
      simp only [List.cons_append, handedFrom, ih, hn, List.append_assoc]

theorem handed_append (xs ys : Log) : handed (xs ++ ys) = xs.handed ++ handedFrom xs.starts ys := by
  rw [handed, handedFrom_append, Nat.zero_add]
  rfl

-- A start that hands a boundary over has its effect, so the number given to
-- it is taken from then on.
theorem bounds_of_mem_handedFrom {n b : Nat} {l : Log} (h : b ∈ handedFrom n l) :
    n ≤ b ∧ b < n + l.starts := by
  induction l generalizing n with
  | nil => simp [handedFrom] at h
  | cons x rest ih =>
      have hstarts : x.hands = true → x.starts = true := by
        unfold Exchange.hands Exchange.starts
        cases x.response <;> simp [Response.isGranted, Response.isEffective]
      rw [starts_cons]
      rcases List.mem_append.mp h with hx | hrest
      · -- The number is given to this very start.
        by_cases hh : x.hands
        · rw [if_pos hh, List.mem_singleton] at hx
          rw [if_pos (hstarts hh), hx]
          omega
        · rw [if_neg hh] at hx
          exact absurd hx List.not_mem_nil
      · obtain ⟨hle, hlt⟩ := ih hrest
        by_cases hs : x.starts
        · rw [if_pos hs] at hle hlt ⊢
          omega
        · rw [if_neg hs] at hle hlt ⊢
          omega

theorem lt_of_mem_handed {b : Nat} {l : Log} (h : b ∈ l.handed) : b < l.starts := by
  have := bounds_of_mem_handedFrom h
  omega

end Log

namespace Journal

/-- The journal keeps as many boundaries as its log shows. -/
def Counted (j : Journal) : Prop :=
  j.boundaries.length = j.log.starts

theorem counted_ask (w : Receiver) {j : Journal} (r : Request) (h : j.Counted) :
    (j.ask w r).2.Counted := by
  unfold Counted at *
  rw [boundaries_ask, log_ask, Log.starts_append, h, Log.starts_cons, Log.starts_nil, Nat.zero_add,
    Exchange.starts, Bool.and_comm]

end Journal

end ArchiveCensus
