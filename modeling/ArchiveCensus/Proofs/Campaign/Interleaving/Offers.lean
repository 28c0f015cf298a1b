import ArchiveCensus.Proofs.Campaign.Interleaving

/-!
# Which Boundary an Event Belongs To

A campaign looks up the open boundary anew for every event. The one that opened
the boundary always finds it there, because nobody else closes it. One that
joined may come too late: the owner may be through, and then the events belong to
nothing, or to whatever was opened since. So it is false that all events of a
campaign belong to the boundary that the campaign was given, and the law that
holds is exact: an event of a joined campaign belongs to that boundary if and
only if nobody has asked the boundary to end before.

The log shows what became of an event, but not who offered it, so the crowd
keeps for each offer its place in the log. Logs only grow, hence what an offer
found at its place stays found there.

## Main definitions

* `Offer.Fits`: An offer is in the log, under the boundary that the law says.
* `Placed`: The offers of campaigns are those of the log.

## Theorems

* `placed_step`, `placed_interleave`: The offers stay placed after any schedule.
* `interleave_parents`: Which boundary the events of a campaign belong to.
* `not_forall_parents`: A campaign's events may miss the boundary it was given.
-/

namespace ArchiveCensus

namespace Campaign

open Correlation Delivery

/-- The offer is in the log at its place. Its event belongs to the campaign's own
    boundary, and to a boundary that the campaign joined exactly if nobody has
    asked that one to end before. -/
def Offer.Fits (maker : PackageUrl.Maker) (l : Log) (o : Offer) : Prop :=
  ∃ parent a, l[o.place]? = some ⟨.record (Event.ofRecord maker o.record).1 parent, a⟩ ∧
    (o.own = true → o.given ≠ none ∧ parent = o.given) ∧
    ∀ b, o.given = some b → (parent = some b ↔ Log.endings (l.take o.place) b = 0)

theorem Offer.Fits.append {maker : PackageUrl.Maker} {l : Log} {o : Offer} (h : o.Fits maker l)
    (xs : Log) : o.Fits maker (l ++ xs) := by
  rcases h with ⟨parent, a, hget, hown, hgiven⟩
  rcases List.getElem?_eq_some_iff.mp hget with ⟨hlt, _⟩
  refine ⟨parent, a, ?_, hown, ?_⟩
  · rw [List.getElem?_append_left hlt, hget]
  · rw [List.take_append_of_le_length (Nat.le_of_lt hlt)]
    exact hgiven

/-- The offers of campaigns are those of the log. -/
structure Placed (maker : PackageUrl.Maker) (s : Crowd) : Prop where
  fits : ∀ o ∈ s.offers, o.Fits maker s.correlation.journal.log
  all : ∀ n x, s.correlation.journal.log[n]? = some x → x.offers = true →
    ∃ o ∈ s.offers, o.place = n

theorem placed_empty (maker : PackageUrl.Maker) : Placed maker {} where
  fits := fun _ h => absurd h List.not_mem_nil
  all := fun _ _ h => absurd h (by simp only [List.getElem?_nil, reduceCtorEq, not_false_eq_true])

-- A step offers nothing, or it makes one offer and no other request.
theorem Move.offers {maker : PackageUrl.Maker} {c : Correlation} {stage stage' : Stage} {xs : Log}
    {next : Option Nat} (h : Move maker c stage xs stage' next) :
    ((∀ x ∈ xs, x.offers = false) ∧ ∀ n, offerAt n stage = []) ∨
      ∃ given own r rest a, stage = .delivering given own (r :: rest) ∧
        xs = [⟨.record (Event.ofRecord maker r).1 c.current, a⟩] := by
  cases h with
  | opened _ ans => exact Or.inl ⟨ans.offers_opening, fun _ => rfl⟩
  | joined _ => exact Or.inl ⟨fun _ hx => absurd hx List.not_mem_nil, fun _ => rfl⟩
  | cut _ ans => exact Or.inl ⟨ans.offers_opening, fun _ => rfl⟩
  | described _ _ hnone _ =>
      exact Or.inl ⟨fun x hx => by rw [List.mem_singleton.mp hx]; rfl, hnone⟩
  | offered => exact Or.inr ⟨_, _, _, _, _, rfl, rfl⟩
  | closed _ => exact Or.inl ⟨fun x hx => by rw [List.mem_singleton.mp hx]; rfl, fun _ => rfl⟩
  | finished hnone => exact Or.inl ⟨fun _ hx => absurd hx List.not_mem_nil, hnone⟩

-- What a longer log shows at a place it showed before, or was added to it.
theorem getElem?_append_or {l xs : Log} {n : Nat} {x : Exchange} (h : (l ++ xs)[n]? = some x) :
    l[n]? = some x ∨ (x ∈ xs ∧ l.length ≤ n ∧ n < l.length + xs.length) := by
  rcases Nat.lt_or_ge n l.length with hlt | hge
  · rw [List.getElem?_append_left hlt] at h
    exact Or.inl h
  · have hn := (List.getElem?_eq_some_iff.mp h).1
    rw [List.getElem?_append_right hge] at h
    rw [List.length_append] at hn
    exact Or.inr ⟨List.mem_of_getElem? h, hge, hn⟩

-- The event goes to whatever is open now, which an owner finds to be its own
-- boundary and a campaign that joined finds to be its own until somebody ends it.
theorem Orderly.fits_next {maker : PackageUrl.Maker} {s : Crowd} (h : Orderly s) {i : Nat}
    {given : Option Nat} {own : Bool} {r : Record} {rest : List Record}
    (hstage : s.stage i = .delivering given own (r :: rest)) (a : Response) :
    Offer.Fits maker
      (s.correlation.journal.log ++
        [⟨.record (Event.ofRecord maker r).1 s.correlation.current, a⟩])
      ⟨r, given, own, s.correlation.journal.log.length⟩ := by
  have hgiven : (s.stage i).given? = given := by
    rw [hstage]
    rfl
  refine ⟨s.correlation.current, a, List.getElem?_concat_length, fun hown => ?_, fun b hb => ?_⟩
  · rcases h.own i (by rw [hstage]; exact hown) with ⟨b, hsome, hcur⟩
    rw [hgiven] at hsome
    dsimp only
    rw [hsome]
    exact ⟨by simp only [ne_eq, reduceCtorEq, not_false_eq_true], hcur⟩
  · rw [List.take_left]
    refine ⟨fun hcur => (h.sound.running b hcur).2, fun hend => ?_⟩
    rcases (h.held i b (hgiven.trans hb)).2 with hcur | hpos
    · exact hcur
    · omega

section Interleaving

variable (w : Receiver) (maker : PackageUrl.Maker) (plans : Nat → Plan)

theorem placed_step {s : Crowd} (h : Orderly s) (hp : Placed maker s) (i : Nat) :
    Placed maker (step w maker plans s i) := by
  rcases advance_move w maker (plans i) h.sound h.given_eq with ⟨xs, hlog, hmove, _⟩
  rw [← correlation_step] at hlog
  have hold : ∀ o ∈ s.offers, o.Fits maker (step w maker plans s i).correlation.journal.log := by
    intro o ho
    rw [hlog]
    exact (hp.fits o ho).append xs
  rcases hmove.offers with ⟨hquiet, hnone⟩ | ⟨given, own, r, rest, a, hstage, rfl⟩
  · have hoffers : (step w maker plans s i).offers = s.offers := by
      unfold step
      dsimp only
      rw [hnone, List.append_nil]
    refine ⟨fun o ho => hold o (hoffers ▸ ho), fun n x hx hxo => ?_⟩
    rw [hoffers]
    rw [hlog] at hx
    rcases getElem?_append_or hx with hbefore | ⟨hnew, _⟩
    · exact hp.all n x hbefore hxo
    · exact absurd ((hquiet x hnew).symm.trans hxo) Bool.false_ne_true
  · have hoffers : (step w maker plans s i).offers =
        s.offers ++ [⟨r, given, own, s.correlation.journal.log.length⟩] := by
      unfold step
      dsimp only
      rw [hstage]
      rfl
    refine ⟨fun o ho => ?_, fun n x hx hxo => ?_⟩
    · rw [hoffers, List.mem_append, List.mem_singleton] at ho
      rcases ho with ho | rfl
      · exact hold o ho
      · rw [hlog]
        exact h.fits_next hstage a
    · rw [hoffers]
      rw [hlog] at hx
      rcases getElem?_append_or hx with hbefore | ⟨_, hge, hlt⟩
      · rcases hp.all n x hbefore hxo with ⟨o, ho, hplace⟩
        exact ⟨o, List.mem_append_left _ ho, hplace⟩
      · rw [List.length_singleton] at hlt
        refine ⟨_, List.mem_append_right _ (List.mem_singleton_self _), ?_⟩
        exact Nat.le_antisymm hge (Nat.le_of_lt_succ hlt)

theorem placed_interleave (schedule : List Nat) :
    Placed maker (interleave w maker plans schedule) := by
  induction schedule using List.reverseRecOn with
  | nil => exact placed_empty maker
  | append_singleton before i ih =>
      rw [interleave_concat]
      exact placed_step w maker plans (orderly_interleave w maker plans before) ih i

/-- Which boundary the events of a campaign belong to, whatever the schedule and
    whatever the receiver refuses. Every event that is offered is offered by a
    campaign. If the campaign opened a boundary, the event belongs to that one.
    If it joined one, the event belongs to that one exactly as long as nobody has
    asked it to end. -/
theorem interleave_parents (schedule : List Nat) :
    (∀ n x, (interleave w maker plans schedule).log[n]? = some x → x.offers = true →
      ∃ o ∈ (interleave w maker plans schedule).offers, o.place = n) ∧
    ∀ o ∈ (interleave w maker plans schedule).offers, ∃ parent a,
      (interleave w maker plans schedule).log[o.place]? =
          some ⟨.record (Event.ofRecord maker o.record).1 parent, a⟩ ∧
        (o.own = true → o.given ≠ none ∧ parent = o.given) ∧
        ∀ b, o.given = some b → (parent = some b ↔
          Log.endings ((interleave w maker plans schedule).log.take o.place) b = 0) := by
  have hplaced := placed_interleave w maker plans schedule
  exact ⟨hplaced.all, hplaced.fits⟩

end Interleaving

/-- Two campaigns, of which only the second one has records. -/
def twoPlans : Nat → Plan
  | 0 => ⟨[], .ok 0⟩
  | _ => ⟨[{}, {}], .ok 0⟩

/-- A campaign's events may miss the boundary that the campaign was given, even
    if the receiver grants everything. The first campaign opens a boundary and
    the second joins it and delivers a record; then the first one closes the
    boundary, and the second one delivers another record under none. -/
theorem not_forall_parents :
    ¬ ∀ (w : Receiver) (maker : PackageUrl.Maker) (plans : Nat → Plan) (schedule : List Nat),
      (∀ j r, w.respond j r = .granted) →
      ∀ o ∈ (interleave w maker plans schedule).offers, ∀ b, o.given = some b → ∃ event a,
        (interleave w maker plans schedule).log[o.place]? = some ⟨.record event (some b), a⟩ := by
  intro h
  have hlast := h .willing {} twoPlans [0, 1, 1, 0, 0, 0, 1] (fun _ _ => rfl)
    ⟨{}, some 0, false, 7⟩ (List.mem_cons_of_mem _ (List.mem_singleton_self _)) 0 rfl
  rcases hlast with ⟨event, a, hget⟩
  have hnone : (interleave .willing {} twoPlans [0, 1, 1, 0, 0, 0, 1]).log[7]? =
      some ⟨.record (Event.ofRecord {} {}).1 none, .granted⟩ := rfl
  rw [hnone] at hget
  injection hget with hget
  injection hget with hrecord _
  injection hrecord with _ hparent
  exact absurd hparent (by simp only [reduceCtorEq, not_false_eq_true])

end Campaign

end ArchiveCensus
