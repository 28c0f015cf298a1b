import ArchiveCensus.Proofs.Survey.Isolation
import ArchiveCensus.Proofs.Survey.Trail

/-!
# Sources on the Way

A scan asks sources one after the other, in several roles, and passes over those
that it has asked before. All this is one trail: it leads along the lists of the
sources that were asked, each of them once, and every record that the scan gives
is an answer on it. Which sources these are depends on what fails, so nothing is
said of that but that the scan gets to them.

A part of a scan is a `Leg`. `Round` is a leg with the set of records that it is
to add to, so that parts are put together by `Round.trans` in whatever order they
come. What fails keeps nothing of what it found, so a round may lose records on
the way; a `Sweep` is one that loses none.

## Main definitions

* `listed`: The items that a source makes available.
* `Leg`: The part of a scan that asks some sources.
* `Sweep`: A part of a scan, with the records that it adds, and all of them.
* `Round`: A part of a scan, with records that it adds.
* `Call.found`, `Call.Asks`: What a call gives, and what it asks for.

## Theorems

* `scanSource_sweep`, `scanChainFrom_sweep`: One source, and one with its parents.
* `scanSource_round`, `scanChainFrom_round`, `takeTurns_round`: Ways of asking.
* `scanAll_trail`: A whole scan.
* `perform_trail`: Every call.
-/

namespace ArchiveCensus

namespace Survey

/-- The items that a source makes available. -/
def listed (sources : Sources) (id : SourceId) : List (Option Text) :=
  match (sources id).offer with
  | .items urls => urls
  | .nothing | .unreadable | .failing => []

section Sources

variable {τ : Type} [Add τ] [LT τ] [DecidableRel (α := τ) (· < ·)] {w : Site τ}
  {sources : Sources} {k k' k'' : Walk τ} {ids ids' : List SourceId}
  {l l' : List (Lead × Option Record)}

/-- The part of a scan that asks the sources `ids`, in this order and none of them
    a second time: its trail leads along what they list. -/
structure Leg (w : Site τ) (sources : Sources) (k : Walk τ) (ids : List SourceId)
    (l : List (Lead × Option Record)) (k' : Walk τ) : Prop where
  trail : Trail w k.memory l k'.memory
  visited : k'.visited = ids.reverse ++ k.visited
  nodup : ids.Nodup
  fresh : ∀ id ∈ ids, id ∉ k.visited
  leads : l.map Prod.fst = ids.flatMap fun id => (listed sources id).map Lead.item

theorem Leg.refl (w : Site τ) (sources : Sources) (k : Walk τ) : Leg w sources k [] [] k where
  trail := .nil _
  visited := rfl
  nodup := List.nodup_nil
  fresh := fun _ h => absurd h List.not_mem_nil
  leads := rfl

theorem Leg.say (h : Leg w sources k ids l k') (n : Notice) : Leg w sources k ids l (k'.say n) where
  trail := h.trail.concat_say n
  visited := h.visited
  nodup := h.nodup
  fresh := h.fresh
  leads := h.leads

theorem Leg.append (h : Leg w sources k ids l k') (h' : Leg w sources k' ids' l' k'') :
    Leg w sources k (ids ++ ids') (l ++ l') k'' where
  trail := h.trail.append h'.trail
  visited := by rw [h'.visited, h.visited, List.reverse_append, List.append_assoc]
  nodup := by
    refine List.nodup_append.mpr ⟨h.nodup, h'.nodup, fun a ha b hb hab => ?_⟩
    refine h'.fresh b hb ?_
    rw [h.visited, ← hab]
    exact List.mem_append_left _ (List.mem_reverse.mpr ha)
  fresh := by
    intro id hid hvisited
    rcases List.mem_append.mp hid with hid | hid
    · exact h.fresh id hid hvisited
    · refine h'.fresh id hid ?_
      rw [h.visited]
      exact List.mem_append_right _ hvisited
  leads := by rw [List.map_append, List.flatMap_append, h.leads, h'.leads]

/-- A part of a scan that asks the sources `ids` and adds to the records `t` all that
    they give, and nothing else: the records in the end are `s`. -/
structure Sweep (w : Site τ) (sources : Sources) (k : Walk τ) (t : RecordSet)
    (ids : List SourceId) (l : List (Lead × Option Record)) (k' : Walk τ) (s : RecordSet) :
    Prop where
  leg : Leg w sources k ids l k'
  sound : ∀ r ∈ s, r ∈ t ∨ Answers l r
  complete : ∀ r, t.Holds r ∨ Answers l r → s.Holds r

variable {s t u : RecordSet}

theorem Sweep.refl (w : Site τ) (sources : Sources) (k : Walk τ) (t : RecordSet) :
    Sweep w sources k t [] [] k t where
  leg := .refl w sources k
  sound := fun _ => Or.inl
  complete := fun _ h => h.resolve_right fun ⟨_, hx⟩ => List.not_mem_nil hx

theorem Sweep.trans (h : Sweep w sources k t ids l k' s) (h' : Sweep w sources k' s ids' l' k'' u) :
    Sweep w sources k t (ids ++ ids') (l ++ l') k'' u where
  leg := h.leg.append h'.leg
  sound := by
    intro r hr
    rcases h'.sound r hr with hr | hr
    · exact (h.sound r hr).imp_right fun h => h.append_left l'
    · exact Or.inr (hr.append_right l)
  complete := by
    rintro r (hr | ⟨lead, hx⟩)
    · exact h'.complete r (Or.inl (h.complete r (Or.inl hr)))
    · rcases List.mem_append.mp hx with hx | hx
      · exact h'.complete r (Or.inl (h.complete r (Or.inr ⟨lead, hx⟩)))
      · exact h'.complete r (Or.inr ⟨lead, hx⟩)

/-- What was asked for by itself is added to what there is. -/
theorem Sweep.union (h : Sweep w sources k [] ids l k' s) (t : RecordSet) :
    Sweep w sources k t ids l k' (t.union s) where
  leg := h.leg
  sound := fun r hr => (RecordSet.mem_of_mem_union hr).imp_right fun hs =>
    (h.sound r hs).resolve_left List.not_mem_nil
  complete := fun r hr => hr.elim (fun ht => ht.union_right s) fun ha =>
    (h.complete r (Or.inr ha)).union_left t

/-- A part of a scan that asks sources among `P` and adds to the records `t` what
    they give: the records in the end are `s`. -/
def Round (w : Site τ) (sources : Sources) (P : SourceId → Prop) (k : Walk τ) (t : RecordSet)
    (k' : Walk τ) (s : RecordSet) : Prop :=
  ∃ ids l, Leg w sources k ids l k' ∧ (∀ id ∈ ids, P id) ∧ ∀ r ∈ s, r ∈ t ∨ Answers l r

variable {P Q : SourceId → Prop}

theorem Round.refl (k : Walk τ) (t : RecordSet) : Round w sources P k t k t :=
  ⟨[], [], .refl w sources k, fun _ h => absurd h List.not_mem_nil, fun _ => Or.inl⟩

theorem Round.say (h : Round w sources P k t k' s) (n : Notice) :
    Round w sources P k t (k'.say n) s := by
  rcases h with ⟨ids, l, hleg, hP, hs⟩
  exact ⟨ids, l, hleg.say n, hP, hs⟩

theorem Round.mono (h : Round w sources P k t k' s) (hPQ : ∀ id, P id → Q id) :
    Round w sources Q k t k' s := by
  rcases h with ⟨ids, l, hleg, hP, hs⟩
  exact ⟨ids, l, hleg, fun id hid => hPQ id (hP id hid), hs⟩

theorem Round.trans (h : Round w sources P k t k' s) (h' : Round w sources P k' s k'' u) :
    Round w sources P k t k'' u := by
  rcases h with ⟨ids, l, hleg, hP, hs⟩
  rcases h' with ⟨ids', l', hleg', hP', hu⟩
  refine ⟨ids ++ ids', l ++ l', hleg.append hleg', fun id hid => ?_, fun r hr => ?_⟩
  · exact (List.mem_append.mp hid).elim (hP id) (hP' id)
  · rcases hu r hr with hr | hr
    · exact (hs r hr).imp_right fun h => h.append_left l'
    · exact Or.inr (hr.append_right l)

/-- What was asked for by itself is added to what there is. -/
theorem Round.union (h : Round w sources P k [] k' s) (t : RecordSet) :
    Round w sources P k t k' (t.union s) := by
  rcases h with ⟨ids, l, hleg, hP, hs⟩
  refine ⟨ids, l, hleg, hP, fun r hr => ?_⟩
  exact (RecordSet.mem_of_mem_union hr).imp_right fun h =>
    (hs r h).resolve_left List.not_mem_nil

/-- The records of an answer, which are none if it is a fault. -/
def granted (answer : Except Resolution.Fault RecordSet) : RecordSet :=
  answer.toOption.getD []

@[simp] theorem granted_ok (s : RecordSet) : granted (.ok s) = s :=
  rfl

-- A source that was asked before has nothing to add, and any other one is asked now.
theorem scanSource_sweep (sources : Sources) (id : SourceId) (k : Walk τ) :
    ∃ ids l, Sweep w sources k [] ids l (scanSource w sources id k).2
        (granted (scanSource w sources id k).1) ∧
      (∀ x ∈ ids, x = id) ∧ (id ∈ ids ∨ id ∈ k.visited) := by
  unfold scanSource
  split
  · rename_i hold
    exact ⟨[], [], .refl w sources k [], fun _ h => absurd h List.not_mem_nil, Or.inr hold⟩
  · rename_i hnew
    -- Whatever a source answers, it has been asked then.
    have hasked : ∀ {l : List (Lead × Option Record)} {m : Memory τ} {s : RecordSet},
        Trail w k.memory l m → l.map Prod.fst = (listed sources id).map Lead.item →
        (∀ r ∈ s, r ∈ [] ∨ Answers l r) →
        (∀ r, RecordSet.Holds [] r ∨ Answers l r → s.Holds r) →
        ∃ ids l, Sweep w sources k [] ids l { memory := m, visited := id :: k.visited } s ∧
          (∀ x ∈ ids, x = id) ∧ (id ∈ ids ∨ id ∈ k.visited) := by
      intro l m s htrail hleads hsound hcomplete
      refine ⟨[id], l, ⟨⟨htrail, rfl, List.nodup_singleton id, fun x hx => ?_, ?_⟩, hsound,
        hcomplete⟩, fun x hx => List.mem_singleton.mp hx, Or.inl (List.mem_singleton_self id)⟩
      · rw [List.mem_singleton.mp hx]
        exact hnew
      · rw [hleads, List.flatMap_singleton]
    have hnothing : ∀ {m : Memory τ}, Trail w k.memory [] m → listed sources id = [] →
        ∃ ids l, Sweep w sources k [] ids l { memory := m, visited := id :: k.visited } [] ∧
          (∀ x ∈ ids, x = id) ∧ (id ∈ ids ∨ id ∈ k.visited) := by
      intro m htrail hlisted
      refine hasked htrail ?_ (fun _ => Or.inl) (Sweep.refl w sources k []).complete
      rw [hlisted]
      rfl
    cases hoffer : (sources id).offer with
    | nothing => exact hnothing (.nil _) (by rw [listed, hoffer])
    | unreadable => exact hnothing (.nil _) (by rw [listed, hoffer])
    | failing => exact hnothing ((Trail.nil _).concat_say _) (by rw [listed, hoffer])
    | items urls =>
        rcases scanItems_trail (w := w) urls [] k.memory
          with ⟨l, htrail, hleads, hrecords, hall⟩
        refine hasked htrail ?_ hrecords hall
        rw [listed, hoffer]
        exact hleads

theorem scanSource_round (sources : Sources) (id : SourceId) (k : Walk τ) :
    Round w sources (fun x => x = id) k [] (scanSource w sources id k).2
      (granted (scanSource w sources id k).1) := by
  rcases scanSource_sweep (w := w) sources id k with ⟨ids, l, hsweep, hids, _⟩
  exact ⟨ids, l, hsweep.leg, hids, hsweep.sound⟩

theorem scanIf_round (sources : Sources) (id : Option SourceId) (k : Walk τ) :
    Round w sources (fun x => id = some x) k [] (scanIf w sources id k).2
      (granted (scanIf w sources id k).1) := by
  cases id with
  | none => exact .refl k []
  | some id => exact (scanSource_round sources id k).mono fun x hx => congrArg some hx.symm

theorem scanSystem_round (c : Scene) (k : Walk τ) :
    Round w c.sources (fun x => c.system = .source x) k [] (scanSystem w c k).2
      (granted (scanSystem w c k).1) := by
  unfold scanSystem
  split
  · exact .refl k []
  · exact (Round.refl k []).say _
  · rename_i id hsystem
    exact (scanSource_round c.sources id k).mono fun x hx => hx ▸ hsystem

/-- A chain asks sources among the ancestors. If it gives an answer at all, each of
    them has been asked by then, and what is new of them was added. -/
theorem scanChainFrom_sweep (sources : Sources) (fuel : Nat) (t : RecordSet)
    (id : Option SourceId) (k : Walk τ) :
    ∃ ids l, Leg w sources k ids l (scanChainFrom w sources fuel t id k).2 ∧
      (∀ x ∈ ids, ∃ n < fuel, ancestor sources n id = some x) ∧
      ∀ s, (scanChainFrom w sources fuel t id k).1 = .ok s →
        Sweep w sources k t ids l (scanChainFrom w sources fuel t id k).2 s ∧
          ∀ x, (∃ n < fuel, ancestor sources n id = some x) → x ∈ ids ∨ x ∈ k.visited := by
  -- By induction on the fuel: a source, and then the chain of its parent.
  induction fuel generalizing t id k with
  | zero =>
      have hnone : ∀ {x : SourceId}, ¬ ∃ n < 0, ancestor sources n id = some x :=
        fun ⟨_, hn, _⟩ => Nat.not_lt_zero _ hn
      cases id with
      | none =>
          refine ⟨[], [], .refl w sources k, fun _ h => absurd h List.not_mem_nil, fun s hs => ?_⟩
          cases hs
          exact ⟨.refl w sources k t, fun _ h => absurd h hnone⟩
      | some id =>
          refine ⟨[], [], (Leg.refl w sources k).say _, fun _ h => absurd h List.not_mem_nil,
            fun s hs => ?_⟩
          cases hs
          exact ⟨{ Sweep.refl w sources k t with leg := (Leg.refl w sources k).say _ },
            fun _ h => absurd h hnone⟩
  | succ fuel ih =>
      cases id with
      | none =>
          refine ⟨[], [], .refl w sources k, fun _ h => absurd h List.not_mem_nil, fun s hs => ?_⟩
          cases hs
          exact ⟨.refl w sources k t,
            fun x h => ((not_exists_ancestor_none sources _ x).mp h).elim⟩
      | some id =>
          rcases scanSource_sweep (w := w) sources id k with ⟨ids, l, hone, hids, hasked⟩
          have hnear : ∀ x ∈ ids, ∃ n < fuel + 1, ancestor sources n (some id) = some x :=
            fun x hx => (exists_ancestor_some_iff sources fuel id x).mpr (Or.inl (hids x hx))
          rw [scanChainFrom]
          rcases hscan : scanSource w sources id k with ⟨f | more, k'⟩
          · rw [hscan] at hone
            exact ⟨ids, l, hone.leg, hnear, fun s hs => by cases hs⟩
          · rw [hscan, granted_ok] at hone
            have hhere := hone.union t
            dsimp only
            cases hparent : (sources id).parent with
            | unreadable => exact ⟨ids, l, hone.leg, hnear, fun s hs => by cases hs⟩
            | root =>
                refine ⟨ids, l, hone.leg, hnear, fun s hs => ?_⟩
                cases hs
                refine ⟨hhere, fun x hx => ?_⟩
                have hparentOf : parentOf sources id = none := by rw [parentOf, hparent]
                rw [exists_ancestor_some_iff, hparentOf, not_exists_ancestor_none, or_false] at hx
                rw [hx]
                exact hasked
            | parent next =>
                rcases ih (t.union more) (some next) k'
                  with ⟨ids', l', hleg', hnear', hrest⟩
                have hparentOf : parentOf sources id = some next := by rw [parentOf, hparent]
                refine ⟨ids ++ ids', l ++ l', hone.leg.append hleg', fun x hx => ?_,
                  fun s hs => ⟨hhere.trans (hrest s hs).1, fun x hx => ?_⟩⟩
                · rcases List.mem_append.mp hx with hx | hx
                  · exact hnear x hx
                  · rw [exists_ancestor_some_iff, hparentOf]
                    exact Or.inr (hnear' x hx)
                · rw [exists_ancestor_some_iff, hparentOf] at hx
                  rcases hx with rfl | hx
                  · exact hasked.imp_left (List.mem_append_left ids')
                  · -- What the rest of the chain passed over was asked here or before.
                    rcases (hrest s hs).2 x hx with hx | hx
                    · exact Or.inl (List.mem_append_right ids hx)
                    · rw [hone.leg.visited, List.mem_append, List.mem_reverse] at hx
                      exact hx.imp_left (List.mem_append_left ids')

theorem scanChainFrom_round (sources : Sources) (fuel : Nat) (t : RecordSet)
    (id : Option SourceId) (k : Walk τ) :
    Round w sources (fun x => ∃ n < fuel, ancestor sources n id = some x) k t
      (scanChainFrom w sources fuel t id k).2
      (granted (scanChainFrom w sources fuel t id k).1) := by
  rcases scanChainFrom_sweep (w := w) sources fuel t id k with ⟨ids, l, hleg, hnear, hok⟩
  refine ⟨ids, l, hleg, hnear, ?_⟩
  cases hchain : (scanChainFrom w sources fuel t id k).1 with
  | error f => exact fun _ hr => absurd hr List.not_mem_nil
  | ok s => exact (hok s hchain).1.sound

-- What was found before a failure is kept, so both cases add the turn to the set.
theorem takeTurns_round
    {scan : Option SourceId → Walk τ → Except Resolution.Fault RecordSet × Walk τ}
    {P : Option SourceId → SourceId → Prop}
    (hscan : ∀ id k, Round w sources (P id) k [] (scan id k).2 (granted (scan id k).1))
    (starts : List (Option SourceId)) (t : RecordSet) (k : Walk τ) :
    Round w sources (fun x => ∃ id ∈ starts, P id x) k t (takeTurns scan t starts k).2.2
      (takeTurns scan t starts k).1 := by
  induction starts generalizing t k with
  | nil => exact .refl k t
  | cons id rest ih =>
      have hone := (hscan id k).mono (Q := fun x => ∃ y ∈ id :: rest, P y x) fun x hx =>
        ⟨id, List.mem_cons_self, hx⟩
      rw [takeTurns]
      rcases hturn : scan id k with ⟨f | more, k'⟩
      · rw [hturn] at hone
        exact hone.union t
      · rw [hturn] at hone
        refine (hone.union t).trans ((ih (t.union more) k').mono ?_)
        rintro x ⟨y, hy, hx⟩
        exact ⟨y, List.mem_cons_of_mem id hy, hx⟩

theorem scanOthers_round (c : Scene) (k : Walk τ) :
    Round w c.sources (fun x => ∃ id ∈ othersOf c, id = some x) k [] (scanOthers w c k).2
      (scanOthers w c k).1 := by
  have hturns := takeTurns_round (scanIf_round (w := w) c.sources) (othersOf c) [] k
  rw [← scanEach_eq_takeTurns] at hturns
  unfold scanOthers
  rcases hscan : scanEach w c.sources [] (othersOf c) k with ⟨records, _ | f, k'⟩
  · rw [hscan] at hturns
    exact hturns
  · rw [hscan] at hturns
    exact hturns.say _

-- Stage by stage; where one fails, the rounds so far are the whole scan.
theorem scanStages_round (c : Scene) (k : Walk τ) :
    Round w c.sources c.Reachable k [] (scanStages w c k).2.2 (scanStages w c k).1 := by
  have hsystem := (scanSystem_round (w := w) c k).mono fun x hx => Scene.Reachable.system hx
  rw [scanStages]
  rcases hone : scanSystem w c k with ⟨f | system, k₁⟩
  · rw [hone] at hsystem
    exact hsystem
  rw [hone] at hsystem
  have hfirst := hsystem.union []
  have hown := (scanIf_round (w := w) c.sources (c.roster.sourceOf c.caller) k₁).mono
    fun x hx => Scene.Reachable.own (c := c) hx
  dsimp only
  rcases htwo : scanOwn w c k₁ with ⟨f | own, k₂⟩
  · rw [scanOwn] at htwo
    rw [htwo] at hown
    exact hfirst.trans (hown.union _)
  rw [scanOwn] at htwo
  rw [htwo] at hown
  have hsecond := hfirst.trans (hown.union _)
  have hothers := (scanOthers_round (w := w) c k₂).mono fun x hx =>
    (reachable_iff c x).mp (Or.inl (Or.inr hx))
  have hthird := hsecond.trans (hothers.union _)
  dsimp only
  rw [scanChains_eq_takeTurns]
  refine hthird.trans ((takeTurns_round (scanChainFrom_round c.sources longestChain [])
    c.extra _ _).mono ?_)
  rintro x ⟨start, hstart, n, hn, hid⟩
  exact .extra hstart hn hid

/-- A whole scan is a way along the lists of sources that it gets to, none of them
    twice, and its records are answers on that way. -/
theorem scanAll_trail (w : Site τ) (c : Scene) (m : Memory τ) :
    ∃ (ids : List SourceId) (l : List (Lead × Option Record)),
      Trail w m l (scanAll w c m).2 ∧ ids.Nodup ∧ (∀ id ∈ ids, c.Reachable id) ∧
      l.map Prod.fst = (ids.flatMap fun id => (listed c.sources id).map Lead.item) ∧
      ∀ r ∈ (scanAll w c m).1, Answers l r := by
  rcases scanStages_round (w := w) c { memory := m } with ⟨ids, l, hleg, hids, hrecords⟩
  unfold scanAll
  rcases hscan : scanStages w c { memory := m } with ⟨records, _ | f, k⟩
  · rw [hscan] at hleg hrecords
    exact ⟨ids, l, (hleg.say _).trail, hleg.nodup, hids, hleg.leads,
      fun r hr => (hrecords r hr).resolve_left List.not_mem_nil⟩
  · rw [hscan] at hleg hrecords
    exact ⟨ids, l, (hleg.say _).trail, hleg.nodup, hids, hleg.leads,
      fun r hr => (hrecords r hr).resolve_left List.not_mem_nil⟩

end Sources

section Calls

variable {τ : Type} [Add τ] [LT τ] [DecidableRel (α := τ) (· < ·)] {w : Site τ}

/-- The records that a call gives. -/
def Call.found (w : Site τ) : Call → Memory τ → RecordSet
  | .url u, m => (scanUrl w u m).1.toOption.join.toList
  | .paths entries, m => (scanPaths w entries m).1
  | .chain sources id, m => granted (scanChain w sources id { memory := m }).1
  | .all c, m => (scanAll w c m).1

/-- What a call asks for: its URL, the archives that its path arguments stand for,
    and whatever the sources that it gets to list. -/
inductive Call.Asks (w : Surroundings) : Call → Lead → Prop
  | url (u : Text) : Asks w (.url u) (.item (some u))
  | paths {entries : List Text} {entry : Text} {p : Path} (hentry : entry ∈ entries)
      (hp : p ∈ (w.pathsOf (.parse entry)).1) (named : p.Named) :
      Asks w (.paths entries) (.path p named)
  | chain {sources : Sources} {start : Option SourceId} {n : Nat} {id : SourceId}
      {item : Option Text} (hn : n < longestChain) (hid : ancestor sources n start = some id)
      (hitem : item ∈ listed sources id) : Asks w (.chain sources start) (.item item)
  | all {c : Scene} {id : SourceId} {item : Option Text} (hid : c.Reachable id)
      (hitem : item ∈ listed c.sources id) : Asks w (.all c) (.item item)

-- The leads of a trail along lists are items of these lists.
theorem exists_listed {sources : Sources} {ids : List SourceId}
    {l : List (Lead × Option Record)}
    (hleads : l.map Prod.fst = ids.flatMap fun id => (listed sources id).map Lead.item)
    {x : Lead × Option Record} (hx : x ∈ l) :
    ∃ id ∈ ids, ∃ item ∈ listed sources id, x.1 = Lead.item item := by
  have hmem : x.1 ∈ ids.flatMap fun id => (listed sources id).map Lead.item :=
    hleads ▸ List.mem_map_of_mem hx
  rcases List.mem_flatMap.mp hmem with ⟨id, hid, hlist⟩
  rcases List.mem_map.mp hlist with ⟨item, hitem, heq⟩
  exact ⟨id, hid, item, hitem, heq.symm⟩

/-- A call is a way along what it asks for, and gives answers that it got there. -/
theorem perform_trail (hd : w.disk.Sound) (c : Call) (m : Memory τ) :
    ∃ l, Trail w m l (c.perform w m).2 ∧ (∀ x ∈ l, c.Asks w.toSurroundings x.1) ∧
      ∀ r ∈ c.found w m, Answers l r := by
  cases c with
  | url u =>
      refine ⟨_, .follow (.item (some u)) (.nil _), fun x hx => ?_, fun r hr => ?_⟩
      · rw [List.mem_singleton.mp hx]
        exact .url u
      · have hanswer : (scanUrl w u m).1.toOption.join = some r := Option.mem_toList.mp hr
        refine ⟨.item (some u), List.mem_singleton.mpr ?_⟩
        rw [← hanswer]
        rfl
  | paths entries =>
      rcases scanPathsFrom_trail hd entries [] m with ⟨l, htrail, hleads, hrecords⟩
      refine ⟨l, htrail, fun x hx => ?_, fun r hr =>
        (hrecords r hr).resolve_left List.not_mem_nil⟩
      rcases hleads x hx with ⟨entry, hentry, p, hp, hnamed, heq⟩
      rw [heq]
      exact .paths hentry hp hnamed
  | chain sources id =>
      rcases scanChainFrom_round (w := w) sources longestChain [] id { memory := m }
        with ⟨ids, l, hleg, hids, hrecords⟩
      refine ⟨l, hleg.trail, fun x hx => ?_, fun r hr =>
        (hrecords r hr).resolve_left List.not_mem_nil⟩
      rcases exists_listed hleg.leads hx with ⟨y, hy, item, hitem, heq⟩
      rcases hids y hy with ⟨n, hn, hid⟩
      rw [heq]
      exact .chain hn hid hitem
  | all c =>
      rcases scanAll_trail w c m with ⟨ids, l, htrail, _, hids, hleads, hrecords⟩
      refine ⟨l, htrail, fun x hx => ?_, hrecords⟩
      rcases exists_listed hleads hx with ⟨y, hy, item, hitem, heq⟩
      rw [heq]
      exact .all (hids y hy) hitem

end Calls

end Survey

end ArchiveCensus
