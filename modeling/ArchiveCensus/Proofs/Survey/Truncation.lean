import ArchiveCensus.Proofs.Survey.Lineage

/-!
# The Warning of a Truncated Chain

A scan of a chain of parents warns when it leaves the chain before its end. Whether
it warns is a matter of counting: there has to be a source in the place behind the
last one that it may go to. Whether a source is left out is a matter of which
sources they are, and the two agree on some chains and not on others.

Where a chain ends in time, nothing is left out and nothing is said. Where it goes
on to a new source, that one is left out, and the warning is right. Where it has
closed in a circle by then, every source was asked, and the warning is wrong: the
places beyond the bound only hold sources that were asked before (`within_of_recurs`).
So the warning tells of a loss exactly on the chains that do not close so early.

Only a chain that is left says this. The count of these warnings is carried through
everything else that a scan does.

## Main definitions

* `truncated`: What is said of a chain that is left.
* `Warns`: It is said once more.
* `LeavesOut`: Some source of the chain was not asked.
* `Recurs`: The chain closes in a circle before it is left.

## Theorems

* `truncations_scanSource`: No single source says it.
* `truncations_scanChainFrom`: When a chain says it.
* `within_of_recurs`: A circle has no sources beyond the bound.
* `scanChain_warns`: When the warning is right.
* `not_forall_warns`: It is not right in general.
-/

namespace ArchiveCensus

namespace Survey

/-- What is said of a chain that is left before its end. -/
def truncated : Notice :=
  .warning "enumerator.loader_chain_truncated"

end Survey

section Inspections

open Survey

namespace Inspection

theorem truncated_ne_notice (f : Fault) : truncated ≠ f.notice := by
  rcases f with _ | _ | _ | f
  · simp [truncated, Fault.notice, Notice.warning, Notice.debug]
  · simp [truncated, Fault.notice, Notice.warning]
  · simp [truncated, Fault.notice, Notice.warning, Notice.error]
  · cases f <;> simp [truncated, Fault.notice, Notice.warning, Notice.error]

theorem truncated_not_mem_readManifest (a : Archive) : truncated ∉ (readManifest a).2 := by
  unfold readManifest
  split
  · exact List.not_mem_nil
  · exact List.not_mem_nil
  · split
    · exact List.not_mem_nil
    · simp [truncated, Notice.warning, Notice.debug]

theorem truncated_not_mem_readFindings (bytes : ByteArray) :
    truncated ∉ (readFindings bytes).2 := by
  unfold readFindings
  split
  · exact List.not_mem_nil
  · rename_i a _
    have hmanifest := truncated_not_mem_readManifest a
    split <;> rename_i h <;> rw [h] at hmanifest <;> exact hmanifest

end Inspection

namespace Inspector

variable (i : Inspector)

theorem truncated_not_mem_describe (p : Path) (bytes : ByteArray) :
    truncated ∉ (i.describe p bytes).2 := by
  unfold describe
  split
  · exact List.not_mem_nil
  · have hfindings := Inspection.truncated_not_mem_readFindings bytes
    split <;> rename_i h <;> rw [h] at hfindings <;> exact hfindings

theorem truncated_not_mem_settle {x : Except Inspection.Fault Record × List Notice}
    (h : truncated ∉ x.2) : truncated ∉ (settle x).2 := by
  rcases x with ⟨f | r, notices⟩
  · rw [settle, List.mem_append, not_or, List.mem_singleton]
    exact ⟨h, Inspection.truncated_ne_notice f⟩
  · exact h

theorem truncated_not_mem_inspect (d : Disk) (p : Path) : truncated ∉ (i.inspect d p).2 := by
  refine truncated_not_mem_settle ?_
  unfold attempt
  split
  · exact List.not_mem_nil
  · exact List.not_mem_nil
  · split
    · exact i.truncated_not_mem_describe _ _
    · exact List.not_mem_nil

theorem truncated_not_mem_inspectCopy (name : Text) (bytes : ByteArray) (serial : Nat) :
    truncated ∉ (i.inspectCopy name bytes serial).2 :=
  truncated_not_mem_settle (i.truncated_not_mem_describe _ _)

end Inspector

theorem Surroundings.truncated_not_mem_resolveNested (w : Surroundings) (url : Text)
    (serial : Nat) : truncated ∉ (w.resolveNested url serial).notices := by
  unfold resolveNested
  split
  · exact List.not_mem_nil
  · split
    · exact List.not_mem_nil
    · exact List.not_mem_nil
    · exact w.inspector.truncated_not_mem_inspectCopy _ _ serial

end Inspections

namespace Survey

section Warnings

variable {τ : Type}

/-- How often it was said of a chain that it was left. -/
def Memory.truncations (m : Memory τ) : Nat :=
  m.notices.count truncated

/-- It is said of one chain more that it was left. -/
def Warns (m m' : Memory τ) : Prop :=
  m'.truncations = m.truncations + 1

theorem truncations_say {n : Notice} (h : n ≠ truncated) (m : Memory τ) :
    (m.say n).truncations = m.truncations := by
  rw [Memory.truncations, Memory.say, List.count_append, List.count_singleton,
    beq_eq_false_iff_ne.mpr h]
  rfl

theorem truncations_note {r : Resolution} (h : truncated ∉ r.notices) (m : Memory τ) :
    (m.note r).truncations = m.truncations := by
  rw [Memory.truncations, Memory.note, List.count_append, List.count_eq_zero.mpr h]
  rfl

variable [Add τ] [LT τ] [DecidableRel (α := τ) (· < ·)] {w : Site τ}

theorem truncations_scanFile (p : Path) (m : Memory τ) :
    (scanFile w p m).2.truncations = m.truncations := by
  simp only [scanFile]
  split
  · rename_i h
    rw [← congrArg Prod.snd h]
    rfl
  · rename_i m' h
    obtain rfl : (m.lookUp w.clock (w.disk.absolute p).toText).2 = m' := congrArg Prod.snd h
    exact truncations_note (w.inspector.truncated_not_mem_inspect _ _) _

theorem truncations_scanNested (url : Text) (m : Memory τ) :
    (scanNested w url m).2.truncations = m.truncations := by
  simp only [scanNested]
  split
  · rename_i h
    rw [← congrArg Prod.snd h]
    rfl
  · rename_i m' h
    obtain rfl : (m.lookUp w.clock url).2 = m' := congrArg Prod.snd h
    have hnote : ∀ serial,
        ((m.lookUp w.clock url).2.note (w.resolveNested url serial)).truncations =
          m.truncations := fun serial =>
      truncations_note (w.truncated_not_mem_resolveNested url serial) _
    split <;> exact hnote _

theorem truncations_scanItem (item : Option Text) (m : Memory τ) :
    (scanItem w item m).2.truncations = m.truncations := by
  cases item with
  | none => rfl
  | some url =>
      rw [scanItem, scanUrl]
      split
      · exact truncations_scanNested url m
      · split
        · rfl
        · rfl
        · exact truncations_scanFile _ m

theorem truncations_scanItems (items : List (Option Text)) (s : RecordSet) (m : Memory τ) :
    (scanItems w s items m).2.truncations = m.truncations := by
  induction items generalizing s m with
  | nil => rfl
  | cons item rest ih =>
      have hitem := truncations_scanItem (w := w) item m
      rw [scanItems]
      rcases hscan : scanItem w item m with ⟨f | r, m'⟩
      · rw [hscan] at hitem
        rw [ih, truncations_say (by simp [truncated, Notice.warning]), hitem]
      · rw [hscan] at hitem
        rw [ih, hitem]

/-- No single source says it. -/
theorem truncations_scanSource (sources : Sources) (id : SourceId) (k : Walk τ) :
    (scanSource w sources id k).2.memory.truncations = k.memory.truncations := by
  unfold scanSource
  split
  · rfl
  · split
    · rfl
    · rfl
    · exact truncations_say (by simp [truncated, Notice.warning, Notice.error]) _
    · exact truncations_scanItems _ _ _

/-- A chain says it once, if it gives an answer and there is a source in the place
    where it is left. -/
theorem truncations_scanChainFrom (sources : Sources) (fuel : Nat) (t : RecordSet)
    (id : Option SourceId) (k : Walk τ) :
    (scanChainFrom w sources fuel t id k).2.memory.truncations = k.memory.truncations +
      if (scanChainFrom w sources fuel t id k).1.isOk && (ancestor sources fuel id).isSome
      then 1 else 0 := by
  -- By induction on the fuel, with the place counted from each source on the way.
  induction fuel generalizing t id k with
  | zero =>
      cases id with
      | none => rfl
      | some id =>
          simp [scanChainFrom, ancestor, Except.isOk, Except.toBool, Walk.say, Memory.say,
            Memory.truncations, truncated]
  | succ fuel ih =>
      cases id with
      | none => simp [scanChainFrom, ancestor_none]
      | some id =>
          have hsource := truncations_scanSource (w := w) sources id k
          rw [scanChainFrom]
          rcases hscan : scanSource w sources id k with ⟨f | more, k'⟩
          · rw [hscan] at hsource
            exact hsource
          · rw [hscan] at hsource
            have hancestor : ancestor sources (fuel + 1) (some id) =
                ancestor sources fuel (parentOf sources id) := rfl
            dsimp only
            cases hparent : (sources id).parent with
            | root =>
                rw [hancestor, parentOf, hparent]
                simp [ancestor_none, hsource]
            | unreadable => exact hsource
            | parent next =>
                rw [hancestor, parentOf, hparent]
                rw [ih, hsource]

end Warnings

section Circles

variable {sources : Sources} {start : Option SourceId} {asked : List SourceId}

/-- The source is in one of the first places of the chain. `NearAncestor` is this for
    as many places as a scan goes to. -/
def Within (sources : Sources) (start : Option SourceId) (places : Nat) (id : SourceId) : Prop :=
  ∃ n < places, ancestor sources n start = some id

/-- The place behind these holds a source that is in one of them. -/
def Recurs (sources : Sources) (start : Option SourceId) (places : Nat) : Prop :=
  ∃ id, ancestor sources places start = some id ∧ Within sources start places id

/-- Some source of the chain is not among those that were asked. -/
def LeavesOut (sources : Sources) (start : Option SourceId) (asked : List SourceId) : Prop :=
  ∃ n id, ancestor sources n start = some id ∧ id ∉ asked

theorem ancestor_add (sources : Sources) (m n : Nat) (start : Option SourceId) :
    ancestor sources (m + n) start = ancestor sources n (ancestor sources m start) := by
  induction m generalizing start with
  | zero => rw [Nat.zero_add, ancestor]
  | succ m ih =>
      rw [Nat.succ_add]
      exact ih _

/-- In front of a place that holds a source every place holds one. -/
theorem exists_ancestor_of_le {m n : Nat} {id : SourceId} (h : ancestor sources n start = some id)
    (hle : m ≤ n) : ∃ x, ancestor sources m start = some x := by
  obtain ⟨j, rfl⟩ := Nat.exists_eq_add_of_le hle
  rw [ancestor_add] at h
  cases hm : ancestor sources m start with
  | none =>
      rw [hm, ancestor_none] at h
      cases h
  | some x => exact ⟨x, rfl⟩

/-- A circle has no sources behind the places in which it closes: each place there is
    the same as one that is nearer. -/
theorem within_of_recurs {places : Nat} (h : Recurs sources start places) {n : Nat}
    {id : SourceId} (hid : ancestor sources n start = some id) :
    Within sources start places id := by
  induction n using Nat.strong_induction_on generalizing id with
  | _ n ih =>
    by_cases hn : n < places
    · exact ⟨n, hn, hid⟩
    · rcases h with ⟨x, hx, m, hm, hxm⟩
      obtain ⟨j, rfl⟩ := Nat.exists_eq_add_of_le (Nat.not_lt.mp hn)
      rw [ancestor_add, hx, ← hxm, ← ancestor_add] at hid
      exact ih (m + j) (Nat.add_lt_add_right hm j) hid

/-- Where the sources in the first places were asked, one is left out if there is a
    new one in the next place. -/
theorem leavesOut_iff {places : Nat} (hasked : ∀ id, id ∈ asked ↔ Within sources start places id) :
    LeavesOut sources start asked ↔
      ∃ id, ancestor sources places start = some id ∧ ¬Within sources start places id := by
  constructor
  · rintro ⟨n, id, hid, hnot⟩
    rw [hasked] at hnot
    have hn : places ≤ n := Nat.not_lt.mp fun hlt => hnot ⟨n, hlt, hid⟩
    rcases exists_ancestor_of_le hid hn with ⟨x, hx⟩
    exact ⟨x, hx, fun hnear => hnot (within_of_recurs ⟨x, hx, hnear⟩ hid)⟩
  · rintro ⟨id, hid, hnot⟩
    exact ⟨places, id, hid, fun hmem => hnot ((hasked id).mp hmem)⟩

theorem not_within_zero (sources : Sources) (start : Option SourceId) (id : SourceId) :
    ¬Within sources start 0 id := by
  rintro ⟨n, hn, _⟩
  exact Nat.not_lt_zero n hn

theorem within_succ_some_iff (sources : Sources) (id x : SourceId) (places : Nat) :
    Within sources (some id) (places + 1) x ↔
      x = id ∨ Within sources (parentOf sources id) places x :=
  exists_ancestor_some_iff sources places id x

end Circles

section Chains

variable {τ : Type} [Add τ] [LT τ] [DecidableRel (α := τ) (· < ·)] {w : Site τ}

/-- The source cannot be asked, for its list or for its parent. -/
def Unreadable (sources : Sources) (id : SourceId) : Prop :=
  (sources id).offer = .unreadable ∨ (sources id).parent = .unreadable

theorem mem_visited_scanSource (sources : Sources) (id x : SourceId) (k : Walk τ) :
    x ∈ (scanSource w sources id k).2.visited ↔ x = id ∨ x ∈ k.visited := by
  unfold scanSource
  split
  · rename_i hold
    exact ⟨Or.inr, fun h => h.elim (fun h => h ▸ hold) fun h => h⟩
  · split <;> exact List.mem_cons

theorem unreadable_of_scanSource {sources : Sources} {id : SourceId} {k : Walk τ}
    {f : Resolution.Fault} (h : (scanSource w sources id k).1 = .error f) :
    (sources id).offer = .unreadable := by
  unfold scanSource at h
  split at h
  · cases h
  · split at h
    · cases h
    · assumption
    · cases h
    · cases h

/-- A chain asks the sources in its first places: in as many as it has fuel for, or up
    to one that cannot be asked. -/
theorem mem_visited_scanChainFrom (sources : Sources) (fuel : Nat) (t : RecordSet)
    (start : Option SourceId) (k : Walk τ) :
    ∃ places ≤ fuel,
      (∀ x, x ∈ (scanChainFrom w sources fuel t start k).2.visited ↔
        x ∈ k.visited ∨ Within sources start places x) ∧
      (∀ s, (scanChainFrom w sources fuel t start k).1 = .ok s → places = fuel) ∧
      ∀ f, (scanChainFrom w sources fuel t start k).1 = .error f →
        ∃ n id, places = n + 1 ∧ ancestor sources n start = some id ∧ Unreadable sources id := by
  induction fuel generalizing t start k with
  | zero =>
      have hnone : ∀ x, x ∈ k.visited ↔ x ∈ k.visited ∨ Within sources start 0 x :=
        fun x => (or_iff_left (not_within_zero sources start x)).symm
      cases start with
      | none => exact ⟨0, Nat.le_refl 0, hnone, fun _ _ => rfl, fun _ hf => by cases hf⟩
      | some id => exact ⟨0, Nat.le_refl 0, hnone, fun _ _ => rfl, fun _ hf => by cases hf⟩
  | succ fuel ih =>
      cases start with
      | none =>
          refine ⟨fuel + 1, Nat.le_refl _, fun x => (or_iff_left ?_).symm, fun _ _ => rfl,
            fun _ hf => by cases hf⟩
          exact (not_exists_ancestor_none sources _ x).mp
      | some id =>
          have hhere := mem_visited_scanSource (w := w) sources id (k := k)
          -- The first place alone, if the chain goes no farther.
          have hone : ∀ x, x ∈ (scanSource w sources id k).2.visited ↔
              x ∈ k.visited ∨ Within sources (some id) 1 x := by
            intro x
            rw [hhere, within_succ_some_iff, or_comm]
            exact or_congr_right (or_iff_left (not_within_zero sources _ x)).symm
          rw [scanChainFrom]
          rcases hscan : scanSource w sources id k with ⟨f | more, k'⟩
          · rw [hscan] at hone
            refine ⟨1, Nat.succ_le_succ (Nat.zero_le _), hone, fun _ hs => ?_, fun _ _ => ?_⟩
            · cases hs
            · exact ⟨0, id, rfl, rfl, Or.inl (unreadable_of_scanSource (congrArg Prod.fst hscan))⟩
          · rw [hscan] at hone hhere
            dsimp only
            cases hparent : (sources id).parent with
            | unreadable =>
                refine ⟨1, Nat.succ_le_succ (Nat.zero_le _), hone, fun _ hs => ?_, fun _ _ => ?_⟩
                · cases hs
                · exact ⟨0, id, rfl, rfl, Or.inr hparent⟩
            | root =>
                refine ⟨fuel + 1, Nat.le_refl _, fun x => ?_, fun _ _ => rfl,
                  fun _ hf => by cases hf⟩
                have hnone : parentOf sources id = none := by rw [parentOf, hparent]
                rw [hhere, within_succ_some_iff, hnone, or_comm]
                exact or_congr_right (or_iff_left (not_exists_ancestor_none sources _ x).mp).symm
            | parent next =>
                have hsome : parentOf sources id = some next := by rw [parentOf, hparent]
                rcases ih (t.union more) (some next) k' with ⟨places, hle, hmem, hok, hfault⟩
                refine ⟨places + 1, Nat.succ_le_succ hle, fun x => ?_,
                  fun s hs => congrArg (· + 1) (hok s hs), fun f hf => ?_⟩
                · rw [hmem, hhere, within_succ_some_iff, hsome, or_comm (a := x = id), or_assoc]
                · rcases hfault f hf with ⟨n, y, rfl, hy, hunreadable⟩
                  refine ⟨n + 1, y, rfl, ?_, hunreadable⟩
                  rw [← hsome] at hy
                  exact hy

/-- A first scan of a chain warns if it gives an answer and leaves the chain before its
    end. It has left out a source then exactly if the chain has not closed in a circle
    by that time, and this is when the warning tells whether a source was left out.
    Where it gives no answer, it does not warn, and what is left out are the parents of
    the source that could not be asked, unless they were asked before. -/
theorem scanChain_warns (w : Site τ) (sources : Sources) (start : Option SourceId)
    (m : Memory τ) :
    ((scanChain w sources start { memory := m }).2.memory.truncations = m.truncations +
        if (scanChain w sources start { memory := m }).1.isOk &&
          (ancestor sources longestChain start).isSome then 1 else 0) ∧
      (∀ s, (scanChain w sources start { memory := m }).1 = .ok s →
        (LeavesOut sources start (scanChain w sources start { memory := m }).2.visited ↔
          ∃ id, ancestor sources longestChain start = some id ∧
            ¬Within sources start longestChain id) ∧
        ((Warns m (scanChain w sources start { memory := m }).2.memory ↔
            LeavesOut sources start (scanChain w sources start { memory := m }).2.visited) ↔
          ¬Recurs sources start longestChain)) ∧
      ∀ f, (scanChain w sources start { memory := m }).1 = .error f →
        ∃ n < longestChain, ∃ id, ancestor sources n start = some id ∧ Unreadable sources id ∧
          (LeavesOut sources start (scanChain w sources start { memory := m }).2.visited ↔
            ∃ next, parentOf sources id = some next ∧ ¬Within sources start (n + 1) next) := by
  have hcount := truncations_scanChainFrom (w := w) sources longestChain [] start { memory := m }
  rcases mem_visited_scanChainFrom (w := w) sources longestChain [] start { memory := m }
    with ⟨places, hle, hmem, hok, hfault⟩
  have hout := leavesOut_iff fun id => (hmem id).trans (or_iff_right List.not_mem_nil)
  refine ⟨hcount, fun s hs => ?_, fun f hf => ?_⟩
  · obtain rfl := hok s hs
    have hwarns : Warns m (scanChain w sources start { memory := m }).2.memory ↔
        ∃ id, ancestor sources longestChain start = some id := by
      rw [show (scanChainFrom w sources longestChain [] start { memory := m }).1 = .ok s from hs]
        at hcount
      rw [Warns, scanChain, hcount]
      cases ancestor sources longestChain start <;> simp [Except.isOk, Except.toBool]
    refine ⟨hout, ?_⟩
    rw [hwarns, scanChain, hout]
    constructor
    · rintro hiff ⟨id, hid, hnear⟩
      rcases hiff.mp ⟨id, hid⟩ with ⟨x, hx, hnot⟩
      rw [hid, Option.some.injEq] at hx
      exact hnot (hx ▸ hnear)
    · exact fun hnot => ⟨fun ⟨id, hid⟩ => ⟨id, hid, fun hnear => hnot ⟨id, hid, hnear⟩⟩,
        fun ⟨id, hid, _⟩ => ⟨id, hid⟩⟩
  · rcases hfault f hf with ⟨n, id, rfl, hid, hunreadable⟩
    refine ⟨n, hle, id, hid, hunreadable, hout.trans ?_⟩
    rw [ancestor_add, hid]
    rfl

/-- Two sources, each the parent of the other. -/
def facing : Sources
  | 0 => { parent := .parent 1 }
  | 1 => { parent := .parent 0 }
  | _ => {}

/-- A circle of two sources is asked as a whole, and the scan warns. -/
theorem not_forall_warns :
    ¬∀ (w : Site Nat) (sources : Sources) (start : Option SourceId) (m : Memory Nat),
      Warns m (scanChain w sources start { memory := m }).2.memory ↔
        LeavesOut sources start (scanChain w sources start { memory := m }).2.visited := by
  intro h
  have hwarns : Warns (.empty 0 1)
      (scanChain nestingSite facing (some 0) { memory := .empty 0 1 }).2.memory := by
    unfold Warns
    decide +kernel
  rcases (h nestingSite facing (some 0) (.empty 0 1)).mp hwarns with ⟨n, id, hid, hnot⟩
  have hvisited : (scanChain nestingSite facing (some 0) { memory := .empty 0 1 }).2.visited =
      [1, 0] := by
    decide +kernel
  have hwithin : Within facing (some 0) 2 id := within_of_recurs ⟨0, rfl, 0, by decide, rfl⟩ hid
  rcases hwithin with ⟨m, hm, hidm⟩
  rw [hvisited] at hnot
  match m, hm with
  | 0, _ => exact hnot (Option.some.inj hidm ▸ by decide)
  | 1, _ => exact hnot (Option.some.inj hidm ▸ by decide)

end Chains

end Survey

end ArchiveCensus
