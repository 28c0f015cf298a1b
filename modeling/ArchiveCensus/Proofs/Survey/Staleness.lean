import ArchiveCensus.Proofs.Survey.Round
import Mathlib.Algebra.Order.Group.Int
import Mathlib.Algebra.Order.Group.Unbundled.Basic
import Mathlib.Order.Interval.Set.Defs

/-!
# How Old an Answer May Be

A key is only a path or a URL, so nothing in the memory tells that a file has
changed. What is there in its place is the time of writing: an entry is given as
an answer no later than its lifetime after it was written, and it was written at
once when its record was extracted. So a record that a call gives is at most so
old, whatever has become of the disk in the meantime.

The disk may be a different one for each call, and `disksRead` lists which one it
was at each reading of the clock. That list is the history that the invariant
needs: `Dated` says of each entry at which reading it was written, and that its
record is what its key led to on the disk of that reading. An entry that is
written over, expires or has to make room takes its date along, so nothing is to
be said about the order of such events.

Time is exact and never goes back. Nothing else is asked of it; it may stand
still, and the readings are what tells events apart.

## Main definitions

* `Visit`, `revisit`: A call on the disk of the time, and calls one after the
  other.
* `disksRead`: The disk at each reading of the clock.
* `GivenAt`, `Recent`: What a key led to at some reading, and within the lifetime.
* `Dated`: Every entry tells when its record was extracted.

## Theorems

* `followed_dated`, `trail_dated`: The invariant, for one lead and for all.
* `found_recent`: No answer is older than the lifetime.
-/

namespace ArchiveCensus

namespace Survey

/-- A call, and the disk as it is then. -/
structure Visit where
  disk : Disk
  call : Call

section Runs

variable {τ : Type} [Add τ] [LT τ] [DecidableRel (α := τ) (· < ·)]

/-- What the call looks at. -/
def Visit.site (i : Inspector) (clock : Nat → τ) (v : Visit) : Site τ :=
  { inspector := i, disk := v.disk, clock }

/-- What is remembered after the call. -/
def Visit.after (i : Inspector) (clock : Nat → τ) (v : Visit) (m : Memory τ) : Memory τ :=
  (v.call.perform (v.site i clock) m).2

/-- What is remembered after calls one after the other. -/
def revisit (i : Inspector) (clock : Nat → τ) : List Visit → Memory τ → Memory τ
  | [], m => m
  | v :: rest, m => revisit i clock rest (v.after i clock m)

/-- The disk at each reading of the clock that these calls make. -/
def disksRead (i : Inspector) (clock : Nat → τ) : List Visit → Memory τ → List Disk
  | [], _ => []
  | v :: rest, m =>
    List.replicate ((v.after i clock m).readings - m.readings) v.disk ++
      disksRead i clock rest (v.after i clock m)

theorem disksRead_append (i : Inspector) (clock : Nat → τ) (past more : List Visit)
    (m : Memory τ) :
    disksRead i clock (past ++ more) m =
      disksRead i clock past m ++ disksRead i clock more (revisit i clock past m) := by
  induction past generalizing m with
  | nil => rfl
  | cons v rest ih =>
      rw [List.cons_append, disksRead, ih, disksRead, List.append_assoc]
      rfl

end Runs

/-- The key led to the record at this reading. -/
def GivenAt (i : Inspector) (disks : List Disk) (reading : Nat) (key : Text) (r : Record) : Prop :=
  ∃ d n, disks[reading]? = some d ∧ recordAt ⟨i, d⟩ n key = some r

theorem GivenAt.append {i : Inspector} {disks : List Disk} {k : Nat} {key : Text} {r : Record}
    (h : GivenAt i disks k key r) (more : List Disk) : GivenAt i (disks ++ more) k key r := by
  rcases h with ⟨d, n, hdisk, hr⟩
  refine ⟨d, n, ?_, hr⟩
  rw [List.getElem?_append_left (List.getElem?_eq_some_iff.mp hdisk).1]
  exact hdisk

variable {τ : Type} [AddCommGroup τ]

/-- Every entry tells when its record was extracted, and expires its lifetime
    after that. -/
structure Dated (i : Inspector) (clock : Nat → τ) (span : τ) (disks : List Disk)
    (m : Memory τ) : Prop where
  readings : m.readings = disks.length
  lifetime : m.store.lifetime = span
  entries : ∀ e ∈ m.store.entries, ∃ k, e.expires = clock k + span ∧
    GivenAt i disks k e.key e.value

variable {i : Inspector} {clock : Nat → τ} {lifetime : τ} {disks : List Disk} {m m' : Memory τ}

theorem dated_empty (i : Inspector) (clock : Nat → τ) (lifetime : τ) (capacity : Nat) :
    Dated i clock lifetime [] (Memory.empty lifetime capacity) :=
  ⟨rfl, rfl, fun _ h => absurd h List.not_mem_nil⟩

-- Readings go by, and entries may go, but none comes.
theorem Dated.of_subset (h : Dated i clock lifetime disks m) {n : Nat} (d : Disk)
    (hreadings : m'.readings = m.readings + n) (hlife : m'.store.lifetime = m.store.lifetime)
    (hentries : ∀ e ∈ m'.store.entries, e ∈ m.store.entries) :
    Dated i clock lifetime (disks ++ List.replicate n d) m' := by
  refine ⟨?_, hlife.trans h.lifetime, fun e he => ?_⟩
  · rw [hreadings, h.readings, List.length_append, List.length_replicate]
  · rcases h.entries e (hentries e he) with ⟨k, hexp, hgiven⟩
    exact ⟨k, hexp, hgiven.append _⟩

-- What the disk gives now is there at all readings since then.
theorem Dated.givenAt (h : Dated i clock lifetime disks m) {d : Disk} {serial : Nat} {key : Text}
    {r : Record} (hr : recordAt ⟨i, d⟩ serial key = some r) {n k : Nat} (hk : k < n) :
    GivenAt i (disks ++ List.replicate n d) (m.readings + k) key r := by
  refine ⟨d, serial, ?_, hr⟩
  rw [h.readings, List.getElem?_append_right (Nat.le_add_right _ _), Nat.add_sub_cancel_left,
    List.getElem?_replicate, if_pos hk]

variable [LinearOrder τ]

/-- The key led to the record at a reading that is not later than the reading `t`
    and shows a time of the lifetime before it. -/
def Recent (i : Inspector) (clock : Nat → τ) (lifetime : τ) (disks : List Disk) (t : Nat)
    (key : Text) (r : Record) : Prop :=
  ∃ k ≤ t, clock k ∈ Set.Icc (clock t - lifetime) (clock t) ∧ GivenAt i disks k key r

theorem Recent.append {t : Nat} {key : Text} {r : Record}
    (h : Recent i clock lifetime disks t key r) (more : List Disk) :
    Recent i clock lifetime (disks ++ more) t key r := by
  rcases h with ⟨k, hk, hage, hgiven⟩
  exact ⟨k, hk, hage, hgiven.append more⟩

variable [IsOrderedAddMonoid τ]

/-- What is remembered under a key and has not expired is recent. -/
theorem Dated.recent (hclock : Monotone clock) (h : Dated i clock lifetime disks m) {key : Text}
    {r : Record} (hread : (m.store.read key (clock m.readings)).1 = some r) :
    Recent i clock lifetime disks m.readings key r := by
  rcases ExpiringStore.entry?_of_read hread with ⟨e, hentry, hvalid, rfl⟩
  rcases ExpiringStore.mem_of_entry_eq hentry with ⟨hmem, rfl⟩
  rcases h.entries e hmem with ⟨k, hexp, hgiven⟩
  have hk : k ≤ m.readings := by
    rcases hgiven with ⟨d, _, hdisk, _⟩
    rw [h.readings]
    exact Nat.le_of_lt (List.getElem?_eq_some_iff.mp hdisk).1
  have hage : clock m.readings ≤ clock k + lifetime := by
    rw [← hexp]
    exact not_lt.mp (of_decide_eq_false hvalid)
  exact ⟨k, hk, ⟨sub_le_iff_le_add.mpr hage, hclock hk⟩, hgiven⟩

/-- One lead keeps the memory dated, and its answer is recent at a reading that
    the lead makes. -/
theorem followed_dated (hclock : Monotone clock) (hlife : 0 ≤ lifetime) {w : Site τ}
    (hi : w.inspector = i) (hc : w.clock = clock)
    (h : Dated i clock lifetime disks m) {key : Option Text} {answer : Option Record}
    (hfollow : Followed w m key answer m') :
    ∃ n, m'.readings = m.readings + n ∧
      Dated i clock lifetime (disks ++ List.replicate n w.disk) m' ∧
      ∀ r, answer = some r → ∃ k t, key = some k ∧ m.readings ≤ t ∧ t < m'.readings ∧
        Recent i clock lifetime (disks ++ List.replicate n w.disk) t k r := by
  subst hi hc
  have hkept : ∀ {k : Text} {now : τ} (e), e ∈ (m.store.read k now).2.entries →
      e ∈ m.store.entries := fun e he => (ExpiringStore.sublist_read _ _ _).subset he
  cases hfollow with
  | nowhere hstore hreadings _ =>
      refine ⟨0, hreadings, h.of_subset w.disk hreadings (by rw [hstore]) ?_, ?_⟩
      · rw [hstore]
        exact fun _ he => he
      · exact fun r hr => absurd hr (by simp only [reduceCtorEq, not_false_eq_true])
  | @known k r _ hkey hread hstore hreadings _ =>
      have hdated : Dated w.inspector w.clock lifetime (disks ++ List.replicate 1 w.disk) m' :=
        h.of_subset w.disk hreadings (by rw [hstore, ExpiringStore.lifetime_read])
          (by rw [hstore]; exact hkept)
      refine ⟨1, hreadings, hdated, fun r' hr => ?_⟩
      rw [← Option.some.inj hr]
      -- The answer is as old as its entry, as seen from the reading of the look-up.
      exact ⟨k, m.readings, hkey, Nat.le_refl _, hreadings ▸ Nat.lt_succ_self _,
        (h.recent hclock hread).append _⟩
  | vain _ _ hstore hreadings _ =>
      rcases Nat.exists_eq_add_of_le (Nat.le_of_lt hreadings) with ⟨n, hn⟩
      refine ⟨n, hn, h.of_subset w.disk hn (by rw [hstore, ExpiringStore.lifetime_read]) ?_, ?_⟩
      · rw [hstore]
        exact hkept
      · exact fun r hr => absurd hr (by simp only [reduceCtorEq, not_false_eq_true])
  | @found k r _ hkey _ hrecord hstore hreadings _ =>
      -- Of its two readings the second one dates the entry; the disk is the same at both.
      have hgiven := h.givenAt hrecord (n := 2) (Nat.lt_succ_self 1)
      have hread : (m.store.read k (w.clock m.readings)).2.lifetime = lifetime := by
        rw [ExpiringStore.lifetime_read, h.lifetime]
      refine ⟨2, hreadings, ⟨?_, ?_, fun e he => ?_⟩, fun r' hr => ?_⟩
      · rw [hreadings, h.readings, List.length_append, List.length_replicate]
      · rw [hstore, ExpiringStore.lifetime_write, hread]
      · rw [hstore] at he
        rcases ExpiringStore.mem_write he with rfl | he
        · exact ⟨m.readings + 1, by rw [← hread]; rfl, hgiven⟩
        · rcases h.entries e (hkept e he) with ⟨k, hexp, hold⟩
          exact ⟨k, hexp, hold.append _⟩
      · rw [← Option.some.inj hr]
        refine ⟨k, m.readings + 1, hkey, Nat.le_succ _, hreadings ▸ Nat.lt_succ_self _,
          m.readings + 1, Nat.le_refl _, ⟨sub_le_self _ hlife, le_rfl⟩, hgiven⟩

-- By induction on the trail: each lead adds its readings to the history, and what
-- was recent before stays so, as histories only grow.
theorem trail_dated (hclock : Monotone clock) (hlife : 0 ≤ lifetime) {w : Site τ}
    (hd : w.disk.Sound) (hi : w.inspector = i) (hc : w.clock = clock)
    {l : List (Lead × Option Record)} (htrail : Trail w m l m')
    (h : Dated i clock lifetime disks m) :
    ∃ n, m'.readings = m.readings + n ∧
      Dated i clock lifetime (disks ++ List.replicate n w.disk) m' ∧
      ∀ lead r, (lead, some r) ∈ l → ∃ k t, lead.key? w.toSurroundings = some k ∧
        m.readings ≤ t ∧ t < m'.readings ∧
        Recent i clock lifetime (disks ++ List.replicate n w.disk) t k r := by
  induction htrail generalizing disks with
  | nil m =>
      refine ⟨0, rfl, ?_, fun _ _ hmem => absurd hmem List.not_mem_nil⟩
      rw [List.replicate_zero, List.append_nil]
      exact h
  | say n _ ih => exact ih ⟨h.readings, h.lifetime, h.entries⟩
  | @follow m m' l lead _ ih =>
      rcases followed_dated hclock hlife hi hc h (lead.follow_followed hd m)
        with ⟨n₁, hn₁, hdated₁, hanswer⟩
      rcases ih hdated₁ with ⟨n₂, hn₂, hdated₂, hanswers⟩
      rw [List.append_assoc, List.replicate_append_replicate] at hdated₂ hanswers
      refine ⟨n₁ + n₂, by rw [hn₂, hn₁, Nat.add_assoc], hdated₂, fun lead' r hmem => ?_⟩
      rcases List.mem_cons.mp hmem with heq | hmem
      · rcases Prod.mk.inj heq with ⟨rfl, hr⟩
        rcases hanswer r hr.symm with ⟨k, t, hkey, hfrom, hto, hrecent⟩
        refine ⟨k, t, hkey, hfrom, by omega, ?_⟩
        rw [← List.replicate_append_replicate, ← List.append_assoc]
        exact hrecent.append _
      · rcases hanswers lead' r hmem with ⟨k, t, hkey, hfrom, hto, hrecent⟩
        exact ⟨k, t, hkey, by omega, hto, hrecent⟩

/-- One call keeps the memory dated, and gives nothing but what is recent. -/
theorem after_dated (hclock : Monotone clock) (hlife : 0 ≤ lifetime) {v : Visit}
    (hd : v.disk.Sound) (h : Dated i clock lifetime disks m) :
    Dated i clock lifetime (disks ++ disksRead i clock [v] m) (v.after i clock m) ∧
      ∀ r ∈ v.call.found (v.site i clock) m, ∃ lead key t,
        v.call.Asks (v.site i clock).toSurroundings lead ∧
          lead.key? (v.site i clock).toSurroundings = some key ∧
          m.readings ≤ t ∧ t < (v.after i clock m).readings ∧
          Recent i clock lifetime (disks ++ disksRead i clock [v] m) t key r := by
  rcases perform_trail (w := v.site i clock) hd v.call m with ⟨l, htrail, hasks, hrecords⟩
  rcases trail_dated hclock hlife hd rfl rfl htrail h with ⟨n, hn, hdated, hanswers⟩
  have hread : disksRead i clock [v] m = List.replicate n v.disk := by
    rw [disksRead, disksRead, List.append_nil, Visit.after, hn, Nat.add_sub_cancel_left]
  rw [hread]
  refine ⟨hdated, fun r hr => ?_⟩
  rcases hrecords r hr with ⟨lead, hmem⟩
  rcases hanswers lead r hmem with ⟨key, t, hkey, hfrom, hto, hrecent⟩
  exact ⟨lead, key, t, hasks _ hmem, hkey, hfrom, hto, hrecent⟩

theorem revisit_dated (hclock : Monotone clock) (hlife : 0 ≤ lifetime) {visits : List Visit}
    (hd : ∀ v ∈ visits, v.disk.Sound) (h : Dated i clock lifetime disks m) :
    Dated i clock lifetime (disks ++ disksRead i clock visits m) (revisit i clock visits m) := by
  induction visits generalizing disks m with
  | nil =>
      rw [disksRead, List.append_nil]
      exact h
  | cons v rest ih =>
      have hone := (after_dated hclock hlife (hd v List.mem_cons_self) h).1
      have hrest := ih (fun x hx => hd x (List.mem_cons_of_mem v hx)) hone
      rw [List.append_assoc] at hrest
      rw [show v :: rest = [v] ++ rest from rfl, disksRead_append]
      exact hrest

/-- Whatever becomes of the disk from call to call, a record that a call gives is
    one that the key of something it asks for led to at a reading of the clock no
    more than the lifetime ago. -/
theorem found_recent (i : Inspector) {clock : Nat → τ} (hclock : Monotone clock) {lifetime : τ}
    (hlife : 0 ≤ lifetime) (capacity : Nat) (past : List Visit) (now : Visit)
    (hd : ∀ v ∈ past ++ [now], v.disk.Sound) :
    let m := revisit i clock past (.empty lifetime capacity)
    ∀ r ∈ now.call.found (now.site i clock) m, ∃ lead key t,
      now.call.Asks (now.site i clock).toSurroundings lead ∧
        lead.key? (now.site i clock).toSurroundings = some key ∧
        m.readings ≤ t ∧ t < (now.after i clock m).readings ∧
        Recent i clock lifetime
          (disksRead i clock (past ++ [now]) (.empty lifetime capacity)) t key r := by
  intro m
  have hpast : Dated i clock lifetime (disksRead i clock past (.empty lifetime capacity)) m :=
    revisit_dated hclock hlife (fun v hv => hd v (List.mem_append_left _ hv))
      (dated_empty i clock lifetime capacity)
  rw [disksRead_append]
  exact (after_dated hclock hlife (hd now (List.mem_append_right _ List.mem_cons_self)) hpast).2

/-- The archive and its member are asked for while they are there. -/
def visitsBefore : List Visit :=
  [⟨nestingSite.disk, .url "jar:file:a.jar!/b.jar"⟩, ⟨nestingSite.disk, .paths ["a.jar"]⟩]

/-- Everything is asked for when nothing is there any more. -/
def visitAfter : Visit :=
  ⟨⟨[], ["home"]⟩, .all circleScene⟩

/-- Scanning an empty disk gives the record of the member that was there. -/
theorem found_recent_vanished :
    (∀ j k : Nat, j ≤ k → (j : Int) ≤ k) ∧ (0 : Int) ≤ 100 ∧
      (∀ v ∈ visitsBefore ++ [visitAfter], v.disk.Sound) ∧
      let m := revisit {} (fun n : Nat => (n : Int)) visitsBefore (.empty 100 2)
      let site := visitAfter.site {} fun n : Nat => (n : Int)
      (visitAfter.call.found site m).length = 1 ∧
        ∀ r ∈ visitAfter.call.found site m, ∃ lead key t,
          visitAfter.call.Asks site.toSurroundings lead ∧
            lead.key? site.toSurroundings = some key ∧ m.readings ≤ t ∧
            t < (visitAfter.after {} (fun n : Nat => (n : Int)) m).readings ∧
            Recent {} (fun n : Nat => (n : Int)) 100
              (disksRead {} (fun n : Nat => (n : Int)) (visitsBefore ++ [visitAfter])
                (.empty 100 2)) t key r := by
  have hclock : ∀ j k : Nat, j ≤ k → (j : Int) ≤ k := fun _ _ h => Int.ofNat_le.mpr h
  have hempty : Disk.Sound ⟨[], ["home"]⟩ := by
    refine ⟨fun _ h => absurd h List.not_mem_nil, fun c hc => ?_⟩
    rw [List.mem_singleton.mp hc]
    exact ⟨⟨by decide, by decide, by decide⟩, by decide, by decide⟩
  have hd : ∀ v ∈ visitsBefore ++ [visitAfter], v.disk.Sound := by
    intro v hv
    simp only [visitsBefore, List.cons_append, List.nil_append, List.mem_cons, List.not_mem_nil,
      or_false] at hv
    rcases hv with rfl | rfl | rfl
    · exact sound_nestingSite
    · exact sound_nestingSite
    · exact hempty
  exact ⟨hclock, by decide, hd, by decide +kernel,
    found_recent {} (fun j k h => hclock j k h) (by decide) 2 visitsBefore visitAfter hd⟩

end Survey

end ArchiveCensus
