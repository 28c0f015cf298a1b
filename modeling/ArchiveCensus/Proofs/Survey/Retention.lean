import ArchiveCensus.Proofs.Survey.Round

/-!
# What a Scan Still Remembers

An entry is lost in two ways: it expires, or it has to make room. If the clock
does not get that far while a scan goes on, and there is room for all the keys
that come up, then nothing is lost, and in the end every answer of the scan is
still remembered under its key. So no key can have had two different answers.

The keys that come up are bounded by a set `all`, which is fixed beforehand. A
new key that belongs to it finds room, since the keys of the store are some of
the others.

## Main definitions

* `Genuine`: Everything remembered is what its key leads to on this disk.
* `Retaining`: Nothing is going to be lost before a reading.

## Theorems

* `trail_genuine`: An answer is what its key leads to.
* `trail_retaining`: Every answer is remembered in the end.
-/

namespace ArchiveCensus

namespace Survey

section Genuine

variable {τ : Type}

/-- No key stands twice, and everything remembered is what its key leads to on
    this disk. -/
structure Genuine (w : Surroundings) (m : Memory τ) : Prop where
  distinct : m.store.Distinct
  entries : ∀ e ∈ m.store.entries, ∃ n, recordAt w n e.key = some e.value

theorem genuine_empty (w : Surroundings) (lifetime : τ) (capacity : Nat) :
    Genuine w (Memory.empty lifetime capacity) :=
  ⟨List.nodup_nil, fun _ h => absurd h List.not_mem_nil⟩

variable [LT τ] [DecidableRel (α := τ) (· < ·)] {w : Site τ} {m m' : Memory τ}

theorem Genuine.of_read (h : Genuine w.toSurroundings m) {key : Text} {now : τ}
    (hstore : m'.store = (m.store.read key now).2) : Genuine w.toSurroundings m' := by
  refine ⟨?_, fun e he => h.entries e ?_⟩
  · rw [hstore]
    exact ExpiringStore.distinct_read h.distinct
  · rw [hstore] at he
    exact (ExpiringStore.sublist_read _ _ _).subset he

variable [Add τ]

/-- One lead keeps the memory genuine, and its answer is what its key leads to. -/
theorem followed_genuine (h : Genuine w.toSurroundings m) {key : Option Text}
    {answer : Option Record} (hfollow : Followed w m key answer m') :
    Genuine w.toSurroundings m' ∧
      ∀ r, answer = some r → ∃ k n, key = some k ∧ recordAt w.toSurroundings n k = some r := by
  cases hfollow with
  | nowhere hstore _ _ =>
      refine ⟨⟨hstore ▸ h.distinct, hstore ▸ h.entries⟩, fun r hr => ?_⟩
      exact absurd hr (by simp only [reduceCtorEq, not_false_eq_true])
  | @known k r _ hkey hread hstore _ _ =>
      refine ⟨h.of_read hstore, fun r' hr => ?_⟩
      rcases ExpiringStore.entry?_of_read hread with ⟨e, hentry, _, hvalue⟩
      rcases ExpiringStore.mem_of_entry_eq hentry with ⟨hmem, rfl⟩
      rcases h.entries e hmem with ⟨n, hn⟩
      exact ⟨e.key, n, hkey, hn.trans ((congrArg some hvalue).trans hr)⟩
  | vain _ _ hstore _ _ =>
      refine ⟨h.of_read hstore, fun r hr => ?_⟩
      exact absurd hr (by simp only [reduceCtorEq, not_false_eq_true])
  | @found k r _ hkey _ hrecord hstore _ _ =>
      refine ⟨⟨?_, fun e he => ?_⟩, fun r' hr => ⟨k, m.copies, hkey, hrecord.trans hr⟩⟩
      · rw [hstore]
        exact ExpiringStore.distinct_write (ExpiringStore.distinct_read h.distinct)
      · rw [hstore] at he
        rcases ExpiringStore.mem_write he with rfl | he
        · exact ⟨m.copies, hrecord⟩
        · exact h.entries e ((ExpiringStore.sublist_read _ _ _).subset he)

/-- So do all leads of a trail. -/
theorem trail_genuine (hd : w.disk.Sound) {l : List (Lead × Option Record)}
    (htrail : Trail w m l m') (h : Genuine w.toSurroundings m) :
    Genuine w.toSurroundings m' ∧ ∀ lead r, (lead, some r) ∈ l →
      ∃ k n, lead.key? w.toSurroundings = some k ∧ recordAt w.toSurroundings n k = some r := by
  induction htrail with
  | nil m => exact ⟨h, fun _ _ hmem => absurd hmem List.not_mem_nil⟩
  | say n _ ih => exact ih ⟨h.distinct, h.entries⟩
  | @follow m m' l lead _ ih =>
      rcases followed_genuine h (lead.follow_followed hd m) with ⟨hone, hanswer⟩
      rcases ih hone with ⟨hrest, hanswers⟩
      refine ⟨hrest, fun lead' r hmem => ?_⟩
      rcases List.mem_cons.mp hmem with heq | hmem
      · rcases Prod.mk.inj heq with ⟨rfl, hr⟩
        exact hanswer r hr.symm
      · exact hanswers lead' r hmem

theorem performAll_genuine (hd : w.disk.Sound) (calls : List Call)
    (h : Genuine w.toSurroundings m) : Genuine w.toSurroundings (performAll w calls m).2 := by
  induction calls generalizing m with
  | nil => exact h
  | cons c rest ih =>
      rcases perform_trail hd c m with ⟨l, htrail, _⟩
      exact ih (trail_genuine hd htrail h).1

theorem Followed.readings_le {key : Option Text} {answer : Option Record}
    (h : Followed w m key answer m') : m.readings ≤ m'.readings := by
  cases h with
  | nowhere _ hreadings _ => exact hreadings.ge
  | known _ _ _ hreadings _ => omega
  | vain _ _ _ hreadings _ => exact Nat.le_of_lt hreadings
  | found _ _ _ _ hreadings _ => omega

theorem Trail.readings_le (hd : w.disk.Sound) {l : List (Lead × Option Record)}
    (h : Trail w m l m') : m.readings ≤ m'.readings := by
  induction h with
  | nil m => exact Nat.le_refl _
  | say n _ ih => exact ih
  | @follow m m' l lead _ ih => exact (lead.follow_followed hd m).readings_le.trans ih

end Genuine

section Retaining

variable {τ : Type} [Add τ] [LT τ] {w : Site τ} {m m' : Memory τ} {all : Finset Text}
  {last : Nat}

/-- Nothing that is remembered or going to be will be lost before the reading
    `last`: it will not have expired, and the keys `all` fit in. -/
structure Retaining (w : Site τ) (all : Finset Text) (last : Nat) (m : Memory τ) : Prop where
  genuine : Genuine w.toSurroundings m
  keys : m.store.keys ⊆ all
  room : all.card ≤ m.store.capacity
  old : ∀ e ∈ m.store.entries, ∀ j, m.readings ≤ j → j < last → ¬ e.expires < w.clock j
  new : ∀ i j, m.readings ≤ i → i ≤ j → j < last →
    ¬ w.clock i + m.store.lifetime < w.clock j

theorem Retaining.of_store_eq (h : Retaining w all last m) (hstore : m'.store = m.store)
    (hreadings : m.readings ≤ m'.readings) : Retaining w all last m' where
  genuine := ⟨hstore ▸ h.genuine.distinct, hstore ▸ h.genuine.entries⟩
  keys := hstore ▸ h.keys
  room := hstore ▸ h.room
  old := by
    intro e he j hj
    rw [hstore] at he
    exact h.old e he j (hreadings.trans hj)
  new := by
    intro i j hi
    rw [hstore]
    exact h.new i j (hreadings.trans hi)

variable [DecidableRel (α := τ) (· < ·)]

/-- One lead loses nothing, and its answer is remembered then. -/
theorem followed_retaining (h : Retaining w all last m) {key : Option Text}
    {answer : Option Record} (hfollow : Followed w m key answer m')
    (hall : ∀ k n r, key = some k → recordAt w.toSurroundings n k = some r → k ∈ all)
    (hlast : m'.readings ≤ last) :
    Retaining w all last m' ∧ m.store.entries ⊆ m'.store.entries ∧
      ∀ r, answer = some r → ∃ e ∈ m'.store.entries, key = some e.key ∧ e.value = r := by
  have hgenuine := (followed_genuine h.genuine hfollow).1
  -- What is read has not expired, so reading leaves everything as it is.
  have hunexpired : m.readings < m'.readings →
      ∀ e ∈ m.store.entries, ¬ e.expires < w.clock m.readings := fun hlt e he =>
    h.old e he m.readings (Nat.le_refl _) (hlt.trans_le hlast)
  cases hfollow with
  | nowhere hstore hreadings _ =>
      refine ⟨h.of_store_eq hstore hreadings.ge, hstore ▸ List.Subset.refl _, fun r hr => ?_⟩
      exact absurd hr (by simp only [reduceCtorEq, not_false_eq_true])
  | @known k r _ hkey hread hstore hreadings _ =>
      rw [ExpiringStore.read_snd_of_unexpired (hunexpired (by omega))] at hstore
      refine ⟨h.of_store_eq hstore (by omega), hstore ▸ List.Subset.refl _, fun r' hr => ?_⟩
      rcases ExpiringStore.entry?_of_read hread with ⟨e, hentry, _, hvalue⟩
      rcases ExpiringStore.mem_of_entry_eq hentry with ⟨hmem, rfl⟩
      exact ⟨e, hstore ▸ hmem, hkey, hvalue.trans (Option.some.inj hr)⟩
  | vain _ _ hstore hreadings _ =>
      rw [ExpiringStore.read_snd_of_unexpired (hunexpired hreadings)] at hstore
      refine ⟨h.of_store_eq hstore hreadings.le, hstore ▸ List.Subset.refl _, fun r hr => ?_⟩
      exact absurd hr (by simp only [reduceCtorEq, not_false_eq_true])
  | @found k r _ hkey hread hrecord hstore hreadings _ =>
      have hvalid := hunexpired (by omega)
      have hk : k ∈ all := hall k _ r hkey hrecord
      have hnone := ExpiringStore.entry?_eq_none_of_read hvalid hread
      have hroom := ExpiringStore.hasRoom_of_card h.genuine.distinct h.keys hk h.room
      rw [ExpiringStore.read_snd_of_unexpired hvalid] at hstore
      -- The key is a new one and there is room, so one entry comes and none goes.
      have hmem : ∀ e, e ∈ m'.store.entries ↔
          e = m.store.newEntry k r (w.clock (m.readings + 1)) ∨ e ∈ m.store.entries := by
        intro e
        rw [hstore, ExpiringStore.mem_write_iff_of_hasRoom h.genuine.distinct hroom]
        exact or_congr_right (and_iff_left_of_imp (ExpiringStore.entry?_eq_none_iff.mp hnone e))
      refine ⟨⟨hgenuine, fun x hx => ?_, ?_, fun e he j hj hjlast => ?_,
        fun i j hi hij hjlast => ?_⟩, fun e he => (hmem e).mpr (Or.inr he), fun r' hr => ?_⟩
      · rcases ExpiringStore.mem_keys.mp hx with ⟨e, he, rfl⟩
        rcases (hmem e).mp he with rfl | he
        · exact hk
        · exact h.keys (ExpiringStore.mem_keys.mpr ⟨e, he, rfl⟩)
      · rw [hstore, ExpiringStore.capacity_write]
        exact h.room
      · rcases (hmem e).mp he with rfl | he
        · exact h.new (m.readings + 1) j (Nat.le_succ _) (by omega) hjlast
        · exact h.old e he j (by omega) hjlast
      · rw [hstore, ExpiringStore.lifetime_write]
        exact h.new i j (by omega) hij hjlast
      · exact ⟨_, (hmem _).mpr (Or.inl rfl), hkey, Option.some.inj hr⟩

/-- On a trail nothing is lost, and all its answers are remembered in the end. -/
theorem trail_retaining (hd : w.disk.Sound) {l : List (Lead × Option Record)}
    (htrail : Trail w m l m') (h : Retaining w all last m)
    (hall : ∀ x ∈ l, ∀ k n r, x.1.key? w.toSurroundings = some k →
      recordAt w.toSurroundings n k = some r → k ∈ all)
    (hlast : m'.readings ≤ last) :
    Retaining w all last m' ∧ m.store.entries ⊆ m'.store.entries ∧
      ∀ lead r, (lead, some r) ∈ l →
        ∃ e ∈ m'.store.entries, lead.key? w.toSurroundings = some e.key ∧ e.value = r := by
  -- An answer stays remembered because nothing that comes after it loses an entry.
  induction htrail with
  | nil m =>
      exact ⟨h, List.Subset.refl _, fun _ _ hmem => absurd hmem List.not_mem_nil⟩
  | say n _ ih => exact ih (h.of_store_eq rfl (Nat.le_refl _)) hall hlast
  | @follow m m' l lead htrail ih =>
      have hone := followed_retaining h (lead.follow_followed hd m)
        (hall _ List.mem_cons_self) ((htrail.readings_le hd).trans hlast)
      rcases hone with ⟨hretaining, hkept, hanswer⟩
      rcases ih hretaining (fun x hx => hall x (List.mem_cons_of_mem _ hx)) hlast
        with ⟨hend, hrest, hanswers⟩
      refine ⟨hend, fun e he => hrest (hkept he), fun lead' r hmem => ?_⟩
      rcases List.mem_cons.mp hmem with heq | hmem
      · rcases Prod.mk.inj heq with ⟨rfl, hr⟩
        rcases hanswer r hr.symm with ⟨e, he, hkey, hvalue⟩
        exact ⟨e, hrest he, hkey, hvalue⟩
      · exact hanswers lead' r hmem

end Retaining

end Survey

end ArchiveCensus
