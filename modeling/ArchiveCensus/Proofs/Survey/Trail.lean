import ArchiveCensus.Proofs.Survey.Resolution
import ArchiveCensus.Survey

/-!
# The Way of a Scan

What happens to the memory of a survey happens one location at a time. A scan is
a way from one memory to another on which locations are looked up or resolved one
after the other, and in between something is said at most. So whatever is to hold
of the memory throughout has to be checked for one location only.

`Followed` says all that one location can do: it may have no key to look under,
be found in the memory, be resolved in vain, or be resolved and remembered.
`Trail` is any number of them, with their answers; lists of items and of path
arguments have one.

A trail speaks of one scan, and so of one disk. What a location has on a disk is
`recordAt`, by the text under which it is remembered; that text is what is left
when the disk is a different one later.

## Main definitions

* `Lead`: What may lead to an archive.
* `recordAt`: The record under a key when nothing is remembered.
* `Followed`: What one lead does to the memory, and its answer.
* `Trail`: Leads that are followed one after the other.
* `Answers`: A record that is an answer on the way.
* `RecordSet.Holds`: A record that is in a set, or is the same as one that is.

## Theorems

* `Lead.follow_followed`: Every lead does one of these things.
* `scanItems_trail`, `scanPathsFrom_trail`: Lists are trails.
-/

namespace ArchiveCensus

namespace Survey

open Surroundings

/-- What may lead to an archive: an item of a list, or a path. -/
inductive Lead where
  | item (x : Option Text)
  | path (p : Path) (named : p.Named)

/-- The text under which an answer is remembered: a nested URL as it is written,
    and the absolute path of any other archive. -/
def Lead.key? (w : Surroundings) : Lead → Option Text
  | .item none => none
  | .item (some u) =>
    if isNestedUrl u then some u
    else
      match w.archivePath? u with
      | .ok (some p) => some (w.disk.absolute p).toText
      | _ => none
  | .path p _ => some (w.disk.absolute p).toText

/-- The record under a key when nothing is remembered, the next scratch copy
    being number `n`. -/
def recordAt (w : Surroundings) (n : Nat) (key : Text) : Option Record :=
  if isNestedUrl key then (w.resolveNested key n).record.toOption.join
  else (w.inspector.inspect w.disk (.parse key)).1

theorem recordAt_of_nested {w : Surroundings} {n : Nat} {key : Text} {r : Record}
    (h : isNestedUrl key = true) :
    recordAt w n key = some r ↔ (w.resolveNested key n).record = .ok (some r) := by
  rw [recordAt, if_pos h]
  rcases (w.resolveNested key n).record with f | _ | s <;>
    simp only [Except.toOption, Option.join_none, Option.join_some, reduceCtorEq,
      Option.some.injEq, Except.ok.injEq]

/-- Under an absolute path stands the record of every path that it is the
    absolute form of. -/
theorem recordAt_absolute {w : Surroundings} (hd : w.disk.Sound) {p : Path} (hp : p.Named)
    (n : Nat) : recordAt w n (w.disk.absolute p).toText = (w.inspector.inspect w.disk p).1 := by
  rw [recordAt, isNestedUrl_toText_absolute, if_neg Bool.false_ne_true,
    Path.parse_toText (hd.named_absolute hp)]
  refine Inspector.inspect_congr hd (Path.absolute_of_isAbsolute ?_)
  exact Path.isAbsolute_absolute Disk.isAbsolute_base p

variable {τ : Type} [Add τ] [LT τ] [DecidableRel (α := τ) (· < ·)]

/-- The answer of a survey to a lead, and what it remembers then. -/
def Lead.follow (w : Site τ) : Lead → Memory τ → Option Record × Memory τ
  | .item x, m => ((scanItem w x m).1.toOption.join, (scanItem w x m).2)
  | .path p _, m => scanFile w p m

/-- What a lead can do, by the key to look under, with its answer and what is
    remembered then. -/
inductive Followed (w : Site τ) (m : Memory τ) (key : Option Text) :
    Option Record → Memory τ → Prop
  /-- It leads to nothing that could be looked up. -/
  | nowhere {m' : Memory τ} (hstore : m'.store = m.store) (hreadings : m'.readings = m.readings)
      (hcopies : m'.copies = m.copies) : Followed w m key none m'
  /-- The answer is remembered. -/
  | known {k : Text} {r : Record} {m' : Memory τ} (hkey : key = some k)
      (hread : (m.store.read k (w.clock m.readings)).1 = some r)
      (hstore : m'.store = (m.store.read k (w.clock m.readings)).2)
      (hreadings : m'.readings = m.readings + 1) (hcopies : m'.copies = m.copies) :
      Followed w m key (some r) m'
  /-- Nothing is remembered, and there is no record. -/
  | vain {k : Text} {m' : Memory τ} (hkey : key = some k)
      (hread : (m.store.read k (w.clock m.readings)).1 = none)
      (hstore : m'.store = (m.store.read k (w.clock m.readings)).2)
      (hreadings : m.readings < m'.readings) (hcopies : m.copies ≤ m'.copies) :
      Followed w m key none m'
  /-- Nothing is remembered, and the record that there is will be. -/
  | found {k : Text} {r : Record} {m' : Memory τ} (hkey : key = some k)
      (hread : (m.store.read k (w.clock m.readings)).1 = none)
      (hrecord : recordAt w.toSurroundings m.copies k = some r)
      (hstore : m'.store =
        (m.store.read k (w.clock m.readings)).2.write k r (w.clock (m.readings + 1)))
      (hreadings : m'.readings = m.readings + 2)
      (hcopies : m'.copies = m.copies + if isNestedUrl k then 1 else 0) :
      Followed w m key (some r) m'

variable {w : Site τ} {m m' m'' : Memory τ}

theorem scanFile_followed (hd : w.disk.Sound) {p : Path} (hp : p.Named) (m : Memory τ) :
    Followed w m (some (w.disk.absolute p).toText) (scanFile w p m).1 (scanFile w p m).2 := by
  have hplain := isNestedUrl_toText_absolute w.toSurroundings p
  simp only [scanFile]
  split
  · rename_i r m₁ hlook
    rw [← congrArg Prod.snd hlook]
    exact .known rfl (congrArg Prod.fst hlook) rfl rfl rfl
  · rename_i m₁ hlook
    have hread : (m.store.read (w.disk.absolute p).toText (w.clock m.readings)).1 = none :=
      congrArg Prod.fst hlook
    obtain rfl : (m.lookUp w.clock (w.disk.absolute p).toText).2 = m₁ := congrArg Prod.snd hlook
    cases hr : (w.inspector.inspect w.disk p).1 with
    | none => exact .vain rfl hread rfl (Nat.lt_add_of_pos_right Nat.two_pos) (Nat.le_refl _)
    | some r =>
        refine .found rfl hread ((recordAt_absolute hd hp _).trans hr) rfl rfl ?_
        rw [hplain]
        rfl

theorem scanNested_followed {u : Text} (hu : isNestedUrl u = true) (m : Memory τ) :
    Followed w m (some u) (scanNested w u m).1.toOption.join (scanNested w u m).2 := by
  simp only [scanNested]
  split
  · rename_i r m₁ hlook
    rw [← congrArg Prod.snd hlook]
    exact .known rfl (congrArg Prod.fst hlook) rfl rfl rfl
  · rename_i m₁ hlook
    have hread : (m.store.read u (w.clock m.readings)).1 = none := congrArg Prod.fst hlook
    obtain rfl : (m.lookUp w.clock u).2 = m₁ := congrArg Prod.snd hlook
    -- A copy may have been made in vain; then it has a number that no record holds.
    split
    · exact .vain rfl hread rfl (Nat.lt_succ_self _) (Nat.le_add_right _ _)
    · exact .vain rfl hread rfl (Nat.lt_succ_self _) (Nat.le_add_right _ _)
    · rename_i r hr
      refine .found rfl hread ((recordAt_of_nested hu).mpr hr) rfl rfl ?_
      rw [hu]
      exact congrArg (m.copies + ·) (of_resolveNested_eq_some hr).2

/-- Every lead does one of these things. -/
theorem Lead.follow_followed (hd : w.disk.Sound) (lead : Lead) (m : Memory τ) :
    Followed w m (lead.key? w.toSurroundings) (lead.follow w m).1 (lead.follow w m).2 := by
  cases lead with
  | path p hp => exact scanFile_followed hd hp m
  | item x =>
      cases x with
      | none => exact .nowhere rfl rfl rfl
      | some u =>
          simp only [follow, scanItem, scanUrl, key?]
          split
          · rename_i hu
            exact scanNested_followed hu m
          · rcases hpath : w.archivePath? u with f | _ | p
            · exact .nowhere rfl rfl rfl
            · exact .nowhere rfl rfl rfl
            · exact scanFile_followed hd (named_of_archivePath hpath) m

/-- The leads that are followed on the way from one memory to another, with their
    answers. -/
inductive Trail (w : Site τ) : Memory τ → List (Lead × Option Record) → Memory τ → Prop
  | nil (m : Memory τ) : Trail w m [] m
  | say {m m' : Memory τ} {l : List (Lead × Option Record)} (n : Notice)
      (h : Trail w (m.say n) l m') : Trail w m l m'
  | follow {m m' : Memory τ} {l : List (Lead × Option Record)} (lead : Lead)
      (h : Trail w (lead.follow w m).2 l m') : Trail w m ((lead, (lead.follow w m).1) :: l) m'

theorem Trail.cons {lead : Lead} {a : Option Record} {l : List (Lead × Option Record)}
    (hlead : lead.follow w m = (a, m')) (h : Trail w m' l m'') :
    Trail w m ((lead, a) :: l) m'' := by
  have hstep : Trail w (lead.follow w m).2 l m'' := by
    rw [hlead]
    exact h
  have hfollow := Trail.follow lead hstep
  rwa [hlead] at hfollow

theorem Trail.append {l l' : List (Lead × Option Record)} (h : Trail w m l m')
    (h' : Trail w m' l' m'') : Trail w m (l ++ l') m'' := by
  induction h with
  | nil m => exact h'
  | say n _ ih => exact .say n (ih h')
  | follow lead _ ih => exact .follow lead (ih h')

theorem Trail.concat_say {l : List (Lead × Option Record)} (h : Trail w m l m') (n : Notice) :
    Trail w m l (m'.say n) := by
  have hsay := h.append (.say n (.nil _))
  rwa [List.append_nil] at hsay

/-- The record is an answer to one of the leads. -/
def Answers (l : List (Lead × Option Record)) (r : Record) : Prop :=
  ∃ lead, (lead, some r) ∈ l

theorem Answers.append_left {l : List (Lead × Option Record)} {r : Record} (h : Answers l r)
    (l' : List (Lead × Option Record)) : Answers (l ++ l') r :=
  h.imp fun _ hmem => List.mem_append_left l' hmem

theorem Answers.append_right {l : List (Lead × Option Record)} {r : Record} (h : Answers l r)
    (l' : List (Lead × Option Record)) : Answers (l' ++ l) r :=
  h.imp fun _ hmem => List.mem_append_right l' hmem

end Survey

namespace RecordSet

theorem mem_of_mem_insert {s : RecordSet} {r x : Record} (h : x ∈ s.insert r) : x ∈ s ∨ x = r := by
  unfold insert at h
  split at h
  · exact Or.inl h
  · exact (List.mem_append.mp h).imp_right List.mem_singleton.mp

theorem mem_of_mem_insertSome {s : RecordSet} {r : Option Record} {x : Record}
    (h : x ∈ s.insertSome r) : x ∈ s ∨ r = some x := by
  cases r with
  | none => exact Or.inl h
  | some r => exact (mem_of_mem_insert h).imp_right fun hx => congrArg some hx.symm

theorem mem_of_mem_union {s t : RecordSet} {x : Record} (h : x ∈ s.union t) : x ∈ s ∨ x ∈ t := by
  unfold union at h
  induction t generalizing s with
  | nil => exact Or.inl h
  | cons r rest ih =>
      rcases ih h with hx | hx
      · exact (mem_of_mem_insert hx).imp_right fun hxr => List.mem_cons.mpr (Or.inl hxr)
      · exact Or.inr (List.mem_cons_of_mem r hx)

/-- The set has the record, or one that is the same. -/
def Holds (s : RecordSet) (r : Record) : Prop :=
  ∃ x ∈ s, x.identity = r.identity

variable {s : RecordSet} {r : Record}

theorem Holds.insert (h : s.Holds r) (x : Record) : (s.insert x).Holds r := by
  rcases h with ⟨y, hy, hid⟩
  unfold RecordSet.insert
  split
  · exact ⟨y, hy, hid⟩
  · exact ⟨y, List.mem_append_left _ hy, hid⟩

theorem holds_insert_self (s : RecordSet) (r : Record) : (s.insert r).Holds r := by
  unfold RecordSet.insert
  split
  · rename_i hany
    rcases List.any_eq_true.mp hany with ⟨y, hy, hid⟩
    exact ⟨y, hy, of_decide_eq_true hid⟩
  · exact ⟨r, List.mem_append_right _ (List.mem_singleton_self r), rfl⟩

theorem Holds.insertSome (h : s.Holds r) (a : Option Record) : (s.insertSome a).Holds r := by
  cases a with
  | none => exact h
  | some x => exact h.insert x

theorem Holds.union_right (h : s.Holds r) (t : RecordSet) : (s.union t).Holds r := by
  unfold RecordSet.union
  induction t generalizing s with
  | nil => exact h
  | cons x rest ih => exact ih (h.insert x)

theorem Holds.union_left {t : RecordSet} (h : t.Holds r) (s : RecordSet) :
    (s.union t).Holds r := by
  rcases h with ⟨y, hy, hid⟩
  induction t generalizing s with
  | nil => exact absurd hy List.not_mem_nil
  | cons x rest ih =>
      rcases List.mem_cons.mp hy with rfl | hy
      · rcases holds_insert_self s y with ⟨z, hz, hzy⟩
        exact Holds.union_right ⟨z, hz, hzy.trans hid⟩ rest
      · exact ih (s.insert x) hy

end RecordSet

namespace Survey

section Lists

variable {τ : Type} [Add τ] [LT τ] [DecidableRel (α := τ) (· < ·)] {w : Site τ}

-- The answer on the trail is what was added to the set, if anything was.
theorem mem_or_answers_cons {s s' : RecordSet} {lead : Lead} {a : Option Record}
    {l : List (Lead × Option Record)} {r : Record} (hs : s' = s.insertSome a)
    (h : r ∈ s' ∨ Answers l r) : r ∈ s ∨ Answers ((lead, a) :: l) r := by
  rcases h with h | h
  · rw [hs] at h
    rcases RecordSet.mem_of_mem_insertSome h with h | rfl
    · exact Or.inl h
    · exact Or.inr ⟨lead, List.mem_cons_self⟩
  · exact Or.inr (h.append_right [(lead, a)])

-- And it was added, or was there already.
theorem holds_or_answers_of_cons {s s' : RecordSet} {lead : Lead} {a : Option Record}
    {l : List (Lead × Option Record)} {r : Record} (hs : s' = s.insertSome a)
    (h : s.Holds r ∨ Answers ((lead, a) :: l) r) : s'.Holds r ∨ Answers l r := by
  rw [hs]
  rcases h with h | ⟨x, hx⟩
  · exact Or.inl (h.insertSome a)
  · rcases List.mem_cons.mp hx with heq | hx
    · obtain rfl : some r = a := congrArg Prod.snd heq
      exact Or.inl (RecordSet.holds_insert_self s r)
    · exact Or.inr ⟨x, hx⟩

theorem scanItems_trail (items : List (Option Text)) (s : RecordSet) (m : Memory τ) :
    ∃ l, Trail w m l (scanItems w s items m).2 ∧ l.map Prod.fst = items.map Lead.item ∧
      (∀ r ∈ (scanItems w s items m).1, r ∈ s ∨ Answers l r) ∧
      ∀ r, s.Holds r ∨ Answers l r → (scanItems w s items m).1.Holds r := by
  induction items generalizing s m with
  | nil => exact ⟨[], .nil m, rfl, fun _ => Or.inl, fun _ h => h.resolve_right fun ⟨_, hx⟩ =>
      List.not_mem_nil hx⟩
  | cons item rest ih =>
      rw [scanItems]
      rcases hscan : scanItem w item m with ⟨f | a, m₁⟩
      · -- A fault adds nothing and is said.
        have hfollow : (Lead.item item).follow w m = (none, m₁) := by
          rw [Lead.follow, hscan]
          rfl
        rcases ih s (m₁.say (.warning "enumerator.url_failed"))
          with ⟨l, htrail, hleads, hrecords, hall⟩
        exact ⟨_, .cons hfollow (.say _ htrail), congrArg (Lead.item item :: ·) hleads,
          fun r hr => mem_or_answers_cons (a := none) rfl (hrecords r hr),
          fun r hr => hall r (holds_or_answers_of_cons rfl hr)⟩
      · have hfollow : (Lead.item item).follow w m = (a, m₁) := by
          rw [Lead.follow, hscan]
          rfl
        rcases ih (s.insertSome a) m₁ with ⟨l, htrail, hleads, hrecords, hall⟩
        exact ⟨_, .cons hfollow htrail, congrArg (Lead.item item :: ·) hleads,
          fun r hr => mem_or_answers_cons rfl (hrecords r hr),
          fun r hr => hall r (holds_or_answers_of_cons rfl hr)⟩

theorem scanFiles_trail {paths : List Path} (hp : ∀ p ∈ paths, p.Named) (s : RecordSet)
    (m : Memory τ) :
    ∃ l, Trail w m l (scanFiles w s paths m).2 ∧
      (∀ x ∈ l, ∃ p ∈ paths, ∃ hp, x.1 = Lead.path p hp) ∧
      ∀ r ∈ (scanFiles w s paths m).1, r ∈ s ∨ Answers l r := by
  induction paths generalizing s m with
  | nil => exact ⟨[], .nil m, fun _ h => absurd h List.not_mem_nil, fun _ => Or.inl⟩
  | cons p rest ih =>
      have hpn := hp p List.mem_cons_self
      rcases ih (fun q hq => hp q (List.mem_cons_of_mem p hq)) (s.insertSome (scanFile w p m).1)
        (scanFile w p m).2 with ⟨l, htrail, hleads, hrecords⟩
      refine ⟨_, Trail.follow (.path p hpn) htrail, fun x hx => ?_,
        fun r hr => mem_or_answers_cons rfl (hrecords r hr)⟩
      rcases List.mem_cons.mp hx with rfl | hx
      · exact ⟨p, List.mem_cons_self, hpn, rfl⟩
      · rcases hleads x hx with ⟨q, hq, hlead⟩
        exact ⟨q, List.mem_cons_of_mem p hq, hlead⟩

theorem scanPathsFrom_trail (hd : w.disk.Sound) (entries : List Text) (s : RecordSet)
    (m : Memory τ) :
    ∃ l, Trail w m l (scanPathsFrom w s entries m).2 ∧
      (∀ x ∈ l, ∃ entry ∈ entries, ∃ p ∈ (w.pathsOf (.parse entry)).1, ∃ hp, x.1 = Lead.path p hp) ∧
      ∀ r ∈ (scanPathsFrom w s entries m).1, r ∈ s ∨ Answers l r := by
  induction entries generalizing s m with
  | nil => exact ⟨[], .nil m, fun _ h => absurd h List.not_mem_nil, fun _ => Or.inl⟩
  | cons entry rest ih =>
      rw [scanPathsFrom]
      rcases hpaths : w.pathsOf (.parse entry) with ⟨paths, fault⟩
      have hnamed : ∀ p ∈ paths, p.Named := by
        intro p hp
        refine Surroundings.named_of_mem_pathsOf hd (Path.named_parse entry) p ?_
        rw [hpaths]
        exact hp
      rcases scanFiles_trail (w := w) hnamed s m with ⟨l₁, htrail₁, hleads₁, hrecords₁⟩
      dsimp only
      -- What is said about a fault makes no difference to the trail.
      obtain ⟨m₁, hm₁, htrail₁⟩ : ∃ m₁, (if fault.isSome = true then
          (scanFiles w s paths m).2.say (.error "enumerator.path_failed")
          else (scanFiles w s paths m).2) = m₁ ∧ Trail w m l₁ m₁ := by
        refine ⟨_, rfl, ?_⟩
        split
        · exact htrail₁.concat_say _
        · exact htrail₁
      rw [hm₁]
      rcases ih (scanFiles w s paths m).1 m₁ with ⟨l₂, htrail₂, hleads₂, hrecords₂⟩
      refine ⟨l₁ ++ l₂, htrail₁.append htrail₂, fun x hx => ?_, fun r hr => ?_⟩
      · rcases List.mem_append.mp hx with hx | hx
        · rcases hleads₁ x hx with ⟨p, hp, hlead⟩
          exact ⟨entry, List.mem_cons_self, p, by rw [hpaths]; exact hp, hlead⟩
        · rcases hleads₂ x hx with ⟨entry', hmem, hlead⟩
          exact ⟨entry', List.mem_cons_of_mem entry hmem, hlead⟩
      · rcases hrecords₂ r hr with hr | hr
        · exact (hrecords₁ r hr).imp_right fun h => h.append_left l₂
        · exact Or.inr (hr.append_right l₁)

end Lists

end Survey

end ArchiveCensus
