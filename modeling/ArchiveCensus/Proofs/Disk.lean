import ArchiveCensus.Disk.Search
import ArchiveCensus.Proofs.Path

/-!
# What a Disk Lists, and Where Absolute Paths Lead

A file may be asked for by a path from the current directory or from the root.
The two are not the same question: the path from the root is longer, so it may
be too long where the other is not, and the walk along it goes through the
directories above the current one. What holds is one direction, and it is enough
for remembering a file under its absolute path: a path leads wherever the same
path from the root leads.

For this the current directory has to be written as the disk lists it, and
without double dots. `Sound` says so, and also that the places of nodes consist
of names, so that what a search finds is a path that can be written and read
back. Every disk that is made by putting nodes at named places is sound.

## Main definitions

* `Disk.IsListed`: A name as disks list it.
* `Disk.Sound`: The places on a disk consist of names.

## Theorems

* `sound_put`: Putting a node somewhere keeps a disk sound.
* `find_of_absolute`, `fileAt_of_absolute`: A path leads where the path from the
  root leads.
* `named_of_mem_hits`: What a search finds are named paths.
-/

namespace ArchiveCensus

namespace Path

theorem exists_encode_of_append {a b : Text} {bytes : List UInt8}
    (h : encode? (a ++ b) = some bytes) :
    ∃ x y, encode? a = some x ∧ encode? b = some y ∧ bytes = x ++ y := by
  induction a generalizing bytes with
  | nil => exact ⟨[], bytes, rfl, h, rfl⟩
  | cons c cs ih =>
      rw [List.cons_append, encode?] at h
      cases hc : diskBytes? c with
      | none =>
          rw [hc] at h
          exact absurd h (by simp only [reduceCtorEq, not_false_eq_true])
      | some first =>
          cases hcs : encode? (cs ++ b) with
          | none =>
              rw [hc, hcs] at h
              exact absurd h (by simp only [reduceCtorEq, not_false_eq_true])
          | some more =>
              rw [hc, hcs] at h
              rcases ih hcs with ⟨x, y, hx, hy, hmore⟩
              refine ⟨first ++ x, y, by rw [encode?, hc, hx], hy, ?_⟩
              rw [← Option.some.inj h, hmore, List.append_assoc]

/-- The writing of a path from a directory ends with the writing of the path. -/
theorem exists_toText_absolute {base p : Path} (h : ¬ p.IsAbsolute) (hp : p.parts ≠ []) :
    ∃ front, (absolute base p).toText = front ++ p.toText := by
  have hanchor : p.anchor = .here := not_not.mp h
  have hne : p ≠ current := fun h' => hp (by rw [h', current])
  have habs : absolute base p = ⟨base.anchor, base.parts ++ p.parts⟩ := by
    rw [absolute, hanchor]
  have hlong : absolute base p ≠ current := by
    rw [habs]
    exact fun h' => List.append_ne_nil_of_right_ne_nil _ hp (congrArg Path.parts h')
  rcases Text.exists_joinWith_append "/" base.parts hp with ⟨t, ht⟩
  refine ⟨base.anchor.slashes ++ t, ?_⟩
  rw [toText_eq hlong, toText_eq hne, habs, hanchor, ht]
  exact (List.append_assoc _ _ _).symm

end Path

namespace Disk

/-- A name as disks list it: not the way up, and spelled as it is stored. -/
structure IsListed (c : Text) : Prop extends Path.IsName c where
  ne_up : c ≠ Text.ofString ".."
  onDisk_eq : Path.onDisk c = c

/-- The places on the disk consist of names, and the current directory of names
    as they are listed. -/
structure Sound (d : Disk) : Prop where
  nodes : ∀ x ∈ d.nodes, ∀ c ∈ x.1, Path.IsName c
  current : ∀ c ∈ d.current, IsListed c

variable {d : Disk} {p : Path}

/-- Putting a node somewhere brings no components but those of its place. -/
theorem forall_nodes_put {P : Text → Prop} (h : ∀ x ∈ d.nodes, ∀ c ∈ x.1, P c) {place : List Text}
    (hp : ∀ c ∈ place, P c) (n : Node) : ∀ x ∈ (d.put place n).nodes, ∀ c ∈ x.1, P c := by
  intro x hx c hc
  rcases List.mem_append.mp hx with hx | hx
  · rcases List.mem_append.mp hx with hx | hx
    · exact h x (List.mem_filter.mp hx).1 c hc
    · -- A directory on the way.
      rcases List.mem_map.mp hx with ⟨way, hway, rfl⟩
      rcases List.mem_map.mp (List.mem_filter.mp hway).1 with ⟨i, _, rfl⟩
      exact hp c (List.mem_of_mem_take hc)
  · rw [List.mem_singleton.mp hx] at hc
    exact hp c hc

/-- Putting a node somewhere keeps a disk sound. -/
theorem sound_put (h : d.Sound) {place : List Text} (hp : ∀ c ∈ place, Path.IsName c) (n : Node) :
    (d.put place n).Sound :=
  ⟨forall_nodes_put h.nodes hp n, h.current⟩

theorem Sound.named_base (h : d.Sound) : d.base.Named :=
  fun c hc => (h.current c hc).toIsName

theorem isAbsolute_base : d.base.IsAbsolute :=
  Anchor.noConfusion

theorem Sound.named_absolute (h : d.Sound) (hp : p.Named) : (d.absolute p).Named :=
  Path.named_absolute h.named_base hp

/-- The walk that goes on from listed names is the walk from where they lead. -/
theorem walk_append {front back place : List Text} {x : List Text × Node}
    (hfront : ∀ c ∈ front, IsListed c) (h : d.walk place (front ++ back) = .ok (some x)) :
    d.walk (place ++ front) back = .ok (some x) := by
  -- A listed name is no step upwards and no other spelling of a name, so the place
  -- that is reached is the place with the names behind it.
  induction front generalizing place with
  | nil =>
      rw [List.append_nil]
      exact h
  | cons c rest ih =>
      have hc := hfront c List.mem_cons_self
      rw [List.cons_append, walk] at h
      split at h
      · rw [if_neg hc.ne_up, hc.onDisk_eq] at h
        split at h
        · exact absurd h (by simp only [reduceCtorEq, not_false_eq_true])
        · have hrest := ih (fun c' hc' => hfront c' (List.mem_cons_of_mem _ hc')) h
          rw [List.append_assoc, List.singleton_append] at hrest
          exact hrest
      · exact absurd h (by simp only [Except.ok.injEq, reduceCtorEq, not_false_eq_true])

theorem find_eq_some_iff {x : List Text × Node} :
    d.find p = .ok (some x) ↔
      ∃ bytes, Path.encode? p.toText = some bytes ∧ bytes.contains 0 = false ∧
        bytes.length ≤ longestPath ∧ d.walk (d.startOf p) p.parts = .ok (some x) := by
  unfold find
  cases Path.encode? p.toText with
  | none => simp only [Except.ok.injEq, reduceCtorEq, false_and, exists_false]
  | some bytes =>
      simp only [Option.some.injEq, exists_eq_left']
      cases hz : bytes.contains 0 with
      | true => simp only [if_true, Except.ok.injEq, reduceCtorEq, false_and]
      | false =>
          by_cases hlen : bytes.length > longestPath
          · rw [if_neg Bool.false_ne_true, if_pos hlen]
            simp only [reduceCtorEq, true_and, false_iff, not_and]
            exact fun h => absurd h (Nat.not_le.mpr hlen)
          · rw [if_neg Bool.false_ne_true, if_neg hlen]
            simp only [true_and, Nat.not_lt.mp hlen]

/-- A path leads wherever the same path from the root leads. -/
theorem find_of_absolute (hd : d.Sound) {x : List Text × Node}
    (h : d.find (d.absolute p) = .ok (some x)) : d.find p = .ok (some x) := by
  by_cases hp : p.IsAbsolute
  · rwa [absolute, Path.absolute_of_isAbsolute hp] at h
  · have hanchor : p.anchor = .here := not_not.mp hp
    have habs : d.absolute p = ⟨.root, d.current ++ p.parts⟩ := by
      rw [absolute, Path.absolute, hanchor]
      rfl
    have hstart : d.startOf p = [] ++ d.current := by
      rw [startOf, hanchor, List.nil_append]
    rcases find_eq_some_iff.mp h with ⟨bytes, henc, hzero, hlen, hwalk⟩
    have hwalk : d.walk [] (d.current ++ p.parts) = .ok (some x) := by
      rw [habs] at hwalk
      exact hwalk
    have hrest := walk_append hd.current hwalk
    rw [← hstart] at hrest
    by_cases hparts : p.parts = []
    · -- The current directory is written as a dot, whatever it is.
      have hcur : p = Path.current := (Path.mk.injEq ..).mpr ⟨hanchor, hparts⟩
      refine find_eq_some_iff.mpr ⟨[0x2E], ?_, rfl, by decide, hrest⟩
      rw [hcur]
      decide
    · -- Otherwise the path is the end of the longer text, and so its bytes are among
      -- those: no zero and no more than the limit.
      rcases Path.exists_toText_absolute hp hparts with ⟨front, hfront⟩
      rw [absolute, hfront] at henc
      rcases Path.exists_encode_of_append henc with ⟨a, b, _, hb, hab⟩
      refine find_eq_some_iff.mpr ⟨b, hb, ?_, ?_, hrest⟩
      · rw [hab, List.contains_eq_mem, decide_eq_false_iff_not, List.mem_append, not_or] at hzero
        rw [List.contains_eq_mem, decide_eq_false_iff_not]
        exact hzero.2
      · rw [hab, List.length_append] at hlen
        omega

theorem fileAt_eq_some_iff {bytes : ByteArray} :
    d.fileAt p = .ok (some bytes) ↔ ∃ place, d.find p = .ok (some (place, .file bytes)) := by
  unfold fileAt
  rcases d.find p with f | _ | ⟨place, content | _⟩
  · simp only [Except.map, reduceCtorEq, exists_false]
  · simp only [Except.map, Except.ok.injEq, reduceCtorEq, exists_false]
  · simp only [Except.map, Except.ok.injEq, Option.some.injEq, Prod.mk.injEq, Node.file.injEq,
      exists_eq_left']
  · simp only [Except.map, Except.ok.injEq, reduceCtorEq, Option.some.injEq, Prod.mk.injEq,
      and_false, exists_false]

theorem fileAt_of_absolute (hd : d.Sound) {bytes : ByteArray}
    (h : d.fileAt (d.absolute p) = .ok (some bytes)) : d.fileAt p = .ok (some bytes) := by
  rcases fileAt_eq_some_iff.mp h with ⟨place, hplace⟩
  exact fileAt_eq_some_iff.mpr ⟨place, find_of_absolute hd hplace⟩

/-- A stage of a search that asks for a name, if it asks for a text at all. -/
def Stage.Named : Stage → Prop
  | .named t => Path.IsName t
  | _ => True

theorem Stage.named_of_ofText {t : Text} (ht : Path.IsName t) {s : Stage}
    (h : Stage.ofText? t = some s) : s.Named := by
  unfold Stage.ofText? at h
  split at h
  · rw [← Option.some.inj h]
    trivial
  · split at h
    · exact absurd h (by simp only [reduceCtorEq, not_false_eq_true])
    · split at h
      · rw [← Option.some.inj h]
        trivial
      · rw [← Option.some.inj h]
        exact ht

-- Each stage is read from one of the components.
theorem Stage.named_of_mapM {texts : List Text} (ht : ∀ t ∈ texts, Path.IsName t)
    {stages : List Stage} (h : texts.mapM Stage.ofText? = some stages) : ∀ s ∈ stages, s.Named := by
  induction texts generalizing stages with
  | nil =>
      rw [List.mapM_nil, Option.pure_def, Option.some.injEq] at h
      rw [← h]
      exact fun _ hs => absurd hs List.not_mem_nil
  | cons t rest ih =>
      rw [List.mapM_cons] at h
      simp only [Option.pure_def, Option.bind_eq_bind, Option.bind_eq_some_iff,
        Option.some.injEq] at h
      rcases h with ⟨first, hfirst, more, hmore, rfl⟩
      intro s hs
      rcases List.mem_cons.mp hs with rfl | hs
      · exact named_of_ofText (ht t List.mem_cons_self) hfirst
      · exact ih (fun t' ht' => ht t' (List.mem_cons_of_mem _ ht')) hmore s hs

theorem Ending.named_of_ofText {t : Text} {e : Ending} (h : Ending.ofText? t = some e) :
    ∀ s ∈ e.stages, s.Named := by
  rcases Option.map_eq_some_iff.mp h with ⟨stages, hstages, rfl⟩
  exact Stage.named_of_mapM (fun _ hc => Path.isName_of_mem_components hc) hstages

theorem isName_of_mem_below (hd : d.Sound) {place : List Text} {x : List Text × Node}
    (h : x ∈ d.below place) : ∀ c ∈ x.1, Path.IsName c := by
  rcases List.mem_filterMap.mp h with ⟨n, hn, hx⟩
  split at hx
  · rw [← Option.some.inj hx]
    exact fun c hc => hd.nodes n hn c (List.mem_of_mem_drop hc)
  · exact absurd hx (by simp only [reduceCtorEq, not_false_eq_true])

-- A name that is looked for is one of the pattern's, not one that the disk lists.
theorem named_of_namedChild {s : Spot} (hs : s.path.Named) {name : Text} (hname : Path.IsName name)
    {only : Bool} {next : List Spot} (h : d.namedChild s name only = .ok next) :
    ∀ t ∈ next, t.path.Named := by
  intro t ht
  simp only [namedChild] at h
  rcases hfind : d.find (s.path.child name) with f | _ | ⟨place, n⟩
  · rw [hfind] at h
    exact absurd h (by simp only [Except.map, reduceCtorEq, not_false_eq_true])
  · rw [hfind] at h
    rw [← Except.ok.inj h] at ht
    exact absurd ht List.not_mem_nil
  · rw [hfind] at h
    rw [← Except.ok.inj h] at ht
    simp only at ht
    split at ht
    · rw [List.mem_singleton.mp ht]
      exact Path.named_child hs hname
    · exact absurd ht List.not_mem_nil

theorem named_of_advance (hd : d.Sound) {only : Bool} {s : Spot} (hs : s.path.Named)
    {stage : Stage} (hstage : stage.Named) {next : List Spot}
    (h : d.advance only s stage = .ok next) : ∀ t ∈ next, t.path.Named := by
  intro t ht
  cases stage with
  | anyDepth =>
      -- The spot itself, and every directory below it.
      rw [← Except.ok.inj h] at ht
      rcases List.mem_cons.mp ht with rfl | ht
      · exact hs
      · rcases List.mem_map.mp ht with ⟨x, hx, rfl⟩
        exact Path.named_append hs (isName_of_mem_below hd (List.mem_filter.mp hx).1)
  | fitting p =>
      rw [← Except.ok.inj h] at ht
      rcases List.mem_filterMap.mp ht with ⟨x, hx, htx⟩
      have hnames := isName_of_mem_below hd hx
      split at htx
      · rename_i name hname
        split at htx
        · rw [← Option.some.inj htx]
          exact Path.named_append hs (hname ▸ hnames)
        · exact absurd htx (by simp only [reduceCtorEq, not_false_eq_true])
      · exact absurd htx (by simp only [reduceCtorEq, not_false_eq_true])
  | named name => exact named_of_namedChild hs hstage h t ht

theorem named_of_reach (hd : d.Sound) {only : Bool} {stages : List Stage}
    (hstages : ∀ t ∈ stages, t.Named) {s : Spot} (hs : s.path.Named) {found : List Path}
    (h : d.reach only stages s = .ok found) : ∀ q ∈ found, q.Named := by
  induction stages generalizing s found with
  | nil =>
      rw [← Except.ok.inj h]
      exact fun q hq => List.mem_singleton.mp hq ▸ hs
  | cons stage rest ih =>
      intro q hq
      rw [reach] at h
      cases hnext : d.advance (only || !rest.isEmpty) s stage with
      | error f =>
          rw [hnext] at h
          exact absurd h (by simp only [reduceCtorEq, not_false_eq_true])
      | ok next =>
          rw [hnext] at h
          rcases (mem_of_gather h q).mp hq with ⟨t, ht, here, hhere, hq⟩
          have htn := named_of_advance hd hs (hstages stage List.mem_cons_self) hnext t ht
          exact ih (fun t' ht' => hstages t' (List.mem_cons_of_mem _ ht')) htn hhere q hq

/-- What a search finds below a named path are named paths. -/
theorem named_of_mem_hits (hd : d.Sound) (hp : p.Named) {place : List Text} {e : Ending}
    (he : ∀ s ∈ e.stages, s.Named) {found : List Path} (h : d.hits? p place e = .ok found) :
    ∀ q ∈ found, q.Named := by
  unfold hits? at h
  cases hreach : d.reach e.directoriesOnly (.anyDepth :: e.stages) ⟨p, place⟩ with
  | error f =>
      rw [hreach] at h
      exact absurd h (by simp only [Except.map, reduceCtorEq, not_false_eq_true])
  | ok all =>
      rw [hreach] at h
      rw [← Except.ok.inj h]
      intro q hq
      rw [List.mem_mergeSort, List.mem_eraseDups] at hq
      refine named_of_reach hd (fun s hs => ?_) hp hreach q hq
      rcases List.mem_cons.mp hs with rfl | hs
      · trivial
      · exact he s hs

end Disk

end ArchiveCensus
