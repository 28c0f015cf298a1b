import ArchiveCensus.Proofs.Disk

/-!
# What a Search Finds

A search is made of stages, of a star in a pattern, and of nodes that are sorted and
told apart. For the end of a name that is written without anything wild, all this
comes to one thing: what is found are the nodes whose names end so and that lie in
the directory or in one below it, each by the path that leads to it from where the
search began (`mem_hits_literal`). Such a search never fails.

This speaks of the nodes on the disk. A path leads to the same node by walking, if
the disk spells its names as it lists them: behind a path that leads to a directory
the walk goes on from there (`walk_eq_of_walk`), and it comes to the place of the
node only through directories (`of_walk_listed`).

## Main definitions

* `Disk.Ending.literal`: The end of a pattern with nothing wild in it.
* `Disk.Proper`: All names are spelled as the disk lists them.

## Theorems

* `fits_many_same_iff`: A star and a text fit what ends in the text.
* `mem_hits_literal`: What a search finds.
* `walk_eq_of_walk`, `of_walk_listed`: Where a path behind another one leads.
-/

namespace ArchiveCensus

namespace Pattern

/-- Steps that stand for themselves fit one text only. -/
theorem fits_same_iff {t s : Text} : fits (t.map .same) s = true ↔ s = t := by
  induction t generalizing s with
  | nil => cases s <;> simp [fits]
  | cons d ds ih => cases s <;> simp [fits, ih]

/-- A star fits any beginning. -/
theorem fits_many_iff {steps : Pattern} {s : Text} :
    fits (.many :: steps) s = true ↔ ∃ back, back <:+ s ∧ fits steps back = true := by
  induction s with
  | nil => simp [fits, List.suffix_nil]
  | cons c cs ih =>
      rw [fits, Bool.or_eq_true, ih]
      constructor
      · rintro (h | ⟨back, hback, h⟩)
        · exact ⟨c :: cs, List.suffix_refl _, h⟩
        · exact ⟨back, hback.trans (List.suffix_cons c cs), h⟩
      · rintro ⟨back, hback, h⟩
        rcases List.suffix_cons_iff.mp hback with rfl | hback
        · exact Or.inl h
        · exact Or.inr ⟨back, hback, h⟩

/-- A star and a text fit what ends in the text. -/
theorem fits_many_same_iff {t s : Text} : fits (.many :: t.map .same) s = true ↔ t <:+ s := by
  simp only [fits_many_iff, fits_same_iff, exists_eq_right]

end Pattern

namespace Disk

/-- The end of a pattern that a text denotes if nothing in it is wild, and no slash. -/
def Ending.literal (t : Text) : Ending :=
  { stages := [.fitting (.many :: t.map .same)], directoriesOnly := false }

/-- All names are spelled as the disk lists them, those of nodes as those of the
    current directory. -/
structure Proper (d : Disk) : Prop where
  nodes : ∀ x ∈ d.nodes, ∀ c ∈ x.1, IsListed c
  current : ∀ c ∈ d.current, IsListed c

theorem Proper.sound {d : Disk} (h : d.Proper) : d.Sound :=
  ⟨fun x hx c hc => (h.nodes x hx c hc).toIsName, h.current⟩

/-- Putting a node somewhere keeps a disk proper. -/
theorem Proper.put {d : Disk} (h : d.Proper) {place : List Text} (hp : ∀ c ∈ place, IsListed c)
    (n : Node) : (d.put place n).Proper :=
  ⟨forall_nodes_put h.nodes hp n, h.current⟩

section Search

variable {d : Disk} {p q : Path} {place rel : List Text} {n : Node} {s t : Spot}

theorem mem_below : (rel, n) ∈ d.below place ↔ rel ≠ [] ∧ (place ++ rel, n) ∈ d.nodes := by
  rw [below, List.mem_filterMap]
  constructor
  · rintro ⟨⟨whole, m⟩, hmem, hx⟩
    rw [Option.ite_none_right_eq_some, Bool.and_eq_true, List.isPrefixOf_iff_prefix,
      decide_eq_true_eq] at hx
    rcases hx with ⟨⟨⟨rel', rfl⟩, hlen⟩, hx⟩
    rw [Option.some.injEq, Prod.mk.injEq, List.drop_left] at hx
    rcases hx with ⟨rfl, rfl⟩
    refine ⟨fun h => ?_, hmem⟩
    rw [h, List.append_nil] at hlen
    exact Nat.lt_irrefl _ hlen
  · rintro ⟨hrel, hmem⟩
    refine ⟨_, hmem, ?_⟩
    simp [List.length_pos_iff.mpr hrel]

/-- The directories from a spot are the spot and those below it. -/
theorem mem_directoriesFrom :
    t ∈ d.directoriesFrom s ↔
      ∃ rel, t = s.descend rel ∧ (rel = [] ∨ (s.place ++ rel, .directory) ∈ d.nodes) := by
  have hself : s.descend [] = s := by simp only [Spot.descend, List.append_nil]
  rw [directoriesFrom, List.mem_cons, List.mem_map]
  constructor
  · rintro (rfl | ⟨⟨rel, n⟩, hmem, rfl⟩)
    · exact ⟨[], hself.symm, Or.inl rfl⟩
    · rcases List.mem_filter.mp hmem with ⟨hbelow, hdir⟩
      cases n with
      | file content => cases hdir
      | directory => exact ⟨rel, rfl, Or.inr (mem_below.mp hbelow).2⟩
  · rintro ⟨rel, rfl, hrel⟩
    by_cases hnil : rel = []
    · exact Or.inl (by rw [hnil, hself])
    · have hbelow := mem_below.mpr ⟨hnil, hrel.resolve_left hnil⟩
      exact Or.inr ⟨(rel, .directory), List.mem_filter.mpr ⟨hbelow, rfl⟩, rfl⟩

/-- The children of a spot are the nodes right below it whose names fit. -/
theorem mem_childrenOf {f : Pattern} :
    t ∈ d.childrenOf s f false ↔
      ∃ name n, (s.place ++ [name], n) ∈ d.nodes ∧ f.fits name = true ∧ t = s.descend [name] := by
  rw [childrenOf, List.mem_filterMap]
  constructor
  · rintro ⟨⟨rel, n⟩, hbelow, ht⟩
    match rel, ht with
    | [name], ht =>
      rw [Option.ite_none_right_eq_some, Bool.not_false, Bool.true_or, Bool.and_true] at ht
      exact ⟨name, n, (mem_below.mp hbelow).2, ht.1, (Option.some.inj ht.2).symm⟩
  · rintro ⟨name, n, hmem, hfits, rfl⟩
    refine ⟨([name], n), mem_below.mpr ⟨List.cons_ne_nil _ _, hmem⟩, ?_⟩
    simp [hfits]

theorem gather_eq_ok {α β : Type} {search : α → Except Fault (List β)} {f : α → List β}
    (h : ∀ a, search a = .ok (f a)) (places : List α) :
    gather search places = .ok (places.flatMap f) := by
  induction places with
  | nil => rfl
  | cons a rest ih =>
      rw [gather, h, ih]
      rfl

/-- A search for an end of names that is written out finds the nodes whose names end
    so, in the directory and in those below it. -/
theorem mem_hits_literal (d : Disk) (p : Path) (place : List Text) (t : Text) :
    ∃ hits, d.hits? p place (.literal t) = .ok hits ∧
      ∀ q, q ∈ hits ↔ ∃ rel name n,
        (rel = [] ∨ (place ++ rel, .directory) ∈ d.nodes) ∧
          (place ++ (rel ++ [name]), n) ∈ d.nodes ∧ t <:+ name ∧
          q = { p with parts := p.parts ++ (rel ++ [name]) } := by
  have hlast : ∀ s : Spot, d.reach false [.fitting (.many :: t.map .same)] s =
      .ok ((d.childrenOf s (.many :: t.map .same) false).flatMap fun u => [u.path]) := by
    intro s
    rw [reach]
    exact gather_eq_ok (fun u => rfl) _
  have hreach : d.reach false (.anyDepth :: (Ending.literal t).stages) ⟨p, place⟩ =
      .ok ((d.directoriesFrom ⟨p, place⟩).flatMap fun s =>
        (d.childrenOf s (.many :: t.map .same) false).flatMap fun u => [u.path]) := by
    rw [reach]
    exact gather_eq_ok hlast _
  refine ⟨_, by rw [hits?, show (Ending.literal t).directoriesOnly = false from rfl, hreach]; rfl,
    fun q => ?_⟩
  simp only [List.mem_mergeSort, List.mem_eraseDups, List.mem_flatMap, List.mem_singleton,
    mem_directoriesFrom, mem_childrenOf, Pattern.fits_many_same_iff]
  constructor
  · rintro ⟨_, ⟨rel, rfl, hrel⟩, _, ⟨name, n, hmem, hends, rfl⟩, rfl⟩
    refine ⟨rel, name, n, hrel, ?_, hends, ?_⟩
    · rw [← List.append_assoc]
      exact hmem
    · simp only [Spot.descend, List.append_assoc]
  · rintro ⟨rel, name, n, hrel, hmem, hends, rfl⟩
    rw [← List.append_assoc] at hmem
    refine ⟨_, ⟨rel, rfl, hrel⟩, _, ⟨name, n, hmem, hends, rfl⟩, ?_⟩
    simp only [Spot.descend, List.append_assoc]

end Search

section Walks

variable {d : Disk} {place front back rel : List Text} {name : Text} {n : Node}

/-- Behind a path that leads somewhere the walk goes on from there. -/
theorem walk_eq_of_walk {start : List Text} (h : d.walk start front = .ok (some (place, n)))
    (back : List Text) : d.walk start (front ++ back) = d.walk place back := by
  -- Both walks make the same steps along `front`, and then one of them has arrived.
  induction front generalizing start with
  | nil =>
      rw [walk, Except.ok.injEq, Option.map_eq_some_iff] at h
      rcases h with ⟨_, _, heq⟩
      rw [List.nil_append, (Prod.mk.inj heq).1]
  | cons c rest ih =>
      rw [walk] at h
      rw [List.cons_append, walk]
      -- Steps are made from directories only, upwards or to a name that is not too long.
      rcases hnode : d.nodeAt? start with _ | content | _
      · rw [hnode] at h
        cases h
      · rw [hnode] at h
        cases h
      · rw [hnode] at h
        dsimp only at h ⊢
        by_cases hup : c = Text.ofString ".."
        · rw [if_pos hup] at h ⊢
          exact ih h
        · by_cases hlong : isTooLong c
          · rw [if_neg hup, if_pos hlong] at h
            cases h
          · rw [if_neg hup, if_neg hlong] at h ⊢
            exact ih h

theorem mem_nodes_of_nodeAt {place : List Text} (hplace : place ≠ [])
    (h : d.nodeAt? place = some n) : (place, n) ∈ d.nodes := by
  cases place with
  | nil => exact absurd rfl hplace
  | cons c rest =>
      rw [nodeAt?, Option.map_eq_some_iff] at h
      · rcases h with ⟨⟨found, m⟩, hfind, rfl⟩
        have hsame := List.find?_some hfind
        rw [decide_eq_true_eq] at hsame
        rw [← hsame]
        exact List.mem_of_find?_eq_some hfind
      · exact List.cons_ne_nil _ _

/-- A walk along listed names comes to the node in the place that they make, through
    directories. -/
theorem of_walk_listed (hrel : ∀ c ∈ rel, IsListed c) (hname : IsListed name)
    {x : List Text × Node} (h : d.walk place (rel ++ [name]) = .ok (some x)) :
    (rel = [] ∨ (place ++ rel, .directory) ∈ d.nodes) ∧
      d.nodeAt? (place ++ (rel ++ [name])) = some x.2 := by
  have hall : ∀ c ∈ rel ++ [name], IsListed c := by
    intro c hc
    rcases List.mem_append.mp hc with hc | hc
    · exact hrel c hc
    · exact List.mem_singleton.mp hc ▸ hname
  constructor
  · by_cases hnil : rel = []
    · exact Or.inl hnil
    · -- The last step is made from a directory.
      have hlast := walk_append hrel h
      rw [walk] at hlast
      split at hlast
      · rename_i hdir
        exact Or.inr (mem_nodes_of_nodeAt (List.append_ne_nil_of_right_ne_nil _ hnil) hdir)
      · cases hlast
  · rw [← List.append_nil (rel ++ [name])] at h
    have hend := walk_append hall h
    rw [walk, Except.ok.injEq, Option.map_eq_some_iff] at hend
    rcases hend with ⟨n, hn, rfl⟩
    exact hn

end Walks

end Disk

end ArchiveCensus
