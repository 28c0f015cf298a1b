import ArchiveCensus.Fingerprint
import Mathlib.Algebra.BigOperators.Fin
import Mathlib.Data.Int.ModEq
import Mathlib.Tactic.Ring

/-!
# The Hash of a Text

The hash is a polynomial in the units of a text, and the loop that finds it is the rule
of Horner in 32-bit words. Every turn of it throws away what does not fit into a word,
and the sign is only looked at when all is over. Neither matters modulo `2 ^ 32`: a turn
multiplies and adds, which goes through remainders, and reading a word as signed picks
another representative of the same remainder. So the words of the loop are the remainders
of the exact values at every turn, and of all representatives the hash is the one around
zero.

What the units are is said by a relation that reads them back. A code point of the basic
plane is its own unit. One above it is a pair of two, of which the high one comes first,
and these are the only units that a surrogate number can be; so a text that holds a
surrogate has no units and no hash.

## Main definitions

* `Utf16.Spells`: Units spell a text.
* `Fingerprint.exact`: The rule of Horner, without a bound.
* `Fingerprint.polynomial`: The polynomial in the units of a text.

## Theorems

* `Utf16.units?_eq_some_iff`, `Utf16.units?_eq_none_iff`: Which texts have which units.
* `toNat_mix`, `toNat_foldl_mix`: A turn of the loop, and all turns, modulo `2 ^ 32`.
* `exact_eq`: What the rule of Horner finds.
* `hash?_polynomial`: The hash of a text, and the texts that have none.
-/

namespace ArchiveCensus

namespace Utf16

/-- Units spell a text: one unit for each code point of the basic plane that is no
    surrogate, and a high and a low unit for each code point above. -/
inductive Spells : List Nat → Text → Prop
  | nil : Spells [] []
  | single {c : CodePoint} {units : List Nat} {t : Text} (basic : c.val < 0x10000)
      (solid : c.isSurrogate = false) (rest : Spells units t) : Spells (c.val :: units) (c :: t)
  | pair {c : CodePoint} {high low : Nat} {units : List Nat} {t : Text}
      (high_mem : 0xD800 ≤ high ∧ high < 0xDC00) (low_mem : 0xDC00 ≤ low ∧ low < 0xE000)
      (sum : c.val = 0x10000 + (high - 0xD800) * 0x400 + (low - 0xDC00))
      (rest : Spells units t) : Spells (high :: low :: units) (c :: t)

theorem units?_cons (c : CodePoint) (t : Text) :
    units? (c :: t) = if c.isSurrogate then none else (units? t).map (unitsOf c ++ ·) := by
  rw [units?, units?, Text.isScalar, Text.isScalar, List.all_cons]
  cases c.isSurrogate with
  | true => rfl
  | false =>
    rw [Bool.not_false, Bool.true_and, if_neg Bool.false_ne_true]
    split <;> rfl

/-- A surrogate number lies in the basic plane. -/
theorem isSurrogate_of_supplementary {c : CodePoint} (h : 0x10000 ≤ c.val) :
    c.isSurrogate = false := by
  simp only [CodePoint.isSurrogate, Bool.and_eq_false_iff, decide_eq_false_iff_not]
  omega

/-- The pair of a code point above the basic plane, and no other pair, spells it. -/
theorem unitsOf_eq_pair {c : CodePoint} {high low : Nat} (hhigh : 0xD800 ≤ high ∧ high < 0xDC00)
    (hlow : 0xDC00 ≤ low ∧ low < 0xE000)
    (hsum : c.val = 0x10000 + (high - 0xD800) * 0x400 + (low - 0xDC00)) :
    unitsOf c = [high, low] := by
  have hpair : 0xD800 + (c.val - 0x10000) / 0x400 = high ∧
      0xDC00 + (c.val - 0x10000) % 0x400 = low := by omega
  rw [unitsOf, if_neg (by omega), hpair.1, hpair.2]

theorem Spells.units?_eq {units : List Nat} {t : Text} (h : Spells units t) :
    units? t = some units := by
  induction h with
  | nil => rfl
  | single hbasic hsolid _ ih =>
    rw [units?_cons, hsolid, if_neg Bool.false_ne_true, ih, Option.map_some, unitsOf,
      if_pos hbasic, List.singleton_append]
  | pair hhigh hlow hsum _ ih =>
    rw [units?_cons, isSurrogate_of_supplementary (by omega), if_neg Bool.false_ne_true, ih,
      Option.map_some, unitsOf_eq_pair hhigh hlow hsum]
    rfl

theorem spells_of_units?_eq {units : List Nat} {t : Text} (h : units? t = some units) :
    Spells units t := by
  induction t generalizing units with
  | nil =>
    rw [← Option.some.inj h]
    exact .nil
  | cons c t ih =>
    rw [units?_cons] at h
    cases hsolid : c.isSurrogate with
    | true =>
      rw [hsolid, if_pos rfl] at h
      exact absurd h (Option.some_ne_none _).symm
    | false =>
      rw [hsolid, if_neg Bool.false_ne_true, Option.map_eq_some_iff] at h
      rcases h with ⟨rest, hrest, rfl⟩
      by_cases hbasic : c.val < 0x10000
      · rw [unitsOf, if_pos hbasic]
        exact .single hbasic hsolid (ih hrest)
      · have hlt := c.val_lt
        rw [unitsOf, if_neg hbasic]
        exact .pair (by omega) (by omega) (by omega) (ih hrest)

theorem units?_eq_some_iff {units : List Nat} {t : Text} :
    units? t = some units ↔ Spells units t :=
  ⟨spells_of_units?_eq, Spells.units?_eq⟩

theorem units?_eq_none_iff {t : Text} : units? t = none ↔ ∃ c ∈ t, c.isSurrogate = true := by
  simp [units?, Text.isScalar]

end Utf16

namespace Fingerprint

/-- The rule of Horner for the polynomial whose coefficients are units, without a bound. -/
def exact (start : Nat) (units : List Nat) : Nat :=
  units.foldl (fun h unit => 31 * h + unit) start

/-- A turn of the loop is exact but for what does not fit into a word. -/
theorem toNat_mix (h : UInt32) (unit : Nat) :
    (mix h unit).toNat = (31 * h.toNat + unit) % 2 ^ 32 := by
  have hfactor : (31 : UInt32).toNat = 31 := rfl
  rw [mix, UInt32.toNat_add, UInt32.toNat_mul, UInt32.toNat_ofNat', hfactor]
  omega

theorem exact_mod (start : Nat) (units : List Nat) :
    exact (start % 2 ^ 32) units % 2 ^ 32 = exact start units % 2 ^ 32 := by
  induction units generalizing start with
  | nil => exact Nat.mod_mod start (2 ^ 32)
  | cons unit units ih =>
    -- Two remainders taken one after the other, so the hypothesis is used in both directions.
    have hturn : (31 * (start % 2 ^ 32) + unit) % 2 ^ 32 = (31 * start + unit) % 2 ^ 32 := by
      omega
    calc exact (31 * (start % 2 ^ 32) + unit) units % 2 ^ 32
        = exact ((31 * (start % 2 ^ 32) + unit) % 2 ^ 32) units % 2 ^ 32 := (ih _).symm
      _ = exact ((31 * start + unit) % 2 ^ 32) units % 2 ^ 32 := by rw [hturn]
      _ = exact (31 * start + unit) units % 2 ^ 32 := ih _

/-- All turns of the loop: its word is the remainder of the exact value. -/
theorem toNat_foldl_mix (h : UInt32) (units : List Nat) :
    (units.foldl mix h).toNat = exact h.toNat units % 2 ^ 32 := by
  induction units generalizing h with
  | nil => exact (Nat.mod_eq_of_lt h.toNat_lt).symm
  | cons unit units ih =>
    rw [List.foldl_cons, ih, toNat_mix, exact_mod]
    rfl

/-- The polynomial whose coefficients are units: the first unit has the highest power. -/
def polynomial (units : List Nat) : Nat :=
  ∑ i : Fin units.length, units[i] * 31 ^ (units.length - 1 - i)

/-- Behind the first unit, places and powers count from the rest of the list. -/
theorem polynomial_cons (unit : Nat) (units : List Nat) :
    polynomial (unit :: units) = unit * 31 ^ units.length + polynomial units := by
  have hsplit : polynomial (unit :: units) = unit * 31 ^ units.length
      + ∑ i : Fin units.length, units[i] * 31 ^ (units.length - (i + 1)) :=
    Fin.sum_univ_succ fun i : Fin (units.length + 1) =>
      (unit :: units)[i] * 31 ^ (units.length - i)
  rw [hsplit, polynomial]
  congr 1
  refine Finset.sum_congr rfl fun i _ => ?_
  rw [Nat.sub_sub, Nat.add_comm 1]

/-- The rule of Horner finds the polynomial. -/
theorem exact_eq (start : Nat) (units : List Nat) :
    exact start units = start * 31 ^ units.length + polynomial units := by
  induction units generalizing start with
  | nil => simp [exact, polynomial]
  | cons unit units ih =>
    calc exact start (unit :: units)
        = (31 * start + unit) * 31 ^ units.length + polynomial units := ih _
      _ = start * 31 ^ (units.length + 1)
            + (unit * 31 ^ units.length + polynomial units) := by ring
      _ = start * 31 ^ (unit :: units).length + polynomial (unit :: units) := by
        rw [polynomial_cons, List.length_cons]

theorem toNat_foldl_mix_zero (units : List Nat) :
    (units.foldl mix 0).toNat = polynomial units % 2 ^ 32 := by
  have hstart : (0 : UInt32).toNat = 0 := rfl
  rw [toNat_foldl_mix, exact_eq, hstart, Nat.zero_mul, Nat.zero_add]

/-! ## The sign -/

/-- Reading a word as signed picks the representative around zero. -/
theorem toInt_toInt32 (w : UInt32) : w.toInt32.toInt = (w.toNat : Int).bmod (2 ^ 32) :=
  BitVec.toInt_eq_toNat_bmod w.toBitVec

theorem hashUnits_eq (units : List Nat) :
    hashUnits units = (polynomial units : Int).bmod (2 ^ 32) := by
  rw [hashUnits, toInt_toInt32, toNat_foldl_mix_zero, Int.natCast_emod]
  exact Int.emod_bmod _ _

/-- Of all numbers with a given remainder there is one around zero. -/
theorem eq_bmod_iff {h n : Int} :
    h = n.bmod (2 ^ 32) ↔ -2 ^ 31 ≤ h ∧ h < 2 ^ 31 ∧ h ≡ n [ZMOD 2 ^ 32] := by
  refine ⟨fun heq => ?_, fun ⟨hlow, hhigh, hmod⟩ => ?_⟩
  · rw [heq]
    refine ⟨Int.le_bmod (by decide), Int.bmod_lt (by decide), Int.bmod_emod⟩
  · have hsame : h.bmod (2 ^ 32) = n.bmod (2 ^ 32) := by
      rw [← Int.emod_bmod h, ← Int.emod_bmod n]
      exact congrArg (Int.bmod · (2 ^ 32)) hmod
    rw [← hsame]
    exact (Int.bmod_eq_of_le (by omega) (by omega)).symm

/-- A text has a hash exactly if it has units, and then the hash is the value of the
    polynomial in them, brought into the range of signed words; a text has none exactly if
    it holds a surrogate. -/
theorem hash?_polynomial (t : Text) :
    (∀ h : Int, hash? t = some h ↔ ∃ units : List Nat, Utf16.Spells units t
      ∧ -2 ^ 31 ≤ h ∧ h < 2 ^ 31
      ∧ h ≡ ∑ i : Fin units.length, (units[i] : Int) * 31 ^ (units.length - 1 - i) [ZMOD 2 ^ 32])
    ∧ (hash? t = none ↔ ∃ c ∈ t, c.isSurrogate = true) := by
  have hcast : ∀ units : List Nat, (polynomial units : Int)
      = ∑ i : Fin units.length, (units[i] : Int) * 31 ^ (units.length - 1 - i) := by
    intro units
    simp [polynomial]
  refine ⟨fun h => ?_, ?_⟩
  · rw [hash?, Option.map_eq_some_iff]
    refine exists_congr fun units => and_congr Utf16.units?_eq_some_iff ?_
    rw [← hcast, ← eq_bmod_iff, hashUnits_eq]
    exact eq_comm
  · rw [hash?, Option.map_eq_none_iff, Utf16.units?_eq_none_iff]

end Fingerprint

end ArchiveCensus
