import ArchiveCensus.Record

/-!
# Filling Records

One call of `fill` concerns one field, and what the field holds afterwards is a
matter of what it held before and of the offer. So a run of calls falls apart
into the fields: what it leaves in one is a fold over the offers made to this
one, whatever was offered to the others in between.

Where sources may replace the word `unknown`, the fold has a closed form. A field
goes from nothing to `unknown` to something known and never back, so it ends up
with the first candidate that is known, and with `unknown` if there are
candidates but none of them is known.

## Main definitions

* `Text.candidate?`: What an offer comes to.
* `Record.pour`: What a field holds after an offer.
* `Record.settle`: What a field holds after all its candidates.

## Theorems

* `textIn_fill`: A call fills its field and no other.
* `textIn_foldl_fill`: A run of calls, seen from one field.
* `foldl_pour`: The field ends up with the first candidate that is known.
-/

namespace ArchiveCensus

/-- What an offer comes to: a text that is not blank, trimmed. -/
def Text.candidate? (offer : Option Text) : Option Text :=
  offer.bind fun t => if t.isBlank then none else some t.trim

theorem Text.candidate?_eq_some_iff {offer : Option Text} {t : Text} :
    Text.candidate? offer = some t ↔
      ∃ said, offer = some said ∧ said.isBlank = false ∧ t = said.trim := by
  rw [Text.candidate?, Option.bind_eq_some_iff]
  refine exists_congr fun said => and_congr_right fun _ => ?_
  split <;> simp [*, eq_comm]

namespace Field

/-- The field holds a text. -/
def HoldsText (f : Field) : Prop :=
  f ≠ .fileSize ∧ f ≠ .isDirect

end Field

namespace Record

/-- What a field holds after an offer. -/
def pour (replaceUnknown : Bool) (current offer : Option Text) : Option Text :=
  match Text.candidate? offer with
  | none => current
  | some t => if givesWay current replaceUnknown then some t else current

theorem pour_of_candidate {offer : Option Text} {t : Text} (h : Text.candidate? offer = some t)
    (replaceUnknown : Bool) (current : Option Text) :
    pour replaceUnknown current offer
      = if givesWay current replaceUnknown then some t else current := by
  rw [pour, h]

theorem textIn_setText {f : Field} (hf : f.HoldsText) (r : Record) (g : Field) (t : Option Text) :
    (r.setText f t).textIn g = if f = g then t else r.textIn g := by
  cases f <;> cases g <;> first | rfl | exact absurd rfl hf.1 | exact absurd rfl hf.2

theorem isOpen_eq {f : Field} (hf : f.HoldsText) (r : Record) (replaceUnknown : Bool) :
    r.isOpen f replaceUnknown = givesWay (r.textIn f) replaceUnknown := by
  cases f <;> first | rfl | exact absurd rfl hf.1 | exact absurd rfl hf.2

/-- A call fills its field and no other. -/
theorem textIn_fill {f : Field} (hf : f.HoldsText) (r : Record) (g : Field)
    (offer : Option Text) (replaceUnknown : Bool) :
    (r.fill f offer replaceUnknown).1.textIn g
      = if f = g then pour replaceUnknown (r.textIn g) offer else r.textIn g := by
  cases offer with
  | none => simp [fill, pour, Text.candidate?]
  | some t =>
    by_cases hblank : t.isBlank = true
    · simp [fill, pour, Text.candidate?, hblank]
    · rw [fill, if_neg hblank, isOpen_eq hf]
      by_cases hfg : f = g
      · subst hfg
        split <;> simp [pour, Text.candidate?, textIn_setText hf, *]
      · split <;> simp [textIn_setText hf, hfg]

theorem fill_of_not_holdsText {f : Field} (hf : ¬f.HoldsText) (r : Record)
    (offer : Option Text) (replaceUnknown : Bool) :
    r.fill f offer replaceUnknown = (r, false) := by
  have hclosed : r.isOpen f replaceUnknown = false := by
    cases f <;> first | rfl | exact absurd ⟨by decide, by decide⟩ hf
  unfold fill
  split
  · rfl
  · rw [hclosed]
    split <;> rfl

/-- A call fills no field but its own. -/
theorem textIn_fill_of_ne (r : Record) {f g : Field} (h : g ≠ f) (offer : Option Text)
    (replaceUnknown : Bool) : (r.fill f offer replaceUnknown).1.textIn g = r.textIn g := by
  by_cases hf : f.HoldsText
  · rw [textIn_fill hf, if_neg h.symm]
  · rw [fill_of_not_holdsText hf]

/-- A run of calls, seen from one field: only the offers to this field count. -/
theorem textIn_foldl_fill {κ : Type} (offer : κ → Option Text) (replaceUnknown : Bool)
    {calls : List (κ × Field)} (hcalls : ∀ x ∈ calls, x.2.HoldsText) (r : Record) (g : Field) :
    (calls.foldl (fun r x => (r.fill x.2 (offer x.1) replaceUnknown).1) r).textIn g
      = ((calls.filter (·.2 = g)).map fun x => offer x.1).foldl (pour replaceUnknown)
        (r.textIn g) := by
  induction calls generalizing r with
  | nil => rfl
  | cons x rest ih =>
    rw [List.foldl_cons, ih fun y hy => hcalls y (List.mem_cons_of_mem x hy),
      textIn_fill (hcalls x List.mem_cons_self)]
    by_cases hx : x.2 = g
    · rw [if_pos hx, List.filter_cons_of_pos (by simpa using hx), List.map_cons, List.foldl_cons]
    · rw [if_neg hx, List.filter_cons_of_neg (by simpa using hx)]

/-! ## The value that is settled on -/

/-- What a field holds after all its candidates: the first that is known, else
    `unknown` if there is any. -/
def settle (candidates : List Text) : Option Text :=
  if candidates = [] then none else some ((candidates.find? (· ≠ unknown)).getD unknown)

theorem settle_eq_none_iff {candidates : List Text} :
    settle candidates = none ↔ candidates = [] := by
  unfold settle
  split <;> simp [*]

theorem settle_of_known {candidates : List Text} {k : Text}
    (h : candidates.find? (· ≠ unknown) = some k) : settle candidates = some k := by
  have hne : candidates ≠ [] := by
    rintro rfl
    cases h
  rw [settle, if_neg hne, h, Option.getD_some]

/-- While nothing is known, the field gives way. -/
theorem givesWay_settle {candidates : List Text} (h : candidates.find? (· ≠ unknown) = none) :
    givesWay (settle candidates) true = true := by
  rw [settle, h]
  split
  · rfl
  · rw [Option.getD_none, givesWay, decide_eq_true rfl, Bool.and_true]

/-- A candidate more counts if nothing is known so far. -/
theorem settle_concat (candidates : List Text) (t : Text) :
    settle (candidates ++ [t])
      = if givesWay (settle candidates) true then some t else settle candidates := by
  cases hfind : candidates.find? (· ≠ unknown) with
  | some k =>
    -- Something is known, and nothing replaces it.
    have hk : k ≠ unknown := by simpa using List.find?_some hfind
    have hboth : (candidates ++ [t]).find? (· ≠ unknown) = some k := by
      rw [List.find?_append, hfind, Option.some_or]
    rw [settle_of_known hboth, settle_of_known hfind]
    simp [givesWay, hk]
  | none =>
    rw [givesWay_settle hfind, if_pos rfl, settle,
      if_neg (List.append_ne_nil_of_right_ne_nil _ (List.cons_ne_nil t [])), List.find?_append,
      hfind, Option.none_or]
    by_cases ht : t = unknown <;> simp [ht]

/-- Offers made to a field one after the other, where `unknown` gives way. -/
theorem foldl_pour (candidates : List Text) (offers : List (Option Text)) :
    offers.foldl (pour true) (settle candidates)
      = settle (candidates ++ offers.filterMap Text.candidate?) := by
  induction offers generalizing candidates with
  | nil => rw [List.foldl_nil, List.filterMap_nil, List.append_nil]
  | cons offer offers ih =>
    rw [List.foldl_cons, List.filterMap_cons]
    cases hoffer : Text.candidate? offer with
    | none =>
      have hsame : pour true (settle candidates) offer = settle candidates := by
        rw [pour, hoffer]
      rw [hsame, ih]
    | some t =>
      have hmore : pour true (settle candidates) offer = settle (candidates ++ [t]) := by
        rw [pour, hoffer, settle_concat]
      rw [hmore, ih, List.append_assoc, List.singleton_append]

/-- A field that is not set takes the first offer in either mode. -/
theorem pour_none (replaceUnknown : Bool) (offer : Option Text) :
    pour replaceUnknown none offer = Text.candidate? offer := by
  unfold pour
  cases Text.candidate? offer with
  | none => rfl
  | some t => rfl

/-- A field that is set keeps its text where `unknown` does not give way. -/
theorem pour_false (current offer : Option Text) :
    pour false current offer = current.or (Text.candidate? offer) := by
  cases current with
  | none => rw [pour_none, Option.none_or]
  | some t =>
    unfold pour
    cases Text.candidate? offer with
    | none => rfl
    | some u => simp [givesWay]

end Record

end ArchiveCensus
