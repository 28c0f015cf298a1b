import ArchiveCensus.Record.Draft
import ArchiveCensus.Proofs.Record
import Mathlib.Data.List.Nodup

/-!
# Drafts That Are Filled

Whatever sources call a draft, in whatever order and mode, a field only goes forward:
from nothing over the word `unknown` to something known. A step may be left out, and
none is taken back. `Advances` is this order. A call leaves a field where it is or
takes it further, and as the order is transitive, so does a run of calls.

A call either writes one text into its own field or leaves the draft as it is, and
its answer says which. The text is not blank and has no blanks at its ends. An offer
that is neither a text nor nothing gets no answer and writes nothing.

The record that an inspection makes is filled by the same rule, so after the same
calls a draft and a record hold the same texts.

## Main definitions

* `Draft.Advances`: What may come to stand where something stood.
* `Draft.Call`: A field, what is offered for it, and the mode.
* `Draft.run`: A draft after calls.
* `Draft.Call.Writes`: The text that a call writes.

## Theorems

* `answer_cases`, `after_cases`: What comes of a call.
* `advances_run`: A run of calls takes a field forward or leaves it.
* `Worded.after`: What a call writes is not blank and has no blanks around it.
* `agrees_run`: A draft holds the texts of a record after the same calls.
* `run_only_advances`: All that calls do to a new draft.
-/

namespace ArchiveCensus

namespace Field

theorem mem_all (f : Field) : f ∈ all := by
  cases f <;> decide

/-- No two fields have the same name. -/
theorem ofString_name_inj {f g : Field} (h : Text.ofString f.name = Text.ofString g.name) :
    f = g := by
  have hnames : (all.map fun f => Text.ofString f.name).Nodup := by decide
  exact List.inj_on_of_nodup_map hnames (mem_all f) (mem_all g) h

end Field

namespace Draft

variable {d : Draft} {r : Record} {f g : Field} {u v w : Value} {t : Text}

/-! ## The order of what a field holds -/

/-- What may come to stand where something stood. -/
inductive Advances : Value → Value → Prop
  | stays (v : Value) : Advances v v
  /-- Nothing gives way to a text. -/
  | found (t : Text) : Advances .null (.text t)
  /-- So does the word `unknown`. -/
  | known (t : Text) : Advances (.text unknown) (.text t)

theorem Advances.trans (h : Advances u v) (h' : Advances v w) : Advances u w := by
  cases h with
  | stays => exact h'
  | found t =>
    cases h' with
    | stays => exact .found t
    | known t' => exact .found t'
  | known t =>
    cases h' with
    | stays => exact .known t
    | known t' => exact .known t'

theorem Advances.ne_null (h : Advances v w) (hv : v ≠ .null) : w ≠ .null := by
  cases h with
  | stays => exact hv
  | found t => exact absurd rfl hv
  | known t => simp only [ne_eq, reduceCtorEq, not_false_eq_true]

/-- What is known stays. -/
theorem Advances.eq_of_known (h : Advances v w) (hv : v ≠ .null) (hknown : v ≠ .text unknown) :
    w = v := by
  cases h with
  | stays => rfl
  | found t => exact absurd rfl hv
  | known t => exact absurd rfl hknown

/-! ## One call -/

/-- What a source calls a draft with: a field, what it offers for it, and whether it
    may replace the word `unknown`. -/
structure Call where
  field : Field
  offer : Value
  replaceUnknown : Bool

namespace Call

/-- What comes of a call. -/
def answer (c : Call) (d : Draft) : Except Fault (Draft × Bool) :=
  d.fill (Text.ofString c.field.name) c.offer c.replaceUnknown

/-- What a call returns, if it returns anything. -/
def returns (c : Call) (d : Draft) : Option Bool :=
  (c.answer d).toOption.map Prod.snd

/-- The offer is a text, or there is none. -/
def Proper (c : Call) : Prop :=
  c.offer = .null ∨ ∃ t, c.offer = .text t

/-- The call writes a text: it offers one that is not blank, which is written without
    the blanks around it, and its field holds nothing, or the word `unknown` where that
    may be replaced. -/
structure Writes (c : Call) (d : Draft) (t : Text) : Prop where
  offered : ∃ said, c.offer = .text said ∧ said.isBlank = false ∧ t = said.trim
  unset : d.valueIn c.field = .null ∨ c.replaceUnknown = true ∧ d.valueIn c.field = .text unknown

end Call

/-- The draft after a call; one that fails changes nothing. -/
def after (d : Draft) (c : Call) : Draft :=
  match c.answer d with
  | .ok (filled, _) => filled
  | .error _ => d

/-- The draft after calls. -/
def run (d : Draft) (calls : List Call) : Draft :=
  calls.foldl after d

/-- There is something under the name of every field. -/
def Complete (d : Draft) : Prop :=
  ∀ f : Field, ∃ v, d.entries.get? (Text.ofString f.name) = some v

variable {c : Call}

theorem valueIn_set (d : Draft) (f g : Field) (v : Value) :
    (d.set (Text.ofString f.name) v).valueIn g = if f = g then v else d.valueIn g := by
  rw [valueIn, set, Dictionary.get?_put]
  by_cases h : f = g
  · rw [if_pos (h ▸ rfl), if_pos h, Option.getD_some]
  · rw [if_neg (mt Field.ofString_name_inj h), if_neg h, valueIn]

theorem Complete.set (h : d.Complete) (name : Text) (v : Value) : (d.set name v).Complete := by
  intro f
  rw [Draft.set, Dictionary.get?_put]
  split
  · exact ⟨v, rfl⟩
  · exact h f

theorem Complete.get?_eq (h : d.Complete) (f : Field) :
    d.entries.get? (Text.ofString f.name) = some (d.valueIn f) := by
  rcases h f with ⟨v, hv⟩
  rw [valueIn, hv, Option.getD_some]

theorem givesWay_iff {replaceUnknown : Bool} :
    givesWay replaceUnknown v = true ↔
      v = .null ∨ replaceUnknown = true ∧ v = .text unknown := by
  cases v <;> simp [givesWay, Record.givesWay]

theorem Complete.write_eq (h : d.Complete) (f : Field) (t : Text) (replaceUnknown : Bool) :
    d.write (Text.ofString f.name) t replaceUnknown =
      .ok (if givesWay replaceUnknown (d.valueIn f) then
        (d.set (Text.ofString f.name) (.text t), true) else (d, false)) := by
  rw [write, h.get?_eq]

theorem answer_of_writes (h : d.Complete) (hw : c.Writes d t) :
    c.answer d = .ok (d.set (Text.ofString c.field.name) (.text t), true) := by
  rcases hw.offered with ⟨said, hoffer, hblank, rfl⟩
  rw [Call.answer, hoffer, fill, if_neg (Bool.eq_false_iff.mp hblank), h.write_eq,
    if_pos (givesWay_iff.mpr hw.unset)]

theorem answer_of_not_writes (h : d.Complete) (hproper : c.Proper) (hnot : ∀ t, ¬c.Writes d t) :
    c.answer d = .ok (d, false) := by
  rcases hproper with hoffer | ⟨said, hoffer⟩
  · rw [Call.answer, hoffer, fill]
  · rw [Call.answer, hoffer, fill]
    split
    · rfl
    · -- A text that could be written has found its field set.
      rename_i hblank
      rw [h.write_eq, if_neg]
      intro hway
      exact hnot said.trim
        ⟨⟨said, hoffer, Bool.eq_false_iff.mpr hblank, rfl⟩, givesWay_iff.mp hway⟩

theorem answer_of_not_proper (hnot : ¬c.Proper) : c.answer d = .error .notText := by
  unfold Call.answer fill
  split
  · rename_i hoffer
    exact absurd (.inl hoffer) hnot
  · rename_i t hoffer
    exact absurd (.inr ⟨t, hoffer⟩) hnot
  · rfl

theorem Call.Writes.proper (h : c.Writes d t) : c.Proper := by
  rcases h.offered with ⟨said, hoffer, _⟩
  exact .inr ⟨said, hoffer⟩

/-- All that can come of a call. -/
theorem answer_cases (h : d.Complete) (c : Call) :
    (∃ t, c.Writes d t ∧
        c.answer d = .ok (d.set (Text.ofString c.field.name) (.text t), true)) ∨
      (c.Proper ∧ (∀ t, ¬c.Writes d t) ∧ c.answer d = .ok (d, false)) ∨
      ¬c.Proper ∧ (∀ t, ¬c.Writes d t) ∧ c.answer d = .error .notText := by
  by_cases hwrites : ∃ t, c.Writes d t
  · rcases hwrites with ⟨t, hw⟩
    exact .inl ⟨t, hw, answer_of_writes h hw⟩
  · rw [not_exists] at hwrites
    by_cases hproper : c.Proper
    · exact .inr (.inl ⟨hproper, hwrites, answer_of_not_writes h hproper hwrites⟩)
    · exact .inr (.inr ⟨hproper, hwrites, answer_of_not_proper hproper⟩)

/-- What a call returns says whether it writes; it returns nothing if it is not
    proper. -/
theorem returns_iff (h : d.Complete) (c : Call) :
    (c.returns d = some true ↔ ∃ t, c.Writes d t) ∧ (c.returns d = none ↔ ¬c.Proper) := by
  rcases answer_cases h c with
    ⟨t, hw, hanswer⟩ | ⟨hproper, hnot, hanswer⟩ | ⟨hproper, hnot, hanswer⟩
  all_goals rw [Call.returns, hanswer]
  · exact ⟨iff_of_true rfl ⟨t, hw⟩, iff_of_false (Option.some_ne_none true) fun hn => hn hw.proper⟩
  · exact ⟨iff_of_false (fun hfalse => Bool.false_ne_true (Option.some.inj hfalse))
      (not_exists.mpr hnot), iff_of_false (Option.some_ne_none false) fun hn => hn hproper⟩
  · exact ⟨iff_of_false (fun hnone => Option.some_ne_none true hnone.symm)
      (not_exists.mpr hnot), iff_of_true rfl hproper⟩

/-- A call writes a text into its field or leaves the draft as it is. -/
theorem after_cases (h : d.Complete) (c : Call) :
    (∃ t, c.Writes d t ∧ d.after c = d.set (Text.ofString c.field.name) (.text t)) ∨
      (∀ t, ¬c.Writes d t) ∧ d.after c = d := by
  rcases answer_cases h c with ⟨t, hw, hanswer⟩ | ⟨_, hnot, hanswer⟩ | ⟨_, hnot, hanswer⟩
  all_goals rw [after, hanswer]
  · exact .inl ⟨t, hw, rfl⟩
  · exact .inr ⟨hnot, rfl⟩
  · exact .inr ⟨hnot, rfl⟩

theorem Complete.after (h : d.Complete) (c : Call) : (d.after c).Complete := by
  rcases after_cases h c with ⟨t, _, hafter⟩ | ⟨_, hafter⟩
  · rw [hafter]
    exact h.set _ _
  · rw [hafter]
    exact h

/-- A call changes no field but its own. -/
theorem valueIn_after_of_ne (h : d.Complete) (hne : g ≠ c.field) :
    (d.after c).valueIn g = d.valueIn g := by
  rcases after_cases h c with ⟨t, _, hafter⟩ | ⟨_, hafter⟩
  · rw [hafter, valueIn_set, if_neg hne.symm]
  · rw [hafter]

/-- What a call leaves in its own field. -/
theorem valueIn_after_self (h : d.Complete) (c : Call) :
    (∃ t, c.Writes d t ∧ (d.after c).valueIn c.field = .text t) ∨
      (∀ t, ¬c.Writes d t) ∧ (d.after c).valueIn c.field = d.valueIn c.field := by
  rcases after_cases h c with ⟨t, hw, hafter⟩ | ⟨hnot, hafter⟩
  · refine .inl ⟨t, hw, ?_⟩
    rw [hafter, valueIn_set, if_pos rfl]
  · exact .inr ⟨hnot, congrArg (valueIn · c.field) hafter⟩

/-- A call takes a field forward or leaves it. -/
theorem advances_after (h : d.Complete) (c : Call) (f : Field) :
    Advances (d.valueIn f) ((d.after c).valueIn f) := by
  by_cases hfield : f = c.field
  · subst hfield
    rcases valueIn_after_self h c with ⟨t, hw, hvalue⟩ | ⟨_, hvalue⟩
    · -- There are two things that a text may be written over.
      rw [hvalue]
      rcases hw.unset with hnull | ⟨_, hunknown⟩
      · exact hnull ▸ .found t
      · exact hunknown ▸ .known t
    · exact hvalue ▸ .stays _
  · exact valueIn_after_of_ne h hfield ▸ .stays _

/-! ## Runs of calls -/

/-- What every call keeps is kept by a run of calls. -/
theorem Complete.run_induction {P : Draft → Prop} (h : d.Complete) (hd : P d)
    (hstep : ∀ {d : Draft} (c : Call), d.Complete → P d → P (d.after c)) (calls : List Call) :
    (d.run calls).Complete ∧ P (d.run calls) := by
  induction calls generalizing d with
  | nil => exact ⟨h, hd⟩
  | cons c rest ih => exact ih (h.after c) (hstep c h hd)

/-- Calls take a field forward or leave it. -/
theorem advances_run (h : d.Complete) (calls : List Call) (f : Field) :
    Advances (d.valueIn f) ((d.run calls).valueIn f) := by
  have hstep : ∀ {e : Draft} (c : Call), e.Complete → Advances (d.valueIn f) (e.valueIn f) →
      Advances (d.valueIn f) ((e.after c).valueIn f) :=
    fun c he hforward => hforward.trans (advances_after he c f)
  exact (h.run_induction (.stays _) hstep calls).2

/-- The texts in the fields are not blank and have no blanks around them. -/
def Worded (d : Draft) : Prop :=
  ∀ f t, d.valueIn f = .text t → t.isBlank = false ∧ t.Tight

theorem Worded.after (hd : d.Worded) (h : d.Complete) (c : Call) : (d.after c).Worded := by
  intro f t hvalue
  by_cases hfield : f = c.field
  · subst hfield
    rcases valueIn_after_self h c with ⟨t', hw, hnew⟩ | ⟨_, hsame⟩
    · -- What is written is an offer that has been trimmed.
      rcases hw.offered with ⟨said, _, hblank, rfl⟩
      rw [← Value.text.inj (hnew.symm.trans hvalue)]
      exact ⟨(Text.isBlank_trim said).trans hblank, Text.tight_trim said⟩
    · exact hd _ t (hsame.symm.trans hvalue)
  · exact hd f t ((valueIn_after_of_ne h hfield).symm.trans hvalue)

/-! ## Records -/

/-- The text that is offered, if there is one. -/
def Call.text? (c : Call) : Option Text :=
  match c.offer with
  | .text t => some t
  | _ => none

/-- The record after the same call. -/
def Call.fill (r : Record) (c : Call) : Record :=
  (r.fill c.field c.text? c.replaceUnknown).1

/-- The draft holds the texts of the record. -/
def Agrees (d : Draft) (r : Record) : Prop :=
  ∀ f : Field, f.HoldsText → d.valueIn f = .ofOption (r.textIn f)

theorem text?_eq_some_iff {said : Text} : c.text? = some said ↔ c.offer = .text said := by
  unfold Call.text?
  split
  · rename_i t hoffer
    rw [hoffer, Option.some.injEq, Value.text.injEq]
  · rename_i hnone
    exact iff_of_false (Option.some_ne_none said).symm (hnone said)

theorem writes_iff :
    c.Writes d t ↔
      Text.candidate? c.text? = some t ∧ givesWay c.replaceUnknown (d.valueIn c.field) = true := by
  rw [givesWay_iff, Text.candidate?_eq_some_iff]
  simp only [text?_eq_some_iff]
  exact ⟨fun hw => ⟨hw.offered, hw.unset⟩, fun hw => ⟨hw.1, hw.2⟩⟩

theorem givesWay_ofOption (replaceUnknown : Bool) (current : Option Text) :
    givesWay replaceUnknown (.ofOption current) = Record.givesWay current replaceUnknown := by
  cases current <;> rfl

theorem Agrees.after (hd : d.Agrees r) (h : d.Complete) (c : Call) :
    (d.after c).Agrees (c.fill r) := by
  intro f hf
  by_cases hfield : f = c.field
  · subst hfield
    rw [Call.fill, Record.textIn_fill hf, if_pos rfl]
    rcases valueIn_after_self h c with ⟨t, hw, hvalue⟩ | ⟨hnot, hvalue⟩
    · rcases writes_iff.mp hw with ⟨hcandidate, hway⟩
      rw [hd _ hf, givesWay_ofOption] at hway
      rw [hvalue, Record.pour_of_candidate hcandidate, if_pos hway]
      rfl
    · -- Either there is nothing to write, or the field does not give way.
      rw [hvalue, hd _ hf]
      cases hcandidate : Text.candidate? c.text? with
      | none => rw [Record.pour, hcandidate]
      | some t =>
        rw [Record.pour_of_candidate hcandidate, if_neg]
        rw [← givesWay_ofOption, ← hd _ hf]
        exact fun hway => hnot t (writes_iff.mpr ⟨hcandidate, hway⟩)
  · rw [valueIn_after_of_ne h hfield, hd f hf, Call.fill, Record.textIn_fill_of_ne r hfield]

/-- A draft and a record that are called alike hold the same texts. -/
theorem agrees_run (hd : d.Agrees r) (h : d.Complete) (calls : List Call) :
    (d.run calls).Agrees (calls.foldl Call.fill r) := by
  induction calls generalizing d r with
  | nil => exact hd
  | cons c rest ih => exact ih (hd.after h c) (h.after c)

/-! ## New drafts -/

theorem complete_new : ({} : Draft).Complete := by
  intro f
  cases f <;> exact ⟨_, rfl⟩

theorem valueIn_new (f : Field) : ({} : Draft).valueIn f = ({} : Record).valueIn f := by
  cases f <;> rfl

/-- The only text in a new draft is the package type. -/
theorem worded_new : ({} : Draft).Worded := by
  intro f t hvalue
  rw [valueIn_new] at hvalue
  -- Only one of the cases is left, as the other fields hold no text.
  cases f <;> cases hvalue
  exact ⟨by decide, by decide, by decide⟩

theorem agrees_new : ({} : Draft).Agrees {} := by
  intro f hf
  rw [valueIn_new]
  cases f <;> first | rfl | exact absurd rfl hf.1 | exact absurd rfl hf.2

/-- However a new draft is called, each of its fields only goes forward: one that is
    set stays set, and one that is known stays as it is. The texts in it are those of a
    record after the same calls; they are not blank and have no blanks around them.

    A call returns that it wrote exactly if there is a text for it to write. Its field
    holds this text then, and otherwise the draft is left as it is; no other field
    changes in any case. It fails exactly if what it offers is neither a text nor
    nothing. -/
theorem run_only_advances (calls : List Call) :
    let d := run {} calls
    (∀ (f : Field) (later : List Call),
        (d.valueIn f ≠ .null → (d.run later).valueIn f ≠ .null) ∧
          (d.valueIn f ≠ .null → d.valueIn f ≠ .text unknown →
            (d.run later).valueIn f = d.valueIn f)) ∧
      (∀ f : Field, f.HoldsText →
        d.valueIn f = .ofOption ((calls.foldl Call.fill {}).textIn f)) ∧
      (∀ f t, d.valueIn f = .text t → t.isBlank = false ∧ t.Tight) ∧
      ∀ c : Call,
        (c.returns d = some true ↔ ∃ t, c.Writes d t) ∧
          (∀ t, c.Writes d t → (d.after c).valueIn c.field = .text t) ∧
          ((∀ t, ¬c.Writes d t) → d.after c = d) ∧
          (∀ g, g ≠ c.field → (d.after c).valueIn g = d.valueIn g) ∧
          (c.returns d = none ↔ ¬c.Proper) := by
  intro d
  rcases complete_new.run_induction worded_new (fun c h hd => hd.after h c) calls with
    ⟨hd, hworded⟩
  refine ⟨fun f later => ?_, agrees_run agrees_new complete_new calls, hworded, fun c => ?_⟩
  · have hforward := advances_run hd later f
    exact ⟨hforward.ne_null, hforward.eq_of_known⟩
  · rcases returns_iff hd c with ⟨htrue, hnone⟩
    refine ⟨htrue, fun t hw => ?_, fun hnot => ?_, fun g => valueIn_after_of_ne hd, hnone⟩
    · rw [after, answer_of_writes hd hw]
      exact (valueIn_set d c.field c.field (.text t)).trans (if_pos rfl)
    · rcases after_cases hd c with ⟨t, hw, _⟩ | ⟨_, hafter⟩
      · exact absurd hw (hnot t)
      · exact hafter

/-- The word `unknown` is not replaced without leave, and then once. -/
example :
    (run {} [⟨.group, .text " unknown ", false⟩, ⟨.group, .text "org.x", false⟩,
      ⟨.group, .text "org.y", true⟩, ⟨.group, .text "org.z", true⟩]).valueIn .group
      = .text "org.y" := by
  rfl

end Draft

end ArchiveCensus
