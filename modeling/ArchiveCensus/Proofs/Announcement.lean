import ArchiveCensus.Announcement

/-!
# Boundaries That Are Announced as Ended

A boundary is to be announced as ended exactly if it counts as ended. What a host
does with it may come in any order: attributes are set before and after, and it
may be ended more than once. The calls up to the first end, that end, and the
calls behind it are three different things, and all that happens is put together
from them. Before it nothing is announced, and attributes gather. The first end
makes the boundary count as ended, and behind it there is nothing left to say.

So it all comes down to the first end, and to the attributes that have gathered
by then. The boundary counts as ended before its line is made; if an attribute
has one of the names that the line needs for itself or one that the log keeps there is
no line, and no later end makes up for it. Those are the only boundaries that count as
ended and are not announced. So it is with every log, whichever names it keeps, and two
names are always taken.

## Main definitions

* `Mark.Call`: What a host does with a boundary.
* `Account`: A boundary, and what came of each of its ends.
* `TellsEnd`: A line says that a boundary is ended.
* `Unreserved`: No attribute has a name that the line or the log needs for itself.

## Theorems

* `mem_keys_run`: Which attributes a boundary has.
* `run_of_open`, `run_of_ended`: What calls do before the first end and after it.
* `run_of_first`: What comes of the first end.
* `run_cases`: What comes of any calls.
* `clash_mem_iff`, `run_of_clash`: What an end that clashes leaves behind.
* `announced_iff`: When a boundary counts as ended exactly if it is announced.
* `not_forall_announced`: It may count as ended without a line.
-/

namespace ArchiveCensus

theorem Dictionary.mem_keys_put {κ ν : Type} [DecidableEq κ] {d : Dictionary κ ν} {key other : κ}
    {value : ν} : other ∈ keys (put d key value) ↔ other ∈ keys d ∨ other = key := by
  rw [keys_put]
  split
  · rename_i hmem
    exact ⟨.inl, fun h => h.elim id fun heq => heq ▸ hmem⟩
  · rw [List.mem_append, List.mem_singleton]

namespace Announcement

/-- An attribute has a name that is taken if one of these names is among the keys. -/
theorem clashes_eq_true_iff {taken : List Text} {attributes : Attributes} :
    clashes taken attributes = true ↔ ∃ key ∈ taken, key ∈ Dictionary.keys attributes := by
  simp only [clashes, List.any_eq_true, decide_eq_true_eq, Dictionary.keys, List.mem_map]
  constructor
  · rintro ⟨a, ha, hkey⟩
    exact ⟨a.1, hkey, a, ha, rfl⟩
  · rintro ⟨_, hkey, a, ha, rfl⟩
    exact ⟨a, ha, hkey⟩

/-- The line says that the boundary `id` is ended. -/
def TellsEnd (id : Text) (line : Line) : Prop :=
  Dictionary.get? line eventKey = some (.text "dependency.scan.ended") ∧
    Dictionary.get? line boundaryKey = some (.text id)

variable {kept : List Text}

namespace Mark

/-- What no attribute may be called when the boundary is ended. -/
def reservedNames (kept : List Text) : List Text :=
  closingNames ++ kept

/-- What a host does with a boundary. -/
inductive Call where
  /-- Gives it an attribute. -/
  | set (key : Text) (value : Value)
  /-- Ends it at a time. -/
  | finish (now : Number)

/-- The line that comes of ending a boundary. -/
def Ending.line? : Ending → Option Line
  | written line => some line
  | nothing | clash => none

theorem tellsEnd_closing? {m : Mark} {now : Number} {line : Line}
    (h : m.closing? now kept = some line) : TellsEnd m.id line := by
  unfold closing? line? at h
  split at h
  · exact absurd h (by simp only [reduceCtorEq, not_false_eq_true])
  · rw [← Option.some.inj h]
    exact ⟨rfl, rfl⟩

/-- The boundary counts as ended afterwards, whatever comes of it. -/
theorem finish_snd (m : Mark) (now : Number) (kept : List Text) :
    (m.finish now kept).2 = { m with ended := true } := by
  unfold finish
  split
  · rename_i hended
    cases m
    cases hended
    rfl
  · split <;> rfl

/-- The first end of a boundary has a line, or clashes if a name is reserved. -/
theorem finish_of_open {m : Mark} (h : m.ended = false) (now : Number) (kept : List Text) :
    (∃ line, (m.finish now kept).1 = .written line ∧ TellsEnd m.id line ∧
        clashes (reservedNames kept) m.attributes = false) ∨
      (m.finish now kept).1 = .clash ∧ clashes (reservedNames kept) m.attributes = true := by
  rw [finish, if_neg (Bool.eq_false_iff.mp h)]
  cases hline : m.closing? now kept with
  | none => exact .inr ⟨rfl, (closing?_eq_none_iff m now kept).mp hline⟩
  | some line =>
      refine .inl ⟨line, rfl, tellsEnd_closing? hline, ?_⟩
      refine Bool.eq_false_iff.mpr fun hclash => ?_
      rw [(closing?_eq_none_iff m now kept).mpr hclash] at hline
      exact absurd hline (by simp only [reduceCtorEq, not_false_eq_true])

theorem finish_of_ended {m : Mark} (h : m.ended = true) (now : Number) :
    m.finish now kept = (.nothing, m) := by
  rw [finish, if_pos h]

end Mark

open Mark

/-- A boundary, and what came of each of its ends so far. -/
structure Account where
  mark : Mark
  endings : List Ending := []

namespace Account

/-- The lines that say that the boundary is ended. -/
def lines (a : Account) : List Line :=
  a.endings.filterMap Ending.line?

/-- One call, with a log that keeps some names. -/
def call (kept : List Text) (a : Account) : Call → Account
  | .set key value => { a with mark := a.mark.set key value }
  | .finish now =>
    let (ending, m) := a.mark.finish now kept
    { mark := m, endings := a.endings ++ [ending] }

/-- Calls one after the other. -/
def run (kept : List Text) (a : Account) (calls : List Call) : Account :=
  calls.foldl (call kept) a

variable {a : Account} {calls : List Call}

theorem run_cons (a : Account) (c : Call) (calls : List Call) :
    a.run kept (c :: calls) = (a.call kept c).run kept calls :=
  rfl

theorem run_append (a : Account) (before after : List Call) :
    a.run kept (before ++ after) = (a.run kept before).run kept after :=
  List.foldl_append

theorem call_finish (a : Account) (now : Number) :
    a.call kept (.finish now) =
      { mark := { a.mark with ended := true }
        endings := a.endings ++ [(a.mark.finish now kept).1] } := by
  rw [← finish_snd a.mark now kept]
  rfl

/-- An attribute is there from the beginning, or a call has set it. -/
theorem mem_keys_run {key : Text} :
    key ∈ Dictionary.keys (a.run kept calls).mark.attributes ↔
      key ∈ Dictionary.keys a.mark.attributes ∨ ∃ value, .set key value ∈ calls := by
  induction calls generalizing a with
  | nil => simp only [run, List.foldl_nil, List.not_mem_nil, exists_false, or_false]
  | cons c rest ih =>
      rw [run_cons, ih]
      cases c with
      | set other value =>
          simp only [call, Mark.set, Dictionary.mem_keys_put, List.mem_cons, Call.set.injEq,
            exists_or, or_assoc, exists_eq_right]
      | finish now => simp only [call_finish, List.mem_cons, reduceCtorEq, false_or]

theorem id_run : (a.run kept calls).mark.id = a.mark.id := by
  induction calls generalizing a with
  | nil => rfl
  | cons c rest ih =>
      rw [run_cons, ih]
      cases c with
      | set key value => rfl
      | finish now => rw [call_finish]

/-- Calls that end nothing leave the boundary as open as it is. -/
theorem run_of_open (h : ∀ now, .finish now ∉ calls) :
    (a.run kept calls).mark.ended = a.mark.ended ∧ (a.run kept calls).endings = a.endings := by
  induction calls generalizing a with
  | nil => exact ⟨rfl, rfl⟩
  | cons c rest ih =>
      have hrest : ∀ now, .finish now ∉ rest := fun now hmem => h now (List.mem_cons_of_mem _ hmem)
      cases c with
      | set key value => exact ih hrest
      | finish now => exact absurd List.mem_cons_self (h now)

/-- Behind its end a boundary stays ended, and nothing comes of ending it again. -/
theorem run_of_ended (h : a.mark.ended = true) (calls : List Call) :
    (a.run kept calls).mark.ended = true ∧
      ∃ n, (a.run kept calls).endings = a.endings ++ List.replicate n .nothing := by
  induction calls generalizing a with
  | nil => exact ⟨h, 0, (List.append_nil _).symm⟩
  | cons c rest ih =>
      cases c with
      | set key value => exact ih (a := a.call kept (.set key value)) h
      | finish now =>
          have hcall : a.call kept (.finish now) =
              { a with endings := a.endings ++ [.nothing] } := by
            rw [call, finish_of_ended h]
          rw [run_cons, hcall]
          rcases ih (a := { a with endings := a.endings ++ [.nothing] }) h with ⟨hended, n, hn⟩
          refine ⟨hended, n + 1, ?_⟩
          rw [hn, List.append_assoc, List.singleton_append, List.replicate_succ]

end Account

/-- No attribute has a name that is reserved, neither one that the boundary has to
    begin with nor one that a call sets. -/
def Unreserved (kept : List Text) (attributes : Attributes) (calls : List Call) : Prop :=
  ∀ key ∈ reservedNames kept, key ∉ Dictionary.keys attributes ∧ ∀ value, .set key value ∉ calls

theorem unreserved_iff {m : Mark} {calls : List Call} :
    Unreserved kept m.attributes calls ↔
      clashes (reservedNames kept) (({ mark := m } : Account).run kept calls).mark.attributes =
        false := by
  rw [Bool.eq_false_iff, ne_eq, clashes_eq_true_iff]
  simp only [Account.mem_keys_run, not_exists, not_and, not_or]
  exact Iff.rfl

/-- What comes of the first end is all that ever comes of ending a boundary. -/
theorem run_of_first (kept : List Text) {m : Mark} (hopen : m.ended = false) {before : List Call}
    (hbefore : ∀ now, .finish now ∉ before) (now : Number) (after : List Call) :
    let a := ({ mark := m } : Account).run kept (before ++ .finish now :: after)
    a.mark.ended = true ∧
      ((∃ line, a.lines = [line] ∧ TellsEnd m.id line ∧ .clash ∉ a.endings ∧
          Unreserved kept m.attributes before) ∨
        a.lines = [] ∧ .clash ∈ a.endings ∧ ¬ Unreserved kept m.attributes before) := by
  intro a
  let b := ({ mark := m } : Account).run kept before
  rcases Account.run_of_open (a := { mark := m }) hbefore with ⟨hb, hnone⟩
  have hcall : (b.call kept (.finish now)).mark.ended = true := by
    rw [Account.call_finish]
  rcases Account.run_of_ended hcall after with ⟨hended, n, hn⟩
  have ha : a = (b.call kept (.finish now)).run kept after := Account.run_append ..
  have hendings : a.endings = (b.mark.finish now kept).1 :: List.replicate n .nothing := by
    rw [ha, hn, Account.call_finish, hnone]
    rfl
  have hlines : a.lines = ((b.mark.finish now kept).1.line?).toList := by
    rw [Account.lines, hendings, List.filterMap_cons, List.filterMap_replicate_of_none rfl]
    cases (b.mark.finish now kept).1.line? <;> rfl
  refine ⟨ha ▸ hended, ?_⟩
  rcases finish_of_open (hb.trans hopen) now kept
    with ⟨line, hline, htells, hfree⟩ | ⟨hclash, htaken⟩
  · rw [Account.id_run] at htells
    refine .inl ⟨line, ?_, htells, ?_, unreserved_iff.mpr hfree⟩
    · rw [hlines, hline]
      rfl
    · rw [hendings, hline]
      simp
  · refine .inr ⟨?_, ?_, ?_⟩
    · rw [hlines, hclash]
      rfl
    · rw [hendings, hclash]
      exact List.mem_cons_self
    · rw [unreserved_iff, htaken]
      exact fun h => Bool.false_ne_true h.symm

/-- There is a first end, unless there is none. -/
theorem exists_first (calls : List Call) : (∀ now, .finish now ∉ calls) ∨
    ∃ before now after, calls = before ++ .finish now :: after ∧ ∀ now, .finish now ∉ before := by
  induction calls with
  | nil => exact .inl fun _ => List.not_mem_nil
  | cons c rest ih =>
      cases c with
      | finish now => exact .inr ⟨[], now, rest, rfl, fun _ => List.not_mem_nil⟩
      | set key value =>
          rcases ih with hnone | ⟨before, now, after, rfl, hbefore⟩
          · exact .inl fun now => by simp [hnone]
          · exact .inr ⟨.set key value :: before, now, after, rfl, fun now => by simp [hbefore]⟩

/-- What comes of any calls: the boundary is as it was, or it is ended, and then it
    has one line or an end has clashed. -/
theorem run_cases {m : Mark} (hopen : m.ended = false) (calls : List Call) :
    let a := ({ mark := m } : Account).run kept calls
    ((∀ now, .finish now ∉ calls) ∧ a.mark.ended = false ∧ a.endings = []) ∨
      (∃ now, .finish now ∈ calls) ∧ a.mark.ended = true ∧
        ((∃ line, a.lines = [line] ∧ TellsEnd m.id line ∧ .clash ∉ a.endings) ∨
          a.lines = [] ∧ .clash ∈ a.endings) := by
  rcases exists_first calls with hnone | ⟨before, now, after, rfl, hbefore⟩
  · rcases Account.run_of_open (a := { mark := m }) hnone with ⟨hended, hendings⟩
    exact .inl ⟨hnone, hended.trans hopen, hendings⟩
  · rcases run_of_first kept hopen hbefore now after with ⟨hended, hfirst⟩
    refine .inr ⟨⟨now, List.mem_append_right _ List.mem_cons_self⟩, hended, ?_⟩
    rcases hfirst with ⟨line, hlines, htells, hclash, _⟩ | ⟨hlines, hclash, _⟩
    · exact .inl ⟨line, hlines, htells, hclash⟩
    · exact .inr ⟨hlines, hclash⟩

/-- A boundary counts as ended as soon as it is ended for the first time. -/
theorem ended_run_iff {m : Mark} (hopen : m.ended = false) (calls : List Call) :
    (({ mark := m } : Account).run kept calls).mark.ended = true ↔ ∃ now, .finish now ∈ calls := by
  rcases run_cases hopen calls with ⟨hnone, hended, _⟩ | ⟨hsome, hended, _⟩
  · exact iff_of_false (Bool.eq_false_iff.mp hended) fun ⟨now, hnow⟩ => hnone now hnow
  · exact iff_of_true hended hsome

/-- It is announced at most once, by a line that names it. -/
theorem lines_run {m : Mark} (hopen : m.ended = false) (calls : List Call) :
    let a := ({ mark := m } : Account).run kept calls
    a.lines = [] ∨ ∃ line, a.lines = [line] ∧ TellsEnd m.id line := by
  intro a
  rcases run_cases hopen calls with ⟨_, _, hendings⟩ | ⟨_, _, ⟨line, hlines, htells, _⟩ | hlines⟩
  · exact .inl (congrArg (List.filterMap Ending.line?) hendings)
  · exact .inr ⟨line, hlines, htells⟩
  · exact .inl hlines.1

/-- An end has clashed exactly if the boundary counts as ended and has no line. -/
theorem clash_mem_iff {m : Mark} (hopen : m.ended = false) (calls : List Call) :
    let a := ({ mark := m } : Account).run kept calls
    .clash ∈ a.endings ↔ a.mark.ended = true ∧ a.lines = [] := by
  intro a
  rcases run_cases hopen calls with
    ⟨_, hended, hendings⟩ | ⟨_, hended, ⟨line, hlines, _, hclash⟩ | ⟨hlines, hclash⟩⟩
  · refine iff_of_false (fun h => List.not_mem_nil (hendings ▸ h)) fun h => ?_
    exact Bool.false_ne_true (hended.symm.trans h.1)
  · exact iff_of_false hclash fun h => List.cons_ne_nil line [] (hlines.symm.trans h.2)
  · exact iff_of_true hclash ⟨hended, hlines⟩

/-- An end that clashes leaves the boundary ended and without a line, for good. -/
theorem run_of_clash {m : Mark} (hopen : m.ended = false) {calls : List Call}
    (h : .clash ∈ (({ mark := m } : Account).run kept calls).endings) (more : List Call) :
    let a := ({ mark := m } : Account).run kept (calls ++ more)
    a.mark.ended = true ∧ a.lines = [] := by
  rcases exists_first calls with hnone | ⟨before, now, after, rfl, hbefore⟩
  · rw [(Account.run_of_open hnone).2] at h
    exact absurd h List.not_mem_nil
  · -- What was called later comes behind the same first end.
    have hwhole := run_of_first kept hopen hbefore now (after ++ more)
    rw [← List.cons_append, ← List.append_assoc] at hwhole
    refine ⟨hwhole.1, ?_⟩
    rcases (run_of_first kept hopen hbefore now after).2 with ⟨_, _, _, hclash, _⟩ | ⟨_, _, htaken⟩
    · exact absurd h hclash
    · rcases hwhole.2 with ⟨_, _, _, _, hfree⟩ | ⟨hlines, _⟩
      · exact absurd hfree htaken
      · exact hlines

/-- It is announced when it is ended exactly if no attribute has a reserved name at
    its first end. -/
theorem announced_iff_of_first {m : Mark} (hopen : m.ended = false) {before : List Call}
    (hbefore : ∀ now, .finish now ∉ before) (now : Number) (after : List Call) :
    let a := ({ mark := m } : Account).run kept (before ++ .finish now :: after)
    (a.mark.ended = true ↔ a.lines.length = 1) ↔ Unreserved kept m.attributes before := by
  intro a
  rcases run_of_first kept hopen hbefore now after with
    ⟨hended, ⟨line, hlines, _, _, hfree⟩ | ⟨hlines, _, htaken⟩⟩
  · exact iff_of_true (iff_of_true hended (congrArg List.length hlines)) hfree
  · refine iff_of_false (fun h => ?_) htaken
    have hnone : a.lines.length = 0 := congrArg List.length hlines
    rw [h.mp hended] at hnone
    exact Nat.one_ne_zero hnone

/-- Whichever names the log keeps, a boundary counts as ended as soon as it is ended for
    the first time; it is announced at most once, by a line that names it. It counts as
    ended exactly if it is announced, unless an attribute has a reserved name by the time
    of its first end: then that end clashes, and the boundary counts as ended without a
    line, whatever is called after that. -/
theorem announced_iff (kept : List Text) (id : Text) (attributes : Attributes)
    (startedAt : Number) (calls : List Call) :
    let account := ({ mark := { id, attributes, startedAt } } : Account).run kept
    (((account calls).mark.ended = true ↔ ∃ now, .finish now ∈ calls) ∧
      ((account calls).lines = [] ∨
        ∃ line, (account calls).lines = [line] ∧ TellsEnd id line)) ∧
      (.clash ∈ (account calls).endings ↔
        (account calls).mark.ended = true ∧ (account calls).lines = []) ∧
      (.clash ∈ (account calls).endings → ∀ more,
        (account (calls ++ more)).mark.ended = true ∧ (account (calls ++ more)).lines = []) ∧
      (((account calls).mark.ended = true ↔ (account calls).lines.length = 1) ↔
        ∀ before now after, calls = before ++ .finish now :: after →
          (∀ now, .finish now ∉ before) → Unreserved kept attributes before) := by
  intro account
  have hopen : ({ id, attributes, startedAt } : Mark).ended = false := rfl
  refine ⟨⟨ended_run_iff hopen calls, lines_run hopen calls⟩, clash_mem_iff hopen calls,
    run_of_clash hopen, ?_, ?_⟩
  · rintro h before now after rfl hbefore
    exact (announced_iff_of_first hopen hbefore now after).mp h
  · intro h
    rcases exists_first calls with hnone | ⟨before, now, after, rfl, hbefore⟩
    · -- A boundary that is never ended is not announced either.
      have hlines : (account calls).lines = [] :=
        congrArg (List.filterMap Ending.line?) (Account.run_of_open hnone).2
      rw [hlines]
      refine iff_of_false (fun hended => ?_) Nat.zero_ne_one
      rcases (ended_run_iff hopen calls).mp hended with ⟨now, hnow⟩
      exact hnone now hnow
    · exact (announced_iff_of_first hopen hbefore now after).mpr (h before now after rfl hbefore)

/-- The attribute `elapsed` of the host takes the name of the duration. -/
theorem not_forall_announced :
    ¬ ∀ (id : Text) (attributes : Attributes) (startedAt : Number) (calls : List Call),
      let a := ({ mark := { id, attributes, startedAt } } : Account).run usualNames calls
      a.mark.ended = true ↔ a.lines.length = 1 := by
  intro h
  have helapsed := h "scan-1" [("elapsed", .int 1)] (.whole 0) [.finish (.whole 0)]
  exact absurd (helapsed.mp rfl) (by decide)

end Announcement

end ArchiveCensus
