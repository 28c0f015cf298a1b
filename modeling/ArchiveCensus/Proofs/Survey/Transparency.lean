import ArchiveCensus.Proofs.Inspection.Directory
import ArchiveCensus.Proofs.Survey.Asking

/-!
# A Memory Changes No Answer

A host may ask a survey for a URL, for path arguments, for a source with its
parents, and for everything, in any order and as often as it likes. What it is
told is always what it would be told if nothing were remembered, faults
included, as long as the disk stays as it is.

Scratch copies are the one thing that a memory saves. Each of them has a directory for
itself, and answers are compared without it. That is not enough if the host has chosen a
checksum, rules for the scope or marks that tell one directory from another: what is
remembered was made of an old copy and shows its directory, and what is made anew shows
a different one. So the inspector has to be blind to the directories, as it is with all
that is built in, and `not_exists_fresh` is what happens otherwise.

Nothing is assumed about the clock, not even that it goes forward, nor about the
lifetime and the capacity. They decide what is forgotten, and whatever is not
forgotten is backed. Sources may change from call to call, as only records are
remembered and never the lists that they were found in.

## Main definitions

* `Call`, `Answer`: What a host asks, and what it is told.
* `Call.perform`, `performAll`: Calls of a survey, by way of its memory.
* `Call.afresh`: The answer without a memory.

## Theorems

* `perform_afresh`: One call keeps the memory as it was and answers afresh.
* `performAll_eq_map_afresh`: So does every sequence of calls.
* `not_exists_fresh`: Not if a checksum shows the directory of a copy.
-/

namespace ArchiveCensus

namespace Survey

/-- What a host asks of a survey. -/
inductive Call where
  | url (url : Text)
  | paths (entries : List Text)
  | chain (sources : Sources) (id : Option SourceId)
  | all (scene : Scene)

/-- What a host is told, without the directories of scratch copies. -/
inductive Answer where
  | record (answer : Except Resolution.Fault (Option Record))
  | records (answer : Except Resolution.Fault (Finset Record))

/-- The answer without a memory. -/
def Call.afresh (w : Surroundings) : Call → Answer
  | .url u => .record (Afresh.url w u)
  | .paths entries => .records (.ok (Afresh.arguments w entries))
  | .chain sources id => .records (Afresh.chain w sources id []).1
  | .all c => .records (.ok (Afresh.all w c))

variable {τ : Type} [Add τ] [LT τ] [DecidableRel (α := τ) (· < ·)]

/-- The answer of a survey, and what it remembers then. -/
def Call.perform (w : Site τ) : Call → Memory τ → Answer × Memory τ
  | .url u, m =>
    let (answer, m) := scanUrl w u m
    (.record (answer.map (Option.map Record.erased)), m)
  | .paths entries, m =>
    let (records, m) := scanPaths w entries m
    (.records (.ok (shown records)), m)
  | .chain sources id, m =>
    let (answer, k) := scanChain w sources id { memory := m }
    (.records (answer.map shown), k.memory)
  | .all c, m =>
    let (records, m) := scanAll w c m
    (.records (.ok (shown records)), m)

/-- The answers to calls in this order, and what is remembered in the end. -/
def performAll (w : Site τ) : List Call → Memory τ → List Answer × Memory τ
  | [], m => ([], m)
  | c :: rest, m =>
    let (answer, m) := c.perform w m
    let (answers, m) := performAll w rest m
    (answer :: answers, m)

variable {w : Site τ} {made : List Text} {m : Memory τ}

theorem scanAll_shown (hd : w.disk.Sound) (hi : w.inspector.Blind) (c : Scene)
    (h : Recalls w.toSurroundings made m) :
    ∃ made', made <+: made' ∧ Recalls w.toSurroundings made' (scanAll w c m).2 ∧
      shown (scanAll w c m).1 = Afresh.all w.toSurroundings c := by
  rcases scanStages_toured hd hi c h with ⟨made', hmade, htour⟩
  refine ⟨made', hmade, ?_⟩
  rw [Afresh.all, ← htour.agrees]
  unfold scanAll
  rcases hstages : scanStages w c { memory := m } with ⟨records, fault, k⟩
  rw [hstages] at htour
  cases fault with
  | none => exact ⟨htour.recalls.say _, rfl⟩
  | some f => exact ⟨htour.recalls.say _, rfl⟩

/-- One call leaves a backed memory, and answers as it would without one. -/
theorem perform_afresh (hd : w.disk.Sound) (hi : w.inspector.Blind)
    (h : Recalls w.toSurroundings made m) (c : Call) :
    ∃ made', made <+: made' ∧ Recalls w.toSurroundings made' (c.perform w m).2 ∧
      (c.perform w m).1 = c.afresh w.toSurroundings := by
  cases c with
  | url u =>
      rcases scanUrl_resolved hd hi h u with ⟨made', hmade, hres⟩
      exact ⟨made', hmade, hres.recalls, congrArg Answer.record hres.shown⟩
  | paths entries =>
      -- Path arguments lead to files only, so no copy is made.
      have hgath := scanPathsFrom_gathered hd entries ⟨h, allBacked_nil, shown_nil⟩
      rw [Finset.empty_union] at hgath
      exact ⟨made, List.prefix_refl _, hgath.recalls,
        congrArg (fun s => Answer.records (.ok s)) hgath.shown⟩
  | chain sources id =>
      have hstart : Recalls w.toSurroundings made ({ memory := m } : Walk τ).memory := h
      rcases scanChain_asked hd hi sources id hstart with ⟨made', hmade, hasked⟩
      exact ⟨made', hmade, hasked.recalls,
        congrArg Answer.records (congrArg Prod.fst hasked.agrees)⟩
  | all c =>
      rcases scanAll_shown hd hi c h with ⟨made', hmade, hrecalls, hshown⟩
      exact ⟨made', hmade, hrecalls, congrArg (fun s => Answer.records (.ok s)) hshown⟩

theorem performAll_afresh (hd : w.disk.Sound) (hi : w.inspector.Blind)
    (h : Recalls w.toSurroundings made m) (calls : List Call) :
    ∃ made', made <+: made' ∧ Recalls w.toSurroundings made' (performAll w calls m).2 ∧
      (performAll w calls m).1 = calls.map (Call.afresh w.toSurroundings) := by
  induction calls generalizing m made with
  | nil => exact ⟨made, List.prefix_refl _, h, rfl⟩
  | cons c rest ih =>
      rcases perform_afresh hd hi h c with ⟨made₁, hmade₁, hrecalls, hanswer⟩
      rcases ih hrecalls with ⟨made₂, hmade₂, hrest, hanswers⟩
      refine ⟨made₂, hmade₁.trans hmade₂, hrest, ?_⟩
      rw [List.map_cons, ← hanswer, ← hanswers]
      rfl

/-- Whatever a survey was asked before, and whatever it has forgotten since, its
    answers are those of a survey that remembers nothing, if nothing that sees a path
    tells one scratch directory from another. -/
theorem performAll_eq_map_afresh (w : Site τ) (hd : w.disk.Sound) (hi : w.inspector.Blind)
    (lifetime : τ) (capacity : Nat) (calls : List Call) :
    (performAll w calls (.empty lifetime capacity)).1 =
      calls.map (Call.afresh w.toSurroundings) := by
  rcases performAll_afresh hd hi (recalls_empty w.toSurroundings lifetime capacity) calls
    with ⟨_, _, _, hanswers⟩
  exact hanswers

/-- An archive whose one member `b.jar` is an archive without members. -/
def nestingArchive : ByteArray :=
  ⟨#[80, 75, 3, 4, 20, 0, 0, 0, 0, 0, 0, 0, 33, 0, 14, 197, 203, 215, 22, 0, 0, 0, 22, 0, 0, 0, 5, 0,
    0, 0, 98, 46, 106, 97, 114, 80, 75, 5, 6, 0, 0, 0, 0, 0, 0, 0, 0, 0, 0, 0, 0, 0, 0, 0, 0, 0, 0,
    80, 75, 1, 2, 20, 3, 20, 0, 0, 0, 0, 0, 0, 0, 33, 0, 14, 197, 203, 215, 22, 0, 0, 0, 22, 0, 0, 0,
    5, 0, 0, 0, 0, 0, 0, 0, 0, 0, 0, 0, 128, 1, 0, 0, 0, 0, 98, 46, 106, 97, 114, 80, 75, 5, 6, 0, 0,
    0, 0, 1, 0, 1, 0, 51, 0, 0, 0, 57, 0, 0, 0, 0, 0]⟩

/-- The place of temporary files. -/
def temporary : Path :=
  .parse "/tmp"

/-- A disk with that archive in the current directory, a clock that ticks, and a scratch
    directory of another name for every copy. -/
def nestingSite : Site Nat :=
  { disk := Disk.put ⟨[], ["home"]⟩ ["home", "a.jar"] (.file nestingArchive), clock := id
    inspector :=
      { scratch := fun n =>
          (temporary.child (Inspector.directoryName (List.replicate n 'a'))).toText } }

theorem sound_nestingSite : nestingSite.disk.Sound := by
  have hhome : Path.IsName "home" := ⟨by decide, by decide, by decide⟩
  have harchive : Path.IsName "a.jar" := ⟨by decide, by decide, by decide⟩
  refine Disk.sound_put ⟨fun _ h => absurd h List.not_mem_nil, fun c hc => ?_⟩ (fun c hc => ?_) _
  · rw [List.mem_singleton.mp hc]
    exact ⟨hhome, by decide, by decide⟩
  · rcases List.mem_cons.mp hc with rfl | hc
    · exact hhome
    · rw [List.mem_singleton.mp hc]
      exact harchive

theorem keepsIn_nestingSite : nestingSite.inspector.KeepsIn temporary where
  named := Path.named_parse _
  absolute := Anchor.noConfusion
  directory := fun n => ⟨List.replicate n 'a', fun c hc => by
    rw [List.eq_of_mem_replicate hc]
    decide, rfl⟩

theorem blind_nestingSite : nestingSite.inspector.Blind :=
  Inspector.blind_builtIn keepsIn_nestingSite

/-- The member, asked for twice by its URL, and then the archive by its path. -/
def nestingCalls : List Call :=
  [.url "jar:file:a.jar!/b.jar", .url "jar:file:a.jar!/b.jar", .paths ["a.jar"]]

/-- Three calls with two inspections: the second answer comes from the memory. -/
theorem performAll_nestingCalls :
    nestingSite.disk.Sound ∧ nestingSite.inspector.Blind ∧
      (performAll nestingSite nestingCalls (.empty 100 2)).2.inspected = 2 ∧
      (performAll nestingSite nestingCalls (.empty 100 2)).1 =
        nestingCalls.map (Call.afresh nestingSite.toSurroundings) :=
  ⟨sound_nestingSite, blind_nestingSite, by decide +kernel,
    performAll_eq_map_afresh nestingSite sound_nestingSite blind_nestingSite 100 2 nestingCalls⟩

/-- The same disk, with directories that have different names and with the whole path
    as the checksum. -/
def tellingSite : Site Nat :=
  { nestingSite with
    inspector :=
      { checksum := fun p _ => some p.toText
        scratch := fun n =>
          if n = 0 then "/scratch/nested-archive-a" else "/scratch/nested-archive-b" } }

/-- The checksum that the answer to a URL shows. -/
def Answer.checksum? : Answer → Option Text
  | .record (.ok (some r)) => r.checksum
  | _ => none

/-- A checksum that shows the directory of a copy gives the memory away: the member,
    asked for twice, has one checksum if it is remembered and two if it is not. So the
    answers are a matter of the lifetime, and no survey without a memory has them. -/
theorem not_exists_fresh :
    ¬∃ fresh : Surroundings → List Call → List Answer,
      ∀ (w : Site Nat) (lifetime capacity : Nat) (calls : List Call), w.disk.Sound →
        1 ≤ capacity →
        (performAll w calls (.empty lifetime capacity)).1 = fresh w.toSurroundings calls := by
  rintro ⟨fresh, h⟩
  let twice : List Call := [.url "jar:file:a.jar!/b.jar", .url "jar:file:a.jar!/b.jar"]
  have hkept := h tellingSite 100 1 twice sound_nestingSite (Nat.le_refl 1)
  have hlost := h tellingSite 0 1 twice sound_nestingSite (Nat.le_refl 1)
  have hsame := congrArg (List.map Answer.checksum?) (hkept.trans hlost.symm)
  exact absurd hsame (by decide +kernel)

end Survey

end ArchiveCensus
