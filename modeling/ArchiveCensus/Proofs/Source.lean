import ArchiveCensus.Source
import ArchiveCensus.Proofs.Location.FileUrl
import Mathlib.Data.List.Induction
import Mathlib.Data.List.Nodup

/-!
# What the Source of the Process Lists

The entries of the process come from two lists, its own search path and a variable that
holds paths with colons between them. What should come out are the entries of both in
order, without empty ones and each at its first place, those in URL form unchanged.

The own search path is a list, so its entries are taken as they are. The variable is one
text. It is cut at each colon before anything asks which entries are URLs, and no URL is
without a colon. So an entry of the variable that is in URL form is never among the
entries, unless the own search path has it too; pieces of it are there instead. A path
without a colon is one piece, and so a variable that lists only such paths gives what it
should.

## Main definitions

* `Path.OnDisk`: A path whose names disks can hold.
* `PathList.listed`: The value of a variable that lists entries.
* `PathList.promised`, `PathList.promisedUrls?`: What should come out of two lists.
* `PathList.systemUrls?`: What the source of the process lists.

## Theorems

* `distinctEntries_eq`: Entries are collected at their first places.
* `systemEntries_listed`: The entries are those of the pieces of the variable.
* `not_mem_pieces_of_isUrl`: No piece is in URL form.
* `systemUrls?_ne_of_isUrl`: What is lost of an entry in URL form.
* `systemUrls?_listed`: What comes out, and when it is what should.
-/

namespace ArchiveCensus

namespace Path

variable {p : Path} {t : Text}

theorem isSome_encode?_iff :
    (encode? t).isSome = true ↔ ∀ c ∈ t, (diskBytes? c).isSome = true := by
  induction t with
  | nil => exact iff_of_true rfl fun c hc => absurd hc List.not_mem_nil
  | cons c t ih =>
      rw [List.forall_mem_cons, ← ih, encode?]
      -- There is a name for the whole if there is one for both sides.
      cases diskBytes? c <;> cases encode? t <;> simp

/-- Disks can hold every name in the path. -/
def OnDisk (p : Path) : Prop :=
  p.Throughout fun c => (diskBytes? c).isSome = true

theorem OnDisk.isSome_toUrl? (h : p.OnDisk) : p.toUrl?.isSome = true := by
  rw [toUrl?, Option.isSome_map, isSome_encode?_iff]
  exact Throughout.toText h (by decide) (by decide)

end Path

namespace PathList

open Text

variable {base : Path} {own entries : List Text} {e : Text}

/-! ## Lists of results -/

theorem isSome_mapM {f : Text → Option Text} {texts : List Text}
    (h : ∀ t ∈ texts, (f t).isSome = true) : (texts.mapM f).isSome = true := by
  induction texts with
  | nil => rfl
  | cons t texts ih =>
      rcases Option.isSome_iff_exists.mp (h t List.mem_cons_self) with ⟨x, hx⟩
      rcases Option.isSome_iff_exists.mp (ih fun u hu => h u (List.mem_cons_of_mem t hu))
        with ⟨xs, hxs⟩
      rw [List.mapM_cons, hx, hxs]
      exact Option.isSome_some

theorem length_of_mapM {f : Text → Option Text} {texts images : List Text}
    (h : texts.mapM f = some images) : images.length = texts.length := by
  induction texts generalizing images with
  | nil =>
      rw [List.mapM_nil, Option.pure_def, Option.some.injEq] at h
      rw [← h]
  | cons t texts ih =>
      rw [List.mapM_cons] at h
      simp only [Option.pure_def, Option.bind_eq_bind, Option.bind_eq_some_iff,
        Option.some.injEq] at h
      rcases h with ⟨x, _, xs, hxs, rfl⟩
      rw [List.length_cons, List.length_cons, ih hxs]

theorem exists_of_mem_mapM {f : Text → Option Text} {texts images : List Text}
    (h : texts.mapM f = some images) {x : Text} (hx : x ∈ images) : ∃ t ∈ texts, f t = some x := by
  induction texts generalizing images with
  | nil =>
      rw [List.mapM_nil, Option.pure_def, Option.some.injEq] at h
      rw [← h] at hx
      exact absurd hx List.not_mem_nil
  | cons t texts ih =>
      rw [List.mapM_cons] at h
      simp only [Option.pure_def, Option.bind_eq_bind, Option.bind_eq_some_iff,
        Option.some.injEq] at h
      rcases h with ⟨y, hy, ys, hys, rfl⟩
      rcases List.mem_cons.mp hx with rfl | hx
      · exact ⟨t, List.mem_cons_self, hy⟩
      · rcases ih hys hx with ⟨u, hu, hfu⟩
        exact ⟨u, List.mem_cons_of_mem t hu, hfu⟩

/-! ## Lists of entries -/

/-- The value of a variable that lists entries. -/
def listed (entries : List Text) : Text :=
  joinWith ":" entries

/-- An entry that a variable should be able to list: a path without a colon, or a URL. -/
def IsEntry (e : Text) : Prop :=
  CodePoint.ofChar ':' ∉ e ∨ Location.isUrl e = true

/-- The entries of both lists in order, without empty ones and each at its first place. -/
def promised (own entries : List Text) : List Text :=
  ((own ++ entries).filter (!·.isEmpty)).eraseDups

/-- The entries as URLs: those in URL form unchanged, and the others as files. -/
def promisedUrls? (base : Path) (own entries : List Text) : Option (List Text) :=
  (promised own entries).mapM fun e =>
    if Location.isUrl e then some e else (Path.absolute base (Path.parse e)).toUrl?

/-- What the source of the process lists, if it can be made. -/
def systemUrls? (base : Path) (own : List Text) (value : Option Text) : Option (List Text) :=
  (ofEntries? base (systemEntries own value) "system").map urls

/-- Collecting an entry behind others is collecting it unless it is there. -/
theorem eraseDups_concat (front : List Text) (e : Text) :
    (front ++ [e]).eraseDups = if e ∈ front then front.eraseDups else front.eraseDups ++ [e] := by
  rw [List.eraseDups_append]
  by_cases he : e ∈ front
  · have hgone : [e].removeAll front = [] := by
      rw [List.removeAll, List.filter_cons_of_neg (by simp [he]), List.filter_nil]
    rw [if_pos he, hgone, List.eraseDups_nil, List.append_nil]
  · have hnew : [e].removeAll front = [e] := by
      rw [List.removeAll, List.filter_cons_of_pos (by simp [he]), List.filter_nil]
    rw [if_neg he, hnew]
    rfl

/-- Entries are collected at their first places. -/
theorem distinctEntries_eq (entries : List Text) :
    distinctEntries entries = (entries.filter (!·.isEmpty)).eraseDups := by
  -- From the right, as the collection goes on from what stands in front.
  induction entries using List.reverseRecOn with
  | nil => rfl
  | append_singleton front e ih =>
      have hstep : distinctEntries (front ++ [e])
          = if e.isEmpty || e ∈ distinctEntries front then distinctEntries front
            else distinctEntries front ++ [e] := by
        rw [distinctEntries, List.foldl_concat]
        rfl
      rw [hstep, ih, List.filter_append]
      cases hempty : e.isEmpty with
      | true =>
          rw [List.filter_cons_of_neg (by simp [hempty]), List.filter_nil, List.append_nil,
            Bool.true_or, if_pos rfl]
      | false =>
          rw [List.filter_cons_of_pos (by simp [hempty]), List.filter_nil, eraseDups_concat,
            Bool.false_or]
          simp only [List.mem_eraseDups, decide_eq_true_eq]

theorem mem_promised_iff : e ∈ promised own entries ↔ e ≠ [] ∧ (e ∈ own ∨ e ∈ entries) := by
  rw [promised, List.mem_eraseDups, List.mem_filter, List.mem_append, and_comm,
    Bool.not_eq_true', List.isEmpty_eq_false_iff]

/-- A second list adds what is new in it. -/
theorem promised_eq (own entries : List Text) :
    promised own entries = promised own [] ++
      ((entries.filter (!·.isEmpty)).removeAll (own.filter (!·.isEmpty))).eraseDups := by
  rw [promised, promised, List.append_nil, List.filter_append, List.eraseDups_append]

theorem promised_self (own : List Text) : promised own own = promised own [] := by
  have hnothing : (own.filter (!·.isEmpty)).removeAll (own.filter (!·.isEmpty)) = [] := by
    rw [List.removeAll, List.filter_eq_nil_iff]
    intro e he
    simp only [List.elem_eq_mem, he, decide_true, Bool.not_true, Bool.false_eq_true,
      not_false_eq_true]
  rw [promised_eq, hnothing, List.eraseDups_nil, List.append_nil]

theorem length_promised_lt (he : e ∈ entries) (hne : e ≠ []) (hown : e ∉ own) :
    (promised own own).length < (promised own entries).length := by
  have hnew : e ∈ (entries.filter (!·.isEmpty)).removeAll (own.filter (!·.isEmpty)) := by
    simp [List.removeAll, he, hne, hown]
  have hadded := List.length_pos_of_mem (List.mem_eraseDups.mpr hnew)
  rw [promised_self, promised_eq own entries, List.length_append]
  omega

/-! ## The variable -/

/-- The entries are those of the pieces of the variable. -/
theorem systemEntries_eq (own : List Text) (value : Text) :
    systemEntries own (some value) = promised own (pieces ':' value) := by
  rw [systemEntries, distinctEntries_eq, searchPath, Option.getD_some, promised,
    List.filter_append, List.filter_filter, List.filter_append]
  simp only [Bool.and_self]

theorem pieces_listed (h : entries ≠ []) :
    pieces ':' (listed entries) = entries.flatMap (pieces ':') := by
  have hcolon : Text.ofString ":" = [CodePoint.ofChar ':'] := by decide
  rw [listed, hcolon, pieces_joinWith_flatMap h]

theorem mem_pieces_listed {p : Text} (hp : p ∈ entries.flatMap (pieces ':')) :
    p ∈ pieces ':' (listed entries) := by
  rcases List.mem_flatMap.mp hp with ⟨e, he, _⟩
  rwa [pieces_listed (List.ne_nil_of_mem he)]

theorem systemEntries_listed (own entries : List Text) :
    systemEntries own (some (listed entries)) = promised own (entries.flatMap (pieces ':')) := by
  rw [systemEntries_eq]
  by_cases hnone : entries = []
  · -- The empty value has one piece, an empty one.
    rw [hnone, List.flatMap_nil, promised, promised, List.filter_append, List.filter_append]
    rfl
  · rw [pieces_listed hnone]

theorem systemUrls?_listed_eq (base : Path) (own entries : List Text) :
    systemUrls? base own (some (listed entries))
      = promisedUrls? base own (entries.flatMap (pieces ':')) := by
  rw [systemUrls?, ofEntries?, Option.map_map, systemEntries_listed]
  exact Option.map_id'

theorem colon_mem_of_isUrl (h : Location.isUrl e = true) : CodePoint.ofChar ':' ∈ e := by
  have hfile : CodePoint.ofChar ':' ∈ Text.ofString "file:" := by decide
  have hjar : CodePoint.ofChar ':' ∈ Text.ofString "jar:" := by decide
  rw [Location.isUrl, Bool.or_eq_true, startsWith, startsWith, List.isPrefixOf_iff_prefix,
    List.isPrefixOf_iff_prefix] at h
  rcases h with h | h
  · exact h.mem hfile
  · exact h.mem hjar

/-- No piece is in URL form. -/
theorem not_mem_pieces_of_isUrl (h : Location.isUrl e = true) (value : Text) :
    e ∉ pieces ':' value := fun hmem =>
  not_mem_of_mem_pieces hmem (colon_mem_of_isUrl h)

/-- What is in URL form is an entry if the own search path has it, and the variable plays
    no part. -/
theorem mem_systemEntries_of_isUrl (h : Location.isUrl e = true) (own : List Text) (value : Text) :
    e ∈ systemEntries own (some value) ↔ e ∈ own := by
  have hne : e ≠ [] := List.ne_nil_of_mem (colon_mem_of_isUrl h)
  rw [systemEntries_eq, mem_promised_iff]
  exact ⟨fun hmem => hmem.2.resolve_right (not_mem_pieces_of_isUrl h value),
    fun hmem => ⟨hne, .inl hmem⟩⟩

/-! ## The URLs -/

theorem isSome_promisedUrls? (hbase : base.OnDisk)
    (h : ∀ e ∈ promised own entries, (Path.encode? e).isSome = true) :
    (promisedUrls? base own entries).isSome = true := by
  rw [promisedUrls?]
  refine isSome_mapM fun e he => ?_
  by_cases hurl : Location.isUrl e = true
  · rw [if_pos hurl]
    rfl
  · rw [if_neg hurl]
    have hpath := Path.throughout_parse (Path.isSome_encode?_iff.mp (h e he))
    exact Path.OnDisk.isSome_toUrl? (Path.throughout_absolute hpath (.inr hbase))

section Named

variable (hlisted : (Path.encode? (listed entries)).isSome = true)
include hlisted

/-- Disks can hold the pieces of a value if they can hold the value. -/
theorem isSome_encode?_of_mem {p : Text} (hp : p ∈ entries.flatMap (pieces ':')) :
    (Path.encode? p).isSome = true := by
  rw [Path.isSome_encode?_iff] at hlisted ⊢
  exact fun c hc => hlisted c (mem_of_mem_pieces (mem_pieces_listed hp) hc)

theorem isSome_systemUrls? (hbase : base.OnDisk)
    (hown : ∀ e ∈ own, (Path.encode? e).isSome = true) :
    (systemUrls? base own (some (listed entries))).isSome = true := by
  rw [systemUrls?_listed_eq]
  refine isSome_promisedUrls? hbase fun p hp => ?_
  rcases (mem_promised_iff.mp hp).2 with hp | hp
  · exact hown p hp
  · exact isSome_encode?_of_mem hlisted hp

/-- Where the own search path has all pieces of the variable already, a URL of the variable
    should be listed behind them and nothing is. -/
theorem systemUrls?_ne_of_isUrl (hbase : base.OnDisk) (he : e ∈ entries)
    (hurl : Location.isUrl e = true) :
    systemUrls? base (entries.flatMap (pieces ':')) (some (listed entries))
      ≠ promisedUrls? base (entries.flatMap (pieces ':')) entries := by
  intro heq
  have hmade := isSome_systemUrls? hlisted hbase fun p hp => isSome_encode?_of_mem hlisted hp
  rcases Option.isSome_iff_exists.mp hmade with ⟨urls, hurls⟩
  rw [hurls] at heq
  rw [systemUrls?_listed_eq] at hurls
  -- Both lists are made the same URLs, but one of them is longer.
  have hactual := length_of_mapM hurls
  have hpromised := length_of_mapM heq.symm
  have hmissing : e ∉ entries.flatMap (pieces ':') := fun hmem =>
    not_mem_pieces_of_isUrl hurl (listed entries) (mem_pieces_listed hmem)
  have hlonger := length_promised_lt he (List.ne_nil_of_mem (colon_mem_of_isUrl hurl)) hmissing
  omega

end Named

/-- From two lists of entries the pieces of the variable come out, each at its first place,
    and what is in URL form only from the own search path; some list comes out if disks can
    hold the names. It is what should come out, whatever the own search path is, exactly if
    no entry of the variable is in URL form. -/
theorem systemUrls?_listed (hbase : base.OnDisk)
    (hlisted : (Path.encode? (listed entries)).isSome = true)
    (hentries : ∀ e ∈ entries, IsEntry e) :
    (∀ own, systemUrls? base own (some (listed entries))
        = promisedUrls? base own (entries.flatMap (pieces ':'))) ∧
      (∀ own : List Text, (∀ e ∈ own, (Path.encode? e).isSome = true) →
        ∃ urls, systemUrls? base own (some (listed entries)) = some urls) ∧
      ((∀ own, systemUrls? base own (some (listed entries)) = promisedUrls? base own entries) ↔
        ∀ e ∈ entries, Location.isUrl e = false) ∧
      ∀ own e, Location.isUrl e = true →
        (e ∈ systemEntries own (some (listed entries)) ↔ e ∈ own) := by
  refine ⟨fun own => systemUrls?_listed_eq base own entries, ?_, ⟨?_, ?_⟩,
    fun own e hurl => mem_systemEntries_of_isUrl hurl own _⟩
  · intro own hown
    exact Option.isSome_iff_exists.mp (isSome_systemUrls? hlisted hbase hown)
  · intro hall e he
    by_contra hurl
    exact systemUrls?_ne_of_isUrl hlisted hbase he (Bool.of_not_eq_false hurl) (hall _)
  · intro hpaths own
    have hfree : ∀ e ∈ entries, CodePoint.ofChar ':' ∉ e := fun e he =>
      (hentries e he).resolve_right (Bool.eq_false_iff.mp (hpaths e he))
    rw [systemUrls?_listed_eq, flatMap_pieces_eq_self hfree]

/-- A path that stands twice, an empty entry, and a URL in each list. -/
theorem systemUrls?_listed_jars :
    let base : Path := Path.parse "/vroot"
    let own : List Text := ["jar:file:/c.jar!/d.jar", "b.jar"]
    let entries : List Text := ["a.jar", "", "b.jar", "file:/e.jar", "a.jar"]
    let urls : List Text := ["jar:file:/c.jar!/d.jar", "file:///vroot/b.jar",
      "file:///vroot/a.jar", "file:///vroot/file", "file:///e.jar"]
    base.OnDisk ∧ (Path.encode? (listed entries)).isSome = true ∧ (∀ e ∈ entries, IsEntry e) ∧
      systemUrls? base own (some (listed entries)) = some urls ∧
      ¬(∀ own, systemUrls? base own (some (listed entries)) = promisedUrls? base own entries) ∧
      Text.ofString "file:/e.jar" ∉ systemEntries own (some (listed entries)) := by
  intro base own entries urls
  have hbase : base.OnDisk := by
    unfold Path.OnDisk Path.Throughout
    decide
  have hlisted : (Path.encode? (listed entries)).isSome = true := by decide
  have hentries : ∀ e ∈ entries, IsEntry e := by
    unfold IsEntry
    decide
  rcases systemUrls?_listed hbase hlisted hentries with ⟨hpieces, _, hpromised, hgone⟩
  refine ⟨hbase, hlisted, hentries, ?_, ?_, ?_⟩
  · rw [hpieces]
    decide
  · rw [hpromised]
    decide
  · rw [hgone own _ (by decide)]
    decide

/-- An entry in URL form is listed as its scheme and its rest. -/
theorem not_forall_promised :
    ¬∀ (base : Path) (own entries : List Text), (∀ e ∈ entries, IsEntry e) →
      systemUrls? base own (some (listed entries)) = promisedUrls? base own entries := by
  intro hall
  let entries : List Text := ["file:/a.jar"]
  let actual : List Text := ["file:///vroot/file", "file:///a.jar"]
  have hentries : ∀ e ∈ entries, IsEntry e := by
    unfold IsEntry
    decide
  have hactual : systemUrls? (Path.parse "/vroot") [] (some (listed entries)) = some actual := by
    decide
  have hpromised : promisedUrls? (Path.parse "/vroot") [] entries = some entries := by
    decide
  have hwrong := hall (Path.parse "/vroot") [] entries hentries
  rw [hactual, hpromised] at hwrong
  exact absurd (congrArg List.length (Option.some.inj hwrong)) (by decide)

end PathList

end ArchiveCensus
