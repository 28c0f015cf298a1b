import ArchiveCensus.Proofs.Properties.Spelling
import Mathlib.Data.List.TakeWhile

/-!
# Backslashes Come in Pairs

A backslash escapes the code point behind it, so none may stand alone at the end
of what is read. The joining of natural lines sees to that: a natural line that
ends in an odd number of backslashes loses the last one, and is continued; every
other one ends in an even number of them. What is joined from such pieces ends
in an even number as well, however many pieces there are, and also if the
content ends where a line should go on.

The other passes rely on it. The search for the end of a key advances by one
code point, or by two past an escape, and what lies behind it is paired off at
every moment. So the search does not leave the line, never stands between a
backslash and what it escapes, and cuts the line into two texts that are paired
off themselves. In a text of this kind every backslash begins an escape that is
complete.

## Main definitions

* `advance?`, `Visits`, `Stops`: Where the search for the end of a key gets to,
  and where it ends.
* `EscapesAt`: A backslash that is not escaped itself.
* `Resolves`: A text read escape by escape.

## Theorems

* `continues_append_left`: What is paired off makes no difference to what
  follows it.
* `joinLines_paired`: Logical lines are paired off.
* `Visits.paired`: So is all that the search has passed.
* `exists_stops`: The search finds the key.
* `exists_parts`: The key and the value of a line, and the escapes in them.
* `resolves_iff`: The texts that consist of complete escapes are those that are
  paired off.
* `logicalLines_paired`: All this for the logical lines of a content.
-/

namespace ArchiveCensus

namespace Properties

open Text

/-! ## Texts that are paired off -/

/-- What is paired off makes no difference to what follows it. -/
theorem continues_append_left {t : Text} (ht : continues t = false) (u : Text) :
    continues (t ++ u) = continues u := by
  rw [continues_eq_false_iff] at ht
  have hsame :
      trailingCount (· = backslash) (t ++ u) % 2 = trailingCount (· = backslash) u % 2 := by
    rw [trailingCount_append]
    by_cases hall : u.all (· = backslash)
    · have hcount := trailingCount_append (· = backslash) [] u
      have hnone : trailingCount (· = backslash) [] = 0 := rfl
      rw [List.nil_append, if_pos hall, hnone, Nat.zero_add] at hcount
      rw [if_pos hall, hcount]
      omega
    · rw [if_neg hall]
  simp only [continues, hsame]

theorem continues_pair (d : CodePoint) : continues [backslash, d] = false := by
  by_cases hd : d = backslash
  · rw [hd]
    decide
  · exact continues_concat_of_ne hd [backslash]

theorem continues_cons {c : CodePoint} (hc : c ≠ backslash) (t : Text) :
    continues (c :: t) = continues t :=
  continues_append_left (continues_concat_of_ne hc []) t

theorem continues_escape (d : CodePoint) (t : Text) :
    continues (backslash :: d :: t) = continues t :=
  continues_append_left (continues_pair d) t

/-- A line that goes on is paired off without its last backslash. -/
theorem continues_dropLast {t : Text} (ht : continues t = true) :
    continues t.dropLast = false := by
  rcases List.eq_nil_or_concat t with rfl | ⟨u, c, rfl⟩
  · exact absurd ht (by decide)
  · rw [List.concat_eq_append] at ht ⊢
    rw [List.dropLast_concat]
    by_cases hc : c = backslash
    · subst hc
      have hcount := trailingCount_append (· = backslash) u [backslash]
      have hall : [backslash].all (fun c => decide (c = backslash)) = true := by decide
      rw [if_pos hall, List.length_singleton] at hcount
      simp only [continues, hcount, decide_eq_true_eq] at ht
      rw [continues_eq_false_iff]
      omega
    · exact absurd ht (by rw [continues_concat_of_ne hc]; exact Bool.false_ne_true)

/-- Logical lines are paired off if what is pending is. -/
theorem joinLines_paired {pending : Option Text} (hp : continues (pending.getD []) = false)
    (natural : List Text) : ∀ line ∈ joinLines pending natural, continues line = false := by
  induction natural generalizing pending with
  | nil =>
      intro line hline
      cases pending with
      | none => exact absurd hline List.not_mem_nil
      | some p =>
          -- The content ends where the line should go on.
          rw [joinLines, List.mem_singleton] at hline
          exact hline ▸ hp
  | cons raw rest ih =>
      rw [joinLines]
      split
      · exact ih (by decide)
      · split
        · rename_i hodd
          exact ih (continues_append hp (continues_dropLast hodd))
        · rename_i heven
          intro line hline
          rcases List.mem_cons.mp hline with rfl | hline
          · exact continues_append hp (Bool.eq_false_iff.mpr heven)
          · exact ih (by decide) line hline

/-! ## The search for the end of a key -/

/-- Where the search for the end of a key goes from a place in a line, if it goes
    on. -/
def advance? (s : Text) (place : Nat) : Option Nat :=
  match s[place]? with
  | none => none
  | some c =>
    if c = backslash then some (place + 2)
    else if endsKey c then none
    else some (place + 1)

/-- The places that the search gets to. -/
inductive Visits (line : Text) : Nat → Prop
  | start : Visits line 0
  | advance {place next : Nat} (h : Visits line place) (hnext : advance? line place = some next) :
      Visits line next

/-- The backslash at a place escapes the code point behind it: right in front of it
    there is an even number of backslashes. -/
def EscapesAt (s : Text) (place : Nat) : Prop :=
  s[place]? = some backslash ∧ continues (s.take place) = false

variable {line s : Text} {place : Nat}

theorem take_succ_of_getElem? {c : CodePoint} (h : s[place]? = some c) :
    s.take (place + 1) = s.take place ++ [c] := by
  rw [List.take_add_one, h]
  rfl

theorem EscapesAt.continues_take (h : EscapesAt line place) :
    continues (line.take (place + 1)) = true := by
  rw [take_succ_of_getElem? h.1]
  exact continues_concat h.2

/-- In a line that is paired off something stands behind each backslash that
    escapes. -/
theorem EscapesAt.lt_length (h : EscapesAt line place) (hline : continues line = false) :
    place + 1 < line.length := by
  refine Nat.lt_of_not_le fun hlast => ?_
  have hwhole : line.take (place + 1) = line := List.take_of_length_le hlast
  have hodd := h.continues_take
  rw [hwhole, hline] at hodd
  exact Bool.false_ne_true hodd

theorem advance?_cases {next : Nat} (h : advance? s place = some next) :
    (s[place]? = some backslash ∧ next = place + 2) ∨
      ∃ c, s[place]? = some c ∧ c ≠ backslash ∧ next = place + 1 := by
  unfold advance? at h
  split at h
  · exact absurd h (by simp only [reduceCtorEq, not_false_eq_true])
  · rename_i c hc
    by_cases hb : c = backslash
    · rw [if_pos hb] at h
      exact .inl ⟨hb ▸ hc, (Option.some.inj h).symm⟩
    · rw [if_neg hb] at h
      split at h
      · exact absurd h (by simp only [reduceCtorEq, not_false_eq_true])
      · exact .inr ⟨c, hc, hb, (Option.some.inj h).symm⟩

/-- The search stays inside a line that is paired off, and what it has passed is
    paired off, too. -/
theorem Visits.paired (hline : continues line = false) (h : Visits line place) :
    place ≤ line.length ∧ continues (line.take place) = false := by
  induction h with
  | start => exact ⟨Nat.zero_le _, by rw [List.take_zero]; decide⟩
  | @advance place next _ hnext ih =>
      rcases advance?_cases hnext with ⟨hb, rfl⟩ | ⟨c, hc, hne, rfl⟩
      · -- The backslash escapes, so the line has a code point behind it.
        have hlt := EscapesAt.lt_length ⟨hb, ih.2⟩ hline
        refine ⟨hlt, ?_⟩
        rw [take_succ_of_getElem? (List.getElem?_eq_getElem hlt), take_succ_of_getElem? hb,
          List.append_assoc, continues_append_left ih.2]
        exact continues_pair _
      · obtain ⟨hlt, -⟩ := List.getElem?_eq_some_iff.mp hc
        refine ⟨hlt, ?_⟩
        rw [take_succ_of_getElem? hc]
        exact continues_concat_of_ne hne _

/-- The search never stands between a backslash and what it escapes. -/
theorem Visits.ne_of_escapesAt (hline : continues line = false) {stop : Nat}
    (h : Visits line stop) (hi : EscapesAt line place) : stop ≠ place + 1 := by
  rintro rfl
  have hodd := hi.continues_take
  rw [(h.paired hline).2] at hodd
  exact Bool.false_ne_true hodd

theorem advance?_append (front t : Text) (n : Nat) :
    advance? (front ++ t) (front.length + n) = (advance? t n).map (front.length + ·) := by
  unfold advance?
  rw [List.getElem?_append_right (Nat.le_add_right _ _), Nat.add_sub_cancel_left]
  cases t[n]? with
  | none => rfl
  | some c =>
      dsimp only
      split
      · rfl
      · split <;> rfl

/-- Behind a text that the search passes it goes on as if that were not there. -/
theorem Visits.append {front t : Text} {n : Nat} (hfront : Visits (front ++ t) front.length)
    (h : Visits t n) : Visits (front ++ t) (front.length + n) := by
  induction h with
  | start => exact hfront
  | advance _ hnext ih => exact ih.advance (by rw [advance?_append, hnext]; rfl)

/-- The search ends at the place, and what it has passed is the key. -/
structure Stops (line : Text) (stop : Nat) : Prop where
  visits : Visits line stop
  rests : advance? line stop = none
  splitKey_eq : splitKey line = (line.take stop, line.drop stop)

theorem Stops.append {front t : Text} {n : Nat} (hfront : Visits (front ++ t) front.length)
    (hsplit : splitKey (front ++ t) = (front ++ (splitKey t).1, (splitKey t).2))
    (h : Stops t n) : Stops (front ++ t) (front.length + n) where
  visits := hfront.append h.visits
  rests := by rw [advance?_append, h.rests]; rfl
  splitKey_eq := by
    rw [hsplit, h.splitKey_eq, List.take_length_add_append, List.drop_length_add_append]

theorem stops_of_endsKey {c : CodePoint} (hc : endsKey c = true) (t : Text) :
    Stops (c :: t) 0 where
  visits := .start
  rests := by
    simp only [advance?, List.getElem?_cons_zero, if_neg (ne_backslash_of_endsKey hc), if_pos hc]
  splitKey_eq := by
    rw [splitKey_cons (ne_backslash_of_endsKey hc), if_pos hc]
    rfl

theorem Stops.cons {c : CodePoint} (hc : c ≠ backslash) (hkept : endsKey c = false) {t : Text}
    {n : Nat} (h : Stops t n) : Stops (c :: t) (1 + n) := by
  have hone : advance? ([c] ++ t) 0 = some [c].length := by simp [advance?, hc, hkept]
  refine h.append (Visits.start.advance hone) ?_
  rw [List.singleton_append, splitKey_cons hc, hkept]
  rfl

theorem Stops.escape (d : CodePoint) {t : Text} {n : Nat} (h : Stops t n) :
    Stops (backslash :: d :: t) (2 + n) := by
  have htwo : advance? ([backslash, d] ++ t) 0 = some [backslash, d].length := by simp [advance?]
  exact h.append (Visits.start.advance htwo) (splitKey_escape d t)

theorem exists_stops (line : Text) : ∃ stop, Stops line stop := by
  have hempty : Stops [] 0 := ⟨.start, rfl, rfl⟩
  induction line using splitKey.induct with
  | case1 => exact ⟨0, hempty⟩
  | case2 c hc => exact ⟨0, stops_of_endsKey hc.2 []⟩
  | case3 c hc =>
      by_cases hb : c = backslash
      · -- The search leaves a line that ends in a backslash of its own.
        rw [hb]
        exact ⟨2, Visits.start.advance rfl, rfl, rfl⟩
      · have hkept : endsKey c = false := Bool.eq_false_iff.mpr fun h => hc ⟨hb, h⟩
        exact ⟨1, hempty.cons hb hkept⟩
  | case4 d rest ih =>
      obtain ⟨n, hn⟩ := ih
      exact ⟨2 + n, hn.escape d⟩
  | case5 c d rest hb hends => exact ⟨0, stops_of_endsKey hends (d :: rest)⟩
  | case6 c d rest hb hkept ih =>
      obtain ⟨n, hn⟩ := ih
      exact ⟨1 + n, hn.cons hb (Bool.eq_false_iff.mpr hkept)⟩

/-! ## Complete escapes -/

/-- The text read escape by escape: a backslash stands for what it escapes, or for a
    code point if four digits follow, and nothing else is read together. -/
inductive Resolves : Text → Text → Prop
  | nil : Resolves [] []
  | plain {c : CodePoint} {t u : Text} (hc : c ≠ backslash) (h : Resolves t u) :
      Resolves (c :: t) (c :: u)
  | short {d : CodePoint} {t u : Text}
      (hd : d = 'u' → ∀ h₁ h₂ h₃ h₄ tail,
        t = h₁ :: h₂ :: h₃ :: h₄ :: tail → hex4? h₁ h₂ h₃ h₄ = none)
      (h : Resolves t u) : Resolves (backslash :: d :: t) (escaped d :: u)
  | long {h₁ h₂ h₃ h₄ : CodePoint} {n : Nat} {t u : Text} (hn : hex4? h₁ h₂ h₃ h₄ = some n)
      (h : Resolves t u) :
      Resolves (backslash :: CodePoint.ofChar 'u' :: h₁ :: h₂ :: h₃ :: h₄ :: t) (.ofNat n :: u)

theorem ne_backslash_of_hexValue? {c : CodePoint} {n : Nat} (h : c.hexValue? = some n) :
    c ≠ backslash := by
  rintro rfl
  have hnone : backslash.hexValue? = none := by decide
  rw [hnone] at h
  exact absurd h (by simp only [reduceCtorEq, not_false_eq_true])

theorem continues_of_hex4? {h₁ h₂ h₃ h₄ : CodePoint} {n : Nat}
    (h : hex4? h₁ h₂ h₃ h₄ = some n) (t : Text) :
    continues (h₁ :: h₂ :: h₃ :: h₄ :: t) = continues t := by
  unfold hex4? at h
  split at h
  · rename_i ha hb hc hd
    rw [continues_cons (ne_backslash_of_hexValue? ha),
      continues_cons (ne_backslash_of_hexValue? hb), continues_cons (ne_backslash_of_hexValue? hc),
      continues_cons (ne_backslash_of_hexValue? hd)]
  · exact absurd h (by simp only [reduceCtorEq, not_false_eq_true])

theorem unescape_short {d : CodePoint} {t : Text}
    (hd : d = 'u' → ∀ h₁ h₂ h₃ h₄ tail,
      t = h₁ :: h₂ :: h₃ :: h₄ :: tail → hex4? h₁ h₂ h₃ h₄ = none) :
    unescape (backslash :: d :: t) = escaped d :: unescape t := by
  by_cases hu : d = 'u'
  · subst hu
    have hself : escaped 'u' = 'u' := by decide
    rw [unescape.eq_def, hself]
    simp only [if_true]
    split
    · rename_i h₁ h₂ h₃ h₄ tail
      rw [hd rfl h₁ h₂ h₃ h₄ tail rfl]
    · rfl
  · exact unescape_escape hu t

/-- The texts that consist of complete escapes are those that are paired off, and
    unescaping reads them. -/
theorem resolves_iff {t u : Text} : Resolves t u ↔ continues t = false ∧ unescape t = u := by
  constructor
  · intro h
    induction h with
    | nil => exact ⟨by decide, by rw [unescape]⟩
    | plain hc _ ih => exact ⟨(continues_cons hc _).trans ih.1, by rw [unescape_cons hc, ih.2]⟩
    | short hd _ ih =>
        exact ⟨(continues_escape _ _).trans ih.1, by rw [unescape_short hd, ih.2]⟩
    | long hn _ ih =>
        refine ⟨?_, by rw [unescape_hex hn, ih.2]⟩
        rw [continues_escape, continues_of_hex4? hn, ih.1]
  · rintro ⟨ht, rfl⟩
    induction t using unescape.induct with
    | case1 =>
        rw [unescape]
        exact .nil
    | case2 c =>
        -- A backslash alone is not paired off.
        have hc : c ≠ backslash := by
          rintro rfl
          exact absurd ht (by decide)
        rw [unescape_cons hc, unescape]
        exact .plain hc .nil
    | case3 h₁ h₂ h₃ h₄ tail n hn ih =>
        rw [continues_escape, continues_of_hex4? hn] at ht
        rw [unescape_hex hn]
        exact .long hn (ih ht)
    | case4 h₁ h₂ h₃ h₄ tail hn ih =>
        rw [continues_escape] at ht
        have hd : CodePoint.ofChar 'u' = 'u' → ∀ a b c d rest,
            h₁ :: h₂ :: h₃ :: h₄ :: tail = a :: b :: c :: d :: rest → hex4? a b c d = none := by
          rintro - a b c d rest heq
          cases heq
          exact hn
        rw [unescape_short hd]
        exact .short hd (ih ht)
    | case5 short hshort ih =>
        rw [continues_escape] at ht
        have hd : CodePoint.ofChar 'u' = 'u' → ∀ a b c d rest,
            short = a :: b :: c :: d :: rest → hex4? a b c d = none :=
          fun _ a b c d rest heq => (hshort a b c d rest heq).elim
        rw [unescape_short hd]
        exact .short hd (ih ht)
    | case6 d rest hd ih =>
        rw [continues_escape] at ht
        rw [unescape_escape hd]
        exact .short (fun h => absurd h hd) (ih ht)
    | case7 c d rest hc ih =>
        rw [continues_cons hc] at ht
        rw [unescape_cons hc]
        exact .plain hc (ih ht)

/-! ## Logical lines -/

theorem endsKey_of_mem_takeWhile {t : Text} {c : CodePoint} (h : c ∈ t.takeWhile isSpace) :
    endsKey c = true := by
  rw [endsKey, List.mem_takeWhile_imp h, Bool.or_true]

/-- Between a key and its value nothing is written but what separates them. -/
theorem exists_gap (t : Text) : ∃ gap, t = gap ++ valueOf t ∧ ∀ c ∈ gap, endsKey c = true := by
  have hcut : t.takeWhile isSpace ++ t.dropWhile isSpace = t := List.takeWhile_append_dropWhile
  unfold valueOf
  cases hrest : t.dropWhile isSpace with
  | nil =>
      rw [hrest] at hcut
      exact ⟨t.takeWhile isSpace, hcut.symm, fun _ => endsKey_of_mem_takeWhile⟩
  | cons c rest =>
      rw [hrest] at hcut
      dsimp only
      by_cases hc : c = '=' ∨ c = ':'
      · rw [if_pos hc]
        refine ⟨t.takeWhile isSpace ++ c :: rest.takeWhile isSpace, ?_, ?_⟩
        · rw [List.append_assoc, List.cons_append, List.takeWhile_append_dropWhile, hcut]
        · intro d hd
          rcases List.mem_append.mp hd with hd | hd
          · exact endsKey_of_mem_takeWhile hd
          · rcases List.mem_cons.mp hd with rfl | hd
            · rcases hc with rfl | rfl <;> decide
            · exact endsKey_of_mem_takeWhile hd
      · rw [if_neg hc]
        exact ⟨t.takeWhile isSpace, hcut.symm, fun _ => endsKey_of_mem_takeWhile⟩

/-- The key, what separates it from its value, and the value of a line that is
    paired off. Each backslash that escapes stands in the key or in the value, along
    with what it escapes. -/
theorem exists_parts (hline : continues line = false) {stop : Nat} (hstop : Stops line stop) :
    let key := (splitKey line).1
    let value := valueOf (splitKey line).2
    key.length = stop ∧ continues key = false ∧ continues value = false ∧
      ∃ gap, line = key ++ gap ++ value ∧ (∀ c ∈ gap, endsKey c = true) ∧
        ∀ place, EscapesAt line place → place + 1 < key.length ∨
          (key ++ gap).length ≤ place ∧ place + 1 < line.length := by
  intro key value
  obtain ⟨hle, hkey⟩ := hstop.visits.paired hline
  have hkey_eq : key = line.take stop := congrArg Prod.fst hstop.splitKey_eq
  have hrest_eq : (splitKey line).2 = line.drop stop := congrArg Prod.snd hstop.splitKey_eq
  have hlength : key.length = stop := by rw [hkey_eq, List.length_take_of_le hle]
  obtain ⟨gap, hgap, hends⟩ := exists_gap (splitKey line).2
  have hcut : line = key ++ gap ++ value := by
    rw [List.append_assoc, ← hgap, hkey_eq, hrest_eq, List.take_append_drop]
  have hfront : continues (key ++ gap) = false := by
    refine continues_append (hkey_eq ▸ hkey) (continues_of_not_mem fun h => ?_)
    exact ne_backslash_of_endsKey (hends _ h) rfl
  refine ⟨hlength, hkey_eq ▸ hkey, ?_, gap, hcut, hends, fun place hplace => ?_⟩
  · rw [← continues_append_left hfront value, ← hcut]
    exact hline
  · have hne := hstop.visits.ne_of_escapesAt hline hplace
    rw [← hlength] at hne
    rcases Nat.lt_or_ge (place + 1) key.length with hin | hout
    · exact .inl hin
    · refine .inr ⟨Nat.le_of_not_lt fun hlt => ?_, hplace.lt_length hline⟩
      -- What separates key and value is no backslash.
      have hmem : backslash ∈ gap := by
        have hget := hplace.1
        rw [hcut, List.getElem?_append_left hlt, List.getElem?_append_right (by omega)] at hget
        exact List.mem_of_getElem? hget
      exact ne_backslash_of_endsKey (hends _ hmem) rfl

/-- A logical line ends in an even number of backslashes. So the search for the end
    of its key stays inside the line, each backslash stands on the same side of the
    cut as what it escapes, and both sides are read escape by escape, no backslash
    left over. -/
theorem logicalLines_paired {content line : Text} (h : line ∈ logicalLines content.lines) :
    let key := (splitKey line).1
    let value := valueOf (splitKey line).2
    trailingCount (· = backslash) line % 2 = 0 ∧
      (∀ place, Visits line place → place ≤ line.length) ∧
      Visits line key.length ∧ advance? line key.length = none ∧
      (∃ gap, line = key ++ gap ++ value ∧ (∀ c ∈ gap, endsKey c = true) ∧
        ∀ place, EscapesAt line place → place + 1 < key.length ∨
          (key ++ gap).length ≤ place ∧ place + 1 < line.length) ∧
      Resolves key (splitLine line).1 ∧ Resolves value (splitLine line).2 := by
  intro key value
  have hline : continues line = false := joinLines_paired (by decide) content.lines line h
  obtain ⟨stop, hstop⟩ := exists_stops line
  obtain ⟨hlength, hkey, hvalue, hparts⟩ := exists_parts hline hstop
  rw [← hlength] at hstop
  exact ⟨continues_eq_false_iff.mp hline, fun place hplace => (hplace.paired hline).1,
    hstop.visits, hstop.rests, hparts, resolves_iff.mpr ⟨hkey, rfl⟩, resolves_iff.mpr ⟨hvalue, rfl⟩⟩

/-- The first natural line goes on behind an escaped backslash, and the content ends
    where the second should go on. -/
theorem logicalLines_paired_cut :
    let line : Text := "a\\\\\\=b=c"
    line ∈ logicalLines (Text.lines "a\\\\\\\n \\=b=c\\") ∧
      splitKey line = (Text.ofString "a\\\\\\=b", Text.ofString "=c") ∧
      trailingCount (· = backslash) line % 2 = 0 ∧ (∀ place, Visits line place → place ≤ 8) ∧
      Visits line 6 ∧ advance? line 6 = none ∧
      Resolves (splitKey line).1 (splitLine line).1 ∧
      Resolves (valueOf (splitKey line).2) (splitLine line).2 := by
  intro line
  have hmem : line ∈ logicalLines (Text.lines "a\\\\\\\n \\=b=c\\") := by decide
  obtain ⟨heven, hinside, hvisits, hrests, _, hkey, hvalue⟩ := logicalLines_paired hmem
  exact ⟨hmem, by decide, heven, hinside, hvisits, hrests, hkey, hvalue⟩

end Properties

end ArchiveCensus
