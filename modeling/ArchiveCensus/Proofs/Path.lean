import ArchiveCensus.Path
import Mathlib.Data.List.Basic

/-!
# Paths and Their Writing

A survey remembers files under the writing of their paths, so two paths that
are written alike have to be one path. That is not so for every value of the
type `Path`: a component may hold a slash or be empty, and then the writing
reads back as something else. `Named` rules this out, and every path that is
read from a text is of this kind, as are the paths that are made from it.

With it, reading takes back what writing gives, the start of the path
included: no slash in front of the components, one, or two.

## Main definitions

* `Path.IsName`: A text that can be a component.
* `Path.Named`: All components of a path are such texts.

## Theorems

* `pieces_joinWith_flatMap`, `pieces_joinWith`: How cutting takes back joining.
* `named_parse`, `named_child`, `named_absolute`: Where named paths come from.
* `parse_toText`: Reading takes back writing.
* `toText_injective`: Two named paths that are written alike are one.
-/

namespace ArchiveCensus

namespace Text

variable {sep : CodePoint}

theorem pieces_ne_nil (t : Text) : pieces sep t ≠ [] := by
  cases t with
  | nil => exact List.cons_ne_nil _ _
  | cons c cs =>
      unfold pieces
      split
      · exact List.cons_ne_nil _ _
      · split <;> exact List.cons_ne_nil _ _

theorem not_mem_of_mem_pieces {t p : Text} (h : p ∈ pieces sep t) : sep ∉ p := by
  induction t generalizing p with
  | nil =>
      rw [pieces, List.mem_singleton] at h
      rw [h]
      exact List.not_mem_nil
  | cons c cs ih =>
      unfold pieces at h
      by_cases hc : c = sep
      · rw [if_pos hc] at h
        rcases List.mem_cons.mp h with rfl | h
        · exact List.not_mem_nil
        · exact ih h
      · rw [if_neg hc] at h
        -- The code point goes to the first of the pieces that follow.
        cases hcs : pieces sep cs with
        | nil => exact absurd hcs (pieces_ne_nil cs)
        | cons q qs =>
            rw [hcs] at h ih
            rcases List.mem_cons.mp h with rfl | h
            · rw [List.mem_cons, not_or]
              exact ⟨fun h' => hc h'.symm, ih List.mem_cons_self⟩
            · exact ih (List.mem_cons_of_mem _ h)

theorem pieces_of_not_mem {p : Text} (h : sep ∉ p) : pieces sep p = [p] := by
  induction p with
  | nil => rfl
  | cons c cs ih =>
      rw [List.mem_cons, not_or] at h
      rw [pieces, if_neg (fun h' => h.1 h'.symm), ih h.2]

/-- Cutting goes on behind a separator as if nothing stood in front of it. -/
theorem pieces_append_cons (p t : Text) :
    pieces sep (p ++ sep :: t) = pieces sep p ++ pieces sep t := by
  induction p with
  | nil =>
      have hempty : pieces sep [] = [[]] := rfl
      rw [List.nil_append, hempty, pieces, if_pos rfl, List.singleton_append]
  | cons c cs ih =>
      rw [List.cons_append, pieces, pieces, ih]
      by_cases hc : c = sep
      · rw [if_pos hc, if_pos hc, List.cons_append]
      · rw [if_neg hc, if_neg hc]
        cases hcs : pieces sep cs with
        | nil => exact absurd hcs (pieces_ne_nil cs)
        | cons q qs => rfl

theorem joinWith_cons {s p : Text} {ps : List Text} (h : ps ≠ []) :
    joinWith s (p :: ps) = p ++ s ++ joinWith s ps := by
  cases ps with
  | nil => exact absurd rfl h
  | cons _ _ => rfl

/-- What is joined is cut where it was joined and where its own separators are. -/
theorem pieces_joinWith_flatMap {ps : List Text} (hne : ps ≠ []) :
    pieces sep (joinWith [sep] ps) = ps.flatMap (pieces sep) := by
  induction ps with
  | nil => exact absurd rfl hne
  | cons p ps ih =>
      by_cases hps : ps = []
      · rw [hps, List.flatMap_singleton]
        rfl
      · rw [joinWith_cons hps, List.append_assoc, List.singleton_append, pieces_append_cons,
          ih hps, List.flatMap_cons]

theorem flatMap_pieces_eq_self {ps : List Text} (h : ∀ p ∈ ps, sep ∉ p) :
    ps.flatMap (pieces sep) = ps := by
  induction ps with
  | nil => rfl
  | cons p ps ih =>
      rw [List.flatMap_cons, pieces_of_not_mem (h p List.mem_cons_self),
        ih fun q hq => h q (List.mem_cons_of_mem p hq), List.singleton_append]

/-- Cutting takes back joining, as long as nothing that is joined holds the
    separator. -/
theorem pieces_joinWith {ps : List Text} (hne : ps ≠ []) (h : ∀ p ∈ ps, sep ∉ p) :
    pieces sep (joinWith [sep] ps) = ps := by
  rw [pieces_joinWith_flatMap hne, flatMap_pieces_eq_self h]

/-- The joining of two lists is the joining of their joinings. -/
theorem joinWith_append (s : Text) {front back : List Text} (hfront : front ≠ [])
    (hback : back ≠ []) :
    joinWith s (front ++ back) = joinWith s front ++ s ++ joinWith s back := by
  induction front with
  | nil => exact absurd rfl hfront
  | cons p ps ih =>
      rw [List.cons_append, joinWith_cons (List.append_ne_nil_of_right_ne_nil ps hback)]
      by_cases hps : ps = []
      · rw [hps]
        rfl
      · rw [ih hps, joinWith_cons hps]
        simp only [List.append_assoc]

/-- The joining of a list ends with the joining of its end. -/
theorem exists_joinWith_append (s : Text) (front : List Text) {back : List Text} (h : back ≠ []) :
    ∃ t, joinWith s (front ++ back) = t ++ joinWith s back := by
  by_cases hfront : front = []
  · exact ⟨[], by rw [hfront]; rfl⟩
  · exact ⟨joinWith s front ++ s, joinWith_append s hfront h⟩

end Text

namespace Path

/-- A text that can be a component of a path. -/
structure IsName (c : Text) : Prop where
  ne_nil : c ≠ []
  ne_dot : c ≠ Text.ofString "."
  no_slash : CodePoint.ofChar '/' ∉ c

/-- All components of the path can be such. -/
def Named (p : Path) : Prop :=
  ∀ c ∈ p.parts, IsName c

theorem isName_of_mem_components {t c : Text} (h : c ∈ components t) : IsName c := by
  rcases List.mem_filter.mp h with ⟨hmem, hkept⟩
  simp only [ne_eq, Bool.and_eq_true, decide_eq_true_eq] at hkept
  exact ⟨hkept.1, hkept.2, Text.not_mem_of_mem_pieces hmem⟩

theorem named_parse (t : Text) : (parse t).Named :=
  fun _ h => isName_of_mem_components h

variable {base p q : Path} {c : Text}

theorem named_append (hp : p.Named) {more : List Text} (h : ∀ c ∈ more, IsName c) :
    Named { p with parts := p.parts ++ more } := by
  intro c hc
  rcases List.mem_append.mp hc with hc | hc
  · exact hp c hc
  · exact h c hc

theorem named_child (hp : p.Named) (hc : IsName c) : (p.child c).Named :=
  named_append hp fun _ h => List.mem_singleton.mp h ▸ hc

theorem named_absolute (hb : base.Named) (hp : p.Named) : (absolute base p).Named := by
  unfold absolute
  split
  · exact named_append hb hp
  · exact hp

/-- The components are what is read from between the slashes. -/
theorem components_joinWith {parts : List Text} (h : ∀ c ∈ parts, IsName c) :
    components (Text.joinWith "/" parts) = parts := by
  cases parts with
  | nil => decide
  | cons c rest =>
      have hcut : Text.pieces '/' (Text.joinWith "/" (c :: rest)) = c :: rest :=
        Text.pieces_joinWith (List.cons_ne_nil _ _) fun d hd => (h d hd).no_slash
      rw [components, hcut, List.filter_eq_self]
      intro d hd
      simp only [ne_eq, Bool.and_eq_true, decide_eq_true_eq]
      exact ⟨(h d hd).ne_nil, (h d hd).ne_dot⟩

theorem components_slash (t : Text) : components (CodePoint.ofChar '/' :: t) = components t := by
  rw [components, Text.pieces, if_pos rfl, List.filter_cons_of_neg]
  · rfl
  · simp only [ne_eq, not_true_eq_false, decide_false, Bool.false_and, Bool.false_eq_true,
      not_false_eq_true]

-- The slashes in front enclose empty components only, and those are left out.
theorem components_slashes (a : Anchor) (t : Text) :
    components (a.slashes ++ t) = components t := by
  cases a with
  | here => rfl
  | root => exact components_slash t
  | doubleRoot => exact (components_slash _).trans (components_slash t)

/-- What is written behind the slashes does not begin with one. -/
theorem head?_joinWith {parts : List Text} (h : ∀ c ∈ parts, IsName c) :
    (Text.joinWith "/" parts).head? ≠ some (CodePoint.ofChar '/') := by
  cases parts with
  | nil => exact fun h' => absurd h' (by simp [Text.joinWith])
  | cons c rest =>
      have hc := h c List.mem_cons_self
      cases c with
      | nil => exact absurd rfl hc.ne_nil
      | cons x xs =>
          have hx : x ≠ CodePoint.ofChar '/' := fun h' => hc.no_slash (h' ▸ List.mem_cons_self)
          by_cases hrest : rest = []
          · rw [hrest]
            exact fun h' => hx (Option.some.inj h')
          · rw [Text.joinWith_cons hrest]
            exact fun h' => hx (Option.some.inj h')

-- The anchor is told by the number of slashes, so none may come from what follows.
theorem ofText_slashes (a : Anchor) {t : Text} (h : t.head? ≠ some (CodePoint.ofChar '/')) :
    Anchor.ofText (a.slashes ++ t) = a := by
  have hnone : t.takeWhile (fun c : CodePoint => c = CodePoint.ofChar '/') = [] := by
    cases t with
    | nil => rfl
    | cons x xs =>
        rw [List.takeWhile_cons_of_neg]
        rw [decide_eq_true_eq]
        exact fun h' => h (congrArg some h')
  have hall : ∀ c ∈ a.slashes, decide (c = CodePoint.ofChar '/') = true := by
    cases a <;> decide
  rw [Anchor.ofText, List.takeWhile_append_of_pos hall, hnone, List.append_nil]
  cases a <;> rfl

theorem toText_eq (h : p ≠ current) :
    p.toText = p.anchor.slashes ++ Text.joinWith "/" p.parts := by
  rcases p with ⟨anchor, parts⟩
  unfold toText
  split
  · rename_i hanchor hparts
    exact absurd ((Path.mk.injEq ..).mpr ⟨hanchor, hparts⟩) h
  · rfl

/-- Reading takes back writing. -/
theorem parse_toText (h : p.Named) : parse p.toText = p := by
  by_cases hp : p = current
  · -- The one path that is not written as its components.
    rw [hp]
    decide
  · rw [toText_eq hp, parse, components_slashes, components_joinWith h,
      ofText_slashes _ (head?_joinWith h)]

/-- Two named paths that are written alike are one. -/
theorem toText_injective (hp : p.Named) (hq : q.Named) (h : p.toText = q.toText) : p = q := by
  rw [← parse_toText hp, h, parse_toText hq]

/-- The path does not start in the directory that one happens to be in. -/
def IsAbsolute (p : Path) : Prop :=
  p.anchor ≠ .here

theorem isAbsolute_absolute (hb : base.IsAbsolute) (p : Path) : (absolute base p).IsAbsolute := by
  unfold absolute
  split
  · exact hb
  · rename_i h
    exact h

theorem absolute_of_isAbsolute (h : p.IsAbsolute) : absolute base p = p := by
  unfold absolute
  split
  · rename_i hanchor
    exact absurd hanchor h
  · rfl

theorem head?_toText (h : p.IsAbsolute) : p.toText.head? = some (CodePoint.ofChar '/') := by
  rw [toText_eq fun h' => h (by rw [h', current])]
  unfold IsAbsolute at h
  cases ha : p.anchor with
  | here => exact absurd ha h
  | root => rfl
  | doubleRoot => rfl

end Path

end ArchiveCensus
