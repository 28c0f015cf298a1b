import ArchiveCensus.Proofs.PackageUrl
import Mathlib.Data.List.Basic

/-!
# The Shape of Package URLs

Every record has a well-formed URL, whatever its fields hold: surrogates, blanks
or nothing at all. Two things carry this. A part is written by one of two
encodings, and both are spelled in what parts keep, so the marks `@` and `?` only
come from the template, in its order. And a name is never empty: it is the word
`unknown`, or that of the fallback, where a record has none, and writing a text
that is not empty leaves it so.

## Main definitions

* `PackageUrl.WellFormed`: What every written URL looks like.
* `PackageUrl.location`: What stands in front of version and qualifier.

## Theorems

* `spelled_encodePart`: A written part is spelled in what parts keep.
* `count_at_render`, `count_question_render`: How often the marks stand in a URL.
* `at_not_mem_of_render_eq`: A qualifier never stands in front of a version.
* `wellFormed_render`: A URL of a known type with a name is well formed.
* `wellFormed_generate`: So is the URL of every record.
-/

namespace ArchiveCensus

namespace PackageUrl

open Text

/-- A text that looks like a package URL: the type is one of two, something
    follows, all is spelled in signs that URLs allow, and there is at most one
    version and behind it at most one qualifier. -/
structure WellFormed (t : Text) : Prop where
  typed : ∃ type ∈ [Text.ofString "maven", Text.ofString "generic"], ∃ rest : Text,
    rest ≠ [] ∧ t = Text.ofString "pkg:" ++ type ++ Text.ofString "/" ++ rest
  valid : isValid t = true
  signs : ∀ c ∈ t, c.isUnreserved = true ∨ c ∈ Text.ofString "/:@?=%"
  digits : ∀ before after : Text, t = before ++ CodePoint.ofChar '%' :: after →
    ∃ high low rest, after = high :: low :: rest ∧
      Percent.IsUpperDigit high ∧ Percent.IsUpperDigit low
  version_once : t.count (CodePoint.ofChar '@') ≤ 1
  qualifier_once : t.count (CodePoint.ofChar '?') ≤ 1
  version_first : ∀ before after : Text, t = before ++ CodePoint.ofChar '?' :: after →
    CodePoint.ofChar '@' ∉ after
  scheme : (parse t).scheme = Text.ofString "pkg"

/-! ## Parts -/

/-- A written part is spelled in what parts keep, by either encoding. -/
theorem spelled_encodePart (t : Text) : Percent.Spelled keptInPart (encodePart t) := by
  rw [encodePart, Utf8.encode?]
  by_cases hscalar : t.isScalar = true
  · rw [if_pos hscalar]
    exact Percent.spelled_encodeBytes _
  · rw [if_neg hscalar]
    refine Percent.Spelled.of_forall fun c hc => ?_
    obtain ⟨d, _, hblot⟩ := List.mem_map.1 hc
    rw [← hblot]
    split
    · rename_i hplain
      simp [keptInPart, hplain]
    · decide

/-- Nothing is lost altogether in writing. -/
theorem encodePart_ne_nil {t : Text} (h : t ≠ []) : encodePart t ≠ [] := by
  intro hnil
  by_cases hscalar : t.isScalar = true
  · have hback := decode_encodePart hscalar
    rw [hnil, Percent.decode, Percent.decodeFrom_nil, Utf8.decodeLossy_nil] at hback
    exact h hback.symm
  · rw [encodePart, Utf8.encode?, if_neg hscalar] at hnil
    exact h (List.map_eq_nil_iff.1 hnil)

/-! ## URLs -/

/-- The types that are written. -/
def IsType (type : Text) : Prop :=
  type ∈ [Text.ofString "maven", Text.ofString "generic"]

theorem IsType.mem {type : Text} (h : IsType type) {c : CodePoint} (hc : c ∈ type) :
    c.isUnreserved = true := by
  rcases List.mem_pair.1 h with rfl | rfl
  · exact (by decide : ∀ c ∈ Text.ofString "maven", c.isUnreserved = true) c hc
  · exact (by decide : ∀ c ∈ Text.ofString "generic", c.isUnreserved = true) c hc

/-- What a URL keeps literally: what parts keep, and the marks of the template. -/
def keptInWhole (c : CodePoint) : Bool :=
  keptInPart c || c ∈ Text.ofString "@?="

theorem keptInWhole_of_keptInPart {c : CodePoint} (h : keptInPart c = true) :
    keptInWhole c = true := by
  rw [keptInWhole, h, Bool.true_or]

theorem sign_of_keptInWhole {c : CodePoint} (h : keptInWhole c = true) :
    c.isUnreserved = true ∨ c ∈ Text.ofString "/:@?=%" := by
  have hmarks : ∀ d ∈ Text.ofString "@?=", d ∈ Text.ofString "/:@?=%" := by decide
  simp only [keptInWhole, keptInPart, Bool.or_eq_true, decide_eq_true_eq] at h
  rcases h with ((h | rfl) | rfl) | h
  · exact .inl h
  · exact .inr (by decide)
  · exact .inr (by decide)
  · exact .inr (hmarks c h)

theorem spelled_marked {mark : Text} (hmark : ∀ c ∈ mark, keptInWhole c = true)
    (t : Option Text) : Percent.Spelled keptInWhole (marked mark t) := by
  cases t with
  | none => exact .nil
  | some t =>
    exact (Percent.Spelled.of_forall hmark).append
      ((spelled_encodePart t).mono fun _ => keptInWhole_of_keptInPart)

/-- A mark that no part holds stands in a marked part as often as in its mark. -/
theorem Delimits.count_marked {c : CodePoint} (hc : Delimits c) (mark : Text) (t : Option Text) :
    (marked mark t).count c = if t.isSome then mark.count c else 0 := by
  cases t with
  | none => rfl
  | some t =>
    rw [marked, List.count_append, List.count_eq_zero.2 (hc.not_mem_encodePart t)]
    rfl

/-- A part behind a mark, as one text with the sign that the mark begins with. -/
theorem marked_question (c : Text) :
    marked (Text.ofString "?classifier=") (some c)
      = CodePoint.ofChar '?' :: (Text.ofString "classifier=" ++ encodePart c) :=
  rfl

theorem question_not_mem_classifier (c : Text) :
    CodePoint.ofChar '?' ∉ Text.ofString "classifier=" ++ encodePart c := by
  rw [List.mem_append, not_or]
  exact ⟨by decide, delimits_question.not_mem_encodePart c⟩

section Render

variable (u : PackageUrl)

/-- What stands in front of version and qualifier. -/
def location : Text :=
  Text.ofString "pkg:" ++ (u.type ++ CodePoint.ofChar '/' :: (u.front ++ encodePart u.name))

theorem render_eq_location :
    u.render = u.location ++ (marked (Text.ofString "@") u.version ++ u.qualifier) := by
  rw [render_eq, location]
  simp only [List.append_assoc, List.cons_append]

theorem spelled_front : Percent.Spelled keptInPart u.front := by
  unfold front
  cases u.group with
  | none => exact .nil
  | some g => exact (spelled_encodePart g).append (.literally (by decide) .nil)

variable {u}

/-- No mark that parts cannot hold stands in front of the version. -/
theorem Delimits.not_mem_location {c : CodePoint} (hc : Delimits c) (htype : IsType u.type) :
    c ∉ u.location := by
  have hkept : ∀ d, keptInPart d = true → c ≠ d := by
    rintro d hd rfl
    rw [hc.not_kept] at hd
    cases hd
  intro h
  rcases List.mem_append.1 h with h | h
  · exact hkept c ((by decide : ∀ d ∈ Text.ofString "pkg:", keptInPart d = true) c h) rfl
  rcases List.mem_append.1 h with h | h
  · exact hkept c (by simp [keptInPart, htype.mem h]) rfl
  rcases List.mem_cons.1 h with h | h
  · exact hkept '/' (by decide) h
  rcases List.mem_append.1 h with h | h
  · exact hc.not_mem_front u h
  · exact hc.not_mem_encodePart u.name h

theorem spelled_location (htype : IsType u.type) : Percent.Spelled keptInPart u.location := by
  have htypeSpelled : Percent.Spelled keptInPart u.type :=
    .of_forall fun c hc => by simp [keptInPart, htype.mem hc]
  exact (Percent.Spelled.of_forall (by decide)).append
    (htypeSpelled.append (.literally (by decide) (u.spelled_front.append (spelled_encodePart _))))

theorem spelled_render (htype : IsType u.type) : Percent.Spelled keptInWhole u.render := by
  rw [render_eq_location]
  exact ((spelled_location htype).mono fun _ => keptInWhole_of_keptInPart).append
    ((spelled_marked (by decide) _).append (spelled_marked (by decide) _))

/-- A version is announced once, and nothing else by its mark. -/
theorem count_at_render (htype : IsType u.type) :
    u.render.count (CodePoint.ofChar '@') = if u.version.isSome then 1 else 0 := by
  rw [render_eq_location, List.count_append, List.count_append,
    List.count_eq_zero.2 (delimits_at.not_mem_location htype),
    List.count_eq_zero.2 u.at_not_mem_qualifier, delimits_at.count_marked]
  cases u.version with
  | none => rfl
  | some v => rfl

/-- A qualifier is announced once, and nothing else by its mark. -/
theorem count_question_render (htype : IsType u.type) :
    u.render.count (CodePoint.ofChar '?') = if u.classifier.isSome then 1 else 0 := by
  rw [render_eq_location, List.count_append, List.count_append, qualifier,
    List.count_eq_zero.2 (delimits_question.not_mem_location htype),
    delimits_question.count_marked, delimits_question.count_marked]
  cases u.version <;> cases u.classifier <;> rfl

/-- A qualifier never stands in front of a version. -/
theorem at_not_mem_of_render_eq (htype : IsType u.type) {before after : Text}
    (h : u.render = before ++ CodePoint.ofChar '?' :: after) : CodePoint.ofChar '@' ∉ after := by
  cases hclassifier : u.classifier with
  | none =>
    have hcount := count_question_render htype
    rw [h, List.count_append, List.count_cons_self, hclassifier] at hcount
    exact absurd hcount (by simp)
  | some c =>
    have hfront : CodePoint.ofChar '?' ∉ u.location ++ marked (Text.ofString "@") u.version := by
      rw [List.mem_append, not_or]
      exact ⟨delimits_question.not_mem_location htype,
        delimits_question.not_mem_marked (by decide) _⟩
    rw [render_eq_location, ← List.append_assoc, qualifier, hclassifier, marked_question] at h
    obtain ⟨_, _, rfl⟩ :=
      (List.append_cons_inj_of_notMem hfront (question_not_mem_classifier c)).1 h
    rw [List.mem_append, not_or]
    exact ⟨by decide, delimits_at.not_mem_encodePart c⟩

/-- A URL of a known type with a name is well formed. -/
theorem wellFormed_render (htype : IsType u.type) (hname : u.name ≠ []) :
    WellFormed u.render := by
  have hspelled := spelled_render htype
  have hslash : CodePoint.ofChar '/' ∉ u.type := fun h => absurd (htype.mem h) (by decide)
  have hrest : u.front ++ encodePart u.name ++ marked (Text.ofString "@") u.version
      ++ u.qualifier ≠ [] := by
    simp [encodePart_ne_nil hname]
  have hscheme : (parse u.render).scheme = Text.ofString "pkg" := by
    rw [render_eq, parse_of_rest _ _ hslash]
  refine ⟨⟨u.type, htype, _, hrest, ?_⟩, ?_, fun c hc => ?_, fun before after h => ?_, ?_, ?_,
    fun before after h => at_not_mem_of_render_eq htype h, hscheme⟩
  · rw [render_eq]
    simp [Text.ofString]
  · rw [render_eq]
    simp [isValid, startsWith]
  · rcases hspelled.mem hc with hkept | rfl | hdigit
    · exact sign_of_keptInWhole hkept
    · exact .inr (by decide)
    · exact .inl hdigit.isUnreserved
  · exact hspelled.digits (by decide) h
  · rw [count_at_render htype]
    split <;> decide
  · rw [count_question_render htype]
    split <;> decide

end Render

/-! ## Records -/

theorem getD_present_ne_nil {t : Option Text} {d : Text} (hd : d ≠ []) :
    (present t).getD d ≠ [] := by
  cases t with
  | none => exact hd
  | some t =>
    rw [present_some]
    split
    · exact hd
    · assumption

theorem name_ofRecord_ne_nil (suffixes : List Text) (r : Record) :
    (ofRecord suffixes r).name ≠ [] := by
  have hunknown : unknown ≠ [] := by decide
  rw [ofRecord]
  cases kindOf r with
  | maven => exact getD_present_ne_nil hunknown
  | gradle => exact getD_present_ne_nil hunknown
  | generic =>
    have hname : (ofKind suffixes .generic r).name
        = (present r.artifact).getD ((present (nameOfFile suffixes r)).getD unknown) := by
      rw [ofKind, ungrouped]
      cases present r.artifact <;> rfl
    rw [hname]
    exact getD_present_ne_nil (getD_present_ne_nil hunknown)

theorem isType_ofRecord (suffixes : List Text) (r : Record) :
    IsType (ofRecord suffixes r).type := by
  rw [ofRecord]
  cases kindOf r with
  | maven => exact List.mem_cons_self
  | gradle => exact List.mem_cons_self
  | generic => exact List.mem_cons_of_mem _ List.mem_cons_self

theorem wellFormed_fallback (r : Record) : WellFormed (fallback r).render :=
  wellFormed_render (List.mem_cons_of_mem _ List.mem_cons_self) (getD_present_ne_nil (by decide))

/-- The URL of a record is well formed, whatever the record holds and whether its
    kind can be told or not, and so is the URL that stands for no record. -/
theorem wellFormed_generate (m : Maker) (r : Option Record) : WellFormed (m.generate r).1 := by
  cases r with
  | none => exact wellFormed_fallback {}
  | some r =>
    rw [Maker.generate]
    split
    · exact wellFormed_fallback r
    · exact wellFormed_render (isType_ofRecord m.suffixes r) (name_ofRecord_ne_nil m.suffixes r)

end PackageUrl

end ArchiveCensus
