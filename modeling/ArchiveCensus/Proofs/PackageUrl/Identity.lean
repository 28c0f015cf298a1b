import ArchiveCensus.Proofs.PackageUrl.Shape

/-!
# What Package URLs Tell Apart

Two records with the same URL say the same, up to one thing. Version and qualifier
stand behind marks that no part can hold, so they can be told from each other and
from what is in front. Group and artifact stand in front, with a slash between
them, and parts keep their slashes on purpose. So the URL says what both read
like together, and not where the one ends and the other begins.

That is all it leaves open: group and artifact are told apart as soon as one
knows how many slashes the artifact has, for instance none.

## Main definitions

* `PackageUrl.Specific`: A record whose URL names all its coordinates.

## Theorems

* `encodePart_inj`: Two parts are written the same only if they are the same.
* `location_inj`, `ending_inj`: What is told by the front and the end of a URL.
* `generate_eq_iff`: When two records have the same URL.
* `not_forall_distinct`: A slash may stand in the group or in the artifact.
-/

namespace ArchiveCensus

namespace Text

theorem isScalar_append (a b : Text) : (a ++ b).isScalar = (a.isScalar && b.isScalar) :=
  List.all_append

end Text

namespace PackageUrl

open Text

/-! ## Parts -/

/-- Two parts are written the same only if they are the same. -/
theorem encodePart_inj {a b : Text} (ha : a.isScalar = true) (hb : b.isScalar = true) :
    encodePart a = encodePart b ↔ a = b := by
  constructor
  · intro h
    have hdecode := congrArg Percent.decode h
    rwa [decode_encodePart ha, decode_encodePart hb] at hdecode
  · exact congrArg encodePart

/-- Parts with a slash between them are written like one part. -/
theorem encodePart_append_slash {a b : Text} (ha : a.isScalar = true) (hb : b.isScalar = true) :
    encodePart (a ++ CodePoint.ofChar '/' :: b)
      = encodePart a ++ CodePoint.ofChar '/' :: encodePart b := by
  have hslash : Percent.encodeBytes keptInPart (Utf8.encodePoint '/')
      = [CodePoint.ofChar '/'] := by decide
  have hall : (a ++ CodePoint.ofChar '/' :: b).isScalar = true := by
    rw [isScalar_append, ha]
    exact hb
  simp only [encodePart, Utf8.encode?, ha, hb, hall, if_true, Percent.encodeBytes,
    List.flatMap_append, List.flatMap_cons] at hslash ⊢
  rw [hslash]
  rfl

/-- Version and classifier can be told from the end of a URL. -/
theorem ending_inj {v w : Text} {c d : Option Text} (hv : v.isScalar = true)
    (hw : w.isScalar = true) (hc : ∀ t ∈ c, t.isScalar = true) (hd : ∀ t ∈ d, t.isScalar = true) :
    encodePart v ++ marked (Text.ofString "?classifier=") c
        = encodePart w ++ marked (Text.ofString "?classifier=") d ↔ v = w ∧ c = d := by
  have hnone : ∀ x y e : Text, encodePart x ≠ encodePart y
      ++ marked (Text.ofString "?classifier=") (some e) := by
    intro x y e h
    have hmem : CodePoint.ofChar '?' ∈ encodePart x := by
      rw [h, marked_question]
      exact List.mem_append_right _ List.mem_cons_self
    exact delimits_question.not_mem_encodePart x hmem
  have hempty : marked (Text.ofString "?classifier=") none = [] := rfl
  cases c with
  | none =>
    cases d with
    | none => simp only [hempty, List.append_nil, encodePart_inj hv hw, and_true]
    | some e => simp only [hempty, List.append_nil, hnone v w e, reduceCtorEq, and_false]
  | some b =>
    cases d with
    | none => simp only [hempty, List.append_nil, (hnone w v b).symm, reduceCtorEq, and_false]
    | some e =>
      rw [marked_question, marked_question,
        List.append_cons_inj_of_notMem (delimits_question.not_mem_encodePart v)
          (question_not_mem_classifier b),
        encodePart_inj hv hw, List.append_right_inj, encodePart_inj (hc b rfl) (hd e rfl)]
      simp only [true_and, Option.some.injEq]

/-! ## Records -/

/-- A record whose URL names its group, artifact and version: they are set and not
    empty, the group is not blank, and neither group nor version is the word
    `unknown`. What is written holds no surrogate. -/
structure Specific (r : Record) (group artifact version : Text) : Prop where
  group_eq : r.group = some group
  artifact_eq : r.artifact = some artifact
  version_eq : r.version = some version
  group_spoken : group.isBlank = false
  group_known : group ≠ unknown
  artifact_ne_nil : artifact ≠ []
  version_ne_nil : version ≠ []
  version_known : version ≠ unknown
  isScalar : ∀ f ∈ [Field.group, .artifact, .version, .classifier], ∀ t ∈ r.textIn f,
    t.isScalar = true

namespace Specific

variable {r s : Record} {group artifact version group' artifact' version' : Text}
  (h : Specific r group artifact version) (h' : Specific s group' artifact' version')
include h

theorem isScalar_group : group.isScalar = true :=
  h.isScalar .group (by decide) group h.group_eq

theorem isScalar_artifact : artifact.isScalar = true :=
  h.isScalar .artifact (by decide) artifact h.artifact_eq

theorem isScalar_version : version.isScalar = true :=
  h.isScalar .version (by decide) version h.version_eq

theorem isScalar_classifier : ∀ t ∈ present r.classifier, t.isScalar = true := fun t ht =>
  h.isScalar .classifier (by decide) t (mem_of_mem_present ht)

theorem kindOf_eq : kindOf r = .maven := by
  rw [kindOf, h.group_eq, h.artifact_eq]
  simp [h.group_spoken, h.group_known]

theorem ofRecord_eq_grouped (suffixes : List Text) :
    ofRecord suffixes r =
      { type := Text.ofString "maven", group := some group, name := artifact
        version := some version, classifier := present r.classifier } := by
  have hgroup : groupOf r = group := by
    have hne : group ≠ [] := by
      rintro rfl
      exact absurd h.group_spoken (by decide)
    simp [groupOf, h.group_eq, hne]
  have hversion : versionOf r = version := by
    simp [versionOf, h.version_eq, h.version_known]
  rw [ofRecord_eq suffixes h.artifact_eq h.artifact_ne_nil, h.kindOf_eq, hgroup, hversion]
  simp [h.version_ne_nil]

/-- What is in front of the version, with group and artifact written as one. -/
theorem location_ofRecord (suffixes : List Text) :
    (ofRecord suffixes r).location
      = Text.ofString "pkg:maven/" ++ encodePart (group ++ CodePoint.ofChar '/' :: artifact) := by
  rw [h.ofRecord_eq_grouped, encodePart_append_slash h.isScalar_group h.isScalar_artifact]
  simp [location, front, Text.ofString]

theorem generate_eq (suffixes : List Text) :
    (({ suffixes := suffixes } : Maker).generate (some r)).1
      = (ofRecord suffixes r).location ++ CodePoint.ofChar '@' ::
        (encodePart version ++ marked (Text.ofString "?classifier=") (present r.classifier)) := by
  have hgenerate : (({ suffixes := suffixes } : Maker).generate (some r)).1
      = (ofRecord suffixes r).render := rfl
  rw [hgenerate, render_eq_location, qualifier, h.ofRecord_eq_grouped]
  rfl

include h'

theorem location_inj (suffixes : List Text) :
    (ofRecord suffixes r).location = (ofRecord suffixes s).location
      ↔ group ++ CodePoint.ofChar '/' :: artifact =
        group' ++ CodePoint.ofChar '/' :: artifact' := by
  have hjoined : ∀ {q : Record} {g a v : Text}, Specific q g a v →
      (g ++ CodePoint.ofChar '/' :: a).isScalar = true := by
    intro q g a v hq
    rw [isScalar_append, hq.isScalar_group]
    exact hq.isScalar_artifact
  rw [h.location_ofRecord, h'.location_ofRecord, List.append_right_inj,
    encodePart_inj (hjoined h) (hjoined h')]

end Specific

/-- Two records have the same URL exactly if version and classifier are the same,
    an empty classifier counting as none, and group and artifact read the same with
    a slash between them. If their artifacts hold equally many slashes, for
    instance none, they have the same URL exactly if all coordinates are the same. -/
theorem generate_eq_iff (suffixes : List Text) {r s : Record}
    {group artifact version group' artifact' version' : Text}
    (hr : Specific r group artifact version) (hs : Specific s group' artifact' version') :
    let url : Record → Text := fun q => (({ suffixes := suffixes } : Maker).generate (some q)).1
    let slash : CodePoint := CodePoint.ofChar '/'
    (url r = url s ↔ version = version' ∧ present r.classifier = present s.classifier ∧
        group ++ slash :: artifact = group' ++ slash :: artifact') ∧
      (artifact.count slash = artifact'.count slash →
        (url r = url s ↔ group = group' ∧ artifact = artifact' ∧ version = version' ∧
          present r.classifier = present s.classifier)) := by
  intro url slash
  have hfront : CodePoint.ofChar '@' ∉ (ofRecord suffixes r).location :=
    delimits_at.not_mem_location (isType_ofRecord suffixes r)
  have hback : CodePoint.ofChar '@' ∉ encodePart version
      ++ marked (Text.ofString "?classifier=") (present r.classifier) := by
    rw [List.mem_append, not_or]
    exact ⟨delimits_at.not_mem_encodePart version, delimits_at.not_mem_marked (by decide) _⟩
  have hall : url r = url s ↔ version = version' ∧ present r.classifier = present s.classifier ∧
      group ++ slash :: artifact = group' ++ slash :: artifact' := by
    calc url r = url s
        ↔ (ofRecord suffixes r).location = (ofRecord suffixes s).location ∧
            encodePart version ++ marked (Text.ofString "?classifier=") (present r.classifier)
              = encodePart version'
                ++ marked (Text.ofString "?classifier=") (present s.classifier) := by
          simp only [url, hr.generate_eq, hs.generate_eq,
            List.append_cons_inj_of_notMem hfront hback, true_and]
      _ ↔ group ++ slash :: artifact = group' ++ slash :: artifact' ∧
            version = version' ∧ present r.classifier = present s.classifier := by
          rw [hr.location_inj hs, ending_inj hr.isScalar_version hs.isScalar_version
            hr.isScalar_classifier hs.isScalar_classifier]
      _ ↔ _ := by rw [and_comm, and_assoc]
  refine ⟨hall, fun hcount => ?_⟩
  rw [hall, append_cons_inj_of_count hcount]
  constructor
  · rintro ⟨hversion, hclassifier, hgroup, hartifact⟩
    exact ⟨hgroup, hartifact, hversion, hclassifier⟩
  · rintro ⟨hgroup, hartifact, hversion, hclassifier⟩
    exact ⟨hversion, hclassifier, hgroup, hartifact⟩

/-- A record with a slash in the group, and an empty classifier. -/
def slashInGroup : Record :=
  { group := some (Text.ofString "org/a")
    artifact := some (Text.ofString "b")
    version := some (Text.ofString "1")
    classifier := some [] }

/-- A record with the slash in the artifact, and no classifier. -/
def slashInArtifact : Record :=
  { group := some (Text.ofString "org")
    artifact := some (Text.ofString "a/b")
    version := some (Text.ofString "1") }

theorem specific_slashInGroup : Specific slashInGroup (Text.ofString "org/a") (Text.ofString "b")
    (Text.ofString "1") :=
  ⟨rfl, rfl, rfl, by decide, by decide, by decide, by decide, by decide, by decide⟩

theorem specific_slashInArtifact : Specific slashInArtifact (Text.ofString "org")
    (Text.ofString "a/b") (Text.ofString "1") :=
  ⟨rfl, rfl, rfl, by decide, by decide, by decide, by decide, by decide, by decide⟩

/-- The slash cannot be placed, but a classifier is told, with the slash where it
    is. -/
theorem generate_eq_iff_slash :
    let url : Record → Text := fun q => (({} : Maker).generate (some q)).1
    let classified : Record := { slashInGroup with classifier := some (Text.ofString "b") }
    Specific slashInGroup (Text.ofString "org/a") (Text.ofString "b") (Text.ofString "1") ∧
      Specific slashInArtifact (Text.ofString "org") (Text.ofString "a/b") (Text.ofString "1") ∧
      Specific classified (Text.ofString "org/a") (Text.ofString "b") (Text.ofString "1") ∧
      url slashInGroup = url slashInArtifact ∧ url slashInGroup ≠ url classified := by
  intro url classified
  have hclassified : Specific classified (Text.ofString "org/a") (Text.ofString "b")
      (Text.ofString "1") :=
    ⟨rfl, rfl, rfl, by decide, by decide, by decide, by decide, by decide, by decide⟩
  refine ⟨specific_slashInGroup, specific_slashInArtifact, hclassified, ?_, fun h => ?_⟩
  · exact (generate_eq_iff _ specific_slashInGroup specific_slashInArtifact).1.2
      ⟨rfl, by decide, by decide⟩
  · have hsame := ((generate_eq_iff _ specific_slashInGroup hclassified).2 rfl).1 h
    exact absurd hsame.2.2.2 (by decide)

/-- The same URL for different coordinates. -/
theorem not_forall_distinct :
    ¬∀ (suffixes : List Text) (r s : Record)
        (group artifact version group' artifact' version' : Text),
      Specific r group artifact version → Specific s group' artifact' version' →
      (({ suffixes := suffixes } : Maker).generate (some r)).1
        = (({ suffixes := suffixes } : Maker).generate (some s)).1 →
      group = group' ∧ artifact = artifact' ∧ version = version' ∧
        present r.classifier = present s.classifier := by
  intro hall
  have hurl : (({} : Maker).generate (some slashInGroup)).1
      = (({} : Maker).generate (some slashInArtifact)).1 := by decide
  have hsame := hall _ _ _ _ _ _ _ _ _ specific_slashInGroup specific_slashInArtifact hurl
  exact absurd hsame.1 (by decide)

end PackageUrl

end ArchiveCensus
