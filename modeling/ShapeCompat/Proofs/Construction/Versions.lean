import ShapeCompat.Construction.Versions
import ShapeCompat.Proofs.Schema.Soundness

/-!
The versions of a shape in order, each with the next newer one. Two facts carry everything that is
proved of overloads: every field that takes part in constructors has its watermark among the
versions, and no watermark lies between a version and the next newer one.
-/

namespace ShapeCompat

namespace Shape

/-- The versions with an overload of their own, oldest first. -/
def versions (shape : Shape) : List UInt32 := shape.watermarks.reverse

theorem mem_watermarks {shape : Shape} {version : UInt32} :
    version ∈ shape.watermarks ↔ version = 1 ∨
      ∃ field ∈ shape.relevantFields, ∃ requirement,
        field.requirement = some requirement ∧ requirement.sinceVersion = version := by
  rw [watermarks, List.mem_reverse, mem_ascending, List.mem_cons, List.mem_filterMap]
  simp only [Option.map_eq_some_iff]

theorem watermarks_descending (shape : Shape) : shape.watermarks.Pairwise (· > ·) :=
  List.pairwise_reverse.mpr (ascending_strictly _)

theorem versions_ascending (shape : Shape) : shape.versions.Pairwise (· < ·) :=
  List.pairwise_reverse.mpr shape.watermarks_descending

theorem mem_versions {shape : Shape} {version : UInt32} :
    version ∈ shape.versions ↔ version ∈ shape.watermarks := List.mem_reverse

end Shape

/-- Each version of an oldest-first list with the next newer one. -/
def withNewer : List UInt32 → List (UInt32 × Option UInt32)
  | [] => []
  | version :: later => (version, later.head?) :: withNewer later

theorem mem_with_newer {versions : List UInt32} {version : UInt32} {newer : Option UInt32} :
    (version, newer) ∈ withNewer versions ↔
      ∃ earlier later, versions = earlier ++ version :: later ∧ newer = later.head? := by
  constructor
  · intro member
    induction versions with
    | nil => cases member
    | cons first rest induction =>
        rcases List.mem_cons.mp member with here | beyond
        · cases here
          exact ⟨[], rest, rfl, rfl⟩
        · obtain ⟨earlier, later, same, head⟩ := induction beyond
          exact ⟨first :: earlier, later, by rw [same, List.cons_append], head⟩
  · intro both
    rcases both with ⟨earlier, later, rfl, rfl⟩
    induction earlier with
    | nil => exact List.mem_cons_self
    | cons first rest induction => exact List.mem_cons_of_mem _ induction

theorem with_newer_versions (versions : List UInt32) :
    (withNewer versions).map (·.1) = versions := by
  induction versions with
  | nil => rfl
  | cons version later induction => rw [withNewer, List.map_cons, induction]

theorem version_of_stage {versions : List UInt32} {version : UInt32} {newer : Option UInt32}
    (stage : (version, newer) ∈ withNewer versions) : version ∈ versions := by
  rw [← with_newer_versions versions]
  exact List.mem_map_of_mem (f := fun stage => stage.1) stage

theorem stage_of_version {versions : List UInt32} {version : UInt32}
    (member : version ∈ versions) : ∃ newer, (version, newer) ∈ withNewer versions := by
  rw [← with_newer_versions versions, List.mem_map] at member
  obtain ⟨⟨same, newer⟩, stage, rfl⟩ := member
  exact ⟨newer, stage⟩

theorem with_newer_concat (versions : List UInt32) (last : UInt32) :
    withNewer (versions ++ [last]) =
      (withNewer versions).map (fun stage => (stage.1, stage.2.or (some last))) ++
        [(last, none)] := by
  induction versions with
  | nil => rfl
  | cons version later induction =>
      rw [List.cons_append, withNewer, induction, withNewer]
      cases later <;> rfl

namespace Shape

theorem overloads_below_reverse (shape : Shape) (newer : Option UInt32) (marks : List UInt32) :
    (shape.overloadsBelow newer marks).reverse =
      (withNewer marks.reverse).map fun stage => shape.overloadAt stage.1 (stage.2.or newer) := by
  induction marks generalizing newer with
  | nil => rfl
  | cons version older induction =>
      rw [overloadsBelow, List.reverse_cons, induction, List.reverse_cons, with_newer_concat,
        List.map_append, List.map_map]
      congr 1
      apply List.map_congr_left
      intro stage _
      rcases stage with ⟨earlier, following⟩
      cases following <;> rfl

/-- The overloads are those of the versions, each below the next newer one. -/
theorem overloads_eq (shape : Shape) :
    shape.overloads =
      (withNewer shape.versions).map fun stage => shape.overloadAt stage.1 stage.2 := by
  simp [overloads, overloads_below_reverse, versions]

/-- The fields that calls of a version must supply, in the order of its parameters. -/
def fieldsUpTo (shape : Shape) (version : UInt32) : List Field :=
  shape.relevantFields.filter fun field => decide (field.watermark ≤ version)

theorem mem_fields_up_to {shape : Shape} {version : UInt32} {field : Field} :
    field ∈ shape.fieldsUpTo version ↔
      field ∈ shape.relevantFields ∧ field.watermark ≤ version := by
  simp [fieldsUpTo]

/-- What the overload of `version` may rely on, where `newer` is the next newer version. -/
inductive IsStage (shape : Shape) (version : UInt32) : Option UInt32 → Prop where
  | newest (covered : ∀ field ∈ shape.relevantFields, field.watermark ≤ version) :
      IsStage shape version none
  | followed (next : UInt32) (later : version < next)
      (reached : ∃ field ∈ shape.relevantFields, field.watermark = next)
      (between : ∀ field ∈ shape.relevantFields,
        field.watermark ≤ version ∨ next ≤ field.watermark) :
      IsStage shape version (some next)

end Shape

theorem Field.watermark_of_requirement {field : Field} (sound : field.IsSound)
    {requirement : Requirement} (required : field.requirement = some requirement) :
    field.watermark = requirement.sinceVersion := by
  have literal := sound.required_literal (by simp [required])
  obtain ⟨text, found⟩ := Option.isSome_iff_exists.mp literal
  simp [Field.watermark, Field.mandatorySince, found, required]

theorem Field.watermark_without_requirement {field : Field} (free : field.requirement = none) :
    field.watermark = 1 := by
  unfold Field.watermark Field.mandatorySince
  rw [free]
  cases field.default <;> rfl

namespace Shape

theorem mem_relevant_fields {shape : Shape} {field : Field} :
    field ∈ shape.relevantFields ↔ field ∈ shape.fields ∧ field.isConstructorRelevant = true :=
  List.mem_filter

variable {shape : Shape}

theorem relevant_sound (sound : shape.IsSound) {field : Field}
    (relevant : field ∈ shape.relevantFields) : field.IsSound :=
  sound.fields_sound field (mem_relevant_fields.mp relevant).1

theorem relevant_names_distinct (sound : shape.IsSound) :
    (shape.relevantFields.map (·.name)).Nodup :=
  sound.names_distinct.sublist (List.filter_sublist.map _)

theorem names_up_to_distinct (sound : shape.IsSound) (version : UInt32) :
    ((shape.fieldsUpTo version).map (·.name)).Nodup :=
  (relevant_names_distinct sound).sublist (List.filter_sublist.map _)

theorem mem_versions_iff_watermark (sound : shape.IsSound) {version : UInt32} :
    version ∈ shape.versions ↔
      version = 1 ∨ ∃ field ∈ shape.relevantFields, field.watermark = version := by
  rw [mem_versions, mem_watermarks]
  constructor
  · intro either
    rcases either with first | ⟨field, relevant, requirement, required, rfl⟩
    · exact .inl first
    · exact .inr ⟨field, relevant,
        Field.watermark_of_requirement (relevant_sound sound relevant) required⟩
  · intro either
    rcases either with first | ⟨field, relevant, rfl⟩
    · exact .inl first
    · cases required : field.requirement with
      | none => exact .inl (Field.watermark_without_requirement required)
      | some requirement =>
          exact .inr ⟨field, relevant, requirement, required,
            (Field.watermark_of_requirement (relevant_sound sound relevant) required).symm⟩

theorem first_version_least (sound : shape.IsSound) {version : UInt32}
    (member : version ∈ shape.versions) : 1 ≤ version := by
  rw [mem_versions, mem_watermarks] at member
  rcases member with rfl | ⟨field, relevant, requirement, required, rfl⟩
  · exact UInt32.le_refl 1
  · exact UInt32.le_of_lt ((relevant_sound sound relevant).required_later requirement required)

/-- Every version of the list is a stage below the version that follows it there. -/
theorem stage_of_versions (sound : shape.IsSound) {earlier later : List UInt32} {version : UInt32}
    (versions : shape.versions = earlier ++ version :: later) :
    shape.IsStage version later.head? := by
  have ascending := shape.versions_ascending
  rw [versions, List.pairwise_append, List.pairwise_cons] at ascending
  obtain ⟨_, ⟨below, laterAscending⟩, above⟩ := ascending
  -- Every watermark is itself a version, so it lies on one side of the cut or the other.
  have place (field : Field) (relevant : field ∈ shape.relevantFields) :
      field.watermark ≤ version ∨ field.watermark ∈ later := by
    have member := (mem_versions_iff_watermark sound).mpr (.inr ⟨field, relevant, rfl⟩)
    rw [versions, List.mem_append, List.mem_cons] at member
    rcases member with before | same | after
    · exact .inl (UInt32.le_of_lt (above _ before _ List.mem_cons_self))
    · exact .inl (UInt32.le_of_eq same)
    · exact .inr after
  cases later with
  | nil =>
      apply IsStage.newest
      intro field relevant
      simpa using place field relevant
  | cons next beyond =>
      have larger : version < next := below next List.mem_cons_self
      have nextMember : next ∈ shape.versions := by simp [versions]
      apply IsStage.followed next larger
      · rcases (mem_versions_iff_watermark sound).mp nextMember with rfl | reached
        · have least : 1 ≤ version := first_version_least sound (by simp [versions])
          exact (UInt32.not_lt.mpr least larger).elim
        · exact reached
      · intro field relevant
        rcases place field relevant with before | after
        · exact .inl before
        · rcases List.mem_cons.mp after with same | farther
          · exact .inr (UInt32.le_of_eq same.symm)
          · exact .inr (UInt32.le_of_lt
              ((List.pairwise_cons.mp laterAscending).1 _ farther))

end Shape

end ShapeCompat
