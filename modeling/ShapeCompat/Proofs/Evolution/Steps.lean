import ShapeCompat.Proofs.Construction.Versions
import Mathlib.Data.List.Nodup

/-!
Evolution of a shape from one release to the next: fields are added, and optional fields become
required in a version that no released call knows. What the released versions reach stays exactly as
it was, which is all that the later results on calls and signatures need.
-/

namespace ShapeCompat

/-- How the fields of a shape may change, where `marks` are the versions released so far. New fields
are sound, as all fields are that come from declarations. -/
inductive Evolution (marks : List UInt32) : List Field → List Field → Prop where
  | done : Evolution marks [] []
  | kept (field : Field) {old new : List Field} (rest : Evolution marks old new) :
      Evolution marks (field :: old) (field :: new)
  | addedOptional (field : Field) (sound : field.IsSound)
      (lasting : field.mutability ≠ .immutableRecently) (optional : field.default.isSome)
      (free : field.requirement = none) {old new : List Field} (rest : Evolution marks old new) :
      Evolution marks old (field :: new)
  | addedRequired (field : Field) (sound : field.IsSound) (requirement : Requirement)
      (required : field.requirement = some requirement)
      (later : ∀ mark ∈ marks, mark < requirement.sinceVersion) {old new : List Field}
      (rest : Evolution marks old new) :
      Evolution marks old (field :: new)
  | madeRequired (field : Field) (requirement : Requirement)
      (changeable : field.mutability = .mutable) (optional : field.default.isSome)
      (free : field.requirement = none) (offered : requirement.previouslyOptional = true)
      (later : ∀ mark ∈ marks, mark < requirement.sinceVersion) {old new : List Field}
      (rest : Evolution marks old new) :
      Evolution marks (field :: old) ({ field with requirement := some requirement } :: new)

/-- The later form of a field that callers know: they reach it under its name, with its literal, and
on the optional tier where it was there before. -/
structure Field.Continues (field later : Field) : Prop where
  name : later.name = field.name
  literal : later.literal = field.literal
  frozen : later.isFrozen = field.isFrozen
  optional : field.isOptionalTier = true → later.isOptionalTier = true

namespace Evolution

variable {marks : List UInt32} {old new : List Field}

theorem unchanged (marks : List UInt32) (fields : List Field) :
    Evolution marks fields fields := by
  induction fields with
  | nil => exact .done
  | cons field rest induction => exact .kept field induction

theorem after_kept (earlier : List Field) (step : Evolution marks old new) :
    Evolution marks (earlier ++ old) (earlier ++ new) := by
  induction earlier with
  | nil => exact step
  | cons field rest induction => exact .kept field induction

theorem fields_sound (step : Evolution marks old new) (released : 1 ∈ marks)
    (sound : ∀ field ∈ old, field.IsSound) : ∀ field ∈ new, field.IsSound := by
  induction step with
  | done => exact sound
  | kept field rest induction =>
      obtain ⟨first, others⟩ := List.forall_mem_cons.mp sound
      exact List.forall_mem_cons.mpr ⟨first, induction others⟩
  | addedOptional field added lasting optional free rest induction =>
      exact List.forall_mem_cons.mpr ⟨added, induction sound⟩
  | addedRequired field added requirement required later rest induction =>
      exact List.forall_mem_cons.mpr ⟨added, induction sound⟩
  | madeRequired field requirement changeable optional free offered later rest induction =>
      obtain ⟨first, others⟩ := List.forall_mem_cons.mp sound
      refine List.forall_mem_cons.mpr ⟨?_, induction others⟩
      refine ⟨first.frozen_literal, fun _ => optional, ?_, first.literal_nonempty⟩
      intro found same
      cases same
      exact later 1 released

theorem continues (step : Evolution marks old new) {field : Field} (member : field ∈ old) :
    ∃ later ∈ new, field.Continues later := by
  induction step with
  | done => cases member
  | kept first rest induction =>
      rcases List.mem_cons.mp member with rfl | beyond
      · exact ⟨field, List.mem_cons_self, rfl, rfl, rfl, id⟩
      · obtain ⟨later, present, same⟩ := induction beyond
        exact ⟨later, List.mem_cons_of_mem _ present, same⟩
  | addedOptional first added lasting optional free rest induction =>
      obtain ⟨later, present, same⟩ := induction member
      exact ⟨later, List.mem_cons_of_mem _ present, same⟩
  | addedRequired first added requirement required newer rest induction =>
      obtain ⟨later, present, same⟩ := induction member
      exact ⟨later, List.mem_cons_of_mem _ present, same⟩
  | madeRequired first requirement changeable optional free offered newer rest induction =>
      rcases List.mem_cons.mp member with rfl | beyond
      · refine ⟨_, List.mem_cons_self, rfl, rfl, rfl, ?_⟩
        intro _
        simp [Field.isOptionalTier, changeable, optional, offered]
      · obtain ⟨later, present, same⟩ := induction beyond
        exact ⟨later, List.mem_cons_of_mem _ present, same⟩

theorem default_of_new (step : Evolution marks old new) {field : Field} (member : field ∈ new)
    (unknown : field.name ∉ old.map (·.name)) : field.default.isSome := by
  induction step with
  | done => cases member
  | kept first rest induction =>
      rw [List.map_cons, List.mem_cons, not_or] at unknown
      rcases List.mem_cons.mp member with rfl | beyond
      · exact (unknown.1 rfl).elim
      · exact induction beyond unknown.2
  | addedOptional first added lasting optional free rest induction =>
      rcases List.mem_cons.mp member with rfl | beyond
      · exact optional
      · exact induction beyond unknown
  | addedRequired first added requirement required newer rest induction =>
      rcases List.mem_cons.mp member with rfl | beyond
      · exact added.required_literal (by rw [required]; rfl)
      · exact induction beyond unknown
  | madeRequired first requirement changeable optional free offered newer rest induction =>
      rw [List.map_cons, List.mem_cons, not_or] at unknown
      rcases List.mem_cons.mp member with rfl | beyond
      · exact optional
      · exact induction beyond unknown.2

end Evolution

/-- The field is a parameter of the overload of `version`. -/
def Field.isReached (field : Field) (version : UInt32) : Bool :=
  field.isConstructorRelevant && decide (field.watermark ≤ version)

theorem Field.not_reached_without_requirement {field : Field}
    (lasting : field.mutability ≠ .immutableRecently) (optional : field.default.isSome)
    (free : field.requirement = none) (version : UInt32) : field.isReached version = false := by
  obtain ⟨literal, found⟩ := Option.isSome_iff_exists.mp optional
  simp [isReached, isConstructorRelevant, isBuilderParam, lasting, found, free]

theorem Field.not_reached_before {field : Field} (sound : field.IsSound)
    {requirement : Requirement} (required : field.requirement = some requirement)
    {version : UInt32} (later : version < requirement.sinceVersion) :
    field.isReached version = false := by
  rw [isReached, Field.watermark_of_requirement sound required,
    decide_eq_false (UInt32.not_le.mpr later), Bool.and_false]

/-- A released version reaches exactly the fields that it reached before. -/
theorem Evolution.reached_fields {marks : List UInt32} {old new : List Field}
    (step : Evolution marks old new) (released : 1 ∈ marks)
    (sound : ∀ field ∈ old, field.IsSound) {version : UInt32} (member : version ∈ marks) :
    new.filter (·.isReached version) = old.filter (·.isReached version) := by
  -- Only kept fields are reached: the others take part in no constructor or in newer ones alone.
  induction step with
  | done => rfl
  | kept field rest induction =>
      rw [List.filter_cons, List.filter_cons, induction (List.forall_mem_cons.mp sound).2]
  | addedOptional field added lasting optional free rest induction =>
      rw [List.filter_cons_of_neg, induction sound]
      rw [Field.not_reached_without_requirement lasting optional free]
      exact Bool.false_ne_true
  | addedRequired field added requirement required later rest induction =>
      rw [List.filter_cons_of_neg, induction sound]
      rw [Field.not_reached_before added required (later version member)]
      exact Bool.false_ne_true
  | madeRequired field requirement changeable optional free offered later rest induction =>
      have lasting : field.mutability ≠ .immutableRecently := by simp [changeable]
      have changed : ({ field with requirement := some requirement } : Field).IsSound :=
        (madeRequired field requirement changeable optional free offered later rest).fields_sound
          released sound _ List.mem_cons_self
      rw [List.filter_cons_of_neg, List.filter_cons_of_neg,
        induction (List.forall_mem_cons.mp sound).2]
      · rw [Field.not_reached_without_requirement lasting optional free]
        exact Bool.false_ne_true
      · rw [Field.not_reached_before changed rfl (later version member)]
        exact Bool.false_ne_true

namespace Shape

/-- One step of evolution: nothing but the fields matters to calls, and all names differ. -/
structure EvolvesTo (old new : Shape) : Prop where
  kind : new.kind = old.kind
  names_distinct : (new.fields.map (·.name)).Nodup
  fields : Evolution old.watermarks old.fields new.fields

theorem fields_up_to_eq_reached (shape : Shape) (version : UInt32) :
    shape.fieldsUpTo version = shape.fields.filter (·.isReached version) := by
  rw [fieldsUpTo, relevantFields, List.filter_filter]
  apply List.filter_congr
  intro field _
  exact Bool.and_comm _ _

/-- One changeable field more, wherever it is put, is a step of evolution. -/
theorem evolves_by_insertion {old : Shape} (oldSound : old.IsSound) {field : Field}
    {earlier later : List Field} (fields : old.fields = earlier ++ later)
    (fresh : field.name ∉ old.fields.map (·.name)) (sound : field.IsSound)
    (changeable : field.mutability = .mutable)
    (added : field.default.isSome ∧ field.requirement = none ∨
      ∃ requirement, field.requirement = some requirement ∧
        ∀ mark ∈ old.watermarks, mark < requirement.sinceVersion) :
    old.EvolvesTo { old with fields := earlier ++ field :: later } := by
  refine ⟨rfl, ?_, ?_⟩
  · have distinct := oldSound.names_distinct
    rw [fields] at fresh distinct
    rw [List.map_append, List.map_cons, List.nodup_middle, List.nodup_cons, ← List.map_append]
    exact ⟨fresh, distinct⟩
  · rw [fields]
    apply Evolution.after_kept
    rcases added with ⟨optional, free⟩ | ⟨requirement, required, beyond⟩
    · have lasting : field.mutability ≠ .immutableRecently := by simp [changeable]
      exact .addedOptional field sound lasting optional free (.unchanged _ later)
    · exact .addedRequired field sound requirement required beyond (.unchanged _ later)

namespace EvolvesTo

variable {old new : Shape}

theorem sound (step : old.EvolvesTo new) (oldSound : old.IsSound) : new.IsSound :=
  ⟨step.names_distinct,
    step.fields.fields_sound (mem_watermarks.mpr (.inl rfl)) oldSound.fields_sound⟩

theorem fields_up_to (step : old.EvolvesTo new) (oldSound : old.IsSound) {version : UInt32}
    (member : version ∈ old.versions) : new.fieldsUpTo version = old.fieldsUpTo version := by
  rw [fields_up_to_eq_reached, fields_up_to_eq_reached]
  exact step.fields.reached_fields (mem_watermarks.mpr (.inl rfl)) oldSound.fields_sound
    (mem_versions.mp member)

theorem relevant (step : old.EvolvesTo new) (oldSound : old.IsSound) {field : Field}
    (relevant : field ∈ old.relevantFields) : field ∈ new.relevantFields := by
  have released : field.watermark ∈ old.versions :=
    (mem_versions_iff_watermark oldSound).mpr (.inr ⟨field, relevant, rfl⟩)
  have reached := mem_fields_up_to.mpr ⟨relevant, UInt32.le_refl _⟩
  rw [← step.fields_up_to oldSound released] at reached
  exact (mem_fields_up_to.mp reached).1

theorem versions (step : old.EvolvesTo new) (oldSound : old.IsSound) {version : UInt32}
    (member : version ∈ old.versions) : version ∈ new.versions := by
  rw [mem_versions_iff_watermark (step.sound oldSound)]
  rcases (mem_versions_iff_watermark oldSound).mp member with first | ⟨field, relevant, same⟩
  · exact .inl first
  · exact .inr ⟨field, step.relevant oldSound relevant, same⟩

theorem optional_tier (step : old.EvolvesTo new) (optional : old.hasOptionalTier = true) :
    new.hasOptionalTier = true := by
  obtain ⟨field, member, offered⟩ := List.any_eq_true.mp optional
  obtain ⟨later, present, same⟩ := step.fields.continues member
  exact List.any_eq_true.mpr ⟨later, present, same.optional offered⟩

end EvolvesTo
end Shape
end ShapeCompat
