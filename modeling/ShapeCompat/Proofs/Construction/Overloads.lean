import ShapeCompat.Construction.Entries
import ShapeCompat.Proofs.Construction.Versions
import Mathlib.Data.List.Basic

/-!
Slots and parameters of an overload in terms of the fields that its version and the next newer one
reach. Whatever order the watermarks come in, the slots of an overload are the parameters of the
next newer one.
-/

namespace ShapeCompat

/-- How a field appears in an overload that has a slot for it. -/
def Field.slotKind (field : Field) (newer : Option UInt32) : SlotKind :=
  if some field.watermark = newer then .defaulted field.literal
  else if field.mutability = .immutableRecently ∧ newer.isSome then .deprecated field.literal
  else .param

def Field.slot (field : Field) (newer : Option UInt32) : Slot :=
  ⟨field.name, field.typeName, field.slotKind newer⟩

theorem Field.slot_eq (field : Field) (version : UInt32) (newer : Option UInt32) :
    field.slot? version newer =
      if some field.watermark = newer ∨ field.watermark ≤ version then some (field.slot newer)
      else none := by
  unfold slot? slot slotKind
  by_cases reached : some field.watermark = newer
  · simp only [reached, if_true, true_or]
  · by_cases present : field.watermark ≤ version
    · simp only [reached, present, if_false, if_true, or_true]
      split_ifs <;> rfl
    · simp only [reached, present, if_false, or_self]

theorem Field.slot_kind_param (field : Field) (newer : Option UInt32) :
    (field.slot newer).kind.isParam = decide (some field.watermark ≠ newer) := by
  unfold slot slotKind
  split_ifs with reached recent
  · simp [SlotKind.isParam, reached]
  · simp [SlotKind.isParam, reached]
  · simp [SlotKind.isParam, reached]

namespace Shape

variable {shape : Shape} {version next : UInt32} {newer : Option UInt32}

theorem slots_eq (shape : Shape) (version : UInt32) (newer : Option UInt32) :
    (shape.overloadAt version newer).slots =
      (shape.relevantFields.filter fun field =>
        decide (some field.watermark = newer ∨ field.watermark ≤ version)).map (·.slot newer) := by
  change shape.relevantFields.filterMap (·.slot? version newer) = _
  rw [← List.filterMap_eq_map, List.filterMap_filter]
  apply List.filterMap_congr
  intro field _
  rw [Field.slot_eq]
  simp

/-- Nothing but the fields of a shape counts for its overloads. -/
theorem overloads_of_fields {first second : Shape} (same : first.fields = second.fields) :
    first.overloads = second.overloads := by
  have relevant : first.relevantFields = second.relevantFields :=
    congrArg (List.filter _) same
  have below (newer : Option UInt32) (versions : List UInt32) :
      first.overloadsBelow newer versions = second.overloadsBelow newer versions := by
    induction versions generalizing newer with
    | nil => rfl
    | cons version older induction =>
        rw [overloadsBelow, overloadsBelow, overloadAt, overloadAt, relevant, induction]
  rw [overloads, overloads, watermarks, watermarks, relevant, below]

/-- An overload with a newer one passes on exactly what the newer one takes. -/
theorem slots_followed (stage : shape.IsStage version (some next)) :
    (shape.overloadAt version (some next)).slots =
      (shape.fieldsUpTo next).map (·.slot (some next)) := by
  cases stage with
  | followed _ later reached between =>
      rw [slots_eq, fieldsUpTo]
      congr 1
      apply List.filter_congr
      intro field relevant
      rw [decide_eq_decide, Option.some.injEq]
      constructor
      · intro either
        rcases either with same | before
        · exact UInt32.le_of_eq same
        · exact UInt32.le_trans before (UInt32.le_of_lt later)
      · intro bound
        rcases between field relevant with before | after
        · exact .inr before
        · exact .inl (UInt32.le_antisymm bound after)

theorem slots_newest (stage : shape.IsStage version none) :
    (shape.overloadAt version none).slots = shape.relevantFields.map (·.slot none) := by
  cases stage with
  | newest covered =>
      rw [slots_eq]
      congr 1
      apply List.filter_eq_self.mpr
      intro field relevant
      simpa using covered field relevant

theorem fields_up_to_newest (stage : shape.IsStage version none) :
    shape.fieldsUpTo version = shape.relevantFields := by
  cases stage with
  | newest covered =>
      apply List.filter_eq_self.mpr
      intro field relevant
      simpa using covered field relevant

theorem params_eq (stage : shape.IsStage version newer) :
    (shape.overloadAt version newer).params = (shape.fieldsUpTo version).map (·.slot newer) := by
  rw [Overload.params, slots_eq, List.filter_map, List.filter_filter, fieldsUpTo]
  congr 1
  apply List.filter_congr
  intro field relevant
  simp only [Function.comp_apply, Field.slot_kind_param, ← Bool.decide_and, decide_eq_decide]
  cases stage with
  | newest covered => simp
  | followed next later reached between =>
      constructor
      · intro both
        rcases both with ⟨beyond, same | before⟩
        · exact (beyond same).elim
        · exact before
      · intro before
        refine ⟨?_, .inr before⟩
        intro same
        rw [Option.some.injEq] at same
        exact UInt32.not_lt.mpr before (same ▸ later)

theorem slots_empty_iff (stage : shape.IsStage version newer) :
    (shape.overloadAt version newer).slots = [] ↔ shape.relevantFields = [] := by
  cases stage with
  | newest covered => rw [slots_newest (.newest covered), List.map_eq_nil_iff]
  | followed next later reached between =>
      rw [slots_followed (.followed next later reached between), List.map_eq_nil_iff]
      obtain ⟨field, relevant, rfl⟩ := reached
      have present : field ∈ shape.fieldsUpTo field.watermark :=
        mem_fields_up_to.mpr ⟨relevant, UInt32.le_refl _⟩
      exact ⟨fun none => (List.ne_nil_of_mem present none).elim,
        fun none => (List.ne_nil_of_mem relevant none).elim⟩

/-- In the newest overload every field that takes part in constructors is passed through. -/
theorem resolved_newest (stage : shape.IsStage version none) :
    (shape.overloadAt version none).resolved.map (·.value) =
      shape.relevantFields.map fun field => .param field.name := by
  have slots := slots_newest stage
  change (shape.relevantFields.map
    (·.resolve (shape.overloadAt version none).slots)).map (·.value) = _
  rw [slots, List.map_map]
  apply List.map_congr_left
  intro field relevant
  have live : ((shape.relevantFields.map (·.slot none)).any fun slot =>
      slot.field == field.name && slot.kind == .param) = true := by
    rw [List.any_map, List.any_eq_true]
    exact ⟨field, relevant, by simp [Field.slot, Field.slotKind]⟩
  simp only [Function.comp_apply, Field.resolve, live, if_true]

end Shape

end ShapeCompat
