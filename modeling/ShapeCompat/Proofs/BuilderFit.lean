import ShapeCompat.Proofs.Building
import ShapeCompat.Proofs.Construction.Ambiguity
import ShapeCompat.Proofs.Schema.Placement

/-!
The construction plan of a shape beside its builder. Each is made from the fields on its own, by
filters of its own, and the code that is put out only compiles where they meet: what constructors
hand over is what the builder takes, and what is restored, offered or read is what it stores.
-/

namespace ShapeCompat

def Slot.typed (slot : Slot) : TypedName := ⟨slot.field, slot.type⟩

def StorageSlot.typed (slot : StorageSlot) : TypedName := ⟨slot.name, slot.type⟩

def BuilderProperty.typed (property : BuilderProperty) : TypedName :=
  ⟨property.name, property.type⟩

/-- A property as its callers see it, on whichever tier it stands. -/
def BuilderProperty.offer (property : BuilderProperty) : TypedName × SetterKind :=
  (property.typed, property.setter)

/-- The properties that may be left out, none of them where there is no optional tier. -/
def Builder.optionalProperties (builder : Builder) : List BuilderProperty :=
  (builder.optional.map (·.properties)).getD []

/-- The construction plan and the builder can be put out together. -/
structure Construction.Fits (construction : Construction) (builder : Builder) : Prop where
  newest : ∃ newest, construction.overloads.getLast? = some newest ∧
    newest.params.map Slot.typed = builder.concrete.constructorParams ∧
    newest.resolved.map (·.field) = builder.concrete.constructorParams.map (·.name) ∧
    ∀ entry ∈ newest.entries,
      entry.params.map EntryParam.typed = builder.concrete.constructorParams
  factory : construction.style = .callback → ∃ factory, construction.factory = some factory ∧
    factory.params = builder.concrete.constructorParams
  copy_args : construction.copy.builderArgs = builder.concrete.constructorParams.map (·.name)
  copy_apart : construction.copy.builderArgs.Disjoint construction.copy.setters
  copy_complete : (construction.copy.builderArgs ++ construction.copy.setters).Perm
    (builder.concrete.storage.map (·.name))
  slots_distinct : (builder.concrete.storage.map (·.name)).Nodup
  initialised : (builder.concrete.storage.filter (·.init == .constructorParam)).map
    StorageSlot.typed = builder.concrete.constructorParams
  full : builder.full.properties.map BuilderProperty.typed =
    builder.concrete.storage.map StorageSlot.typed
  optional : builder.optionalProperties.map BuilderProperty.offer =
    (builder.full.properties.filter (·.overridesParent)).map BuilderProperty.offer
  optional_within : (builder.optionalProperties.map BuilderProperty.offer).Sublist
    (builder.full.properties.map BuilderProperty.offer)
  reads : ∀ assignment ∈ construction.assignments, assignment.source = .storage →
    assignment.field ∈ builder.concrete.storage.map (·.name)
  no_arg : builder.concrete.publicNoArg = true →
    (construction.entryPoints.filter (·.2.takesNothing)).length = 1

namespace Shape

variable {shape : Shape}

theorem constructor_param_names (shape : Shape) :
    shape.concreteBuilder.constructorParams.map (·.name) =
      shape.relevantFields.map (·.name) := by
  rw [constructor_params_eq, List.map_map]
  rfl

theorem storage_names (shape : Shape) :
    shape.concreteBuilder.storage.map (·.name) = shape.storedFields.map (·.name) := by
  change (shape.storedFields.map Field.storageSlot).map (·.name) = _
  rw [List.map_map]
  rfl

theorem copy_plan_complete (shape : Shape) :
    (shape.copyPlan.builderArgs ++ shape.copyPlan.setters).Perm
      (shape.storedFields.map (·.name)) := by
  change (shape.relevantFields.map (·.name) ++ shape.restoredFields.map (·.name)).Perm _
  rw [← List.map_append, ← stored_builder_params, ← stored_restored_fields]
  exact (List.filter_append_perm _ _).map _

theorem param_slots (shape : Shape) :
    (shape.concreteBuilder.storage.filter (·.init == .constructorParam)).map StorageSlot.typed =
      shape.concreteBuilder.constructorParams := by
  have params (field : Field) :
      (field.storageSlot.init == .constructorParam) = field.isBuilderParam := by
    unfold Field.storageSlot
    cases field.isBuilderParam <;> rfl
  change ((shape.storedFields.map Field.storageSlot).filter _).map _ = _
  rw [List.filter_map, List.map_map, constructor_params_eq, ← stored_builder_params]
  congr 1
  apply List.filter_congr
  intro field _
  exact params field

theorem optional_properties (shape : Shape) :
    shape.builder.optionalProperties =
      (shape.fields.filter (·.isOptionalTier)).map (·.builderProperty false) := by
  change ((shape.optionalTier.map (·.properties)).getD []) = _
  unfold optionalTier
  dsimp only
  split
  · rename_i empty
    exact empty.symm
  · rfl

/-- The full tier overrides exactly what the optional tier has. -/
theorem overridden_properties (shape : Shape) :
    (shape.builder.full.properties.filter (·.overridesParent)).map BuilderProperty.offer =
      shape.builder.optionalProperties.map BuilderProperty.offer := by
  have stored : shape.storedFields.filter (·.isOptionalTier) =
      shape.fields.filter (·.isOptionalTier) := by
    rw [storedFields, List.filter_filter]
    apply List.filter_congr
    intro field _
    unfold Field.isOptionalTier Field.hasStorage
    cases field.mutability <;> simp
  change ((shape.storedFields.map fun field =>
    field.builderProperty field.isOptionalTier).filter _).map _ = _
  rw [optional_properties, List.filter_map, List.map_map, List.map_map, ← stored]
  rfl

theorem storage_read (shape : Shape) {assignment : Assignment}
    (member : assignment ∈ shape.fields.map Field.assignment)
    (read : assignment.source = .storage) :
    assignment.field ∈ shape.storedFields.map (·.name) := by
  obtain ⟨field, present, rfl⟩ := List.mem_map.mp member
  have changeable : field.mutability = .mutable := by
    by_contra frozen
    simp [Field.assignment, Field.isFrozen, frozen] at read
  exact List.mem_map_of_mem (f := fun field => field.name)
    (mem_stored_fields.mpr ⟨present, by simp [changeable]⟩)

/-- A shape without constructor parameters has one entry that takes nothing at all. -/
theorem one_entry_takes_nothing (bare : shape.relevantFields = []) (owner : String)
    (style : Style) :
    ((shape.plannedConstruction owner style).entryPoints.filter (·.2.takesNothing)).length = 1 := by
  have single : (shape.plannedConstruction owner style).overloads =
      [shape.plannedOverload style 1 none] :=
    attach_entries_of_no_relevant bare style
  unfold Construction.entryPoints
  rw [single, List.flatMap_singleton]
  unfold plannedOverload entriesAt
  rw [if_pos bare]
  cases shape.hasOptionalTier <;> rfl

theorem newest_fits (sound : shape.IsSound) (style : Style) :
    ∃ newest, (shape.attachEntries style shape.overloads).getLast? = some newest ∧
      newest.params.map Slot.typed = shape.concreteBuilder.constructorParams ∧
      newest.resolved.map (·.field) = shape.concreteBuilder.constructorParams.map (·.name) ∧
      ∀ entry ∈ newest.entries,
        entry.params.map EntryParam.typed = shape.concreteBuilder.constructorParams := by
  obtain ⟨version, member, last⟩ := newest_overload sound style
  have stage := stage_of_mem sound member
  have taken := fields_up_to_newest stage
  refine ⟨_, last, ?_, ?_, ?_⟩
  · change (shape.overloadAt version none).params.map Slot.typed = _
    rw [params_eq stage, taken, List.map_map, constructor_params_eq]
    rfl
  · change (shape.relevantFields.map
      (·.resolve (shape.overloadAt version none).slots)).map (·.field) = _
    rw [List.map_map, constructor_param_names]
    rfl
  · intro entry listed
    rw [entry_typed listed, taken, constructor_params_eq]

theorem construction_fits (sound : shape.IsSound) (owner : String) (style : Style) :
    (shape.plannedConstruction owner style).Fits shape.builder where
  newest := newest_fits sound style
  factory := by
    rintro rfl
    exact ⟨shape.factory owner, rfl, (constructor_params_eq shape).symm⟩
  copy_args := (constructor_param_names shape).symm
  copy_apart := by
    apply List.disjoint_of_nodup_append
    exact (copy_plan_complete shape).nodup_iff.mpr (stored_names_distinct sound)
  copy_complete := (copy_plan_complete shape).trans (.of_eq (storage_names shape).symm)
  slots_distinct := by
    change (shape.concreteBuilder.storage.map (·.name)).Nodup
    rw [storage_names]
    exact stored_names_distinct sound
  initialised := param_slots shape
  full := by
    change (shape.storedFields.map _).map _ = (shape.storedFields.map _).map _
    rw [List.map_map, List.map_map]
    rfl
  optional := (overridden_properties shape).symm
  optional_within := by
    rw [← overridden_properties]
    exact List.filter_sublist.map _
  reads := by
    intro assignment member read
    change _ ∈ shape.concreteBuilder.storage.map (·.name)
    rw [storage_names]
    exact storage_read shape member read
  no_arg := by
    intro bare
    apply one_entry_takes_nothing
    change shape.concreteBuilder.constructorParams.isEmpty = true at bare
    rw [constructor_params_eq, List.isEmpty_iff, List.map_eq_nil_iff] at bare
    exact bare

end Shape

/-- The construction plan and the builder in the plan of a plain shape fit together, in either
style. -/
theorem planned_construction_fits_builder (declarations : List ShapeDeclaration)
    (settings : Settings) (shape : Shape) (style : Style) (construction : Construction)
    (normalized : shape ∈ (Schema.ofDeclarations declarations settings).schema.shapes)
    (plain : shape.kind = .plain)
    (planned : shape.construction shape.outputQualifiedName style = .ok construction) :
    ∃ plan builder, shape.plan style = .ok plan ∧ plan.construction = some construction ∧
      plan.builder = some builder ∧ construction.style = style ∧ construction.Fits builder := by
  have sound := Schema.of_declarations_sound declarations settings shape normalized
  have parts := Shape.plain_parts_of_construction plain planned
  obtain ⟨_, rfl⟩ := Shape.construction_eq_ok_iff.mp planned
  unfold Shape.plan
  rw [parts]
  exact ⟨_, _, rfl, rfl, rfl, rfl, Shape.construction_fits sound _ _⟩

def parcelDeclaration : ShapeDeclaration :=
  { name := "ParcelDBC"
    package := "com.acme"
    fields := [
      { name := "weight", type := "Int" },
      { name := "note", type := "String", default := some { plain := "none" } },
      { name := "origin", type := "String", mutability := .immutable,
        default := some { plain := "depot" } },
      { name := "insured", type := "Boolean", requirement := some ⟨2, true, { raw := "false" }⟩ }] }

def parcelShape : Shape :=
  parcelDeclaration.toShape {} (accepted (checkFields [] parcelDeclaration.fields))

theorem parcel_plan_fits_builder :
    parcelShape ∈ (Schema.ofDeclarations [parcelDeclaration] {}).schema.shapes ∧
      ∃ plan builder, parcelShape.plan .callback = .ok plan ∧ plan.builder = some builder ∧
        (parcelShape.plannedConstruction "com.acme.Parcel" .callback).Fits builder := by
  have normalized : parcelShape ∈ (Schema.ofDeclarations [parcelDeclaration] {}).schema.shapes := by
    decide +kernel
  have distinct : (signatures (parcelShape.attachEntries .callback parcelShape.overloads)).Nodup := by
    decide +kernel
  have named : parcelShape.outputQualifiedName = "com.acme.Parcel" := by decide +kernel
  obtain ⟨plan, builder, made, _, built, _, fits⟩ := planned_construction_fits_builder
    [parcelDeclaration] {} parcelShape .callback _ normalized rfl
    (Shape.construction_of_distinct distinct)
  rw [named] at fits
  exact ⟨normalized, plan, builder, made, built, fits⟩

end ShapeCompat
