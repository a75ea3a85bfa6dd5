import ShapeCompat.Evaluation
import ShapeCompat.Proofs.Construction.EntryPoints
import ShapeCompat.Proofs.Lists

/-!
The concrete builder of a shape, run on values. Its constructor takes one value for each field that
takes part in constructors; setter calls on a tier then change the stored values, the last call on a
property winning; and the result lists all fields, the frozen ones at their literals.
-/

namespace ShapeCompat

/-- A callee that was made from the plan of a shape, under whatever name the shape is put out. -/
structure Constructible.IsFor (callee : Constructible) (shape : Shape) (style : Style) : Prop where
  overloads : callee.construction.overloads = shape.attachEntries style shape.overloads
  assignments : callee.construction.assignments = shape.fields.map Field.assignment
  copy : callee.construction.copy = shape.copyPlan
  builder : callee.builder = shape.builder

/-- The value of the last call on a property. -/
def lastSet (calls : List SetCall) (name : String) : Option String :=
  (calls.reverse.find? (·.field == name)).map (·.value)

theorem last_set_nil (name : String) : lastSet [] name = none := rfl

theorem last_set_cons (call : SetCall) (calls : List SetCall) (name : String) :
    lastSet (call :: calls) name =
      (lastSet calls name).or (if call.field = name then some call.value else none) := by
  unfold lastSet
  rw [List.reverse_cons, List.find?_append]
  cases calls.reverse.find? (·.field == name) with
  | some found => rfl
  | none => by_cases same : call.field = name <;> simp [same]

theorem last_set_append (first second : List SetCall) (name : String) :
    lastSet (first ++ second) name = (lastSet second name).or (lastSet first name) := by
  induction first with
  | nil => simp [last_set_nil]
  | cons call rest induction =>
      rw [List.cons_append, last_set_cons, induction, last_set_cons, Option.or_assoc]

namespace Bindings

theorem lookup_set (bindings : Bindings) (name value other : String) :
    (bindings.set name value).lookup other =
      if name = other then some value else bindings.lookup other := by
  unfold set
  by_cases same : name = other
  · simp [same]
  · rw [List.lookup_cons, beq_false_of_ne (Ne.symm same), if_neg same]

theorem lookup_of_fields (fields : List Field) (distinct : (fields.map (·.name)).Nodup)
    (value : Field → String) {field : Field} (member : field ∈ fields) :
    ((fields.map fun field => (field.name, value field)).reverse).lookup field.name =
      some (value field) := by
  apply lookup_of_mem
  · rw [List.map_reverse, List.map_map]
    exact List.nodup_reverse.mpr distinct
  · rw [List.mem_reverse]
    exact List.mem_map_of_mem (f := fun field => (field.name, value field)) member

theorem find_of_lists (fields : List Field) (distinct : (fields.map (·.name)).Nodup)
    (value : Field → String) {field : Field} (member : field ∈ fields) :
    (ofLists (fields.map (·.name)) (fields.map value)).find field.name = .ok (value field) := by
  have zipped : ofLists (fields.map (·.name)) (fields.map value) =
      (fields.map fun field => (field.name, value field)).reverse := by
    rw [ofLists, List.zip_map']
  rw [find, zipped, lookup_of_fields fields distinct value member]

end Bindings

/-- A tier has a property for the field. -/
def Tier.offers : Tier → Field → Bool
  | .optional, field => field.isOptionalTier
  | .full, field => field.hasStorage
  | .concrete, _ => false

theorem Tier.offered_stored {tier : Tier} {field : Field} (offered : tier.offers field = true) :
    field.mutability ≠ .immutable := by
  cases tier with
  | optional =>
      simp only [offers, Field.isOptionalTier, Bool.and_eq_true, decide_eq_true_eq] at offered
      exact offered.1.1
  | full => simpa [offers, Field.hasStorage] using offered
  | concrete => cases offered

namespace Shape

variable {shape : Shape}

theorem stored_builder_params (shape : Shape) :
    shape.storedFields.filter (·.isBuilderParam) = shape.relevantFields := by
  rw [storedFields, relevantFields, List.filter_filter]
  apply List.filter_congr
  intro field _
  rw [Field.isConstructorRelevant, Field.hasStorage, Bool.and_comm]

/-- The fields that a copy restores by setters. -/
def restoredFields (shape : Shape) : List Field :=
  shape.fields.filter fun field => !field.isBuilderParam && decide (field.mutability = .mutable)

/-- Setters restore every stored field that the constructor of the builder does not take. -/
theorem stored_restored_fields (shape : Shape) :
    shape.storedFields.filter (!·.isBuilderParam) = shape.restoredFields := by
  rw [storedFields, restoredFields, List.filter_filter]
  apply List.filter_congr
  intro field _
  unfold Field.isBuilderParam Field.hasStorage
  cases field.mutability <;> simp

theorem constructor_params_eq (shape : Shape) :
    shape.concreteBuilder.constructorParams = shape.relevantFields.map Field.typed := by
  change (shape.storedFields.filter (·.isBuilderParam)).map Field.typed = _
  rw [stored_builder_params]

theorem mem_stored_fields {field : Field} :
    field ∈ shape.storedFields ↔ field ∈ shape.fields ∧ field.mutability ≠ .immutable := by
  simp [storedFields, Field.hasStorage]

theorem stored_names_distinct (sound : shape.IsSound) :
    (shape.storedFields.map (·.name)).Nodup :=
  sound.names_distinct.sublist (List.filter_sublist.map _)

theorem relevant_of_stored {field : Field} (stored : field ∈ shape.storedFields)
    (param : field.isBuilderParam = true) : field ∈ shape.relevantFields := by
  rw [← stored_builder_params]
  exact List.mem_filter.mpr ⟨stored, param⟩

/-- The setters of a tier are those of the fields that it offers. -/
theorem tier_setter (shape : Shape) (tier : Tier) (name : String) :
    ((shape.builder.tier? tier).bind (·.property? name)).map (·.setter) =
      (shape.fields.find? fun field => tier.offers field && field.name == name).map
        (·.setterKind) := by
  -- Filtering by what a tier offers and searching by name is one search.
  have listed (offers : Field → Bool) (overrides : Field → Bool) :
      (((shape.fields.filter offers).map fun field =>
          field.builderProperty (overrides field)).find? (·.name == name)).map (·.setter) =
        (shape.fields.find? fun field => offers field && field.name == name).map
          (·.setterKind) := by
    simp only [List.find?_map, List.find?_filter, Option.map_map, Function.comp_def,
      Field.builderProperty, Bool.decide_and, Bool.decide_eq_true]
  cases tier with
  | optional =>
      refine Eq.trans ?_ (listed (·.isOptionalTier) fun _ => false)
      change (shape.optionalTier.bind (·.property? name)).map (·.setter) = _
      unfold optionalTier
      dsimp only
      split
      · rename_i empty
        rw [empty]
        rfl
      · rfl
  | full => exact listed (·.hasStorage) (·.isOptionalTier)
  | concrete =>
      have absent : (shape.fields.find? fun field =>
          Tier.concrete.offers field && field.name == name) = none :=
        List.find?_eq_none.mpr fun field _ => by simp [Tier.offers]
      rw [absent]
      rfl

end Shape

namespace Constructible

variable {shape : Shape}

theorem new_storage_eq (sound : shape.IsSound) (value : Field → String) :
    newStorage shape.concreteBuilder (shape.relevantFields.map value) =
      .ok ((shape.storedFields.map fun field =>
        (field.name, if field.isBuilderParam then value field else field.literal)).reverse) := by
  have names : shape.concreteBuilder.constructorParams.map (·.name) =
      shape.relevantFields.map (·.name) := by
    rw [Shape.constructor_params_eq, List.map_map]
    rfl
  have lengths : (shape.relevantFields.map value).length =
      shape.concreteBuilder.constructorParams.length := by
    rw [Shape.constructor_params_eq, List.length_map, List.length_map]
  have slots : (shape.storedFields.map Field.storageSlot).mapM
      (slotValue (Bindings.ofLists (shape.relevantFields.map (·.name))
        (shape.relevantFields.map value))) =
      .ok (shape.storedFields.map fun field =>
        (field.name, if field.isBuilderParam then value field else field.literal)) := by
    rw [List.mapM_map]
    apply map_m_ok
    intro field stored
    by_cases param : field.isBuilderParam = true
    · have found := Bindings.find_of_lists shape.relevantFields
        (Shape.relevant_names_distinct sound) value (Shape.relevant_of_stored stored param)
      simp [slotValue, Field.storageSlot, param, found, bind, Except.bind, pure, Except.pure]
    · simp [slotValue, Field.storageSlot, param]
  unfold newStorage
  rw [if_neg (not_not.mpr lengths), names]
  change (do return (← (shape.storedFields.map Field.storageSlot).mapM _).reverse) = _
  rw [slots]
  rfl

/-- An offered property either takes the value or, when it was frozen lately, ignores it. -/
theorem apply_setter_offered (sound : shape.IsSound) {tier : Tier} {field : Field}
    (member : field ∈ shape.fields) (offered : tier.offers field = true) (storage : Bindings)
    (value : String) :
    applySetter shape.builder tier storage ⟨field.name, value⟩ =
      .ok (if field.mutability = .mutable then storage.set field.name value else storage) := by
  have setter := shape.tier_setter tier field.name
  rw [find_kept_of_distinct tier.offers (·.name) _ sound.names_distinct member offered,
    Option.map_some] at setter
  obtain ⟨property, found, kind⟩ := Option.map_eq_some_iff.mp setter
  unfold applySetter
  dsimp only
  rw [found]
  dsimp only
  rw [kind]
  have stored := Tier.offered_stored offered
  unfold Field.setterKind Field.hasInertSetter Field.isSettable
  cases mutability : field.mutability with
  | mutable => rfl
  | immutable => exact (stored mutability).elim
  | immutableRecently => rfl

/-- After setter calls that a tier offers, each property that can change holds what was set last. -/
theorem callback_applied (sound : shape.IsSound) (tier : Tier) (callback : List SetCall)
    (offered : ∀ call ∈ callback, ∃ field ∈ shape.fields,
      tier.offers field = true ∧ field.name = call.field) (storage : Bindings) :
    ∃ after, callback.foldlM (applySetter shape.builder tier) storage = .ok after ∧
      ∀ field ∈ shape.fields, field.mutability = .mutable →
        after.lookup field.name = (lastSet callback field.name).or (storage.lookup field.name) := by
  induction callback generalizing storage with
  | nil => exact ⟨storage, rfl, fun _ _ _ => rfl⟩
  | cons call rest induction =>
      obtain ⟨target, targetMember, targetOffered, named⟩ := offered call List.mem_cons_self
      obtain ⟨property, value⟩ := call
      dsimp only at named
      subst named
      obtain ⟨after, ran, stored⟩ := induction
        (fun other member => offered other (List.mem_cons_of_mem _ member))
        (if target.mutability = .mutable then storage.set target.name value else storage)
      refine ⟨after, ?_, ?_⟩
      · rw [List.foldlM_cons, apply_setter_offered sound targetMember targetOffered]
        exact ran
      · intro field member changeable
        rw [stored field member changeable, last_set_cons, Option.or_assoc]
        congr 1
        by_cases same : target.name = field.name
        · have equal := List.inj_on_of_nodup_map sound.names_distinct targetMember member same
          subst equal
          rw [if_pos changeable, Bindings.lookup_set, if_pos rfl, if_pos rfl, Option.some_or]
        · rw [if_neg same, Option.none_or]
          split
          · rw [Bindings.lookup_set, if_neg same]
          · rfl

theorem lookup_restored (presets : List SetCall) (storage : Bindings) (name : String) :
    (presets.foldl (fun storage call => storage.set call.field call.value) storage).lookup name =
      (lastSet presets name).or (storage.lookup name) := by
  induction presets generalizing storage with
  | nil => rfl
  | cons call rest induction =>
      rw [List.foldl_cons, induction, last_set_cons, Option.or_assoc, Bindings.lookup_set]
      congr 1
      split <;> rfl

end Constructible

/-- What a field holds once the builder has built, where `value` tells what the constructor of the
builder was given and `calls` are the presets and the calls of the callback. -/
def Field.builtValue (field : Field) (value : Field → String) (calls : List SetCall) : String :=
  if field.isFrozen then field.literal
  else (lastSet calls field.name).getD
    (if field.isBuilderParam then value field else field.literal)

namespace Constructible

variable {shape : Shape}

theorem build_eq {callee : Constructible} {style : Style} (source : callee.IsFor shape style)
    (sound : shape.IsSound) (value : Field → String) (tier : Tier) (callback presets : List SetCall)
    (offered : ∀ call ∈ callback, ∃ field ∈ shape.fields,
      tier.offers field = true ∧ field.name = call.field) :
    callee.build (shape.relevantFields.map value) tier callback presets =
      .ok ⟨callee.typeName, shape.fields.map fun field =>
        (field.name, field.builtValue value (presets ++ callback))⟩ := by
  obtain ⟨after, ran, stored⟩ := callback_applied sound tier callback offered
    (presets.foldl (fun storage call => storage.set call.field call.value)
      ((shape.storedFields.map fun field =>
        (field.name, if field.isBuilderParam then value field else field.literal)).reverse))
  have collected : (shape.fields.map Field.assignment).mapM (assignedValue after) =
      .ok (shape.fields.map fun field =>
        (field.name, field.builtValue value (presets ++ callback))) := by
    rw [List.mapM_map]
    apply map_m_ok
    intro field member
    by_cases frozen : field.isFrozen = true
    · simp [Field.assignment, assignedValue, Field.builtValue, frozen]
    · have changeable : field.mutability = .mutable := by simpa [Field.isFrozen] using frozen
      have inStorage : field ∈ shape.storedFields :=
        Shape.mem_stored_fields.mpr ⟨member, by simp [changeable]⟩
      have found := stored field member changeable
      rw [lookup_restored, Bindings.lookup_of_fields _ (Shape.stored_names_distinct sound) _
        inStorage, ← Option.or_assoc, ← last_set_append, Option.or_some] at found
      simp [Field.assignment, assignedValue, Field.builtValue, frozen, Bindings.find, found,
        bind, Except.bind, pure, Except.pure]
  unfold build
  rw [source.builder, source.assignments]
  change (newStorage shape.concreteBuilder _ >>= _) = _
  rw [new_storage_eq sound value]
  change (callback.foldlM (applySetter shape.builder tier) _ >>= _) = _
  rw [ran]
  change (((shape.fields.map Field.assignment).mapM (assignedValue after)) >>= _) = _
  rw [collected]
  rfl

end Constructible
end ShapeCompat
