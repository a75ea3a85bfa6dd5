import ShapeCompat.Proofs.CallFaults

/-!
Copies. A copy rebuilds a value through the concrete builder: it hands some of the current values to
the constructor, sets the others, and then applies the caller's setter calls. Whichever way a field
goes, its current value comes back unless a call changes it, so copies update and compose.
-/

namespace ShapeCompat

/-- The value has this text for each field. -/
def Shape.Holds (shape : Shape) (value : Instance) (current : Field → String) : Prop :=
  ∀ field ∈ shape.fields, value.get? field.name = some (current field)

instance (shape : Shape) (value : Instance) (current : Field → String) :
    Decidable (shape.Holds value current) :=
  inferInstanceAs (Decidable (∀ field ∈ shape.fields, value.get? field.name = some (current field)))

/-- Every call is for a field that is not immutable. -/
def Shape.setsStored (shape : Shape) (calls : List SetCall) : Prop :=
  ∀ call ∈ calls, ∃ field ∈ shape.fields, field.mutability ≠ .immutable ∧ field.name = call.field

instance (shape : Shape) (calls : List SetCall) : Decidable (shape.setsStored calls) :=
  inferInstanceAs (Decidable (∀ call ∈ calls, ∃ field ∈ shape.fields,
    field.mutability ≠ .immutable ∧ field.name = call.field))

/-- What a field holds in a copy of a value that holds `current`. -/
def Field.copiedValue (field : Field) (current : Field → String) (calls : List SetCall) : String :=
  if field.isFrozen then field.literal else (lastSet calls field.name).getD (current field)

namespace Shape

variable {shape : Shape}

theorem sets_stored_iff {calls : List SetCall} :
    shape.setsStored calls ↔ ∀ call ∈ calls, ∃ field ∈ shape.fields,
      Tier.full.offers field = true ∧ field.name = call.field := by
  simp only [setsStored, Tier.offers, Field.hasStorage, decide_eq_true_eq]

theorem sets_stored_append {first second : List SetCall} :
    shape.setsStored (first ++ second) ↔ shape.setsStored first ∧ shape.setsStored second :=
  List.forall_mem_append

/-- The first call for a field that is immutable or none of the shape's has this name. -/
def FirstStray (shape : Shape) (calls : List SetCall) (name : String) : Prop :=
  ∃ earlier call later, calls = earlier ++ call :: later ∧ shape.setsStored earlier ∧
    (∀ field ∈ shape.fields, field.mutability ≠ .immutable → field.name ≠ call.field) ∧
    call.field = name

theorem first_stray {calls : List SetCall} (strays : ¬shape.setsStored calls) :
    ∃ name, shape.FirstStray calls name := by
  rw [sets_stored_iff] at strays
  obtain ⟨earlier, call, later, rfl, known, unknown⟩ := first_unoffered strays
  refine ⟨call.field, earlier, call, later, rfl, sets_stored_iff.mpr known, ?_, rfl⟩
  intro field member stored
  exact unknown field member (decide_eq_true stored)

theorem FirstStray.before {calls : List SetCall} {name : String}
    (stray : shape.FirstStray calls name) (later : List SetCall) :
    shape.FirstStray (calls ++ later) name := by
  obtain ⟨earlier, call, beyond, rfl, stored, unknown, named⟩ := stray
  exact ⟨earlier, call, beyond ++ later, by simp, stored, unknown, named⟩

theorem FirstStray.after {first calls : List SetCall} {name : String}
    (stray : shape.FirstStray calls name) (stored : shape.setsStored first) :
    shape.FirstStray (first ++ calls) name := by
  obtain ⟨earlier, call, later, rfl, known, unknown, named⟩ := stray
  exact ⟨first ++ earlier, call, later, by simp, sets_stored_append.mpr ⟨stored, known⟩, unknown,
    named⟩

/-- The setter calls by which a copy restores what the constructor does not take. -/
def presets (shape : Shape) (current : Field → String) : List SetCall :=
  shape.restoredFields.map fun field => ⟨field.name, current field⟩

/-- Of the fields that can change, exactly those are restored that the constructor does not take. -/
theorem last_set_presets (sound : shape.IsSound) (current : Field → String) {field : Field}
    (member : field ∈ shape.fields) (changeable : field.mutability = .mutable) :
    lastSet (shape.presets current) field.name =
      if field.isBuilderParam then none else some (current field) := by
  have distinct : ((shape.presets current).reverse.map (·.field)).Nodup := by
    rw [List.map_reverse, List.nodup_reverse, presets, List.map_map]
    exact sound.names_distinct.sublist (List.filter_sublist.map _)
  unfold lastSet
  by_cases param : field.isBuilderParam = true
  · rw [if_pos param, Option.map_eq_none_iff, List.find?_eq_none]
    intro call listed same
    rw [List.mem_reverse, presets, List.mem_map] at listed
    obtain ⟨other, restored, rfl⟩ := listed
    obtain ⟨present, kept⟩ := List.mem_filter.mp restored
    have equal := List.inj_on_of_nodup_map sound.names_distinct present member (beq_iff_eq.mp same)
    subst equal
    simp [param] at kept
  · have restored : field ∈ shape.restoredFields :=
      List.mem_filter.mpr ⟨member, by simp [param, changeable]⟩
    have listed : (⟨field.name, current field⟩ : SetCall) ∈ (shape.presets current).reverse :=
      List.mem_reverse.mpr (List.mem_map.mpr ⟨field, restored, rfl⟩)
    rw [if_neg param]
    exact congrArg (Option.map (·.value)) (find_of_distinct SetCall.field _ distinct listed)

/-- The builder gives every field its current value back unless a call sets it. -/
theorem built_value_of_presets (sound : shape.IsSound) (current : Field → String)
    (calls : List SetCall) {field : Field} (member : field ∈ shape.fields) :
    field.builtValue current (shape.presets current ++ calls) = field.copiedValue current calls := by
  unfold Field.builtValue Field.copiedValue
  by_cases frozen : field.isFrozen = true
  · rw [if_pos frozen, if_pos frozen]
  · have changeable : field.mutability = .mutable := by simpa [Field.isFrozen] using frozen
    rw [if_neg frozen, if_neg frozen, last_set_append,
      last_set_presets sound current member changeable]
    cases lastSet calls field.name with
    | some set => rfl
    | none =>
        by_cases param : field.isBuilderParam = true
        · simp [param]
        · simp [param]

end Shape

namespace Constructible

variable {callee : Constructible} {shape : Shape} {style : Style} {value : Instance}
  {current : Field → String} {first second calls : List SetCall}

theorem copy_eq_build (source : callee.IsFor shape style) (held : shape.Holds value current)
    (calls : List SetCall) :
    callee.copy value calls =
      callee.build (shape.relevantFields.map current) .full calls (shape.presets current) := by
  have found : ∀ field ∈ shape.fields, currentValue value field.name = .ok (current field) := by
    intro field member
    unfold currentValue
    rw [held field member]
  have args : (shape.relevantFields.map (·.name)).mapM (currentValue value) =
      .ok (shape.relevantFields.map current) := by
    rw [List.mapM_map]
    apply map_m_ok
    intro field relevant
    exact found field (Shape.mem_relevant_fields.mp relevant).1
  have presets : ((shape.restoredFields.map (·.name)).mapM fun name =>
      (do return ⟨name, ← currentValue value name⟩ : Except CallFault SetCall)) =
        .ok (shape.presets current) := by
    rw [List.mapM_map]
    apply map_m_ok
    intro field restored
    rw [Function.comp_apply, found field (List.mem_filter.mp restored).1]
    rfl
  unfold copy
  rw [source.copy]
  change ((shape.relevantFields.map (·.name)).mapM (currentValue value)).bind _ = _
  rw [args]
  change Except.bind ((shape.restoredFields.map (·.name)).mapM fun name =>
    (do return ⟨name, ← currentValue value name⟩ : Except CallFault SetCall)) _ = _
  rw [presets]
  rfl

theorem copy_eq (source : callee.IsFor shape style) (sound : shape.IsSound)
    (held : shape.Holds value current) (stored : shape.setsStored calls) :
    callee.copy value calls = .ok ⟨callee.typeName, shape.fields.map fun field =>
      (field.name, field.copiedValue current calls)⟩ := by
  rw [copy_eq_build source held,
    build_eq source sound current .full calls _ (Shape.sets_stored_iff.mp stored)]
  congr 2
  apply List.map_congr_left
  intro field member
  rw [Shape.built_value_of_presets sound current calls member]

theorem copy_stray (source : callee.IsFor shape style) (sound : shape.IsSound)
    (held : shape.Holds value current) {name : String} (stray : shape.FirstStray calls name) :
    callee.copy value calls = .error (.unknownProperty .full name) := by
  obtain ⟨earlier, call, later, rfl, stored, unknown, rfl⟩ := stray
  rw [copy_eq_build source held]
  apply build_unknown_property source sound current .full earlier call later _
    (Shape.sets_stored_iff.mp stored)
  intro field member offered
  exact unknown field member (Tier.offered_stored offered)

theorem copy_succeeds_iff (source : callee.IsFor shape style) (sound : shape.IsSound)
    (held : shape.Holds value current) :
    (∃ copied, callee.copy value calls = .ok copied) ↔ shape.setsStored calls := by
  constructor
  · intro copies
    obtain ⟨copied, made⟩ := copies
    by_contra strays
    obtain ⟨name, stray⟩ := Shape.first_stray strays
    rw [copy_stray source sound held stray] at made
    cases made
  · intro stored
    exact ⟨_, copy_eq source sound held stored⟩

/-- A listing of all fields in order holds what it lists. -/
theorem holds_listed (sound : shape.IsSound) (typeName : String) (held : Field → String) :
    shape.Holds ⟨typeName, shape.fields.map fun field => (field.name, held field)⟩ held := by
  intro field member
  apply lookup_of_mem
  · rw [List.map_map]
    exact sound.names_distinct
  · exact List.mem_map_of_mem (f := fun field => (field.name, held field)) member

theorem copied_twice (field : Field) (current : Field → String) (first second : List SetCall) :
    field.copiedValue (·.copiedValue current first) second =
      field.copiedValue current (first ++ second) := by
  unfold Field.copiedValue
  by_cases frozen : field.isFrozen = true
  · rw [if_pos frozen, if_pos frozen]
  · simp only [if_neg frozen, last_set_append]
    cases lastSet second field.name <;> rfl

/-- Two copies one after the other are one copy with the calls of both. -/
theorem copy_append (source : callee.IsFor shape style) (sound : shape.IsSound)
    (held : shape.Holds value current) (first second : List SetCall) :
    (callee.copy value first).bind (callee.copy · second) =
      callee.copy value (first ++ second) := by
  by_cases stored : shape.setsStored first
  · have between := holds_listed sound callee.typeName (·.copiedValue current first)
    rw [copy_eq source sound held stored, Except.bind]
    by_cases more : shape.setsStored second
    · rw [copy_eq source sound between more,
        copy_eq source sound held (Shape.sets_stored_append.mpr ⟨stored, more⟩)]
      simp only [copied_twice]
    · obtain ⟨name, stray⟩ := Shape.first_stray more
      rw [copy_stray source sound between stray,
        copy_stray source sound held (stray.after stored)]
  · obtain ⟨name, stray⟩ := Shape.first_stray stored
    rw [copy_stray source sound held stray, copy_stray source sound held (stray.before second)]
    rfl

/-- The values that calls of a plan make, one after the other in any order. -/
inductive Makes (callee : Constructible) : Instance → Prop where
  | invoked {version : UInt32} {variant : EntryVariant} {args : List String}
      {callback : List SetCall} {value : Instance}
      (returned : callee.invoke version variant args callback = .ok value) : Makes callee value
  | byFactory {args : List String} {callback : List SetCall} {value : Instance}
      (returned : callee.callFactory args callback = .ok value) : Makes callee value
  | copied {original value : Instance} {callback : List SetCall} (source : Makes callee original)
      (returned : callee.copy original callback = .ok value) : Makes callee value

end Constructible

/-- A value as the builder leaves it: all fields in order, the frozen ones at their literals. -/
def Shape.IsBuilt (shape : Shape) (typeName : String) (value : Instance) : Prop :=
  ∃ held : Field → String, value = ⟨typeName, shape.fields.map fun field =>
    (field.name, if field.isFrozen then field.literal else held field)⟩

theorem Bindings.lookup_of_find {bindings : Bindings} {name value : String}
    (found : bindings.find name = .ok value) : bindings.lookup name = some value := by
  unfold find at found
  split at found
  · rename_i stored
    cases found
    exact stored
  · cases found

namespace Constructible

variable {callee : Constructible} {shape : Shape} {style : Style} {value : Instance}

theorem assigned_values {storage : Bindings} {fields : List Field}
    {values : List (String × String)}
    (assigned : (fields.map Field.assignment).mapM (assignedValue storage) = .ok values) :
    values = fields.map fun field => (field.name,
      if field.isFrozen then field.literal else (storage.lookup field.name).getD "") := by
  induction fields generalizing values with
  | nil =>
      cases assigned
      rfl
  | cons field rest induction =>
      rw [List.map_cons, List.mapM_cons] at assigned
      obtain ⟨first, own, later⟩ := of_bind_ok assigned
      obtain ⟨others, collected, listed⟩ := of_bind_ok later
      cases listed
      rw [List.map_cons, ← induction collected]
      congr 1
      unfold Field.assignment assignedValue at own
      by_cases frozen : field.isFrozen = true
      · simp only [frozen, if_true] at own
        cases own
        simp [frozen]
      · simp only [frozen] at own
        obtain ⟨current, found, listed⟩ := of_bind_ok own
        cases listed
        simp [frozen, Bindings.lookup_of_find found]

/-- Whatever the builder is made with, what it builds lists all fields with the frozen ones at their
literals. -/
theorem build_built (source : callee.IsFor shape style) {args : List String} {tier : Tier}
    {callback presets : List SetCall}
    (returned : callee.build args tier callback presets = .ok value) :
    shape.IsBuilt callee.typeName value := by
  obtain ⟨fresh, _, restored⟩ := of_bind_ok returned
  obtain ⟨storage, _, applied⟩ := of_bind_ok restored
  obtain ⟨values, assigned, listed⟩ := of_bind_ok applied
  rw [source.assignments] at assigned
  cases listed
  exact ⟨fun field => (storage.lookup field.name).getD "", by rw [assigned_values assigned]⟩

theorem makes_built (source : callee.IsFor shape style) (made : callee.Makes value) :
    shape.IsBuilt callee.typeName value := by
  -- Every kind of call ends in the builder, whatever value it starts from.
  cases made with
  | invoked returned =>
      rw [invoke, follow_eq_arrive] at returned
      obtain ⟨arrival, _, built⟩ := of_bind_ok returned
      exact build_built source built
  | byFactory returned =>
      unfold callFactory at returned
      split at returned
      · cases returned
      · split at returned
        · cases returned
        · obtain ⟨bound, _, built⟩ := of_bind_ok returned
          exact build_built source built
  | copied _ returned =>
      obtain ⟨args, _, later⟩ := of_bind_ok returned
      obtain ⟨presets, _, built⟩ := of_bind_ok later
      exact build_built source built

theorem copy_nothing (source : callee.IsFor shape style) (sound : shape.IsSound)
    (made : callee.Makes value) : callee.copy value [] = .ok value := by
  obtain ⟨held, rfl⟩ := makes_built source made
  rw [copy_eq source sound (holds_listed sound callee.typeName _) fun call member =>
    (List.not_mem_nil member).elim]
  congr 2
  apply List.map_congr_left
  intro field _
  unfold Field.copiedValue
  by_cases frozen : field.isFrozen = true
  · simp [frozen]
  · simp [frozen, last_set_nil]

end Constructible

/-- A copy succeeds exactly when its calls are for fields that are not immutable; then it holds the
literals of the frozen fields, what was set last, and else the current values. Copying with no calls
gives back every value that the plan can make, and copies compose. -/
theorem copies_update_and_compose (declarations : List ShapeDeclaration)
    (settings : Settings) (shape : Shape) (style : Style) (construction : Construction)
    (normalized : shape ∈ (Schema.ofDeclarations declarations settings).schema.shapes)
    (plain : shape.kind = .plain)
    (planned : shape.construction shape.outputQualifiedName style = .ok construction) :
    ∃ plan callee, shape.plan style = .ok plan ∧ plan.constructible = .ok callee ∧
      callee.construction = construction ∧
      (∀ value current calls, shape.Holds value current →
        ((∃ copied, callee.copy value calls = .ok copied) ↔ shape.setsStored calls) ∧
        (shape.setsStored calls → callee.copy value calls =
          .ok ⟨plan.qualifiedName, shape.fields.map fun field =>
            (field.name, field.copiedValue current calls)⟩)) ∧
      (∀ value, callee.Makes value → callee.copy value [] = .ok value) ∧
      ∀ value current first second, shape.Holds value current →
        (callee.copy value first >>= fun copied => callee.copy copied second) =
          callee.copy value (first ++ second) := by
  have sound := Schema.of_declarations_sound declarations settings shape normalized
  obtain ⟨plan, callee, made, callable, same, named, source⟩ :=
    Constructible.callee_of_construction plain planned
  refine ⟨plan, callee, made, callable, same, ?_, ?_, ?_⟩
  · intro value current calls held
    refine ⟨Constructible.copy_succeeds_iff source sound held, ?_⟩
    intro stored
    rw [← named]
    exact Constructible.copy_eq source sound held stored
  · intro value makes
    exact Constructible.copy_nothing source sound makes
  · intro value current first second held
    exact Constructible.copy_append source sound held first second

def badgeDeclaration : ShapeDeclaration :=
  { name := "BadgeDBC"
    package := "com.acme"
    fields := [
      { name := "owner", type := "String" },
      { name := "color", type := "String", default := some { plain := "red" } },
      { name := "kind", type := "Int", mutability := .immutable, default := some { raw := "1" } },
      { name := "level", type := "Int", mutability := .immutableRecently,
        default := some { raw := "5" } }] }

def badgeShape : Shape :=
  badgeDeclaration.toShape {} (accepted (checkFields [] badgeDeclaration.fields))

def issuedBadge : Instance :=
  ⟨"com.acme.Badge", [("owner", "7"), ("color", "green"), ("kind", "1"), ("level", "5")]⟩

/-- A badge may be copied in another color, and with a level that is then ignored, but not with
another kind. -/
theorem badge_copied_in_blue :
    badgeShape ∈ (Schema.ofDeclarations [badgeDeclaration] {}).schema.shapes ∧
      ∃ plan callee, badgeShape.plan .callback = .ok plan ∧ plan.constructible = .ok callee ∧
        callee.copy issuedBadge [⟨"color", "blue"⟩, ⟨"level", "6"⟩] =
          .ok ⟨plan.qualifiedName,
            [("owner", "7"), ("color", "blue"), ("kind", "1"), ("level", "5")]⟩ ∧
        (¬∃ copied, callee.copy issuedBadge [⟨"color", "blue"⟩, ⟨"kind", "2"⟩] = .ok copied) ∧
        (callee.copy issuedBadge [⟨"color", "blue"⟩] >>= fun copied =>
            callee.copy copied [⟨"kind", "2"⟩]) =
          callee.copy issuedBadge [⟨"color", "blue"⟩, ⟨"kind", "2"⟩] := by
  have normalized : badgeShape ∈ (Schema.ofDeclarations [badgeDeclaration] {}).schema.shapes := by
    decide +kernel
  have distinct : (signatures (badgeShape.attachEntries .callback badgeShape.overloads)).Nodup := by
    decide +kernel
  obtain ⟨plan, callee, made, callable, _, copies, _, composes⟩ := copies_update_and_compose
    [badgeDeclaration] {} badgeShape .callback _ normalized rfl
    (Shape.construction_of_distinct distinct)
  have held : badgeShape.Holds issuedBadge fun field =>
      (issuedBadge.get? field.name).getD "" := by
    decide +kernel
  have values : (badgeShape.fields.map fun field => (field.name,
      field.copiedValue (fun field => (issuedBadge.get? field.name).getD "")
        [⟨"color", "blue"⟩, ⟨"level", "6"⟩])) =
      [("owner", "7"), ("color", "blue"), ("kind", "1"), ("level", "5")] := by
    decide +kernel
  refine ⟨normalized, plan, callee, made, callable, ?_, ?_, composes _ _ _ _ held⟩
  · rw [← values]
    exact (copies _ _ _ held).2 (by decide +kernel)
  · rw [(copies _ _ _ held).1]
    decide +kernel

end ShapeCompat
