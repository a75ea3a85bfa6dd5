import ShapeCompat.Proofs.Calls

/-!
How calls fail. The plan of a shape is good for every call that its entry points announce, whatever
way the call takes through the overloads; so a call fails at its first entry, or at the first setter
call of its callback that the optional tier does not have, and never further along.
-/

namespace ShapeCompat

/-- The plan has this entry for a variant in the overload of a version. -/
def Construction.Offers (construction : Construction) (version : UInt32) (variant : EntryVariant)
    (entry : EntryPoint) : Prop :=
  ∃ overload ∈ construction.overloads, overload.version = version ∧
    entry ∈ overload.entries ∧ entry.variant = variant

/-- No property of the optional tier has the name that is set. -/
def Shape.lacksOptional (shape : Shape) (call : SetCall) : Prop :=
  ∀ field ∈ shape.fields, field.isOptionalTier = true → field.name ≠ call.field

instance (shape : Shape) (call : SetCall) : Decidable (shape.lacksOptional call) :=
  inferInstanceAs (Decidable (∀ field ∈ shape.fields,
    field.isOptionalTier = true → field.name ≠ call.field))

/-- What is wrong with a call as its caller makes it. -/
inductive Shape.CallerFault (shape : Shape) (construction : Construction) (version : UInt32)
    (variant : EntryVariant) (args : List String) (callback : List SetCall) : CallFault → Prop where
  | unknownEntry (absent : ∀ entry, ¬construction.Offers version variant entry) :
      CallerFault shape construction version variant args callback (.unknownEntry version variant)
  | argumentCount (entry : EntryPoint) (offered : construction.Offers version variant entry)
      (miscounted : args.length ≠ entry.params.length) :
      CallerFault shape construction version variant args callback
        (.argumentCount entry.params.length args.length)
  | unexpectedCallback (entry : EntryPoint) (offered : construction.Offers version variant entry)
      (counted : args.length = entry.params.length) (refused : entry.callback = none)
      (given : callback ≠ []) :
      CallerFault shape construction version variant args callback .unexpectedCallback
  | unknownProperty (entry : EntryPoint) (offered : construction.Offers version variant entry)
      (counted : args.length = entry.params.length) (taken : entry.callback.isSome)
      (earlier : List SetCall) (call : SetCall) (later : List SetCall)
      (calls : callback = earlier ++ call :: later) (known : shape.setsOptional earlier)
      (unknown : shape.lacksOptional call) :
      CallerFault shape construction version variant args callback
        (.unknownProperty .optional call.field)

/-- The fault is one of the plan, which the caller could not avoid. -/
def CallFault.isInternal : CallFault → Bool
  | .notConstructible _ | .noFactory _ | .readOnlyProperty _ | .unbound _ | .delegationCycle => true
  | .unknownEntry _ _ | .argumentCount _ _ | .unexpectedCallback | .unknownProperty _ _ => false

/-- Setter calls that do not keep to a tier leave it at some call for the first time. -/
theorem Shape.first_unoffered {shape : Shape} {tier : Tier} {calls : List SetCall}
    (strays : ¬∀ call ∈ calls, ∃ field ∈ shape.fields,
      tier.offers field = true ∧ field.name = call.field) :
    ∃ earlier call later, calls = earlier ++ call :: later ∧
      (∀ other ∈ earlier, ∃ field ∈ shape.fields,
        tier.offers field = true ∧ field.name = other.field) ∧
      ∀ field ∈ shape.fields, tier.offers field = true → field.name ≠ call.field := by
  induction calls with
  | nil => exact (strays fun call member => (List.not_mem_nil member).elim).elim
  | cons call rest induction =>
      by_cases known : ∃ field ∈ shape.fields,
          tier.offers field = true ∧ field.name = call.field
      · have restStrays : ¬∀ call ∈ rest, ∃ field ∈ shape.fields,
            tier.offers field = true ∧ field.name = call.field := by
          intro keeps
          exact strays (List.forall_mem_cons.mpr ⟨known, keeps⟩)
        obtain ⟨earlier, stray, later, rfl, keeps, unknown⟩ := induction restStrays
        exact ⟨call :: earlier, stray, later, rfl, List.forall_mem_cons.mpr ⟨known, keeps⟩, unknown⟩
      · refine ⟨[], call, rest, rfl, fun other member => (List.not_mem_nil member).elim, ?_⟩
        intro field present offered same
        exact known ⟨field, present, offered, same⟩

/-- A callback that does not keep to the optional tier leaves it at some call for the first time. -/
theorem Shape.first_unknown {shape : Shape} {callback : List SetCall}
    (strays : ¬shape.setsOptional callback) :
    ∃ earlier call later, callback = earlier ++ call :: later ∧ shape.setsOptional earlier ∧
      shape.lacksOptional call :=
  @Shape.first_unoffered shape .optional callback strays

namespace Constructible

variable {callee : Constructible} {shape : Shape} {style : Style} {version : UInt32}
  {variant : EntryVariant} {entry : EntryPoint}

theorem apply_setter_unknown (shape : Shape) (tier : Tier) (storage : Bindings) (call : SetCall)
    (unknown : ∀ field ∈ shape.fields, tier.offers field = true → field.name ≠ call.field) :
    applySetter shape.builder tier storage call = .error (.unknownProperty tier call.field) := by
  have absent : (shape.fields.find? fun field =>
      tier.offers field && field.name == call.field) = none := by
    rw [List.find?_eq_none]
    intro field present found
    rw [Bool.and_eq_true, beq_iff_eq] at found
    exact unknown field present found.1 found.2
  have setter := shape.tier_setter tier call.field
  rw [absent, Option.map_none, Option.map_eq_none_iff] at setter
  unfold applySetter
  rw [setter]

/-- Building fails at the first setter call that the tier does not have. -/
theorem build_unknown_property (source : callee.IsFor shape style) (sound : shape.IsSound)
    (value : Field → String) (tier : Tier) (earlier : List SetCall) (call : SetCall)
    (later presets : List SetCall)
    (known : ∀ other ∈ earlier, ∃ field ∈ shape.fields,
      tier.offers field = true ∧ field.name = other.field)
    (unknown : ∀ field ∈ shape.fields, tier.offers field = true → field.name ≠ call.field) :
    callee.build (shape.relevantFields.map value) tier (earlier ++ call :: later) presets =
      .error (.unknownProperty tier call.field) := by
  obtain ⟨after, ran, _⟩ := callback_applied sound tier earlier known
    (presets.foldl (fun storage call => storage.set call.field call.value)
      ((shape.storedFields.map fun field =>
        (field.name, if field.isBuilderParam then value field else field.literal)).reverse))
  unfold build
  rw [source.builder]
  change (newStorage shape.concreteBuilder _ >>= _) = _
  rw [new_storage_eq sound value]
  change ((earlier ++ call :: later).foldlM (applySetter shape.builder tier) _ >>= _) = _
  rw [List.foldlM_append, ran]
  change ((call :: later).foldlM (applySetter shape.builder tier) after >>= _) = _
  rw [List.foldlM_cons, apply_setter_unknown shape tier after call unknown]
  rfl

/-- What is found for a call is what the plan has for it, since versions and variants are distinct. -/
theorem entry_found_iff (source : callee.IsFor shape style) (sound : shape.IsSound) :
    (callee.construction.overload? version).bind (·.entryFor variant) = some entry ↔
      callee.construction.Offers version variant entry := by
  constructor
  · intro found
    obtain ⟨overload, overloadFound, entryFound⟩ := Option.bind_eq_some_iff.mp found
    have sameVersion := List.find?_some overloadFound
    have sameVariant := List.find?_some entryFound
    rw [beq_iff_eq] at sameVersion sameVariant
    exact ⟨overload, List.mem_of_find?_eq_some overloadFound, sameVersion,
      List.mem_of_find?_eq_some entryFound, sameVariant⟩
  · intro offered
    obtain ⟨overload, member, rfl, entryMember, rfl⟩ := offered
    rw [source.overloads] at member
    obtain ⟨newer, stage, planned⟩ := overload_stage sound member
    rw [planned] at entryMember
    rw [overload_found source sound stage, Option.bind_some]
    exact entry_found entryMember

theorem entry_at_stage (source : callee.IsFor shape style) (sound : shape.IsSound)
    (offered : callee.construction.Offers version variant entry) :
    ∃ newer, (version, newer) ∈ withNewer shape.versions ∧
      entry ∈ shape.entriesAt style version newer ∧ entry.variant = variant := by
  obtain ⟨overload, member, rfl, entryMember, rfl⟩ := offered
  rw [source.overloads] at member
  obtain ⟨newer, stage, planned⟩ := overload_stage sound member
  rw [planned] at entryMember
  exact ⟨newer, stage, entryMember, rfl⟩

/-- A call that cannot enter goes no further. -/
theorem invoke_of_enter_error {args : List String} {callback : List SetCall} {fault : CallFault}
    (stopped : enter callee.construction ⟨version, variant, args, callback, none⟩ =
      .error fault) :
    callee.invoke version variant args callback = .error fault := by
  rw [invoke, follow]
  dsimp only [bind, Except.bind]
  rw [stopped]

theorem invoke_caller_fault (source : callee.IsFor shape style) (sound : shape.IsSound)
    {args : List String} {callback : List SetCall} {fault : CallFault}
    (wrong : shape.CallerFault callee.construction version variant args callback fault) :
    callee.invoke version variant args callback = .error fault := by
  cases wrong with
  | unknownEntry absent =>
      have notFound : (callee.construction.overload? version).bind (·.entryFor variant) = none := by
        rw [Option.eq_none_iff_forall_not_mem]
        intro entry found
        exact absent entry ((entry_found_iff source sound).mp found)
      apply invoke_of_enter_error
      unfold enter
      rw [notFound]
  | argumentCount entry offered miscounted =>
      apply invoke_of_enter_error
      unfold enter
      rw [(entry_found_iff source sound).mpr offered]
      exact if_pos miscounted
  | unexpectedCallback entry offered counted refused given =>
      apply invoke_of_enter_error
      unfold enter
      rw [(entry_found_iff source sound).mpr offered]
      dsimp only
      rw [if_neg (not_not.mpr counted)]
      exact if_pos ⟨refused, given⟩
  | unknownProperty entry offered counted taken earlier call later calls known unknown =>
      obtain ⟨newer, stage, member, rfl⟩ := entry_at_stage source sound offered
      have accepted : entry.callback = none → callback = [] := by
        intro refused
        rw [refused] at taken
        cases taken
      rw [invoke_reaches_builder source sound stage member args counted callback accepted, calls]
      exact build_unknown_property source sound _ .optional earlier call later [] known unknown

/-- Every call either has a fault of its caller or makes an instance. -/
theorem caller_fault_or_instance (source : callee.IsFor shape style) (sound : shape.IsSound)
    (version : UInt32) (variant : EntryVariant) (args : List String) (callback : List SetCall) :
    (∃ fault, shape.CallerFault callee.construction version variant args callback fault) ∨
      ∃ value, callee.invoke version variant args callback = .ok value := by
  by_cases absent : ∀ entry, ¬callee.construction.Offers version variant entry
  · exact .inl ⟨_, .unknownEntry absent⟩
  · push Not at absent
    obtain ⟨entry, offered⟩ := absent
    by_cases counted : args.length = entry.params.length
    · by_cases accepted : entry.callback = none → callback = []
      · by_cases keeps : shape.setsOptional callback
        · obtain ⟨newer, stage, member, rfl⟩ := entry_at_stage source sound offered
          exact .inr ⟨_, invoke_eq source sound stage member args counted callback accepted keeps⟩
        · obtain ⟨earlier, call, later, calls, known, unknown⟩ := Shape.first_unknown keeps
          have taken : entry.callback.isSome := by
            rw [Option.isSome_iff_ne_none]
            intro refused
            simp [accepted refused] at calls
          exact .inl ⟨_, .unknownProperty entry offered counted taken earlier call later calls
            known unknown⟩
      · push Not at accepted
        exact .inl ⟨_, .unexpectedCallback entry offered counted accepted.1 accepted.2⟩
    · exact .inl ⟨_, .argumentCount entry offered counted⟩

end Constructible

/-- A call of a planned shape fails with exactly the fault that its caller made, and makes an
instance when there is none. -/
theorem calls_fail_only_for_their_callers (declarations : List ShapeDeclaration)
    (settings : Settings) (shape : Shape) (style : Style) (construction : Construction)
    (normalized : shape ∈ (Schema.ofDeclarations declarations settings).schema.shapes)
    (plain : shape.kind = .plain)
    (planned : shape.construction shape.outputQualifiedName style = .ok construction) :
    ∃ plan callee, shape.plan style = .ok plan ∧ plan.constructible = .ok callee ∧
      callee.construction = construction ∧
      ∀ version variant args callback,
        (∀ fault, callee.invoke version variant args callback = .error fault ↔
          shape.CallerFault construction version variant args callback fault) ∧
        ((∀ fault, ¬shape.CallerFault construction version variant args callback fault) →
          ∃ value, callee.invoke version variant args callback = .ok value) ∧
        ∀ fault, callee.invoke version variant args callback = .error fault →
          fault.isInternal = false := by
  have sound := Schema.of_declarations_sound declarations settings shape normalized
  obtain ⟨plan, callee, made, callable, same, _, source⟩ :=
    Constructible.callee_of_construction plain planned
  refine ⟨plan, callee, made, callable, same, ?_⟩
  intro version variant args callback
  rw [← same]
  have either := Constructible.caller_fault_or_instance source sound version variant args callback
  have exactly (fault : CallFault) : callee.invoke version variant args callback = .error fault ↔
      shape.CallerFault callee.construction version variant args callback fault := by
    constructor
    · intro failed
      rcases either with ⟨other, wrong⟩ | ⟨value, returned⟩
      · have found := Constructible.invoke_caller_fault source sound wrong
        rw [failed, Except.error.injEq] at found
        rw [found]
        exact wrong
      · rw [failed] at returned
        cases returned
    · exact Constructible.invoke_caller_fault source sound
  refine ⟨exactly, ?_, ?_⟩
  · intro clean
    exact either.resolve_left (not_exists.mpr clean)
  · intro fault failed
    cases (exactly fault).mp failed with
    | unknownEntry => rfl
    | argumentCount => rfl
    | unexpectedCallback => rfl
    | unknownProperty => rfl

/-- A callback of the first version may set the address, which was optional before, but not the code,
though the shape has it and a later overload takes it. -/
theorem person_code_is_no_optional_property :
    personShape ∈ (Schema.ofDeclarations [personDeclaration] {}).schema.shapes ∧
      ∃ plan callee, personShape.plan .overload = .ok plan ∧ plan.constructible = .ok callee ∧
        callee.invoke 1 .withOptionalCallback ["7"]
          [⟨"email", "a"⟩, ⟨"code", "1"⟩, ⟨"label", "b"⟩] =
            .error (.unknownProperty .optional "code") := by
  obtain ⟨plan, callee, made, callable, _, calls⟩ := calls_fail_only_for_their_callers
    [personDeclaration] {} personShape .overload _ person_normalized rfl
    (person_construction .overload)
  refine ⟨person_normalized, plan, callee, made, callable, ((calls _ _ _ _).1 _).mpr ?_⟩
  refine .unknownProperty (personShape.mainEntry 1 (some 2)) ?_ (by decide +kernel)
    (by decide +kernel) [⟨"email", "a"⟩] ⟨"code", "1"⟩ [⟨"label", "b"⟩] rfl ?_ ?_
  · exact ⟨personShape.plannedOverload .overload 1 (some 2), by decide +kernel, rfl,
      by decide +kernel, by decide +kernel⟩
  · decide +kernel
  · decide +kernel

end ShapeCompat
