import ShapeCompat.Proofs.CallFaults

/-!
The factory function beside the newest constructor. The factory takes its parameters from the fields
and hands them to the builder itself, with a callback on the full tier; the newest overload takes
them from its slots, with a callback on the optional tier. Callers who keep to the optional tier
cannot tell the two apart.
-/

namespace ShapeCompat

namespace Shape

variable {shape : Shape}

/-- Calls on the optional tier are calls on any tier with properties. -/
theorem sets_optional_stored {calls : List SetCall} (optional : shape.setsOptional calls) :
    ∀ call ∈ calls, ∃ field ∈ shape.fields,
      Tier.full.offers field = true ∧ field.name = call.field := by
  intro call member
  obtain ⟨field, present, offered, named⟩ := optional call member
  have onTier : Tier.optional.offers field = true := offered
  exact ⟨field, present, decide_eq_true (Tier.offered_stored onTier), named⟩

variable {version : UInt32} {newer : Option UInt32}

/-- In callback style an overload has one entry with a callback where there is an optional tier. -/
theorem callback_entry (optional : shape.hasOptionalTier = true) :
    ∃ entry, (shape.entriesAt .callback version newer).filter (·.callback.isSome) = [entry] := by
  unfold entriesAt
  by_cases bare : shape.relevantFields = []
  · rw [if_pos bare, if_pos optional]
    exact ⟨_, rfl⟩
  · rw [if_neg bare, if_neg (by simp)]
    exact ⟨shape.mainEntry version newer, by simp [mainEntry, optional]⟩

/-- Without an optional tier an overload has one entry, that of its mandatory parameters. -/
theorem mandatory_entry (style : Style) (without : shape.hasOptionalTier = false) :
    ∃ entry, shape.entriesAt style version newer = [entry] ∧ entry.variant = .mandatoryOnly := by
  unfold entriesAt
  by_cases bare : shape.relevantFields = []
  · rw [if_pos bare, without]
    exact ⟨_, rfl, rfl⟩
  · rw [if_neg bare, without]
    exact ⟨_, rfl, by simp [mainEntry, mainVariant, without]⟩

theorem newest_params_length (sound : shape.IsSound)
    (stage : (version, none) ∈ withNewer shape.versions) {style : Style} {entry : EntryPoint}
    (member : entry ∈ shape.entriesAt style version none) :
    entry.params.length = shape.relevantFields.length := by
  rw [entry_params_length member, fields_up_to_newest (stage_of_mem sound stage)]

end Shape

namespace Constructible

variable {callee : Constructible} {shape : Shape} {style : Style} {owner : String}

theorem factory_miscounted (planned : callee.construction.factory = some (shape.factory owner))
    {args : List String} (miscounted : args.length ≠ shape.relevantFields.length)
    (calls : List SetCall) :
    callee.callFactory args calls =
      .error (.argumentCount shape.relevantFields.length args.length) := by
  have params : (shape.factory owner).params.length = shape.relevantFields.length :=
    List.length_map _
  unfold callFactory
  rw [planned]
  dsimp only
  rw [params, if_pos miscounted]

/-- The factory hands the builder its arguments as they are. -/
theorem factory_eq_build (planned : callee.construction.factory = some (shape.factory owner))
    (sound : shape.IsSound) (value : Field → String) (calls : List SetCall) :
    callee.callFactory (shape.relevantFields.map value) calls =
      callee.build (shape.relevantFields.map value) .full calls [] := by
  have bound : (shape.factory owner).delegation.args.mapM (Argument.evaluate
      (Bindings.ofLists ((shape.factory owner).params.map (·.name))
        (shape.relevantFields.map value))) = .ok (shape.relevantFields.map value) := by
    change (shape.relevantFields.map fun field => Argument.param field.name).mapM _ = _
    rw [List.mapM_map]
    apply map_m_ok
    intro field relevant
    have names : (shape.factory owner).params.map (·.name) = shape.relevantFields.map (·.name) :=
      List.map_map
    rw [names]
    exact Bindings.find_of_lists _ (Shape.relevant_names_distinct sound) value relevant
  have counted : ¬(shape.relevantFields.map value).length ≠ (shape.factory owner).params.length := by
    simp [Shape.factory]
  unfold callFactory
  rw [planned]
  dsimp only
  rw [if_neg counted, bound]
  rfl

theorem factory_makes (source : callee.IsFor shape style) (sound : shape.IsSound)
    (planned : callee.construction.factory = some (shape.factory owner)) {args : List String}
    (counted : args.length = shape.relevantFields.length) {calls : List SetCall}
    (optional : shape.setsOptional calls) :
    ∃ value, callee.callFactory args calls = .ok value := by
  rw [values_of_zip (·.name) _ (Shape.relevant_names_distinct sound) args counted (·.literal),
    factory_eq_build planned sound,
    build_eq source sound _ .full calls [] (Shape.sets_optional_stored optional)]
  exact ⟨_, rfl⟩

/-- On either tier the optional properties are built the same. -/
theorem build_on_either_tier (source : callee.IsFor shape style) (sound : shape.IsSound)
    (value : Field → String) {calls : List SetCall} (optional : shape.setsOptional calls) :
    callee.build (shape.relevantFields.map value) .full calls [] =
      callee.build (shape.relevantFields.map value) .optional calls [] := by
  rw [build_eq source sound value .full calls [] (Shape.sets_optional_stored optional),
    build_eq source sound value .optional calls [] optional]

/-- The factory and an entry of the newest overload that takes the callback give the same result,
a miscount of arguments included. -/
theorem factory_eq_invoke (source : callee.IsFor shape style) (sound : shape.IsSound)
    (planned : callee.construction.factory = some (shape.factory owner)) {newest : UInt32}
    (stage : (newest, none) ∈ withNewer shape.versions) {entry : EntryPoint}
    (member : entry ∈ shape.entriesAt style newest none) (args : List String)
    {calls : List SetCall} (optional : shape.setsOptional calls)
    (accepted : entry.callback = none → calls = []) :
    callee.callFactory args calls = callee.invoke newest entry.variant args calls := by
  have taken := Shape.fields_up_to_newest (Shape.stage_of_mem sound stage)
  have count := Shape.newest_params_length sound stage member
  by_cases counted : args.length = entry.params.length
  · have byField := Shape.args_by_field sound member args counted
    rw [taken] at byField
    rw [invoke_reaches_builder source sound stage member args counted calls accepted,
      ← build_on_either_tier source sound _ optional, ← factory_eq_build planned sound, ← byField]
  · have offered : callee.construction.Offers newest entry.variant entry := by
      refine ⟨shape.plannedOverload style newest none, ?_, rfl, member, rfl⟩
      rw [source.overloads, Shape.attach_entries_eq sound]
      exact List.mem_map_of_mem (f := fun stage => shape.plannedOverload style stage.1 stage.2) stage
    rw [invoke_caller_fault source sound (.argumentCount entry offered counted), count]
    rw [count] at counted
    exact factory_miscounted planned counted calls

end Constructible

/-- In callback style the factory of a planned shape agrees with the constructor of the newest
overload on all arguments and all callbacks that keep to the optional tier: both miscount alike, and
both make the same value of the right number of arguments. -/
theorem factory_agrees_with_newest_constructor (declarations : List ShapeDeclaration)
    (settings : Settings) (shape : Shape) (construction : Construction)
    (normalized : shape ∈ (Schema.ofDeclarations declarations settings).schema.shapes)
    (plain : shape.kind = .plain)
    (planned : shape.construction shape.outputQualifiedName .callback = .ok construction) :
    ∃ plan callee newest, shape.plan .callback = .ok plan ∧ plan.constructible = .ok callee ∧
      callee.construction = construction ∧ construction.overloads.getLast? = some newest ∧
      (shape.hasOptionalTier = true →
        ∃ entry, newest.entries.filter (·.callback.isSome) = [entry] ∧
          ∀ args calls, shape.setsOptional calls →
            callee.callFactory args calls =
              callee.invoke newest.version entry.variant args calls ∧
            (args.length ≠ entry.params.length → callee.callFactory args calls =
              .error (.argumentCount entry.params.length args.length)) ∧
            (args.length = entry.params.length →
              ∃ value, callee.callFactory args calls = .ok value)) ∧
      (shape.hasOptionalTier = false →
        ∃ entry, newest.entries = [entry] ∧ entry.variant = .mandatoryOnly ∧
          ∀ args, callee.callFactory args [] =
            callee.invoke newest.version .mandatoryOnly args []) := by
  have sound := Schema.of_declarations_sound declarations settings shape normalized
  obtain ⟨plan, callee, made, callable, same, _, source⟩ :=
    Constructible.callee_of_construction plain planned
  obtain ⟨newest, stage, last⟩ := Shape.newest_overload sound .callback
  have factory : callee.construction.factory = some (shape.factory shape.outputQualifiedName) := by
    rw [same, (Shape.construction_eq_ok_iff.mp planned).2]
    rfl
  refine ⟨plan, callee, shape.plannedOverload .callback newest none, made, callable, same, ?_, ?_,
    ?_⟩
  · rw [← same, source.overloads]
    exact last
  · intro optional
    obtain ⟨entry, alone⟩ := @Shape.callback_entry shape newest none optional
    have kept : entry ∈ (shape.entriesAt .callback newest none).filter (·.callback.isSome) := by
      rw [alone]
      exact List.mem_singleton_self entry
    obtain ⟨member, taken⟩ := List.mem_filter.mp kept
    refine ⟨entry, alone, ?_⟩
    intro args calls keeps
    rw [Shape.newest_params_length sound stage member]
    refine ⟨?_, fun miscounted => Constructible.factory_miscounted factory miscounted calls,
      fun counted => Constructible.factory_makes source sound factory counted keeps⟩
    apply Constructible.factory_eq_invoke source sound factory stage member args keeps
    intro refused
    rw [refused] at taken
    cases taken
  · intro without
    obtain ⟨entry, alone, variant⟩ := @Shape.mandatory_entry shape newest none .callback without
    have member : entry ∈ shape.entriesAt .callback newest none := by
      rw [alone]
      exact List.mem_singleton_self entry
    refine ⟨entry, alone, variant, ?_⟩
    intro args
    rw [← variant]
    exact Constructible.factory_eq_invoke source sound factory stage member args
      (fun call listed => (List.not_mem_nil listed).elim) fun _ => rfl

theorem person_factory_called :
    personShape ∈ (Schema.ofDeclarations [personDeclaration] {}).schema.shapes ∧
      ∃ plan callee, personShape.plan .callback = .ok plan ∧ plan.constructible = .ok callee ∧
        callee.callFactory ["7", "a", "1"] [⟨"label", "y"⟩, ⟨"email", "b"⟩] =
          callee.invoke 3 .withOptionalCallback ["7", "a", "1"] [⟨"label", "y"⟩, ⟨"email", "b"⟩] ∧
        callee.callFactory ["7"] [] = .error (.argumentCount 3 1) := by
  obtain ⟨plan, callee, newest, made, callable, _, last, optional, _⟩ :=
    factory_agrees_with_newest_constructor [personDeclaration] {} personShape _ person_normalized
      rfl (person_construction .callback)
  have found : (personShape.plannedConstruction personShape.outputQualifiedName
      .callback).overloads.getLast? = some (personShape.plannedOverload .callback 3 none) := by
    decide +kernel
  obtain rfl := Option.some.inj (last.symm.trans found)
  obtain ⟨entry, alone, calls⟩ := optional (by decide +kernel)
  have main : (personShape.plannedOverload .callback 3 none).entries.filter (·.callback.isSome) =
      [personShape.mainEntry 3 none] := by
    decide +kernel
  obtain rfl := List.singleton_injective (alone.symm.trans main)
  have called := calls ["7", "a", "1"] [⟨"label", "y"⟩, ⟨"email", "b"⟩] (by decide +kernel)
  have miscounted := calls ["7"] [] (by decide +kernel)
  exact ⟨person_normalized, plan, callee, made, callable, called.1,
    miscounted.2.1 (by decide +kernel)⟩

end ShapeCompat
