import ShapeCompat.Proofs.Calls
import ShapeCompat.Proofs.Evolution.Steps

/-!
Released call sites in overload style. Every entry point that was released has an entry point of the
same version and signature after a step of evolution, although it may be of another variant there, and
a call of it still gives every field that the caller knows the same value.
-/

namespace ShapeCompat

namespace EntryPoint

variable {entry later : EntryPoint}

theorem names_of_typed
    (typed : later.params.map EntryParam.typed = entry.params.map EntryParam.typed) :
    later.params.map (·.name) = entry.params.map (·.name) := by
  have names := congrArg (List.map TypedName.name) typed
  rw [List.map_map, List.map_map] at names
  exact names

theorem argument_of_typed
    (typed : later.params.map EntryParam.typed = entry.params.map EntryParam.typed)
    (args : List String) (name : String) : later.argument? args name = entry.argument? args name := by
  unfold argument?
  rw [names_of_typed typed]

end EntryPoint

namespace Shape

variable {shape : Shape} {style : Style} {version : UInt32}

theorem entry_without_callback (shape : Shape) (version : UInt32) (newer : Option UInt32) :
    ∃ entry ∈ shape.entriesAt .overload version newer, entry.callback = none := by
  unfold entriesAt
  split_ifs with bare optional paired
  · exact ⟨.noArg, by simp, rfl⟩
  · exact ⟨.withoutSlots false, by simp, rfl⟩
  · exact ⟨shape.defaultedEntry version newer, by simp, rfl⟩
  · refine ⟨shape.mainEntry version newer, by simp, ?_⟩
    have without : shape.hasOptionalTier = false := by simpa using paired
    simp [mainEntry, without]

theorem entry_with_callback (optional : shape.hasOptionalTier = true) (style : Style)
    (version : UInt32) (newer : Option UInt32) :
    ∃ entry ∈ shape.entriesAt style version newer, entry.callback = some .optional := by
  by_cases bare : shape.relevantFields = []
  · exact ⟨.withoutSlots true, by simp [entriesAt, bare, optional], rfl⟩
  · exact ⟨shape.mainEntry version newer, main_entry_mem bare, by simp [mainEntry, optional]⟩

namespace EvolvesTo

variable {old new : Shape}

theorem sets_optional (step : old.EvolvesTo new) {callback : List SetCall}
    (offered : old.setsOptional callback) : new.setsOptional callback := by
  intro call member
  obtain ⟨field, present, optional, named⟩ := offered call member
  obtain ⟨later, found, same⟩ := step.fields.continues present
  exact ⟨later, found, same.optional optional, same.name.trans named⟩

theorem erased_types (step : old.EvolvesTo new) (sound : old.IsSound)
    (member : version ∈ old.versions) : new.erasedTypes version = old.erasedTypes version := by
  rw [erasedTypes, erasedTypes, step.fields_up_to sound member]

theorem entry_typed_kept (step : old.EvolvesTo new) (sound : old.IsSound)
    (member : version ∈ old.versions) {entry later : EntryPoint} {newer following : Option UInt32}
    (released : entry ∈ old.entriesAt style version newer)
    (present : later ∈ new.entriesAt style version following) :
    later.params.map EntryParam.typed = entry.params.map EntryParam.typed := by
  rw [entry_typed present, entry_typed released, step.fields_up_to sound member]

theorem signature_kept (step : old.EvolvesTo new) (sound : old.IsSound)
    (member : version ∈ old.versions) {entry later : EntryPoint} {newer following : Option UInt32}
    (released : entry ∈ old.entriesAt style version newer)
    (present : later ∈ new.entriesAt style version following)
    (callback : later.callback = entry.callback) :
    later.erasedSignature = entry.erasedSignature := by
  rw [entry_signature present, entry_signature released, step.erased_types sound member, callback]

/-- The entry that takes the place of a released one takes the same and is called the same way. -/
theorem entry_kept (step : old.EvolvesTo new) (sound : old.IsSound) {version : UInt32}
    {newer : Option UInt32} (member : version ∈ old.versions) {entry : EntryPoint}
    (released : entry ∈ old.entriesAt .overload version newer) (following : Option UInt32) :
    ∃ later ∈ new.entriesAt .overload version following,
      later.params.map EntryParam.typed = entry.params.map EntryParam.typed ∧
        later.callback = entry.callback := by
  have found : ∃ later ∈ new.entriesAt .overload version following,
      later.callback = entry.callback := by
    rcases entry_callback released with without | ⟨takes, optional⟩
    · rw [without]
      exact new.entry_without_callback version following
    · rw [takes]
      exact entry_with_callback (step.optional_tier optional) .overload version following
  obtain ⟨later, present, callback⟩ := found
  exact ⟨later, present, step.entry_typed_kept sound member released present, callback⟩

end EvolvesTo
end Shape

theorem Field.Continues.called_value {field later : Field} (same : field.Continues later)
    {entry laterEntry : EntryPoint}
    (typed : laterEntry.params.map EntryParam.typed = entry.params.map EntryParam.typed)
    (args : List String) (callback : List SetCall) :
    later.calledValue laterEntry args callback = field.calledValue entry args callback := by
  unfold Field.calledValue
  rw [same.frozen, same.literal, same.name, EntryPoint.argument_of_typed typed]

theorem Instance.get_of_fields (typeName : String) (fields : List Field)
    (distinct : (fields.map (·.name)).Nodup) (value : Field → String) {field : Field}
    (member : field ∈ fields) :
    (⟨typeName, fields.map fun field => (field.name, value field)⟩ : Instance).get? field.name =
      some (value field) := by
  apply lookup_of_mem
  · rw [List.map_map]
    exact distinct
  · exact List.mem_map_of_mem (f := fun field => (field.name, value field)) member

/-- After an evolution from `old` to `new`, an instance that callers of `old` cannot tell from
`before`, and whose other fields have their defaults. -/
structure Instance.CarriesOver (old new : Shape) (before after : Instance) : Prop where
  known : ∀ field ∈ old.fields, ∃ value,
    before.get? field.name = some value ∧ after.get? field.name = some value
  added : ∀ field ∈ new.fields, field.name ∉ old.fields.map (·.name) → ∃ literal,
    field.default = some literal ∧ after.get? field.name = some literal

theorem last_set_of_absent (calls : List SetCall) (name : String)
    (absent : ∀ call ∈ calls, call.field ≠ name) : lastSet calls name = none := by
  have missing : calls.reverse.find? (·.field == name) = none := by
    rw [List.find?_eq_none]
    intro call member
    simpa using absent call (List.mem_reverse.mp member)
  rw [lastSet, missing, Option.map_none]

/-- Callers who know nothing of a field neither set it nor pass an argument for it. -/
theorem Shape.EvolvesTo.called_value_of_new {old new : Shape} (step : old.EvolvesTo new)
    (sound : old.IsSound) {version : UInt32} {newer : Option UInt32}
    (member : version ∈ old.versions) {style : Style} {entry : EntryPoint}
    (present : entry ∈ new.entriesAt style version newer) (args : List String)
    {callback : List SetCall} (offered : old.setsOptional callback) {field : Field}
    (added : field ∈ new.fields) (unknown : field.name ∉ old.fields.map (·.name)) :
    field.calledValue entry args callback = field.literal := by
  have unset : lastSet callback field.name = none := by
    apply last_set_of_absent
    intro call called same
    obtain ⟨target, targetMember, _, named⟩ := offered call called
    exact unknown (List.mem_map.mpr ⟨target, targetMember, named.trans same⟩)
  have beyond : field ∉ new.fieldsUpTo version := by
    rw [step.fields_up_to sound member]
    intro reached
    have known := (mem_relevant_fields.mp (mem_fields_up_to.mp reached).1).1
    exact unknown (List.mem_map_of_mem known)
  have unpassed := no_argument (step.sound sound) present args added beyond
  unfold Field.calledValue
  rw [unset, unpassed, Option.or_none, Option.getD_none, ite_self]

/-- A released call and the call of the entry that took its place. -/
theorem Shape.EvolvesTo.call_kept {old new : Shape} (step : old.EvolvesTo new)
    (sound : old.IsSound) {oldCallee newCallee : Constructible} {style : Style}
    (oldSource : oldCallee.IsFor old style) (newSource : newCallee.IsFor new style)
    {version : UInt32} {newer following : Option UInt32}
    (stage : (version, newer) ∈ withNewer old.versions)
    (later : (version, following) ∈ withNewer new.versions) {entry laterEntry : EntryPoint}
    (released : entry ∈ old.entriesAt style version newer)
    (present : laterEntry ∈ new.entriesAt style version following)
    (typed : laterEntry.params.map EntryParam.typed = entry.params.map EntryParam.typed)
    (takes : laterEntry.callback = entry.callback) (args : List String)
    (lengths : args.length = entry.params.length) (callback : List SetCall)
    (accepted : entry.callback = none → callback = []) (offered : old.setsOptional callback) :
    ∃ before after, oldCallee.invoke version entry.variant args callback = .ok before ∧
      newCallee.invoke version laterEntry.variant args callback = .ok after ∧
      Instance.CarriesOver old new before after := by
  have newSound := step.sound sound
  have releasedVersion := version_of_stage stage
  have count : laterEntry.params.length = entry.params.length := by
    simpa using congrArg List.length typed
  have before := Constructible.invoke_eq oldSource sound stage released args lengths callback
    accepted offered
  have after := Constructible.invoke_eq newSource newSound later present args
    (lengths.trans count.symm) callback (by rw [takes]; exact accepted)
    (step.sets_optional offered)
  refine ⟨_, _, before, after, ?_, ?_⟩
  · intro field member
    obtain ⟨kept, keptMember, same⟩ := step.fields.continues member
    refine ⟨field.calledValue entry args callback,
      Instance.get_of_fields _ _ sound.names_distinct _ member, ?_⟩
    rw [← same.name, ← same.called_value typed]
    exact Instance.get_of_fields _ _ newSound.names_distinct _ keptMember
  · intro field member unknown
    obtain ⟨literal, found⟩ :=
      Option.isSome_iff_exists.mp (step.fields.default_of_new member unknown)
    refine ⟨literal, found, ?_⟩
    have value := step.called_value_of_new sound releasedVersion present args offered member unknown
    have own : field.literal = literal := by rw [Field.literal, found, Option.getD_some]
    rw [← own, ← value]
    exact Instance.get_of_fields _ _ newSound.names_distinct _ member

/-- In overload style a released entry point never goes away: after a step of evolution its version
has an entry with the same parameters, callback and signature, and calls of the two make instances
that callers of the released shape cannot tell apart. -/
theorem released_calls_keep_their_values (declarations : List ShapeDeclaration)
    (settings : Settings) (old new : Shape) (oldConstruction newConstruction : Construction)
    (normalized : old ∈ (Schema.ofDeclarations declarations settings).schema.shapes)
    (plain : old.kind = .plain) (step : old.EvolvesTo new)
    (oldPlanned : old.construction old.outputQualifiedName .overload = .ok oldConstruction)
    (newPlanned : new.construction new.outputQualifiedName .overload = .ok newConstruction) :
    ∃ oldPlan oldCallee newPlan newCallee,
      old.plan .overload = .ok oldPlan ∧ oldPlan.constructible = .ok oldCallee ∧
      oldCallee.construction = oldConstruction ∧
      new.plan .overload = .ok newPlan ∧ newPlan.constructible = .ok newCallee ∧
      newCallee.construction = newConstruction ∧
      ∀ overload ∈ oldConstruction.overloads, ∀ entry ∈ overload.entries,
        ∃ laterOverload ∈ newConstruction.overloads, laterOverload.version = overload.version ∧
          ∃ laterEntry ∈ laterOverload.entries,
            laterEntry.params.map EntryParam.typed = entry.params.map EntryParam.typed ∧
            laterEntry.callback = entry.callback ∧
            laterEntry.erasedSignature = entry.erasedSignature ∧
            ∀ args callback, args.length = entry.params.length →
              (callback = [] ∨ entry.callback.isSome ∧ old.setsOptional callback) →
              ∃ before after,
                oldCallee.invoke overload.version entry.variant args callback = .ok before ∧
                newCallee.invoke overload.version laterEntry.variant args callback = .ok after ∧
                Instance.CarriesOver old new before after := by
  have sound := Schema.of_declarations_sound declarations settings old normalized
  have newSound := step.sound sound
  obtain ⟨oldPlan, oldCallee, oldMade, oldCallable, oldSame, _, oldSource⟩ :=
    Constructible.callee_of_construction plain oldPlanned
  obtain ⟨newPlan, newCallee, newMade, newCallable, newSame, _, newSource⟩ :=
    Constructible.callee_of_construction (step.kind.trans plain) newPlanned
  refine ⟨oldPlan, oldCallee, newPlan, newCallee, oldMade, oldCallable, oldSame, newMade,
    newCallable, newSame, ?_⟩
  intro overload overloadMember entry entryMember
  rw [← oldSame, oldSource.overloads] at overloadMember
  obtain ⟨newer, stage, overloadEq⟩ := Constructible.overload_stage sound overloadMember
  rw [overloadEq] at entryMember
  have released := version_of_stage stage
  obtain ⟨following, later⟩ := stage_of_version (step.versions sound released)
  obtain ⟨laterEntry, present, typed, takes⟩ := step.entry_kept sound released entryMember following
  refine ⟨new.plannedOverload .overload overload.version following, ?_, rfl, laterEntry, present,
    typed, takes, step.signature_kept sound released entryMember present takes, ?_⟩
  · rw [← newSame, newSource.overloads, Shape.attach_entries_eq newSound]
    exact List.mem_map_of_mem
      (f := fun stage => new.plannedOverload .overload stage.1 stage.2) later
  · intro args callback lengths valid
    obtain ⟨accepted, offered⟩ := callback_of_valid valid
    exact step.call_kept sound oldSource newSource stage later entryMember present typed takes args
      lengths callback accepted offered

def nicknameDeclaration : FieldDeclaration :=
  { name := "nickname", type := "String", default := some { plain := "none" } }

def regionDeclaration : FieldDeclaration :=
  { name := "region", type := "Int", mutability := .immutableRecently,
    requirement := some ⟨5, false, { raw := "1" }⟩ }

/-- The person of the next release, with two fields more and a label that became required. -/
def laterPersonDeclaration : ShapeDeclaration :=
  { personDeclaration with
    fields := [
      nicknameDeclaration,
      { name := "id", type := "String" },
      { name := "label", type := "String", requirement := some ⟨4, true, { plain := "x" }⟩ },
      { name := "email", type := "String", requirement := some ⟨3, true, { raw := "none" }⟩ },
      { name := "code", type := "Int", mutability := .immutableRecently,
        requirement := some ⟨2, false, { raw := "0" }⟩ },
      regionDeclaration] }

def laterPersonShape : Shape :=
  laterPersonDeclaration.toShape {} (accepted (checkFields [] laterPersonDeclaration.fields))

theorem person_evolves : personShape.EvolvesTo laterPersonShape := by
  have marks : personShape.watermarks = [3, 2, 1] := by decide +kernel
  have nickname := (FieldDeclaration.check_sound nicknameDeclaration _ rfl).1
  have region := (FieldDeclaration.check_sound regionDeclaration _ rfl).1
  refine ⟨by decide +kernel, by decide +kernel, ?_⟩
  rw [marks]
  refine .addedOptional _ nickname (by decide) rfl rfl (.kept _ ?_)
  refine .madeRequired
    ⟨"label", "String", false, .mutable, some "\"x\"", none, true, false, none⟩
    ⟨4, true⟩ rfl rfl rfl rfl (by simp) ?_
  exact .kept _ (.kept _ (.addedRequired _ region ⟨5, false⟩ rfl (by simp) .done))

/-- The call of version 1 that sets an email keeps its values, whatever variant it is now. -/
theorem person_call_survives :
    ∃ oldPlan oldCallee newPlan newCallee,
      personShape.plan .overload = .ok oldPlan ∧ oldPlan.constructible = .ok oldCallee ∧
      laterPersonShape.plan .overload = .ok newPlan ∧ newPlan.constructible = .ok newCallee ∧
      ∃ laterEntry before after,
        oldCallee.invoke 1 .withOptionalCallback ["7"] [⟨"email", "a"⟩] = .ok before ∧
        newCallee.invoke 1 laterEntry ["7"] [⟨"email", "a"⟩] = .ok after ∧
        Instance.CarriesOver personShape laterPersonShape before after := by
  have distinct :
      (signatures (laterPersonShape.attachEntries .overload laterPersonShape.overloads)).Nodup := by
    decide +kernel
  obtain ⟨oldPlan, oldCallee, newPlan, newCallee, oldMade, oldCallable, _, newMade, newCallable, _,
      kept⟩ := released_calls_keep_their_values [personDeclaration] {} personShape laterPersonShape
    _ _ person_normalized rfl person_evolves (person_construction .overload)
    (Shape.construction_of_distinct distinct)
  obtain ⟨_, _, _, laterEntry, _, _, _, _, calls⟩ :=
    kept (personShape.plannedOverload .overload 1 (some 2)) (by decide +kernel)
      (personShape.mainEntry 1 (some 2)) (by decide +kernel)
  obtain ⟨before, after, calledBefore, calledAfter, carried⟩ := calls ["7"] [⟨"email", "a"⟩]
    (by decide +kernel) (.inr (by decide +kernel))
  exact ⟨oldPlan, oldCallee, newPlan, newCallee, oldMade, oldCallable, newMade, newCallable,
    laterEntry.variant, before, after, calledBefore, calledAfter, carried⟩

end ShapeCompat
