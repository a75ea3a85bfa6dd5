import ShapeCompat.Proofs.Evolution.CallSites

/-!
Released signatures in callback style. There an overload has a single entry, so the first optional
field of a shape puts a callback into the signatures that were released without one. This is the only
way in which a new field takes a signature away, and it happens exactly when a shape that takes
parameters has come to have an optional tier.
-/

namespace ShapeCompat

namespace Shape

variable {shape : Shape} {style : Style} {version : UInt32} {newer : Option UInt32}

theorem mem_planned_signatures (sound : shape.IsSound) {signature : List String} :
    signature ∈ signatures (shape.attachEntries style shape.overloads) ↔
      ∃ version newer, (version, newer) ∈ withNewer shape.versions ∧
        ∃ entry ∈ shape.entriesAt style version newer, entry.erasedSignature = signature := by
  rw [signatures_eq sound, List.mem_flatMap]
  simp only [List.mem_map, Prod.exists]

/-- In callback style there are entries without callback as long as there is no optional tier, and
beside it when nothing is taken. -/
theorem callback_style_without_callback_iff (shape : Shape) (version : UInt32)
    (newer : Option UInt32) :
    (∃ entry ∈ shape.entriesAt .callback version newer, entry.callback = none) ↔
      shape.hasOptionalTier = false ∨ shape.relevantFields = [] := by
  unfold entriesAt
  by_cases bare : shape.relevantFields = []
  · rw [if_pos bare]
    cases shape.hasOptionalTier with
    | true => simp [bare, EntryPoint.noArg]
    | false => simp [EntryPoint.withoutSlots]
  · cases optional : shape.hasOptionalTier with
    | true => simp [bare, mainEntry, optional]
    | false => simp [bare, mainEntry, optional]

theorem entries_nonempty (shape : Shape) (style : Style) (version : UInt32)
    (newer : Option UInt32) : ∃ entry, entry ∈ shape.entriesAt style version newer := by
  by_cases bare : shape.relevantFields = []
  · by_cases optional : shape.hasOptionalTier = true
    · exact ⟨.noArg, by simp [entriesAt, bare, optional]⟩
    · exact ⟨.withoutSlots false, by simp [entriesAt, bare, optional]⟩
  · exact ⟨shape.mainEntry version newer, main_entry_mem bare⟩

namespace EvolvesTo

variable {old new : Shape}

theorem signature_survives (step : old.EvolvesTo new) (sound : old.IsSound)
    (stage : (version, newer) ∈ withNewer old.versions) {entry laterEntry : EntryPoint}
    (released : entry ∈ old.entriesAt style version newer) {following : Option UInt32}
    (later : (version, following) ∈ withNewer new.versions)
    (present : laterEntry ∈ new.entriesAt style version following)
    (callback : laterEntry.callback = entry.callback) :
    entry.erasedSignature ∈ signatures (new.attachEntries style new.overloads) := by
  rw [mem_planned_signatures (step.sound sound)]
  exact ⟨version, following, later, laterEntry, present,
    step.signature_kept sound (version_of_stage stage) released present callback⟩

/-- In either style a signature with a callback is there to stay. -/
theorem callback_signature_kept (step : old.EvolvesTo new) (sound : old.IsSound)
    (stage : (version, newer) ∈ withNewer old.versions) {entry : EntryPoint}
    (released : entry ∈ old.entriesAt style version newer) (takes : entry.callback.isSome) :
    entry.erasedSignature ∈ signatures (new.attachEntries style new.overloads) := by
  obtain ⟨following, later⟩ := stage_of_version (step.versions sound (version_of_stage stage))
  rcases entry_callback released with without | ⟨tier, optional⟩
  · rw [without] at takes
    cases takes
  · obtain ⟨laterEntry, present, laterTier⟩ :=
      entry_with_callback (step.optional_tier optional) style version following
    exact step.signature_survives sound stage released later present (laterTier.trans tier.symm)

/-- Whatever happens, the released parameters stay, and at most a callback comes after them. -/
theorem signature_kept_or_extended (step : old.EvolvesTo new) (sound : old.IsSound)
    (stage : (version, newer) ∈ withNewer old.versions) {entry : EntryPoint}
    (released : entry ∈ old.entriesAt style version newer) :
    entry.erasedSignature ∈ signatures (new.attachEntries style new.overloads) ∨
      entry.erasedSignature ++ ["Function1"] ∈
        signatures (new.attachEntries style new.overloads) := by
  have member := version_of_stage stage
  obtain ⟨following, later⟩ := stage_of_version (step.versions sound member)
  obtain ⟨laterEntry, present⟩ := new.entries_nonempty style version following
  cases takes : entry.callback with
  | some tier =>
      exact .inl (step.callback_signature_kept sound stage released (by rw [takes]; rfl))
  | none =>
      cases laterTakes : laterEntry.callback with
      | none =>
          exact .inl (step.signature_survives sound stage released later present
            (laterTakes.trans takes.symm))
      | some tier =>
          have extended : laterEntry.erasedSignature = entry.erasedSignature ++ ["Function1"] := by
            rw [entry_signature present, entry_signature released, step.erased_types sound member,
              takes, laterTakes]
            simp
          rw [← extended]
          exact .inr ((mem_planned_signatures (step.sound sound)).mpr
            ⟨version, following, later, laterEntry, present, rfl⟩)

/-- A step of evolution takes a signature away exactly when entries with a callback are the only ones
that are left. -/
theorem signatures_kept_iff (step : old.EvolvesTo new) (sound : old.IsSound) :
    (∀ signature ∈ signatures (old.attachEntries .callback old.overloads),
        signature ∈ signatures (new.attachEntries .callback new.overloads)) ↔
      ¬ ((new.hasOptionalTier = true ∧ new.relevantFields ≠ []) ∧
        (old.hasOptionalTier = false ∨ old.relevantFields = [])) := by
  have newSound := step.sound sound
  constructor
  · intro kept lost
    rcases lost with ⟨⟨optional, taken⟩, without⟩
    -- The shortest new signature is longer than the one of the first version without callback.
    have first : 1 ∈ old.versions := mem_versions.mpr (mem_watermarks.mpr (.inl rfl))
    obtain ⟨newer, stage⟩ := stage_of_version first
    obtain ⟨entry, released, refused⟩ :=
      (old.callback_style_without_callback_iff 1 newer).mpr without
    have survived := kept _ ((mem_planned_signatures sound).mpr
      ⟨1, newer, stage, entry, released, rfl⟩)
    obtain ⟨version, following, later, laterEntry, present, same⟩ :=
      (mem_planned_signatures newSound).mp survived
    have takes : laterEntry.callback.isSome := by
      by_contra absent
      have some := (new.callback_style_without_callback_iff version following).mp
        ⟨laterEntry, present, by simpa using absent⟩
      rcases some with noTier | bare
      · simp [optional] at noTier
      · exact taken bare
    have grown : (new.fieldsUpTo 1).length ≤ (new.fieldsUpTo version).length := by
      have newFirst := step.versions sound first
      have versionMember := version_of_stage later
      rcases UInt32.le_iff_lt_or_eq.mp (first_version_least newSound versionMember) with less | rfl
      · exact Nat.le_of_lt (fields_up_to_grow newSound newFirst versionMember less)
      · exact Nat.le_refl _
    rw [entry_signature present, entry_signature released, ← step.erased_types sound first, takes,
      refused] at same
    have lengths := congrArg List.length same
    simp [erasedTypes] at lengths
    omega
  · intro allowed signature member
    obtain ⟨version, newer, stage, entry, released, rfl⟩ := (mem_planned_signatures sound).mp member
    cases takes : entry.callback with
    | some tier => exact step.callback_signature_kept sound stage released (by rw [takes]; rfl)
    | none =>
        have without := (old.callback_style_without_callback_iff version newer).mp
          ⟨entry, released, takes⟩
        obtain ⟨following, later⟩ := stage_of_version (step.versions sound (version_of_stage stage))
        have newWithout : new.hasOptionalTier = false ∨ new.relevantFields = [] := by
          by_contra both
          rw [not_or, Bool.not_eq_false] at both
          exact allowed ⟨both, without⟩
        obtain ⟨laterEntry, present, refused⟩ :=
          (new.callback_style_without_callback_iff version following).mpr newWithout
        exact step.signature_survives sound stage released later present
          (refused.trans takes.symm)

end EvolvesTo
end Shape

/-- In callback style every shape that gains one changeable field is planned, and its released
signatures either stay or gain a callback. All of them stay unless the shape now takes parameters and
has an optional tier, and lacked one of the two before. -/
theorem added_field_keeps_signatures (declarations : List ShapeDeclaration) (settings : Settings)
    (old new : Shape) (field : Field) (earlier later : List Field)
    (normalized : old ∈ (Schema.ofDeclarations declarations settings).schema.shapes)
    (fields : old.fields = earlier ++ later)
    (inserted : new = { old with fields := earlier ++ field :: later })
    (fresh : field.name ∉ old.fields.map (·.name)) (sound : field.IsSound)
    (changeable : field.mutability = .mutable)
    (added : field.default.isSome ∧ field.requirement = none ∨
      ∃ requirement, field.requirement = some requirement ∧
        ∀ mark ∈ old.watermarks, mark < requirement.sinceVersion) :
    ∃ oldConstruction newConstruction,
      old.construction old.outputQualifiedName .callback = .ok oldConstruction ∧
      new.construction new.outputQualifiedName .callback = .ok newConstruction ∧
      (∀ overload ∈ oldConstruction.overloads, ∀ entry ∈ overload.entries,
        entry.erasedSignature ∈ signatures newConstruction.overloads ∨
          entry.callback = none ∧
            entry.erasedSignature ++ ["Function1"] ∈ signatures newConstruction.overloads) ∧
      ((∀ signature ∈ signatures oldConstruction.overloads,
          signature ∈ signatures newConstruction.overloads) ↔
        ¬ ((new.hasOptionalTier = true ∧ new.relevantFields ≠ []) ∧
          (old.hasOptionalTier = false ∨ old.relevantFields = []))) := by
  have oldSound := Schema.of_declarations_sound declarations settings old normalized
  have step : old.EvolvesTo new := by
    rw [inserted]
    exact Shape.evolves_by_insertion oldSound fields fresh sound changeable added
  have newSound := step.sound oldSound
  refine ⟨_, _, Shape.construction_of_distinct (Shape.callback_signatures_distinct oldSound),
    Shape.construction_of_distinct (Shape.callback_signatures_distinct newSound), ?_,
    step.signatures_kept_iff oldSound⟩
  intro overload overloadMember entry entryMember
  obtain ⟨newer, stage, same⟩ := Constructible.overload_stage oldSound overloadMember
  rw [same] at entryMember
  cases takes : entry.callback with
  | some tier =>
      exact .inl (step.callback_signature_kept oldSound stage entryMember (by rw [takes]; rfl))
  | none =>
      rcases step.signature_kept_or_extended oldSound stage entryMember with kept | extended
      · exact .inl kept
      · exact .inr ⟨rfl, extended⟩

def nicknameField : Field :=
  ⟨"nickname", "String", false, .mutable, some "\"none\"", none, true, false, none⟩

theorem nickname_sound : nicknameField.IsSound :=
  (FieldDeclaration.check_sound nicknameDeclaration _ rfl).1

theorem person_signatures_survive :
    ∃ oldConstruction newConstruction,
      personShape.construction personShape.outputQualifiedName .callback = .ok oldConstruction ∧
      Shape.construction { personShape with fields := nicknameField :: personShape.fields }
        personShape.outputQualifiedName .callback = .ok newConstruction ∧
      ∀ signature ∈ signatures oldConstruction.overloads,
        signature ∈ signatures newConstruction.overloads := by
  obtain ⟨oldConstruction, newConstruction, oldPlanned, newPlanned, _, kept⟩ :=
    added_field_keeps_signatures [personDeclaration] {} personShape
      { personShape with fields := nicknameField :: personShape.fields } nicknameField []
      personShape.fields person_normalized rfl rfl (by decide +kernel) nickname_sound rfl
      (.inl ⟨rfl, rfl⟩)
  exact ⟨oldConstruction, newConstruction, oldPlanned, newPlanned, kept.mpr (by decide +kernel)⟩

def noteDeclaration : ShapeDeclaration :=
  { name := "NoteDBC", package := "com.acme", fields := [{ name := "id", type := "String" }] }

def noteShape : Shape :=
  noteDeclaration.toShape {} (accepted (checkFields [] noteDeclaration.fields))

/-- A note has no optional tier, and with a nickname its only signature has a callback. -/
theorem note_signature_is_lost :
    noteShape ∈ (Schema.ofDeclarations [noteDeclaration] {}).schema.shapes ∧
    noteShape.kind = .plain ∧ nicknameField.name ∉ noteShape.fields.map (·.name) ∧
    nicknameField.IsSound ∧ nicknameField.mutability = .mutable ∧
    nicknameField.default.isSome ∧ nicknameField.requirement = none ∧
    ∃ oldConstruction newConstruction,
      noteShape.construction noteShape.outputQualifiedName .callback = .ok oldConstruction ∧
      Shape.construction { noteShape with fields := noteShape.fields ++ [nicknameField] }
        noteShape.outputQualifiedName .callback = .ok newConstruction ∧
      ["String"] ∈ signatures oldConstruction.overloads ∧
      ["String"] ∉ signatures newConstruction.overloads := by
  refine ⟨by decide +kernel, rfl, by decide +kernel, nickname_sound, rfl, rfl, rfl, ?_⟩
  refine ⟨_, _, Shape.construction_of_distinct (by decide +kernel),
    Shape.construction_of_distinct (by decide +kernel), ?_, ?_⟩
  · decide +kernel
  · decide +kernel

end ShapeCompat
