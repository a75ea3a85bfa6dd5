import ShapeCompat.Proofs.Calls

/-!
The resolved arguments of an overload and what its calls bring to the builder. The two are worked
out apart: one from the slots of the overload alone, the other from hop to hop. They agree on every
field but a deprecated parameter, which has its literal in the first and travels on in the second.
-/

namespace ShapeCompat

def SlotKind.isDeprecated : SlotKind → Bool
  | .deprecated _ => true
  | .param | .defaulted _ => false

/-- The variants by which an overload hands its own parameters on. -/
def EntryVariant.delegates : EntryVariant → Bool
  | .mandatoryOnly | .withOptionalCallback | .callbackOnly => true
  | .defaultedOptionals | .noArg => false

/-- What the constructor of the concrete builder is called with. -/
def Construction.handed (construction : Construction) (version : UInt32) (variant : EntryVariant)
    (args : List String) (callback : List SetCall) : Except CallFault (List String) :=
  (construction.arrive (construction.overloads.length * 2 + 1)
    ⟨version, variant, args, callback, none⟩).map (·.args)

namespace Overload

/-- The resolved arguments on a call of an entry. -/
def resolvedValues (overload : Overload) (entry : EntryPoint) (args : List String) :
    Except CallFault (List String) :=
  overload.resolved.mapM fun own =>
    own.value.evaluate (Bindings.ofLists (entry.params.map (·.name)) args)

def deprecates (overload : Overload) (name : String) : Bool :=
  overload.slots.any fun slot => slot.field == name && slot.kind.isDeprecated

/-- The resolved arguments on a call of an entry, but with every deprecated parameter passed on. -/
def passedValues (overload : Overload) (entry : EntryPoint) (args : List String) :
    Except CallFault (List String) :=
  overload.resolved.mapM fun own =>
    (if overload.deprecates own.field then .param own.field else own.value : Argument).evaluate
      (Bindings.ofLists (entry.params.map (·.name)) args)

/-- Whatever is given for a deprecated parameter is its literal. -/
def keepsLiterals (overload : Overload) (entry : EntryPoint) (args : List String) : Prop :=
  ∀ slot ∈ overload.slots, slot.kind.isDeprecated = true →
    ∀ value ∈ entry.argument? args slot.field, slot.kind.literal? = some value

instance (overload : Overload) (entry : EntryPoint) (args : List String) :
    Decidable (overload.keepsLiterals entry args) :=
  inferInstanceAs (Decidable (∀ slot ∈ overload.slots, slot.kind.isDeprecated = true →
    ∀ value ∈ entry.argument? args slot.field, slot.kind.literal? = some value))

end Overload

/-- The field is a deprecated parameter of the overload of `version` below `newer`. -/
def Field.isDeprecatedAt (field : Field) (version : UInt32) (newer : Option UInt32) : Prop :=
  field.watermark ≤ version ∧ field.mutability = .immutableRecently ∧ newer.isSome

namespace Shape

variable {shape : Shape} {style : Style} {version : UInt32} {newer : Option UInt32}
  {entry : EntryPoint} {field : Field}

/-- What an overload has in the slot of a field, if it has one. -/
theorem any_slot (sound : shape.IsSound) (relevant : field ∈ shape.relevantFields)
    (test : SlotKind → Bool) :
    ((shape.overloadAt version newer).slots.any fun slot =>
        slot.field == field.name && test slot.kind) = true ↔
      (some field.watermark = newer ∨ field.watermark ≤ version) ∧
        test (field.slotKind newer) = true := by
  rw [slots_eq, List.any_map, List.any_eq_true]
  simp only [List.mem_filter, decide_eq_true_eq, Function.comp_apply, Bool.and_eq_true,
    beq_iff_eq]
  constructor
  · intro found
    obtain ⟨other, ⟨member, placed⟩, same, passed⟩ := found
    have equal : other = field :=
      List.inj_on_of_nodup_map (relevant_names_distinct sound) member relevant same
    subst equal
    exact ⟨placed, passed⟩
  · intro both
    exact ⟨field, ⟨relevant, both.1⟩, rfl, both.2⟩

theorem stage_apart (stage : shape.IsStage version newer) (reached : field.watermark ≤ version) :
    some field.watermark ≠ newer := by
  cases stage with
  | newest covered => simp
  | followed next later _ _ =>
      intro same
      rw [Option.some.injEq] at same
      exact UInt32.not_lt.mpr reached (same ▸ later)

theorem deprecates_iff (sound : shape.IsSound) (stage : shape.IsStage version newer)
    (relevant : field ∈ shape.relevantFields) :
    (shape.plannedOverload style version newer).deprecates field.name = true ↔
      field.isDeprecatedAt version newer := by
  unfold Overload.deprecates Field.isDeprecatedAt
  refine (any_slot sound relevant SlotKind.isDeprecated).trans ?_
  unfold Field.slotKind
  constructor
  · intro both
    obtain ⟨placed, deprecated⟩ := both
    split_ifs at deprecated with adjacent recent
    · cases deprecated
    · exact ⟨placed.resolve_left adjacent, recent⟩
    · cases deprecated
  · intro both
    obtain ⟨reached, recent⟩ := both
    rw [if_neg (stage_apart stage reached), if_pos recent]
    exact ⟨.inr reached, rfl⟩

theorem planned_resolved (shape : Shape) (style : Style) (version : UInt32)
    (newer : Option UInt32) :
    (shape.plannedOverload style version newer).resolved =
      shape.relevantFields.map (·.resolve (shape.overloadAt version newer).slots) := rfl

/-- A field is resolved to its parameter where the overload has a live one, else to its literal. -/
theorem resolve_eq (sound : shape.IsSound) (stage : shape.IsStage version newer)
    (relevant : field ∈ shape.relevantFields) [Decidable (field.isDeprecatedAt version newer)] :
    field.resolve (shape.overloadAt version newer).slots =
      ⟨field.name, if field.watermark ≤ version ∧ ¬field.isDeprecatedAt version newer then
        .param field.name else .literal field.literal⟩ := by
  have live : ((shape.overloadAt version newer).slots.any fun slot =>
      slot.field == field.name && slot.kind == .param) = true ↔
        field.watermark ≤ version ∧ ¬field.isDeprecatedAt version newer := by
    refine (any_slot sound relevant (· == .param)).trans ?_
    unfold Field.slotKind Field.isDeprecatedAt
    constructor
    · intro both
      obtain ⟨placed, param⟩ := both
      split_ifs at param with adjacent recent
      · cases param
      · cases param
      · exact ⟨placed.resolve_left adjacent, fun deprecated => recent deprecated.2⟩
    · intro both
      obtain ⟨reached, current⟩ := both
      rw [if_neg (stage_apart stage reached), if_neg fun recent => current ⟨reached, recent⟩]
      exact ⟨.inr reached, rfl⟩
  unfold Field.resolve
  dsimp only
  by_cases here : field.watermark ≤ version ∧ ¬field.isDeprecatedAt version newer
  · rw [if_pos here]
    rw [if_pos (live.mpr here)]
  · rw [if_neg here]
    rw [if_neg (mt live.mp here)]

theorem evaluate_param (sound : shape.IsSound)
    (member : entry ∈ shape.entriesAt style version newer) (args : List String)
    (lengths : args.length = entry.params.length) (reached : field ∈ shape.fieldsUpTo version) :
    (Argument.param field.name).evaluate
        (Bindings.ofLists (entry.params.map (·.name)) args) =
      .ok ((entry.argument? args field.name).getD field.literal) := by
  have found := Bindings.find_of_lists _ (names_up_to_distinct sound version)
    (fun other => (entry.argument? args other.name).getD other.literal) reached
  rw [← args_by_field sound member args lengths, ← entry_names member] at found
  exact found

instance : Decidable (field.isDeprecatedAt version newer) :=
  inferInstanceAs (Decidable (_ ∧ _ ∧ _))

theorem evaluate_resolved (sound : shape.IsSound) (stage : shape.IsStage version newer)
    (member : entry ∈ shape.entriesAt style version newer) (args : List String)
    (lengths : args.length = entry.params.length) (relevant : field ∈ shape.relevantFields) :
    (field.resolve (shape.overloadAt version newer).slots).value.evaluate
        (Bindings.ofLists (entry.params.map (·.name)) args) =
      .ok (if field.isDeprecatedAt version newer then field.literal
        else (entry.argument? args field.name).getD field.literal) := by
  rw [resolve_eq sound stage relevant]
  dsimp only
  by_cases deprecated : field.isDeprecatedAt version newer
  · rw [if_neg fun live => live.2 deprecated, if_pos deprecated]
    rfl
  · rw [if_neg deprecated]
    by_cases reached : field.watermark ≤ version
    · rw [if_pos ⟨reached, deprecated⟩]
      exact evaluate_param sound member args lengths (mem_fields_up_to.mpr ⟨relevant, reached⟩)
    · rw [if_neg fun live => reached live.1, no_argument sound member args
        (mem_relevant_fields.mp relevant).1 fun taken => reached (mem_fields_up_to.mp taken).2]
      rfl

theorem resolved_values_eq (sound : shape.IsSound) (stage : shape.IsStage version newer)
    (member : entry ∈ shape.entriesAt style version newer) (args : List String)
    (lengths : args.length = entry.params.length) :
    (shape.plannedOverload style version newer).resolvedValues entry args =
      .ok (shape.relevantFields.map fun field =>
        if field.isDeprecatedAt version newer then field.literal
        else (entry.argument? args field.name).getD field.literal) := by
  rw [Overload.resolvedValues, planned_resolved, List.mapM_map]
  apply map_m_ok
  intro field relevant
  exact evaluate_resolved sound stage member args lengths relevant

theorem passed_values_eq (sound : shape.IsSound) (stage : shape.IsStage version newer)
    (member : entry ∈ shape.entriesAt style version newer) (args : List String)
    (lengths : args.length = entry.params.length) :
    (shape.plannedOverload style version newer).passedValues entry args =
      .ok (shape.relevantFields.map fun field =>
        (entry.argument? args field.name).getD field.literal) := by
  rw [Overload.passedValues, planned_resolved, List.mapM_map]
  apply map_m_ok
  intro field relevant
  have same : (field.resolve (shape.overloadAt version newer).slots).field = field.name := rfl
  rw [Function.comp_apply, same]
  by_cases deprecated : field.isDeprecatedAt version newer
  · rw [if_pos ((deprecates_iff sound stage relevant).mpr deprecated)]
    exact evaluate_param sound member args lengths
      (mem_fields_up_to.mpr ⟨relevant, deprecated.1⟩)
  · rw [if_neg (mt (deprecates_iff sound stage relevant).mp deprecated),
      evaluate_resolved sound stage member args lengths relevant, if_neg deprecated]

theorem keeps_literals_iff (stage : shape.IsStage version newer) (args : List String) :
    (shape.plannedOverload style version newer).keepsLiterals entry args ↔
      ∀ field ∈ shape.relevantFields, field.isDeprecatedAt version newer →
        (entry.argument? args field.name).getD field.literal = field.literal := by
  have given (field : Field) : (entry.argument? args field.name).getD field.literal =
      field.literal ↔
        ∀ value ∈ entry.argument? args field.name, some field.literal = some value := by
    cases entry.argument? args field.name <;> simp [eq_comm]
  rw [Overload.keepsLiterals]
  change (∀ slot ∈ (shape.overloadAt version newer).slots, _) ↔ _
  rw [slots_eq, List.forall_mem_map]
  constructor
  · intro kept field relevant deprecated
    have kind : (field.slot newer).kind = .deprecated field.literal := by
      rw [Field.slot, Field.slotKind, if_neg (stage_apart stage deprecated.1),
        if_pos deprecated.2]
    have literal := kept field (by simp [relevant, deprecated.1])
    rw [kind] at literal
    exact (given field).mpr (literal rfl)
  · intro kept field found isDeprecated
    simp only [List.mem_filter, decide_eq_true_eq] at found
    rw [Field.slot, Field.slotKind] at isDeprecated ⊢
    split_ifs at isDeprecated ⊢ with adjacent recent
    · cases isDeprecated
    · exact (given field).mp (kept field found.1 ⟨found.2.resolve_left adjacent, recent⟩)
    · cases isDeprecated

end Shape

namespace Constructible

variable {callee : Constructible} {shape : Shape} {style : Style}

theorem handed_eq (source : callee.IsFor shape style) (sound : shape.IsSound)
    {version : UInt32} {newer : Option UInt32} (stage : (version, newer) ∈ withNewer shape.versions)
    {entry : EntryPoint} (member : entry ∈ shape.entriesAt style version newer)
    (args : List String) (lengths : args.length = entry.params.length) (callback : List SetCall)
    (accepted : entry.callback = none → callback = []) :
    callee.construction.handed version entry.variant args callback =
      .ok (shape.relevantFields.map fun field =>
        (entry.argument? args field.name).getD field.literal) := by
  obtain ⟨tier, reached, _⟩ :=
    arrive_at_builder source sound stage member args lengths callback accepted
  rw [Construction.handed, reached]
  rfl

end Constructible

theorem Shape.delegating_entry (shape : Shape) (style : Style) (version : UInt32)
    (newer : Option UInt32) :
    ∃ entry ∈ shape.entriesAt style version newer, entry.variant.delegates = true := by
  by_cases bare : shape.relevantFields = []
  · unfold entriesAt
    rw [if_pos bare]
    cases shape.hasOptionalTier
    · exact ⟨_, List.mem_cons_self, rfl⟩
    · exact ⟨_, List.mem_cons_self, rfl⟩
  · refine ⟨_, main_entry_mem bare, ?_⟩
    unfold mainEntry mainVariant
    cases shape.hasOptionalTier <;> rfl

/-- A call of any entry point hands the constructor of the concrete builder one value for each
resolved argument, in their order: that of the resolved argument, but of a deprecated parameter the
value that the caller gave. So the resolved arguments are what the builder gets when every
deprecated parameter is given its literal, and only then. -/
theorem builder_gets_resolved_values_but_for_deprecated_parameters
    (declarations : List ShapeDeclaration) (settings : Settings) (shape : Shape) (style : Style)
    (construction : Construction)
    (normalized : shape ∈ (Schema.ofDeclarations declarations settings).schema.shapes)
    (plain : shape.kind = .plain)
    (planned : shape.construction shape.outputQualifiedName style = .ok construction) :
    ∀ overload ∈ construction.overloads,
      (∃ entry ∈ overload.entries, entry.variant.delegates = true) ∧
      overload.resolved.map (·.field) = shape.relevantFields.map (·.name) ∧
      ∀ entry ∈ overload.entries, ∀ args callback, args.length = entry.params.length →
        (entry.callback = none → callback = []) →
        ∃ values,
          construction.handed overload.version entry.variant args callback = .ok values ∧
          overload.passedValues entry args = .ok values ∧
          values.length = overload.resolved.length ∧
          (overload.resolvedValues entry args = .ok values ↔
            overload.keepsLiterals entry args) := by
  have sound := Schema.of_declarations_sound declarations settings shape normalized
  obtain ⟨_, callee, _, _, same, _, source⟩ :=
    Constructible.callee_of_construction plain planned
  intro overload overloadMember
  rw [← same, source.overloads] at overloadMember
  obtain ⟨newer, member, overloadEq⟩ := Constructible.overload_stage sound overloadMember
  have stage := Shape.stage_of_mem sound member
  rw [← same, overloadEq]
  refine ⟨shape.delegating_entry style overload.version newer, ?_, ?_⟩
  · rw [Shape.planned_resolved, List.map_map]
    rfl
  · intro entry entryMember args callback lengths accepted
    refine ⟨_, Constructible.handed_eq source sound member entryMember args lengths callback
      accepted, Shape.passed_values_eq sound stage entryMember args lengths, ?_, ?_⟩
    · rw [Shape.planned_resolved, List.length_map, List.length_map]
    · rw [Shape.resolved_values_eq sound stage entryMember args lengths,
        Shape.keeps_literals_iff stage args, Except.ok.injEq, List.map_inj_left]
      apply forall₂_congr
      intro field relevant
      by_cases deprecated : field.isDeprecatedAt overload.version newer
      · rw [if_pos deprecated]
        exact ⟨fun equal _ => equal.symm, fun kept => (kept deprecated).symm⟩
      · rw [if_neg deprecated]
        exact ⟨fun _ here => absurd here deprecated, fun _ => rfl⟩

theorem person_hands_on_code :
    personShape ∈ (Schema.ofDeclarations [personDeclaration] {}).schema.shapes ∧
      (personShape.plannedOverload .overload 2 (some 3)).keepsLiterals
        (personShape.mainEntry 2 (some 3)) ["7", "0"] ∧
      ∃ construction, personShape.construction personShape.outputQualifiedName .overload =
          .ok construction ∧
        construction.handed 2 .withOptionalCallback ["7", "0"] [⟨"label", "b"⟩] =
          (personShape.plannedOverload .overload 2 (some 3)).resolvedValues
            (personShape.mainEntry 2 (some 3)) ["7", "0"] := by
  obtain ⟨_, _, calls⟩ := builder_gets_resolved_values_but_for_deprecated_parameters
    [personDeclaration] {} personShape .overload _ person_normalized rfl
    (person_construction .overload)
    (personShape.plannedOverload .overload 2 (some 3)) (by decide +kernel)
  obtain ⟨values, handed, _, _, exactly⟩ := calls (personShape.mainEntry 2 (some 3))
    (by decide +kernel) ["7", "0"] [⟨"label", "b"⟩] (by decide +kernel) (by decide +kernel)
  have kept : (personShape.plannedOverload .overload 2 (some 3)).keepsLiterals
      (personShape.mainEntry 2 (some 3)) ["7", "0"] := by
    decide +kernel
  exact ⟨person_normalized, kept, _, person_construction .overload,
    handed.trans (exactly.mpr kept).symm⟩

/-- A caller of the second version who gives the deprecated code another value gets it through to
the builder, past the resolved literal. -/
theorem deprecated_code_reaches_the_builder :
    ∃ construction, personShape.construction personShape.outputQualifiedName .overload =
        .ok construction ∧
      personShape.plannedOverload .overload 2 (some 3) ∈ construction.overloads ∧
      construction.handed 2 .withOptionalCallback ["7", "9"] [] = .ok ["7", "none", "9"] ∧
      (personShape.plannedOverload .overload 2 (some 3)).resolvedValues
        (personShape.mainEntry 2 (some 3)) ["7", "9"] = .ok ["7", "none", "0"] := by
  refine ⟨_, person_construction .overload, ?_, ?_, ?_⟩
  · decide +kernel
  · decide +kernel
  · decide +kernel

end ShapeCompat
