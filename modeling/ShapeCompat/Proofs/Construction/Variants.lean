import ShapeCompat.Proofs.Construction.Ambiguity
import ShapeCompat.Proofs.Schema.Placement

/-!
What the variants of entries announce. Entries for a lone callback and for no arguments never have
parameters. Every version after the first has one; the first has none where each field that
constructors take became mandatory later. Its slots are then all passed on as literals, and its entry
with a callback is announced as if there were parameters beside it.
-/

namespace ShapeCompat

namespace Overload

/-- The overload has slots, and none of them is a parameter. -/
def isEmptied (overload : Overload) : Prop := overload.params = [] ∧ overload.slots ≠ []

/-- Every entry takes what its variant announces. -/
structure KeepsVariants (overload : Overload) : Prop where
  lone_callback : overload.params = [] →
    ∀ entry ∈ overload.entries, entry.callback.isSome → entry.variant = .callbackOnly
  without_params : ∀ entry ∈ overload.entries,
    entry.variant = .callbackOnly ∨ entry.variant = .noArg → entry.params = []
  beside_callback : ∀ entry ∈ overload.entries,
    entry.variant = .withOptionalCallback → entry.params ≠ []

end Overload

namespace Shape

variable {shape : Shape} {style : Style} {version : UInt32} {newer : Option UInt32}
  {entry : EntryPoint}

/-- What entries announce with a callback and without one, where constructors take no field and where
they take some. -/
theorem variant_cases (member : entry ∈ shape.entriesAt style version newer) :
    shape.relevantFields = [] ∧
        (entry.callback.isSome ∧ entry.variant = .callbackOnly ∨
          entry.callback = none ∧ (entry.variant = .noArg ∨ entry.variant = .mandatoryOnly)) ∨
      shape.relevantFields ≠ [] ∧
        (entry.callback.isSome ∧ entry.variant = .withOptionalCallback ∨
          entry.callback = none ∧
            (entry.variant = .defaultedOptionals ∨ entry.variant = .mandatoryOnly)) := by
  by_cases bare : shape.relevantFields = []
  · refine .inl ⟨bare, ?_⟩
    unfold entriesAt at member
    rw [if_pos bare] at member
    split at member
    · rcases List.mem_pair.mp member with rfl | rfl
      · exact .inl ⟨rfl, rfl⟩
      · exact .inr ⟨rfl, .inl rfl⟩
    · rw [List.mem_singleton.mp member]
      exact .inr ⟨rfl, .inr rfl⟩
  · refine .inr ⟨bare, ?_⟩
    rcases entries_of_taken bare member with rfl | ⟨_, rfl⟩
    · cases optional : shape.hasOptionalTier with
      | false => simp [mainEntry, mainVariant, optional]
      | true => simp [mainEntry, mainVariant, optional]
    · exact .inr ⟨rfl, .inl rfl⟩

/-- Only a shape whose constructors take nothing has entries that announce it. -/
theorem bare_of_variant (member : entry ∈ shape.entriesAt style version newer)
    (announced : entry.variant = .callbackOnly ∨ entry.variant = .noArg) :
    shape.relevantFields = [] := by
  rcases variant_cases member with ⟨bare, _⟩ | ⟨_, ⟨_, named⟩ | ⟨_, named | named⟩⟩
  · exact bare
  · simp [named] at announced
  · simp [named] at announced
  · simp [named] at announced

theorem callback_variant (member : entry ∈ shape.entriesAt style version newer)
    (called : entry.callback.isSome) :
    entry.variant =
      if shape.relevantFields = [] then .callbackOnly else .withOptionalCallback := by
  rcases variant_cases member with ⟨bare, ⟨_, named⟩ | ⟨absent, _⟩⟩ |
    ⟨taken, ⟨_, named⟩ | ⟨absent, _⟩⟩
  · rw [named, if_pos bare]
  · simp [absent] at called
  · rw [named, if_neg taken]
  · simp [absent] at called

theorem called_of_variant (member : entry ∈ shape.entriesAt style version newer)
    (announced : entry.variant = .withOptionalCallback) :
    shape.relevantFields ≠ [] ∧ entry.callback.isSome := by
  rcases variant_cases member with ⟨_, ⟨_, named⟩ | ⟨_, named | named⟩⟩ |
    ⟨taken, ⟨called, _⟩ | ⟨_, named | named⟩⟩
  · simp [named] at announced
  · simp [named] at announced
  · simp [named] at announced
  · exact ⟨taken, called⟩
  · simp [named] at announced
  · simp [named] at announced

/-- Only shapes with an optional tier have entries with a callback. -/
theorem optional_of_called (member : entry ∈ shape.entriesAt style version newer)
    (called : entry.callback.isSome) : shape.hasOptionalTier = true := by
  rcases entry_callback member with absent | ⟨_, optional⟩
  · simp [absent] at called
  · exact optional

theorem entry_params_nil_iff (member : entry ∈ shape.entriesAt style version newer) :
    entry.params = [] ↔ shape.fieldsUpTo version = [] := by
  rw [← List.length_eq_zero_iff, entry_params_length member, List.length_eq_zero_iff]

theorem planned_params_nil_iff (stage : shape.IsStage version newer) (style : Style) :
    (shape.plannedOverload style version newer).params = [] ↔ shape.fieldsUpTo version = [] := by
  change (shape.overloadAt version newer).params = [] ↔ _
  rw [params_eq stage, List.map_eq_nil_iff]

theorem planned_slots_nil_iff (stage : shape.IsStage version newer) (style : Style) :
    (shape.plannedOverload style version newer).slots = [] ↔ shape.relevantFields = [] :=
  slots_empty_iff stage

/-- Entries keep to their variants unless a callback stands alone where there are slots. -/
theorem keeps_variants_iff (stage : shape.IsStage version newer) (style : Style) :
    (shape.plannedOverload style version newer).KeepsVariants ↔
      ¬(shape.hasOptionalTier = true ∧
        (shape.plannedOverload style version newer).isEmptied) := by
  rw [Overload.isEmptied, ne_eq, planned_slots_nil_iff stage]
  constructor
  · intro kept emptied
    obtain ⟨optional, empty, taken⟩ := emptied
    have member : shape.mainEntry version newer ∈ shape.entriesAt style version newer :=
      main_entry_mem taken
    have called : (shape.mainEntry version newer).callback.isSome := by simp [mainEntry, optional]
    have announced := kept.lone_callback empty _ member called
    rw [callback_variant member called, if_neg taken] at announced
    cases announced
  · intro exempt
    refine ⟨?_, ?_, ?_⟩
    · intro empty entry member called
      rw [callback_variant member called]
      apply if_pos
      by_contra taken
      exact exempt ⟨optional_of_called member called, empty, taken⟩
    · intro entry member announced
      exact (entries_of_bare (bare_of_variant member announced) member).1
    · intro entry member announced empty
      obtain ⟨taken, called⟩ := called_of_variant member announced
      refine exempt ⟨optional_of_called member called, ?_, taken⟩
      exact (planned_params_nil_iff stage style).mpr ((entry_params_nil_iff member).mp empty)

/-- A version reaches no field only if it is the first and all fields became mandatory later. -/
theorem fields_up_to_nil_iff (sound : shape.IsSound) (reached : version ∈ shape.versions) :
    shape.fieldsUpTo version = [] ↔
      version = 1 ∧ ∀ field ∈ shape.relevantFields, field.requirement.isSome := by
  constructor
  · intro empty
    have beyond : ∀ field ∈ shape.relevantFields, ¬field.watermark ≤ version := by
      intro field relevant bound
      exact List.ne_nil_of_mem (mem_fields_up_to.mpr ⟨relevant, bound⟩) empty
    rcases (mem_versions_iff_watermark sound).mp reached with rfl | ⟨field, relevant, rfl⟩
    · refine ⟨rfl, ?_⟩
      intro field relevant
      by_contra free
      rw [Option.not_isSome_iff_eq_none] at free
      exact beyond field relevant (UInt32.le_of_eq (Field.watermark_without_requirement free))
    · exact (beyond field relevant (UInt32.le_refl _)).elim
  · intro both
    obtain ⟨rfl, required⟩ := both
    apply List.filter_eq_nil_iff.mpr
    intro field relevant
    obtain ⟨requirement, found⟩ := Option.isSome_iff_exists.mp (required field relevant)
    have own := relevant_sound sound relevant
    rw [decide_eq_true_eq, Field.watermark_of_requirement own found]
    exact UInt32.not_le.mpr (own.required_later requirement found)

theorem emptied_iff (sound : shape.IsSound) (member : (version, newer) ∈ withNewer shape.versions)
    (style : Style) :
    (shape.plannedOverload style version newer).isEmptied ↔
      version = 1 ∧ shape.relevantFields ≠ [] ∧
        ∀ field ∈ shape.relevantFields, field.requirement.isSome := by
  have stage := stage_of_mem sound member
  rw [Overload.isEmptied, ne_eq, planned_slots_nil_iff stage, planned_params_nil_iff stage]
  constructor
  · intro both
    obtain ⟨empty, taken⟩ := both
    obtain ⟨first, required⟩ := (fields_up_to_nil_iff sound (version_of_stage member)).mp empty
    exact ⟨first, taken, required⟩
  · intro all
    obtain ⟨first, taken, required⟩ := all
    exact ⟨(fields_up_to_nil_iff sound (version_of_stage member)).mpr ⟨first, required⟩, taken⟩

end Shape

/-- In an overload style plan the callback of an overload is announced as a lone one exactly where
the overload has no slots, and no entry that is announced without parameters has any. So all entries
keep to their variants, but for an emptied overload of a shape with an optional tier; and it is
version 1 that is emptied, by requirements on all fields that constructors take. -/
theorem variants_are_kept_where_no_overload_is_emptied (declarations : List ShapeDeclaration)
    (settings : Settings) (shape : Shape) (plan : ShapePlan)
    (normalized : shape ∈ (Schema.ofDeclarations declarations settings).schema.shapes)
    (plain : shape.kind = .plain) (planned : shape.plan .overload = .ok plan) :
    ∃ construction, plan.construction = some construction ∧
      ∀ overload ∈ construction.overloads,
        (∀ entry ∈ overload.entries, entry.callback.isSome →
          entry.variant = if overload.slots = [] then .callbackOnly else .withOptionalCallback) ∧
        (∀ entry ∈ overload.entries,
          entry.variant = .callbackOnly ∨ entry.variant = .noArg → entry.params = []) ∧
        (overload.KeepsVariants ↔ ¬(shape.hasOptionalTier = true ∧ overload.isEmptied)) ∧
        (overload.isEmptied ↔ overload.version = 1 ∧ shape.relevantFields ≠ [] ∧
          ∀ field ∈ shape.relevantFields, field.requirement.isSome) := by
  have sound := Schema.of_declarations_sound declarations settings shape normalized
  refine ⟨_, (Shape.plan_of_plain plain planned).1, ?_⟩
  intro overload listed
  change overload ∈ shape.attachEntries .overload shape.overloads at listed
  rw [Shape.attach_entries_eq sound] at listed
  obtain ⟨⟨version, newer⟩, member, rfl⟩ := List.mem_map.mp listed
  have stage := Shape.stage_of_mem sound member
  refine ⟨?_, ?_, Shape.keeps_variants_iff stage _, Shape.emptied_iff sound member _⟩
  · intro entry entryMember called
    simp only [Shape.planned_slots_nil_iff stage]
    exact Shape.callback_variant entryMember called
  · intro entry entryMember announced
    exact (Shape.entries_of_bare (Shape.bare_of_variant entryMember announced) entryMember).1

/-- Its only field was optional in version 1 and is mandatory from version 2 on. -/
def ticketDeclaration : ShapeDeclaration :=
  { name := "TicketDBC"
    package := "com.acme"
    fields := [{ name := "seat", type := "Int", requirement := some ⟨2, true, { raw := "0" }⟩ }] }

def ticketShape : Shape :=
  ticketDeclaration.toShape {} (accepted (checkFields [] ticketDeclaration.fields))

theorem ticket_planned : ∃ plan, ticketShape.plan .overload = .ok plan ∧
    plan.construction = some (ticketShape.plannedConstruction "com.acme.Ticket" .overload) := by
  have distinct :
      (signatures (ticketShape.attachEntries .overload ticketShape.overloads)).Nodup := by
    decide +kernel
  have named : ticketShape.outputQualifiedName = "com.acme.Ticket" := by decide +kernel
  rw [Shape.plan, Shape.plain_parts_of_construction rfl
    (Shape.construction_of_distinct distinct), named]
  exact ⟨_, rfl, rfl⟩

theorem newest_ticket_keeps_variants :
    ticketShape ∈ (Schema.ofDeclarations [ticketDeclaration] {}).schema.shapes ∧
      ∃ plan, ticketShape.plan .overload = .ok plan ∧
        (ticketShape.plannedOverload .overload 2 none).KeepsVariants ∧
        (ticketShape.plannedOverload .overload 1 (some 2)).isEmptied := by
  have normalized : ticketShape ∈ (Schema.ofDeclarations [ticketDeclaration] {}).schema.shapes := by
    decide +kernel
  obtain ⟨plan, planned, named⟩ := ticket_planned
  obtain ⟨construction, made, kept⟩ := variants_are_kept_where_no_overload_is_emptied
    [ticketDeclaration] {} ticketShape plan normalized rfl planned
  obtain rfl := Option.some.inj (made.symm.trans named)
  obtain ⟨_, _, newest, _⟩ :=
    kept (ticketShape.plannedOverload .overload 2 none) (by decide +kernel)
  obtain ⟨_, _, _, oldest⟩ :=
    kept (ticketShape.plannedOverload .overload 1 (some 2)) (by decide +kernel)
  refine ⟨normalized, plan, planned, newest.mpr ?_, oldest.mpr (by decide +kernel)⟩
  intro emptied
  exact absurd emptied.2.1 (by decide +kernel)

/-- The callback of version 1 has no parameters beside it and is not announced as a lone one. -/
theorem lone_ticket_callback_is_announced_beside_parameters :
    ticketShape ∈ (Schema.ofDeclarations [ticketDeclaration] {}).schema.shapes ∧
      ticketShape.kind = .plain ∧
      ∃ plan construction, ticketShape.plan .overload = .ok plan ∧
        plan.construction = some construction ∧
        ∃ overload ∈ construction.overloads, ∃ entry ∈ overload.entries,
          overload.params = [] ∧ entry.params = [] ∧ entry.callback = some .optional ∧
            entry.variant = .withOptionalCallback := by
  obtain ⟨plan, planned, named⟩ := ticket_planned
  refine ⟨?_, rfl, plan, _, planned, named, ticketShape.plannedOverload .overload 1 (some 2), ?_,
    ticketShape.mainEntry 1 (some 2), ?_, ?_⟩
  · decide +kernel
  · decide +kernel
  · decide +kernel
  · decide +kernel

end ShapeCompat
