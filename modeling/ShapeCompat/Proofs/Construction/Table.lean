import ShapeCompat.Proofs.Resolution

/-!
The table of overloads as a whole: which versions it has and what becomes of each field in each of
them. A field that a later version made mandatory passes through the table in three parts: it has no
slot up to the overload before the last one that lacks it, in that one its literal goes to the next
newer overload, and from there on it is a parameter.
-/

namespace ShapeCompat

/-- The overload has a slot of this kind for the field. -/
def Overload.Places (overload : Overload) (field : Field) (kind : SlotKind) : Prop :=
  ∃ slot ∈ overload.slots, slot.field = field.name ∧ slot.kind = kind

/-- The table of overloads that the fields of a shape call for, oldest first. -/
structure Shape.IsTable (shape : Shape) (overloads : List Overload) : Prop where
  ascending : overloads.Pairwise fun older newer => older.version < newer.version
  starts : overloads.head?.map (·.version) = some 1
  versions : ∀ version, version ∈ overloads.map (·.version) ↔ version = 1 ∨
    ∃ field ∈ shape.relevantFields, ∃ requirement,
      field.requirement = some requirement ∧ requirement.sinceVersion = version
  params : ∀ overload ∈ overloads,
    overload.params.map (·.field) = (shape.fieldsUpTo overload.version).map (·.name)
  passed_on : ∀ place (older newer : Overload), overloads[place]? = some older →
    overloads[place + 1]? = some newer →
    older.slots.map (·.field) = newer.params.map (·.field)
  newest : ∀ newest, overloads.getLast? = some newest →
    newest.slots.map (·.field) = shape.relevantFields.map (·.name) ∧
      ∀ slot ∈ newest.slots, slot.kind = .param
  defaulted : ∀ place (overload : Overload), overloads[place]? = some overload →
    ∀ field ∈ shape.relevantFields, ∀ literal,
      overload.Places field (.defaulted literal) ↔
        literal = field.literal ∧
          ∃ newer, overloads[place + 1]? = some newer ∧ newer.version = field.watermark
  defaulted_once : ∀ field ∈ shape.relevantFields, 1 < field.watermark →
    ∃! place : Nat, ∃ overload : Overload, overloads[place]? = some overload ∧
      overload.Places field (.defaulted field.literal)
  never_defaulted : ∀ field ∈ shape.relevantFields, field.watermark = 1 →
    ∀ overload ∈ overloads, ∀ literal, ¬overload.Places field (.defaulted literal)
  deprecated : ∀ place (overload : Overload), overloads[place]? = some overload →
    ∀ field ∈ shape.relevantFields, ∀ literal,
      overload.Places field (.deprecated literal) ↔
        literal = field.literal ∧ field.mutability = .immutableRecently ∧
          field.watermark ≤ overload.version ∧ place + 1 < overloads.length
  slots_relevant : ∀ overload ∈ overloads, ∀ slot ∈ overload.slots,
    ∃ field ∈ shape.relevantFields, slot.field = field.name
  immutable_unplaced : ∀ field ∈ shape.fields, field.mutability = .immutable →
    ∀ overload ∈ overloads, ∀ kind, ¬overload.Places field kind
  resolved : ∀ overload ∈ overloads, ∃ value : Field → Argument,
    overload.resolved = shape.relevantFields.map (fun field => ⟨field.name, value field⟩) ∧
      ∀ field ∈ shape.relevantFields,
        (overload.Places field .param → value field = .param field.name) ∧
          (¬overload.Places field .param → value field = .literal field.literal)

theorem with_newer_at (versions : List UInt32) (place : Nat) :
    (withNewer versions)[place]? =
      versions[place]?.map fun version => (version, versions[place + 1]?) := by
  induction versions generalizing place with
  | nil => rfl
  | cons version later induction =>
      cases place with
      | zero => cases later <;> rfl
      | succ place => exact induction place

namespace Shape

variable {shape : Shape} {version : UInt32} {newer : Option UInt32} {field : Field}

theorem overload_at_place {place : Nat} {overload : Overload} :
    shape.overloads[place]? = some overload ↔ ∃ version, shape.versions[place]? = some version ∧
      overload = shape.overloadAt version shape.versions[place + 1]? := by
  rw [overloads_eq, List.getElem?_map, with_newer_at, Option.map_map, Option.map_eq_some_iff]
  simp only [Function.comp_apply, eq_comm (a := overload)]

theorem overload_versions (shape : Shape) :
    shape.overloads.map (·.version) = shape.versions := by
  rw [overloads_eq, List.map_map]
  exact with_newer_versions shape.versions

theorem overload_version_at (shape : Shape) (place : Nat) :
    shape.overloads[place]?.map (·.version) = shape.versions[place]? := by
  rw [← overload_versions, List.getElem?_map]

theorem stage_at_place (sound : shape.IsSound) {place : Nat}
    (there : shape.versions[place]? = some version) :
    shape.IsStage version shape.versions[place + 1]? := by
  apply stage_of_mem sound
  apply List.mem_of_getElem? (i := place)
  rw [with_newer_at, there, Option.map_some]

theorem stage_of_overload (sound : shape.IsSound) {overload : Overload}
    (member : overload ∈ shape.overloads) :
    ∃ version newer, version ∈ shape.versions ∧ shape.IsStage version newer ∧
      overload = shape.overloadAt version newer := by
  obtain ⟨place, there⟩ := List.mem_iff_getElem?.mp member
  obtain ⟨version, listed, same⟩ := overload_at_place.mp there
  exact ⟨version, shape.versions[place + 1]?, List.mem_of_getElem? listed,
    stage_at_place sound listed, same⟩

theorem first_version (sound : shape.IsSound) : shape.versions.head? = some 1 := by
  have first : 1 ∈ shape.versions := (mem_versions_iff_watermark sound).mpr (.inl rfl)
  have least : ∀ version ∈ shape.versions, 1 ≤ version :=
    fun _ member => first_version_least sound member
  have ascending := shape.versions_ascending
  cases listed : shape.versions with
  | nil => simp [listed] at first
  | cons version later =>
      rw [listed] at first least ascending
      rcases List.mem_cons.mp first with rfl | beyond
      · rfl
      · have above := (List.pairwise_cons.mp ascending).1 1 beyond
        exact (UInt32.not_lt.mpr (least version List.mem_cons_self) above).elim

/-- What kind of slot an overload has for a field, if it has one. -/
theorem places_iff (sound : shape.IsSound) (relevant : field ∈ shape.relevantFields)
    (kind : SlotKind) :
    (shape.overloadAt version newer).Places field kind ↔
      (some field.watermark = newer ∨ field.watermark ≤ version) ∧
        field.slotKind newer = kind := by
  have listed := @any_slot shape version newer field sound relevant (· == kind)
  simpa [Overload.Places] using listed

theorem places_defaulted_iff (sound : shape.IsSound) (relevant : field ∈ shape.relevantFields)
    (literal : String) :
    (shape.overloadAt version newer).Places field (.defaulted literal) ↔
      literal = field.literal ∧ newer = some field.watermark := by
  rw [places_iff sound relevant, Field.slotKind]
  constructor
  · intro both
    obtain ⟨_, kind⟩ := both
    split_ifs at kind with adjacent
    cases kind
    exact ⟨rfl, adjacent.symm⟩
  · intro both
    obtain ⟨rfl, rfl⟩ := both
    exact ⟨.inl rfl, if_pos rfl⟩

theorem places_deprecated_iff (sound : shape.IsSound) (stage : shape.IsStage version newer)
    (relevant : field ∈ shape.relevantFields) (literal : String) :
    (shape.overloadAt version newer).Places field (.deprecated literal) ↔
      literal = field.literal ∧ field.isDeprecatedAt version newer := by
  rw [places_iff sound relevant, Field.slotKind, Field.isDeprecatedAt]
  constructor
  · intro both
    obtain ⟨placed, kind⟩ := both
    split_ifs at kind with adjacent recent
    cases kind
    exact ⟨rfl, placed.resolve_left adjacent, recent⟩
  · intro both
    obtain ⟨rfl, reached, recent⟩ := both
    rw [if_neg (stage_apart stage reached), if_pos recent]
    exact ⟨.inr reached, rfl⟩

theorem slot_relevant {slot : Slot} (listed : slot ∈ (shape.overloadAt version newer).slots) :
    ∃ field ∈ shape.relevantFields, slot.field = field.name := by
  rw [slots_eq] at listed
  obtain ⟨field, member, rfl⟩ := List.mem_map.mp listed
  exact ⟨field, (List.mem_filter.mp member).1, rfl⟩

/-- An immutable field has no slot in any overload. -/
theorem not_placed_of_immutable (sound : shape.IsSound) (present : field ∈ shape.fields)
    (frozen : field.mutability = .immutable) (kind : SlotKind) :
    ¬(shape.overloadAt version newer).Places field kind := by
  intro placed
  obtain ⟨slot, listed, named, _⟩ := placed
  obtain ⟨other, relevant, same⟩ := slot_relevant listed
  obtain ⟨otherPresent, taken⟩ := mem_relevant_fields.mp relevant
  have equal : other = field :=
    List.inj_on_of_nodup_map sound.names_distinct otherPresent present (same.symm.trans named)
  rw [equal, Field.isConstructorRelevant, frozen] at taken
  cases taken

/-- No overload is older than a field of the first version. -/
theorem not_defaulted_of_first (sound : shape.IsSound) (reached : version ∈ shape.versions)
    (stage : shape.IsStage version newer) (relevant : field ∈ shape.relevantFields)
    (first : field.watermark = 1) (literal : String) :
    ¬(shape.overloadAt version newer).Places field (.defaulted literal) := by
  intro placed
  have next := ((places_defaulted_iff sound relevant literal).mp placed).2
  rw [next, first] at stage
  cases stage with
  | followed _ later _ _ =>
      exact UInt32.not_lt.mpr (first_version_least sound reached) later

theorem newest_slots (stage : shape.IsStage version none) :
    (shape.overloadAt version none).slots.map (·.field) = shape.relevantFields.map (·.name) ∧
      ∀ slot ∈ (shape.overloadAt version none).slots, slot.kind = .param := by
  rw [slots_newest stage, List.map_map]
  refine ⟨rfl, ?_⟩
  rw [List.forall_mem_map]
  intro field _
  simp [Field.slot, Field.slotKind]

theorem live_iff_places (overload : Overload) (field : Field) :
    (overload.slots.any fun slot => slot.field == field.name && slot.kind == .param) = true ↔
      overload.Places field .param := by
  simp [Overload.Places]

/-- The literal of a field that a later version made mandatory is passed on in one overload only. -/
theorem defaulted_once (sound : shape.IsSound) (relevant : field ∈ shape.relevantFields)
    (later : 1 < field.watermark) :
    ∃! place : Nat, ∃ overload : Overload, shape.overloads[place]? = some overload ∧
      overload.Places field (.defaulted field.literal) := by
  have reached : field.watermark ∈ shape.versions :=
    (mem_versions_iff_watermark sound).mpr (.inr ⟨field, relevant, rfl⟩)
  obtain ⟨next, there⟩ := List.mem_iff_getElem?.mp reached
  have notFirst : next ≠ 0 := by
    intro first
    have start := first_version sound
    rw [List.head?_eq_getElem?, ← first, there, Option.some.injEq] at start
    exact UInt32.ne_of_lt later start.symm
  obtain ⟨place, rfl⟩ := Nat.exists_eq_succ_of_ne_zero notFirst
  have bound := Nat.lt_of_succ_lt (List.getElem?_eq_some_iff.mp there).1
  refine ⟨place, ⟨shape.overloadAt shape.versions[place] shape.versions[place + 1]?, ?_, ?_⟩, ?_⟩
  · exact overload_at_place.mpr ⟨_, List.getElem?_eq_getElem bound, rfl⟩
  · exact (places_defaulted_iff sound relevant _).mpr ⟨rfl, there⟩
  · intro other found
    obtain ⟨overload, listed, placed⟩ := found
    obtain ⟨version, _, rfl⟩ := overload_at_place.mp listed
    have next := ((places_defaulted_iff sound relevant _).mp placed).2
    have distinct := shape.versions_ascending.imp fun less => UInt32.ne_of_lt less
    have inRange := (List.getElem?_eq_some_iff.mp next).1
    exact Nat.succ.inj ((List.getElem?_inj inRange distinct).mp (next.trans there.symm))

end Shape

/-- The overloads of every shape in a schema are the table that its fields call for. -/
theorem overload_table_is_exact (declarations : List ShapeDeclaration) (settings : Settings)
    (shape : Shape)
    (normalized : shape ∈ (Schema.ofDeclarations declarations settings).schema.shapes) :
    shape.IsTable shape.overloads := by
  have sound := Schema.of_declarations_sound declarations settings shape normalized
  have count : shape.overloads.length = shape.versions.length := by
    rw [← shape.overload_versions, List.length_map]
  refine ⟨?ascending, ?starts, ?versions, ?params, ?passed_on, ?newest, ?defaulted, ?defaulted_once,
    ?never_defaulted, ?deprecated, ?slots_relevant, ?immutable_unplaced, ?resolved⟩
  case ascending =>
    rw [← List.pairwise_map (f := Overload.version), shape.overload_versions]
    exact shape.versions_ascending
  case starts =>
    rw [← List.head?_map, shape.overload_versions]
    exact Shape.first_version sound
  case versions =>
    intro version
    rw [shape.overload_versions, Shape.mem_versions, Shape.mem_watermarks]
  case params =>
    intro overload member
    obtain ⟨version, newer, _, stage, rfl⟩ := Shape.stage_of_overload sound member
    rw [Shape.params_eq stage, List.map_map]
    rfl
  case passed_on =>
    intro place older newer there next
    obtain ⟨version, listed, rfl⟩ := Shape.overload_at_place.mp there
    obtain ⟨later, listedNext, rfl⟩ := Shape.overload_at_place.mp next
    have stage := Shape.stage_at_place sound listed
    rw [listedNext] at stage ⊢
    rw [Shape.slots_followed stage, Shape.params_eq (Shape.stage_at_place sound listedNext),
      List.map_map, List.map_map]
    rfl
  case newest =>
    intro newest last
    rw [List.getLast?_eq_getElem?] at last
    obtain ⟨version, listed, rfl⟩ := Shape.overload_at_place.mp last
    have stage := Shape.stage_at_place sound listed
    have beyond : shape.versions[shape.overloads.length - 1 + 1]? = none :=
      List.getElem?_eq_none (by omega)
    rw [beyond] at stage ⊢
    exact Shape.newest_slots stage
  case defaulted =>
    intro place overload there field relevant literal
    obtain ⟨version, listed, rfl⟩ := Shape.overload_at_place.mp there
    rw [Shape.places_defaulted_iff sound relevant, ← shape.overload_version_at,
      Option.map_eq_some_iff]
  case defaulted_once =>
    intro field relevant later
    exact Shape.defaulted_once sound relevant later
  case never_defaulted =>
    intro field relevant first overload member
    obtain ⟨version, newer, reached, stage, rfl⟩ := Shape.stage_of_overload sound member
    exact Shape.not_defaulted_of_first sound reached stage relevant first
  case deprecated =>
    intro place overload there field relevant literal
    obtain ⟨version, listed, rfl⟩ := Shape.overload_at_place.mp there
    have followed : shape.versions[place + 1]?.isSome ↔ place + 1 < shape.overloads.length := by
      simp [count]
    rw [Shape.places_deprecated_iff sound (Shape.stage_at_place sound listed) relevant,
      Field.isDeprecatedAt, followed]
    exact and_congr_right fun _ => and_left_comm
  case slots_relevant =>
    intro overload member slot listed
    obtain ⟨version, newer, _, _, rfl⟩ := Shape.stage_of_overload sound member
    exact Shape.slot_relevant listed
  case immutable_unplaced =>
    intro field present frozen overload member
    obtain ⟨version, newer, _, _, rfl⟩ := Shape.stage_of_overload sound member
    exact Shape.not_placed_of_immutable sound present frozen
  case resolved =>
    intro overload member
    obtain ⟨version, newer, _, _, rfl⟩ := Shape.stage_of_overload sound member
    refine ⟨fun field => (field.resolve _).value, rfl, ?_⟩
    intro field _
    constructor
    · intro live
      exact if_pos ((Shape.live_iff_places _ field).mpr live)
    · intro notLive
      exact if_neg (mt (Shape.live_iff_places _ field).mp notLive)

/-- The code of a person is passed on as its literal by the first version and deprecated in the
second; the address is passed on as its literal by the second. -/
theorem person_table :
    personShape ∈ (Schema.ofDeclarations [personDeclaration] {}).schema.shapes ∧
      personShape.IsTable personShape.overloads ∧
      versionTable personShape.overloads =
        "1.(id): (id,0)\n2.(id,code): (id,none,0)\n3.(id,email,code): (id,email,code)" := by
  exact ⟨person_normalized,
    overload_table_is_exact [personDeclaration] {} personShape person_normalized,
    by decide +kernel⟩

end ShapeCompat
