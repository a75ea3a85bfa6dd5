import ShapeCompat.Construction.Plan
import ShapeCompat.Proofs.Construction.Overloads

/-!
The entry points of every overload, read off the fields of the shape. An overload has one main entry,
through which the next older overload reaches it; in overload style it may have a second one that
leaves the callback out, and a shape that takes no arguments at all has its own two entries.
-/

namespace ShapeCompat

/-- A parameter without its deprecation mark. -/
def EntryParam.typed (param : EntryParam) : TypedName := ⟨param.name, param.type⟩

namespace Shape

def entryParams (shape : Shape) (version : UInt32) (newer : Option UInt32) : List EntryParam :=
  (shape.fieldsUpTo version).map fun field => (field.slot newer).entryParam

/-- The variant by which calls go from overload to overload. -/
def mainVariant (shape : Shape) : EntryVariant :=
  if shape.hasOptionalTier then .withOptionalCallback else .mandatoryOnly

def mainEntry (shape : Shape) (version : UInt32) (newer : Option UInt32) : EntryPoint :=
  ⟨shape.mainVariant, shape.entryParams version newer,
    if shape.hasOptionalTier then some .optional else none,
    (shape.overloadAt version newer).delegation newer shape.mainVariant
      (if shape.hasOptionalTier then .forwarded else .withheld)⟩

def defaultedEntry (shape : Shape) (version : UInt32) (newer : Option UInt32) : EntryPoint :=
  ⟨.defaultedOptionals, shape.entryParams version newer, none,
    ⟨.overload version .withOptionalCallback,
      (shape.fieldsUpTo version).map fun field => .param field.name, .empty⟩⟩

/-- The entries of the overload of `version`, where `newer` is the next newer version. -/
def entriesAt (shape : Shape) (style : Style) (version : UInt32) (newer : Option UInt32) :
    List EntryPoint :=
  if shape.relevantFields = [] then
    if shape.hasOptionalTier then [.withoutSlots true, .noArg] else [.withoutSlots false]
  else if shape.hasOptionalTier ∧ style = .overload then
    [shape.defaultedEntry version newer, shape.mainEntry version newer]
  else [shape.mainEntry version newer]

/-- The overload of `version` as it stands in a plan. -/
def plannedOverload (shape : Shape) (style : Style) (version : UInt32) (newer : Option UInt32) :
    Overload :=
  { shape.overloadAt version newer with entries := shape.entriesAt style version newer }

variable {shape : Shape} {version : UInt32} {newer : Option UInt32}

theorem versions_of_no_relevant (bare : shape.relevantFields = []) : shape.versions = [1] := by
  simp [versions, watermarks, bare, ascending, insertAscending]

theorem entry_params_eq (stage : shape.IsStage version newer) :
    (shape.overloadAt version newer).params.map Slot.entryParam =
      shape.entryParams version newer := by
  rw [params_eq stage, List.map_map]
  rfl

theorem entries_for_eq (stage : shape.IsStage version newer) (taken : shape.relevantFields ≠ [])
    (style : Style) :
    (shape.overloadAt version newer).entriesFor newer shape.hasOptionalTier style =
      shape.entriesAt style version newer := by
  have slots : (shape.overloadAt version newer).slots ≠ [] :=
    fun empty => taken ((slots_empty_iff stage).mp empty)
  have passed : ((shape.overloadAt version newer).params.map fun slot =>
      Argument.param slot.field) =
        (shape.fieldsUpTo version).map fun field => .param field.name := by
    rw [params_eq stage, List.map_map]
    rfl
  unfold Overload.entriesFor entriesAt Overload.defaultedEntry
  rw [if_neg slots, if_neg taken, entry_params_eq stage, passed]
  cases optional : shape.hasOptionalTier with
  | false => simp [mainEntry, mainVariant, optional]
  | true =>
      cases style with
      | callback => simp [mainEntry, mainVariant, optional]
      | overload => simp [mainEntry, mainVariant, defaultedEntry, optional, Shape.overloadAt]

theorem attach_own_entries_eq (shape : Shape) (style : Style) (versions : List UInt32) :
    attachOwnEntries shape.hasOptionalTier style
        ((withNewer versions).map fun stage => shape.overloadAt stage.1 stage.2) =
      (withNewer versions).map fun stage =>
        { shape.overloadAt stage.1 stage.2 with
          entries := (shape.overloadAt stage.1 stage.2).entriesFor stage.2
            shape.hasOptionalTier style } := by
  induction versions with
  | nil => rfl
  | cons version later induction =>
      have following : ((withNewer later).map fun stage =>
          shape.overloadAt stage.1 stage.2).head?.map (·.version) = later.head? := by
        cases later <;> rfl
      rw [withNewer, List.map_cons, attachOwnEntries, induction, following, List.map_cons]

/-- A shape without parameters has the one overload of version 1. -/
theorem attach_entries_of_no_relevant (bare : shape.relevantFields = []) (style : Style) :
    shape.attachEntries style shape.overloads = [shape.plannedOverload style 1 none] := by
  have single : attachOwnEntries shape.hasOptionalTier style shape.overloads =
      [{ shape.overloadAt 1 none with
          entries := [.withoutSlots shape.hasOptionalTier] }] := by
    have slots : (shape.overloadAt 1 none).slots = [] := by
      rw [slots_eq, bare]
      rfl
    rw [overloads_eq, attach_own_entries_eq, versions_of_no_relevant bare]
    simp [withNewer, Overload.entriesFor, slots]
  unfold attachEntries plannedOverload entriesAt
  rw [single, if_pos bare]
  cases shape.hasOptionalTier with
  | false =>
      simp [bare, EntryPoint.withoutSlots, EntryPoint.takesNothing]
  | true =>
      simp [bare, EntryPoint.withoutSlots, EntryPoint.takesNothing]

theorem stage_of_mem (sound : shape.IsSound)
    (member : (version, newer) ∈ withNewer shape.versions) : shape.IsStage version newer := by
  obtain ⟨earlier, later, versions, rfl⟩ := mem_with_newer.mp member
  exact stage_of_versions sound versions

/-- The planned overloads, oldest first, each with the entries of its stage. -/
theorem attach_entries_eq (sound : shape.IsSound) (style : Style) :
    shape.attachEntries style shape.overloads =
      (withNewer shape.versions).map fun stage =>
        shape.plannedOverload style stage.1 stage.2 := by
  by_cases bare : shape.relevantFields = []
  · rw [attach_entries_of_no_relevant bare, versions_of_no_relevant bare]
    rfl
  · unfold attachEntries
    rw [if_neg (fun both => bare both.1), overloads_eq, attach_own_entries_eq]
    apply List.map_congr_left
    intro stage member
    rcases stage with ⟨version, newer⟩
    rw [plannedOverload, entries_for_eq (stage_of_mem sound member) bare]

/-- The newest overload of a plan is that of the last version. -/
theorem newest_overload (sound : shape.IsSound) (style : Style) :
    ∃ newest, (newest, none) ∈ withNewer shape.versions ∧
      (shape.attachEntries style shape.overloads).getLast? =
        some (shape.plannedOverload style newest none) := by
  have first : 1 ∈ shape.versions := (mem_versions_iff_watermark sound).mpr (.inl rfl)
  rcases List.eq_nil_or_concat' shape.versions with none | ⟨earlier, newest, versions⟩
  · exact (List.ne_nil_of_mem first none).elim
  · refine ⟨newest, mem_with_newer.mpr ⟨earlier, [], versions, rfl⟩, ?_⟩
    rw [attach_entries_eq sound, versions, with_newer_concat, List.map_append]
    exact List.getLast?_concat

variable {style : Style} {entry : EntryPoint}

theorem main_entry_mem (taken : shape.relevantFields ≠ []) :
    shape.mainEntry version newer ∈ shape.entriesAt style version newer := by
  unfold entriesAt
  rw [if_neg taken]
  split_ifs <;> simp

theorem entries_of_bare (bare : shape.relevantFields = [])
    (member : entry ∈ shape.entriesAt style version newer) :
    entry.params = [] ∧ entry.delegation.target = .concreteBuilder ∧ entry.delegation.args = [] ∧
      (entry.callback = some .optional ∧ entry.delegation.callback = .forwarded ∨
        entry.callback = none ∧ entry.delegation.callback = .withheld) := by
  unfold entriesAt at member
  rw [if_pos bare] at member
  split at member
  · rcases List.mem_pair.mp member with rfl | rfl
    · exact ⟨rfl, rfl, rfl, .inl ⟨rfl, rfl⟩⟩
    · exact ⟨rfl, rfl, rfl, .inr ⟨rfl, rfl⟩⟩
  · rw [List.mem_singleton.mp member]
    exact ⟨rfl, rfl, rfl, .inr ⟨rfl, rfl⟩⟩

theorem entries_of_taken (taken : shape.relevantFields ≠ [])
    (member : entry ∈ shape.entriesAt style version newer) :
    entry = shape.mainEntry version newer ∨
      shape.hasOptionalTier = true ∧ entry = shape.defaultedEntry version newer := by
  unfold entriesAt at member
  rw [if_neg taken] at member
  split at member
  · rename_i paired
    rcases List.mem_pair.mp member with rfl | rfl
    · exact .inr ⟨paired.1, rfl⟩
    · exact .inl rfl
  · exact .inl (List.mem_singleton.mp member)

theorem entry_params_typed (shape : Shape) (version : UInt32) (newer : Option UInt32) :
    (shape.entryParams version newer).map EntryParam.typed =
      (shape.fieldsUpTo version).map Field.typed := by
  rw [entryParams, List.map_map]
  rfl

/-- Every entry of a version takes the fields that the version reaches. -/
theorem entry_typed (member : entry ∈ shape.entriesAt style version newer) :
    entry.params.map EntryParam.typed = (shape.fieldsUpTo version).map Field.typed := by
  by_cases bare : shape.relevantFields = []
  · rw [(entries_of_bare bare member).1, fieldsUpTo, bare]
    rfl
  · rcases entries_of_taken bare member with rfl | ⟨_, rfl⟩
    · exact entry_params_typed shape version newer
    · exact entry_params_typed shape version newer

theorem entry_names (member : entry ∈ shape.entriesAt style version newer) :
    entry.params.map (·.name) = (shape.fieldsUpTo version).map (·.name) := by
  have typed := congrArg (List.map TypedName.name) (entry_typed member)
  rw [List.map_map, List.map_map] at typed
  exact typed

theorem entry_params_length (member : entry ∈ shape.entriesAt style version newer) :
    entry.params.length = (shape.fieldsUpTo version).length := by
  simpa using congrArg List.length (entry_typed member)

/-- Only a shape with an optional tier has entries with a callback, and it is on that tier. -/
theorem entry_callback (member : entry ∈ shape.entriesAt style version newer) :
    entry.callback = none ∨ entry.callback = some .optional ∧ shape.hasOptionalTier = true := by
  by_cases bare : shape.relevantFields = []
  · unfold entriesAt at member
    rw [if_pos bare] at member
    split at member
    · rename_i optional
      rcases List.mem_pair.mp member with rfl | rfl
      · exact .inr ⟨rfl, optional⟩
      · exact .inl rfl
    · rw [List.mem_singleton.mp member]
      exact .inl rfl
  · rcases entries_of_taken bare member with rfl | ⟨_, rfl⟩
    · cases optional : shape.hasOptionalTier with
      | false => simp [mainEntry, optional]
      | true => simp [mainEntry, optional]
    · exact .inl rfl

end Shape
end ShapeCompat
