import ShapeCompat.Plan.OfShape
import ShapeCompat.Proofs.Construction.EntryPoints
import ShapeCompat.Proofs.Lists

/-!
When a construction plan is made. A plan fails only where two entry points erase to one signature,
so the question is which signatures a shape has. With one entry for each version they differ in
length, since every later version takes at least one field more.
-/

namespace ShapeCompat

/-- The erased signatures of all entries of a plan. -/
def signatures (overloads : List Overload) : List (List String) :=
  overloads.flatMap fun overload => overload.entries.map EntryPoint.erasedSignature

theorem labelled_signatures_fst (overloads : List Overload) :
    (labelledSignatures overloads).map (·.1) = signatures overloads := by
  simp [labelledSignatures, signatures, List.map_flatMap, Function.comp_def]

theorem first_ambiguity_none_iff (seen entries : List (List String × String)) :
    firstAmbiguity? seen entries = none ↔
      (entries.map (·.1)).Nodup ∧ ∀ entry ∈ entries, entry.1 ∉ seen.map (·.1) := by
  induction entries generalizing seen with
  | nil => simp [firstAmbiguity?]
  | cons entry rest induction =>
      obtain ⟨signature, label⟩ := entry
      unfold firstAmbiguity?
      by_cases clash : signature ∈ seen.map (·.1)
      · have found : seen.lookup signature ≠ none := by
          intro absent
          obtain ⟨earlier, member, same⟩ := List.mem_map.mp clash
          have different := List.lookup_eq_none_iff.mp absent earlier member
          simp [same] at different
        obtain ⟨first, same⟩ := Option.ne_none_iff_exists'.mp found
        rw [same]
        constructor
        · intro impossible
          cases impossible
        · intro both
          rcases both with ⟨_, fresh⟩
          exact (fresh _ List.mem_cons_self clash).elim
      · rw [lookup_of_not_mem seen clash]
        dsimp only
        rw [induction, List.map_cons, List.map_cons, List.nodup_cons]
        constructor
        · intro both
          rcases both with ⟨distinct, fresh⟩
          refine ⟨⟨?_, distinct⟩, ?_⟩
          · intro again
            obtain ⟨other, member, same⟩ := List.mem_map.mp again
            exact fresh other member (by simp [same])
          · intro other member
            rcases List.mem_cons.mp member with rfl | later
            · exact clash
            · exact fun earlier => fresh other later (List.mem_cons_of_mem _ earlier)
        · intro both
          rcases both with ⟨⟨new, distinct⟩, fresh⟩
          refine ⟨distinct, ?_⟩
          intro other member again
          rcases List.mem_cons.mp again with same | earlier
          · exact new (List.mem_map.mpr ⟨other, member, same⟩)
          · exact fresh other (List.mem_cons_of_mem _ member) earlier

theorem ambiguity_none_iff (overloads : List Overload) :
    ambiguity? overloads = none ↔ (signatures overloads).Nodup := by
  rw [ambiguity?, first_ambiguity_none_iff, labelled_signatures_fst]
  simp

namespace Shape

/-- The construction plan of a shape whose entries can be told apart. -/
def plannedConstruction (shape : Shape) (owner : String) (style : Style) : Construction :=
  { style
    overloads := shape.attachEntries style shape.overloads
    primary := shape.primaryConstructor
    assignments := shape.fields.map Field.assignment
    copy := shape.copyPlan
    factory := match style with
      | .callback => some (shape.factory owner)
      | .overload => none }

theorem construction_eq_ok_iff {shape : Shape} {owner : String} {style : Style}
    {construction : Construction} :
    shape.construction owner style = .ok construction ↔
      (signatures (shape.attachEntries style shape.overloads)).Nodup ∧
        construction = shape.plannedConstruction owner style := by
  simp only [Shape.construction, checkAmbiguity, ← ambiguity_none_iff]
  cases ambiguity? (shape.attachEntries style shape.overloads) with
  | some clash => simp [bind, Except.bind]
  | none =>
      constructor
      · intro planned
        cases planned
        exact ⟨rfl, rfl⟩
      · intro both
        rcases both with ⟨_, rfl⟩
        rfl

theorem construction_of_distinct {shape : Shape} {owner : String} {style : Style}
    (distinct : (signatures (shape.attachEntries style shape.overloads)).Nodup) :
    shape.construction owner style = .ok (shape.plannedConstruction owner style) :=
  construction_eq_ok_iff.mpr ⟨distinct, rfl⟩

theorem plain_parts_of_construction {shape : Shape} {style : Style} {construction : Construction}
    (plain : shape.kind = .plain)
    (planned : shape.construction shape.outputQualifiedName style = .ok construction) :
    shape.plainParts? style = .ok (some ⟨construction, shape.builder,
      shape.identity shape.outputQualifiedName⟩) := by
  unfold plainParts?
  rw [plain]
  dsimp only
  rw [planned]
  rfl

/-- The plan of a plain shape has all three parts that only plain shapes have. -/
theorem plan_of_plain {shape : Shape} {style : Style} {plan : ShapePlan}
    (plain : shape.kind = .plain) (planned : shape.plan style = .ok plan) :
    plan.construction = some (shape.plannedConstruction shape.outputQualifiedName style) ∧
      plan.builder = some shape.builder ∧
      plan.identity = some (shape.identity shape.outputQualifiedName) := by
  unfold Shape.plan at planned
  cases made : shape.construction shape.outputQualifiedName style with
  | error defect =>
      unfold plainParts? at planned
      rw [plain] at planned
      dsimp only at planned
      rw [made] at planned
      cases planned
  | ok construction =>
      rw [plain_parts_of_construction plain made] at planned
      obtain ⟨_, rfl⟩ := construction_eq_ok_iff.mp made
      cases planned
      exact ⟨rfl, rfl, rfl⟩

/-- The only defect of a construction is an ambiguity, against the declared name of the shape. -/
theorem construction_error {shape : Shape} {owner : String} {style : Style} {defect : Defect}
    (refused : shape.construction owner style = .error defect) :
    ∃ first second signature, defect =
      .schema shape.declaredQualifiedName none (.ambiguousOverloads first second signature) := by
  simp only [Shape.construction, checkAmbiguity] at refused
  cases clash : ambiguity? (shape.attachEntries style shape.overloads) with
  | none =>
      rw [clash] at refused
      cases refused
  | some found =>
      rw [clash] at refused
      cases refused
      exact ⟨_, _, _, rfl⟩

variable {shape : Shape} {style : Style} {version : UInt32} {newer : Option UInt32}

/-- Every version takes at least one field more than the versions before it. -/
theorem fields_up_to_grow (sound : shape.IsSound) {later : UInt32}
    (member : version ∈ shape.versions) (laterMember : later ∈ shape.versions)
    (less : version < later) :
    (shape.fieldsUpTo version).length < (shape.fieldsUpTo later).length := by
  have filtered : shape.fieldsUpTo version =
      (shape.fieldsUpTo later).filter fun field => decide (field.watermark ≤ version) := by
    rw [fieldsUpTo, fieldsUpTo, List.filter_filter]
    apply List.filter_congr
    intro field _
    rw [← Bool.decide_and, decide_eq_decide]
    exact ⟨fun bound => ⟨bound, UInt32.le_trans bound (UInt32.le_of_lt less)⟩, fun both => both.1⟩
  rw [filtered, List.length_filter_lt_length_iff_exists]
  rcases (mem_versions_iff_watermark sound).mp laterMember with rfl | ⟨field, relevant, rfl⟩
  · exact (UInt32.not_lt.mpr (first_version_least sound member) less).elim
  · exact ⟨field, mem_fields_up_to.mpr ⟨relevant, UInt32.le_refl _⟩, by
      simpa using less⟩

def erasedTypes (shape : Shape) (version : UInt32) : List String :=
  (shape.fieldsUpTo version).map fun field => eraseType field.typeName

/-- The signature of an entry: what its version takes, and the callback if there is one. -/
theorem entry_signature {entry : EntryPoint} (member : entry ∈ shape.entriesAt style version newer) :
    entry.erasedSignature =
      shape.erasedTypes version ++ if entry.callback.isSome then ["Function1"] else [] := by
  have types := congrArg (List.map fun param : TypedName => eraseType param.type)
    (entry_typed member)
  rw [List.map_map, List.map_map] at types
  exact congrArg (· ++ _) types

theorem main_entry_signature (taken : shape.relevantFields ≠ []) (version : UInt32)
    (newer : Option UInt32) :
    (shape.mainEntry version newer).erasedSignature =
      shape.erasedTypes version ++ if shape.hasOptionalTier then ["Function1"] else [] := by
  have callback : (shape.mainEntry version newer).callback.isSome = shape.hasOptionalTier := by
    unfold mainEntry
    cases shape.hasOptionalTier <;> rfl
  have member : shape.mainEntry version newer ∈ shape.entriesAt .callback version newer :=
    main_entry_mem taken
  rw [entry_signature member, callback]

theorem signatures_eq (sound : shape.IsSound) (style : Style) :
    signatures (shape.attachEntries style shape.overloads) =
      (withNewer shape.versions).flatMap fun stage =>
        (shape.entriesAt style stage.1 stage.2).map EntryPoint.erasedSignature := by
  rw [signatures, attach_entries_eq sound, List.flatMap_map]
  rfl

/-- In callback style planning never fails. -/
theorem callback_signatures_distinct (sound : shape.IsSound) :
    (signatures (shape.attachEntries .callback shape.overloads)).Nodup := by
  rw [signatures_eq sound]
  by_cases bare : shape.relevantFields = []
  · rw [versions_of_no_relevant bare]
    simp only [withNewer, List.flatMap_cons, List.flatMap_nil, entriesAt, bare, if_true]
    cases shape.hasOptionalTier <;> decide
  · have single : ((withNewer shape.versions).flatMap fun stage =>
        (shape.entriesAt .callback stage.1 stage.2).map EntryPoint.erasedSignature) =
          shape.versions.map fun version =>
            shape.erasedTypes version ++ if shape.hasOptionalTier then ["Function1"] else [] := by
      conv_rhs => rw [← with_newer_versions shape.versions, List.map_map, List.map_eq_flatMap]
      congr 1
      funext stage
      simp [entriesAt, bare, main_entry_signature bare]
    rw [single, List.nodup_iff_pairwise_ne, List.pairwise_map]
    have ascending := shape.versions_ascending
    refine List.Pairwise.imp_of_mem ?_ ascending
    intro version later member laterMember less same
    have lengths := congrArg List.length same
    have grow := fields_up_to_grow sound member laterMember less
    simp only [List.length_append, erasedTypes, List.length_map] at lengths
    omega

end Shape
end ShapeCompat
