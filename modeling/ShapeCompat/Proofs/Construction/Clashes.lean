import ShapeCompat.Proofs.Construction.Ambiguity
import ShapeCompat.Proofs.Schema.Placement

/-!
Where a construction plan fails. In overload style every overload has one entry with a callback and
one without, and each overload takes more than the one before it. So two entries can only look alike
where the callback of an overload stands in the place of the one parameter that the next newer
overload adds, and the scan over all entries finds the oldest such place.
-/

namespace ShapeCompat

/-- The parameter types of an overload as a linker sees them. -/
def Overload.erasedTypes (overload : Overload) : List String :=
  overload.params.map fun slot => eraseType slot.type

/-- With a callback behind its parameters the older overload looks like the newer one. -/
def Overload.runsInto (older newer : Overload) : Bool :=
  older.erasedTypes ++ ["Function1"] == newer.erasedTypes

def Overload.label (overload : Overload) (variant : EntryVariant) : String :=
  s!"v{overload.version.toNat}/{variant.name}"

theorem Overload.callback_label (overload : Overload) :
    overload.label .withOptionalCallback = s!"v{overload.version.toNat}/with_optional_callback" :=
  String.append_assoc

theorem Overload.defaulted_label (overload : Overload) :
    overload.label .defaultedOptionals = s!"v{overload.version.toNat}/defaulted_optionals" :=
  String.append_assoc

/-- Each overload of an oldest-first list with the next newer one. -/
def neighbours (overloads : List Overload) : List (Overload × Overload) :=
  overloads.zip overloads.tail

/-- The ambiguity of an overload that runs into a newer one. -/
def clashOf (pair : Overload × Overload) : Ambiguity :=
  ⟨pair.1.label .withOptionalCallback, pair.2.label .defaultedOptionals, pair.2.erasedTypes⟩

section Scan

/-- What an overload with both entries shows to a linker, the entry without callback first. -/
def Overload.shown (overload : Overload) : List (List String × String) :=
  [(overload.erasedTypes, overload.label .defaultedOptionals),
    (overload.erasedTypes ++ ["Function1"], overload.label .withOptionalCallback)]

variable {seen rest : List (List String × String)} {signature : List String} {label : String}

theorem lookup_of_longer (longer : ∀ entry ∈ seen, entry.1.length < signature.length) :
    seen.lookup signature = none := by
  apply lookup_of_not_mem
  intro listed
  obtain ⟨entry, member, same⟩ := List.mem_map.mp listed
  have shorter := longer entry member
  rw [same] at shorter
  exact Nat.lt_irrefl _ shorter

theorem first_ambiguity_of_longer
    (longer : ∀ entry ∈ seen, entry.1.length < signature.length) :
    firstAmbiguity? seen ((signature, label) :: rest) =
      firstAmbiguity? ((signature, label) :: seen) rest := by
  rw [firstAmbiguity?, lookup_of_longer longer]

/-- Behind the entries of an overload only its callback is long enough to be met again, and only by
the next overload. -/
theorem first_ambiguity_shown (older : Overload) (newer : List Overload)
    (shorter : ∀ entry ∈ seen, entry.1.length ≤ older.erasedTypes.length)
    (growing : (older :: newer).Pairwise fun first second =>
      first.erasedTypes.length < second.erasedTypes.length) :
    firstAmbiguity?
        ((older.erasedTypes ++ ["Function1"], older.label .withOptionalCallback) :: seen)
        (newer.flatMap Overload.shown) =
      ((neighbours (older :: newer)).find? fun pair => pair.1.runsInto pair.2).map clashOf := by
  induction newer generalizing older seen with
  | nil => rfl
  | cons next later induction =>
      obtain ⟨above, growingLater⟩ := List.pairwise_cons.mp growing
      have less := above next List.mem_cons_self
      have neighbour : neighbours (older :: next :: later) =
          (older, next) :: neighbours (next :: later) := rfl
      rw [List.flatMap_cons, Overload.shown, List.cons_append, List.cons_append, List.nil_append,
        neighbour]
      by_cases met : older.erasedTypes ++ ["Function1"] = next.erasedTypes
      · rw [List.find?_cons_of_pos (by simpa [Overload.runsInto] using met), met]
        rw [firstAmbiguity?, List.lookup_cons_self]
        rfl
      · have passed : seen.lookup next.erasedTypes = none := by
          apply lookup_of_longer
          intro entry member
          exact Nat.lt_of_le_of_lt (shorter entry member) less
        have earlier : ∀ entry ∈ (next.erasedTypes, next.label .defaultedOptionals) ::
            (older.erasedTypes ++ ["Function1"], older.label .withOptionalCallback) :: seen,
            entry.1.length ≤ next.erasedTypes.length := by
          intro entry member
          rcases List.mem_cons.mp member with rfl | member
          · exact Nat.le_refl _
          · rcases List.mem_cons.mp member with rfl | member
            · rw [List.length_append]
              exact less
            · exact Nat.le_of_lt (Nat.lt_of_le_of_lt (shorter entry member) less)
        rw [List.find?_cons_of_neg (by simpa [Overload.runsInto] using met), firstAmbiguity?,
          List.lookup_cons, beq_false_of_ne (Ne.symm met)]
        dsimp only
        rw [passed]
        dsimp only
        rw [first_ambiguity_of_longer]
        · exact induction next earlier growingLater
        · intro entry member
          have bound := earlier entry member
          rw [List.length_append]
          exact Nat.lt_succ_of_le bound

/-- The first ambiguity among overloads that each have both entries. -/
theorem first_ambiguity_of_growing (overloads : List Overload)
    (growing : overloads.Pairwise fun first second =>
      first.erasedTypes.length < second.erasedTypes.length) :
    firstAmbiguity? [] (overloads.flatMap Overload.shown) =
      ((neighbours overloads).find? fun pair => pair.1.runsInto pair.2).map clashOf := by
  cases overloads with
  | nil => rfl
  | cons oldest newer =>
      rw [List.flatMap_cons, Overload.shown, List.cons_append, List.cons_append, List.nil_append,
        first_ambiguity_of_longer (List.forall_mem_nil _), first_ambiguity_of_longer]
      · apply first_ambiguity_shown _ _ _ growing
        exact List.forall_mem_singleton.mpr (Nat.le_refl _)
      · rw [List.forall_mem_singleton, List.length_append]
        exact Nat.lt_succ_self _

end Scan

namespace Shape

variable {shape : Shape} {style : Style} {owner : String}

theorem overload_erased_types {version : UInt32} {newer : Option UInt32}
    (stage : shape.IsStage version newer) :
    (shape.overloadAt version newer).erasedTypes = shape.erasedTypes version := by
  rw [Overload.erasedTypes, params_eq stage, List.map_map]
  rfl

theorem overloads_grow (sound : shape.IsSound) :
    shape.overloads.Pairwise fun first second =>
      first.erasedTypes.length < second.erasedTypes.length := by
  have versions : (withNewer shape.versions).Pairwise fun first second => first.1 < second.1 := by
    rw [← List.pairwise_map (f := fun stage : UInt32 × Option UInt32 => stage.1),
      with_newer_versions]
    exact shape.versions_ascending
  rw [overloads_eq, List.pairwise_map]
  apply versions.imp_of_mem
  intro first second member secondMember less
  rw [overload_erased_types (stage_of_mem sound member),
    overload_erased_types (stage_of_mem sound secondMember), erasedTypes, erasedTypes,
    List.length_map, List.length_map]
  exact fields_up_to_grow sound (version_of_stage member) (version_of_stage secondMember) less

/-- In overload style an overload of a shape with an optional tier has both entries. -/
theorem labelled_signatures_shown (sound : shape.IsSound) (taken : shape.relevantFields ≠ [])
    (optional : shape.hasOptionalTier = true) :
    labelledSignatures (shape.attachEntries .overload shape.overloads) =
      shape.overloads.flatMap Overload.shown := by
  rw [attach_entries_eq sound, overloads_eq, labelledSignatures, List.flatMap_map,
    List.flatMap_map]
  apply List.flatMap_congr
  intro stage member
  have types := overload_erased_types (stage_of_mem sound member)
  have entries : shape.entriesAt .overload stage.1 stage.2 =
      [shape.defaultedEntry stage.1 stage.2, shape.mainEntry stage.1 stage.2] := by
    rw [entriesAt, if_neg taken, if_pos ⟨optional, rfl⟩]
  have defaulted : (shape.defaultedEntry stage.1 stage.2).erasedSignature =
      shape.erasedTypes stage.1 := by
    rw [entry_signature (entries ▸ List.mem_cons_self)]
    exact List.append_nil _
  have main := main_entry_signature taken stage.1 stage.2
  rw [if_pos optional] at main
  have called : shape.mainVariant = .withOptionalCallback := by rw [mainVariant, if_pos optional]
  rw [plannedOverload, entries, Overload.shown, types, List.map_cons, List.map_cons, List.map_nil,
    defaulted, main]
  unfold entryLabel mainEntry
  rw [called]
  rfl

/-- Without an optional tier, and where nothing is taken, the style makes no difference. -/
theorem entries_of_either_style (single : shape.relevantFields = [] ∨ shape.hasOptionalTier = false)
    (version : UInt32) (newer : Option UInt32) :
    shape.entriesAt .overload version newer = shape.entriesAt .callback version newer := by
  unfold entriesAt
  rcases single with bare | mandatory
  · rw [if_pos bare, if_pos bare]
  · simp [mandatory]

theorem construction_of_single_entries (sound : shape.IsSound) (owner : String)
    (single : style = .callback ∨ shape.relevantFields = [] ∨ shape.hasOptionalTier = false) :
    shape.construction owner style = .ok (shape.plannedConstruction owner style) := by
  apply construction_of_distinct
  have distinct := callback_signatures_distinct sound
  rw [signatures_eq sound] at distinct ⊢
  rcases single with rfl | alike
  · exact distinct
  · cases style with
    | callback => exact distinct
    | overload =>
        simp only [entries_of_either_style alike]
        exact distinct

/-- An overload and the next newer one, at a place oldest first, where the older one with its
callback looks like the newer one. -/
structure ClashAt (shape : Shape) (place : Nat) (older newer : Overload) : Prop where
  older_there : shape.overloads[place]? = some older
  newer_next : shape.overloads[place + 1]? = some newer
  same_types : older.erasedTypes ++ ["Function1"] = newer.erasedTypes

theorem neighbours_at {overloads : List Overload} {place : Nat} {older newer : Overload} :
    (neighbours overloads)[place]? = some (older, newer) ↔
      overloads[place]? = some older ∧ overloads[place + 1]? = some newer := by
  rw [neighbours, List.getElem?_zip_eq_some, List.getElem?_tail]

theorem runs_into_at_iff {place : Nat} {older newer : Overload} :
    (neighbours shape.overloads)[place]? = some (older, newer) ∧ older.runsInto newer = true ↔
      shape.ClashAt place older newer := by
  rw [neighbours_at, Overload.runsInto, beq_iff_eq]
  constructor
  · intro both
    exact ⟨both.1.1, both.1.2, both.2⟩
  · intro clash
    exact ⟨⟨clash.older_there, clash.newer_next⟩, clash.same_types⟩

/-- The oldest place where overloads clash is the one that is found. -/
theorem find_neighbours_of_oldest {place : Nat} {older newer : Overload}
    (clash : shape.ClashAt place older newer)
    (oldest : ∀ earlier < place, ∀ first second, ¬shape.ClashAt earlier first second) :
    (neighbours shape.overloads).find? (fun pair => pair.1.runsInto pair.2) =
      some (older, newer) := by
  obtain ⟨there, runs⟩ := runs_into_at_iff.mpr clash
  obtain ⟨bound, here⟩ := List.getElem?_eq_some_iff.mp there
  apply List.find?_eq_some_iff_getElem.mpr
  refine ⟨runs, place, bound, here, ?_⟩
  intro earlier before
  rw [Bool.not_eq_true']
  apply Bool.eq_false_iff.mpr
  intro runsEarlier
  have listed := List.getElem?_eq_getElem (l := neighbours shape.overloads)
    (Nat.lt_trans before bound)
  exact oldest earlier before _ _ (runs_into_at_iff.mp ⟨listed, runsEarlier⟩)

theorem find_neighbours_none_iff :
    (neighbours shape.overloads).find? (fun pair => pair.1.runsInto pair.2) = none ↔
      ∀ place older newer, ¬shape.ClashAt place older newer := by
  rw [List.find?_eq_none]
  constructor
  · intro clean place older newer clash
    obtain ⟨there, runs⟩ := runs_into_at_iff.mpr clash
    exact clean _ (List.mem_of_getElem? there) runs
  · intro clean pair member runs
    obtain ⟨place, there⟩ := List.mem_iff_getElem?.mp member
    exact clean place pair.1 pair.2 (runs_into_at_iff.mp ⟨there, runs⟩)

/-- In overload style a shape with an optional tier is scanned for neighbours that clash. -/
theorem ambiguity_of_overload_style (sound : shape.IsSound)
    (optional : shape.hasOptionalTier = true) :
    ambiguity? (shape.attachEntries .overload shape.overloads) =
      ((neighbours shape.overloads).find? fun pair => pair.1.runsInto pair.2).map clashOf := by
  by_cases bare : shape.relevantFields = []
  · have distinct := callback_signatures_distinct sound
    rw [signatures_eq sound] at distinct
    have alone : neighbours shape.overloads = [] := by
      rw [overloads_eq, versions_of_no_relevant bare]
      rfl
    rw [alone, List.find?_nil, Option.map_none, ambiguity_none_iff, signatures_eq sound]
    simp only [entries_of_either_style (.inl bare)]
    exact distinct
  · rw [ambiguity?, labelled_signatures_shown sound bare optional]
    exact first_ambiguity_of_growing _ (overloads_grow sound)

theorem construction_of_ambiguity {clash : Ambiguity}
    (found : ambiguity? (shape.attachEntries style shape.overloads) = some clash) :
    shape.construction owner style = .error (.schema shape.declaredQualifiedName none
      (.ambiguousOverloads clash.first clash.second
        (String.intercalate ", " clash.signature))) := by
  unfold construction checkAmbiguity
  dsimp only
  rw [found]
  rfl

theorem construction_fails_iff :
    (∃ defect, shape.construction owner style = .error defect) ↔
      ambiguity? (shape.attachEntries style shape.overloads) ≠ none := by
  cases found : ambiguity? (shape.attachEntries style shape.overloads) with
  | some clash =>
      constructor
      · intro _ absent
        cases absent
      · intro _
        exact ⟨_, construction_of_ambiguity found⟩
  | none =>
      have made : shape.construction owner style = .ok (shape.plannedConstruction owner style) :=
        construction_of_distinct ((ambiguity_none_iff _).mp found)
      constructor
      · intro failed
        obtain ⟨defect, failed⟩ := failed
        rw [made] at failed
        cases failed
      · intro present
        exact (present rfl).elim

end Shape

/-- A construction plan fails exactly where, in overload style and with an optional tier, the
callback of an overload stands for the one parameter that the next newer overload has besides. The
oldest such place is the one that is reported. -/
theorem construction_fails_exactly_at_clashes (declarations : List ShapeDeclaration)
    (settings : Settings) (shape : Shape) (owner : String) (style : Style)
    (normalized : shape ∈ (Schema.ofDeclarations declarations settings).schema.shapes) :
    ((∃ defect, shape.construction owner style = .error defect) ↔
      style = .overload ∧ shape.hasOptionalTier = true ∧
        ∃ place older newer, shape.ClashAt place older newer) ∧
    (∀ place older newer, style = .overload → shape.hasOptionalTier = true →
      shape.ClashAt place older newer →
      (∀ earlier < place, ∀ first second, ¬shape.ClashAt earlier first second) →
      shape.construction owner style = .error (.schema shape.declaredQualifiedName none
        (.ambiguousOverloads s!"v{older.version.toNat}/with_optional_callback"
          s!"v{newer.version.toNat}/defaulted_optionals"
          (String.intercalate ", " newer.erasedTypes)))) ∧
    (style = .callback ∨ shape.hasOptionalTier = false →
      ∃ construction, shape.construction owner style = .ok construction) := by
  have sound := Schema.of_declarations_sound declarations settings shape normalized
  have reported (place : Nat) (older newer : Overload) (split : style = .overload)
      (optional : shape.hasOptionalTier = true) (clash : shape.ClashAt place older newer)
      (oldest : ∀ earlier < place, ∀ first second, ¬shape.ClashAt earlier first second) :
      shape.construction owner style = .error (.schema shape.declaredQualifiedName none
        (.ambiguousOverloads s!"v{older.version.toNat}/with_optional_callback"
          s!"v{newer.version.toNat}/defaulted_optionals"
          (String.intercalate ", " newer.erasedTypes))) := by
    have found : ambiguity? (shape.attachEntries style shape.overloads) =
        some (clashOf (older, newer)) := by
      rw [split, Shape.ambiguity_of_overload_style sound optional,
        Shape.find_neighbours_of_oldest clash oldest]
      rfl
    rw [← Overload.callback_label, ← Overload.defaulted_label]
    exact Shape.construction_of_ambiguity found
  have planned (alone : style = .callback ∨ shape.hasOptionalTier = false) :
      ∃ construction, shape.construction owner style = .ok construction :=
    ⟨_, Shape.construction_of_single_entries sound owner (alone.imp_right .inr)⟩
  refine ⟨?_, reported, planned⟩
  cases style with
  | callback =>
      obtain ⟨construction, made⟩ := planned (.inl rfl)
      simp [made]
  | overload =>
      cases optional : shape.hasOptionalTier with
      | false =>
          obtain ⟨construction, made⟩ := planned (.inr optional)
          simp [made]
      | true =>
          rw [Shape.construction_fails_iff, Shape.ambiguity_of_overload_style sound optional, ne_eq,
            Option.map_eq_none_iff, Shape.find_neighbours_none_iff]
          simp only [true_and, not_forall, not_not]

def handlerDeclaration : ShapeDeclaration :=
  { name := "HandlerDBC"
    package := "com.acme"
    fields := [
      { name := "name", type := "String" },
      { name := "label", type := "String", default := some { plain := "x" } },
      { name := "opened", type := "(String) -> Unit", requirement := some ⟨3, false, { raw := "{}" }⟩ },
      { name := "closed", type := "(Int) -> Unit", requirement := some ⟨5, true, { raw := "{}" }⟩ }] }

def handlerShape : Shape :=
  handlerDeclaration.toShape {} (accepted (checkFields [] handlerDeclaration.fields))

/-- Both later versions add a function, and the older of the two clashes is reported. -/
theorem handler_clashes_with_callback :
    handlerShape ∈ (Schema.ofDeclarations [handlerDeclaration] {}).schema.shapes ∧
      (∃ older newer, handlerShape.ClashAt 0 older newer) ∧
      (∃ older newer, handlerShape.ClashAt 1 older newer) ∧
      handlerShape.construction "com.acme.Handler" .overload =
        .error (.schema "com.acme.HandlerDBC" none (.ambiguousOverloads
          "v1/with_optional_callback" "v3/defaulted_optionals" "String, Function1")) ∧
      ∃ construction, handlerShape.construction "com.acme.Handler" .callback = .ok construction := by
  have normalized : handlerShape ∈ (Schema.ofDeclarations [handlerDeclaration] {}).schema.shapes := by
    decide +kernel
  have first : handlerShape.ClashAt 0 (handlerShape.overloadAt 1 (some 3))
      (handlerShape.overloadAt 3 (some 5)) :=
    ⟨by decide +kernel, by decide +kernel, by decide +kernel⟩
  have second : handlerShape.ClashAt 1 (handlerShape.overloadAt 3 (some 5))
      (handlerShape.overloadAt 5 none) :=
    ⟨by decide +kernel, by decide +kernel, by decide +kernel⟩
  have clashes := construction_fails_exactly_at_clashes [handlerDeclaration] {} handlerShape
    "com.acme.Handler"
  refine ⟨normalized, ⟨_, _, first⟩, ⟨_, _, second⟩, ?_, ?_⟩
  · have reported := (clashes .overload normalized).2.1 0 _ _ rfl (by decide +kernel) first
      (fun earlier before => (Nat.not_lt_zero earlier before).elim)
    rw [reported]
    decide +kernel
  · exact (clashes .callback normalized).2.2 (.inl rfl)

end ShapeCompat
