import ShapeCompat.Proofs.Construction.Ambiguity
import ShapeCompat.Proofs.Delegation
import ShapeCompat.Proofs.Schema.Placement

/-!
What a call of an entry point comes to, field by field: its arguments are told apart by the names of
the fields that its version reaches, the builder is always made, and every field of the instance has
its literal, its argument or the value that was set last.
-/

namespace ShapeCompat

/-- The argument at the place of the parameter of this name. -/
def EntryPoint.argument? (entry : EntryPoint) (args : List String) (name : String) :
    Option String :=
  ((entry.params.map (·.name)).zip args).lookup name

namespace Shape

variable {shape : Shape} {style : Style} {version : UInt32} {newer : Option UInt32}
  {entry : EntryPoint}

theorem args_by_field (sound : shape.IsSound)
    (member : entry ∈ shape.entriesAt style version newer) (args : List String)
    (lengths : args.length = entry.params.length) :
    args = (shape.fieldsUpTo version).map fun field =>
      (entry.argument? args field.name).getD field.literal := by
  have count := lengths.trans (entry_params_length member)
  unfold EntryPoint.argument?
  rw [entry_names member]
  exact values_of_zip _ _ (names_up_to_distinct sound version) args count _

theorem no_argument (sound : shape.IsSound)
    (member : entry ∈ shape.entriesAt style version newer) (args : List String) {field : Field}
    (present : field ∈ shape.fields) (beyond : field ∉ shape.fieldsUpTo version) :
    entry.argument? args field.name = none := by
  apply lookup_of_not_mem
  intro found
  obtain ⟨⟨name, value⟩, pair, rfl⟩ := List.mem_map.mp found
  have parameter := (List.of_mem_zip pair).1
  rw [entry_names member, List.mem_map] at parameter
  obtain ⟨other, reached, same⟩ := parameter
  have otherPresent := (mem_relevant_fields.mp (mem_fields_up_to.mp reached).1).1
  have equal := List.inj_on_of_nodup_map sound.names_distinct otherPresent present same
  exact beyond (equal ▸ reached)

/-- A field without a parameter has no argument, so what is supplied for it is its literal. -/
theorem supplied_eq_argument (sound : shape.IsSound)
    (member : entry ∈ shape.entriesAt style version newer) (args : List String) {field : Field}
    (relevant : field ∈ shape.relevantFields) :
    field.supplied version (fun other =>
        (entry.argument? args other.name).getD other.literal) =
      (entry.argument? args field.name).getD field.literal := by
  unfold Field.supplied
  split
  · rfl
  · rename_i beyond
    rw [no_argument sound member args (mem_relevant_fields.mp relevant).1
      (fun reached => beyond (mem_fields_up_to.mp reached).2), Option.getD_none]

end Shape

namespace Constructible

variable {callee : Constructible} {shape : Shape} {style : Style}

/-- Whatever entry is called, the call brings the builder its arguments, literals for the fields
that the entry does not take, and its callback. -/
theorem arrive_at_builder (source : callee.IsFor shape style) (sound : shape.IsSound)
    {version : UInt32} {newer : Option UInt32} (stage : (version, newer) ∈ withNewer shape.versions)
    {entry : EntryPoint} (member : entry ∈ shape.entriesAt style version newer)
    (args : List String) (lengths : args.length = entry.params.length) (callback : List SetCall)
    (accepted : entry.callback = none → callback = []) :
    ∃ tier, callee.construction.arrive (callee.construction.overloads.length * 2 + 1)
        ⟨version, entry.variant, args, callback, none⟩ =
      .ok ⟨shape.relevantFields.map fun field =>
        (entry.argument? args field.name).getD field.literal, tier, callback⟩ ∧
      (tier = some .optional ∨ callback = []) := by
  obtain ⟨earlier, later, versions, rfl⟩ := mem_with_newer.mp stage
  have count : callee.construction.overloads.length = earlier.length + later.length + 1 := by
    rw [source.overloads, Shape.attach_entries_eq sound, List.length_map]
    have total := congrArg List.length (with_newer_versions shape.versions)
    rw [List.length_map] at total
    rw [total, versions, List.length_append, List.length_cons]
    omega
  have supplied := List.map_congr_left fun field relevant =>
    Shape.supplied_eq_argument sound member args relevant
  rw [count]
  -- Entries without parameters make the builder themselves; all others go along the main entries.
  by_cases bare : shape.relevantFields = []
  · obtain ⟨_, target, noArgs, pass⟩ := Shape.entries_of_bare bare member
    have bound : entry.delegation.args.mapM
        (Argument.evaluate (Bindings.ofLists (entry.params.map (·.name)) args)) = .ok [] := by
      rw [noArgs]
      rfl
    rw [arrive_entry source sound stage member args lengths callback none
      (by simpa using accepted) bound, target, bare]
    rcases pass with ⟨taken, forwarded⟩ | ⟨refused, withheld⟩
    · rw [taken, forwarded]
      exact ⟨_, rfl, .inl rfl⟩
    · rw [accepted refused, withheld]
      exact ⟨_, rfl, .inr rfl⟩
  · have byField := Shape.args_by_field sound member args lengths
    rcases Shape.entries_of_taken bare member with rfl | ⟨optional, rfl⟩
    · have refused : shape.hasOptionalTier = false → callback = [] := by
        intro without
        exact accepted (by simp [Shape.mainEntry, without])
      have reached := arrive_main source sound bare callback refused earlier later version versions
        (fun field => ((shape.mainEntry version later.head?).argument? args field.name).getD
          field.literal) none ((earlier.length + later.length + 1) * 2 + 1) (by omega)
      rw [supplied, ← byField] at reached
      refine ⟨_, reached, ?_⟩
      cases optional : shape.hasOptionalTier with
      | false => exact .inr (refused optional)
      | true => exact .inl rfl
    · have withheld : callback = [] := accepted rfl
      have main : shape.mainVariant = .withOptionalCallback := by
        simp [Shape.mainVariant, optional]
      have passed := Shape.own_args sound version later.head?
        (fun field => ((shape.defaultedEntry version later.head?).argument? args field.name).getD
          field.literal)
      rw [← byField] at passed
      have reached := arrive_main source sound bare [] (fun _ => rfl) earlier later version
        versions
        (fun field => ((shape.defaultedEntry version later.head?).argument? args field.name).getD
          field.literal) none ((earlier.length + later.length + 1) * 2) (by omega)
      rw [supplied, ← byField, main] at reached
      rw [arrive_entry source sound stage member args lengths callback none
        (fun _ => withheld) passed, withheld]
      exact ⟨_, reached, .inr rfl⟩

theorem invoke_reaches_builder (source : callee.IsFor shape style) (sound : shape.IsSound)
    {version : UInt32} {newer : Option UInt32} (stage : (version, newer) ∈ withNewer shape.versions)
    {entry : EntryPoint} (member : entry ∈ shape.entriesAt style version newer)
    (args : List String) (lengths : args.length = entry.params.length) (callback : List SetCall)
    (accepted : entry.callback = none → callback = []) :
    callee.invoke version entry.variant args callback =
      callee.build (shape.relevantFields.map fun field =>
        (entry.argument? args field.name).getD field.literal) .optional callback [] := by
  obtain ⟨tier, reached, offered⟩ :=
    arrive_at_builder source sound stage member args lengths callback accepted
  rw [invoke, follow_eq_arrive, reached]
  dsimp only [Except.bind]
  -- On which tier an empty callback is applied makes no difference.
  rcases offered with rfl | rfl
  · rfl
  · rfl

end Constructible

/-- The value of a field in an instance: frozen fields keep their literals, the last setter call
comes before the argument, and a field that is neither set nor taken has its literal. -/
def Field.calledValue (field : Field) (entry : EntryPoint) (args : List String)
    (callback : List SetCall) : String :=
  if field.isFrozen then field.literal
  else ((lastSet callback field.name).or (entry.argument? args field.name)).getD field.literal

/-- Every call is for a property of the optional tier. -/
def Shape.setsOptional (shape : Shape) (callback : List SetCall) : Prop :=
  ∀ call ∈ callback, ∃ field ∈ shape.fields,
    field.isOptionalTier = true ∧ field.name = call.field

instance (shape : Shape) (callback : List SetCall) : Decidable (shape.setsOptional callback) :=
  inferInstanceAs (Decidable (∀ call ∈ callback, ∃ field ∈ shape.fields,
    field.isOptionalTier = true ∧ field.name = call.field))

/-- No calls at all are fine for every entry; others need one that takes a callback. -/
theorem callback_of_valid {shape : Shape} {entry : EntryPoint} {callback : List SetCall}
    (valid : callback = [] ∨ entry.callback.isSome ∧ shape.setsOptional callback) :
    (entry.callback = none → callback = []) ∧ shape.setsOptional callback := by
  rcases valid with rfl | ⟨takes, offered⟩
  · exact ⟨fun _ => rfl, fun call member => (List.not_mem_nil member).elim⟩
  · refine ⟨?_, offered⟩
    intro refused
    rw [refused] at takes
    cases takes

namespace Constructible

variable {callee : Constructible} {shape : Shape} {style : Style}

theorem invoke_eq (source : callee.IsFor shape style) (sound : shape.IsSound) {version : UInt32}
    {newer : Option UInt32} (stage : (version, newer) ∈ withNewer shape.versions)
    {entry : EntryPoint} (member : entry ∈ shape.entriesAt style version newer)
    (args : List String) (lengths : args.length = entry.params.length) (callback : List SetCall)
    (accepted : entry.callback = none → callback = []) (offered : shape.setsOptional callback) :
    callee.invoke version entry.variant args callback =
      .ok ⟨callee.typeName, shape.fields.map fun field =>
        (field.name, field.calledValue entry args callback)⟩ := by
  rw [invoke_reaches_builder source sound stage member args lengths callback accepted,
    build_eq source sound _ .optional callback [] offered]
  congr 2
  apply List.map_congr_left
  intro field present
  congr 1
  unfold Field.builtValue Field.calledValue
  rw [List.nil_append]
  split
  · rfl
  · cases lastSet callback field.name with
    | some value => rfl
    | none =>
        rw [Option.getD_none, Option.none_or]
        by_cases param : field.isBuilderParam = true
        · rw [if_pos param]
        · have beyond : field ∉ shape.fieldsUpTo version := by
            intro reached
            have relevant := (Shape.mem_relevant_fields.mp (Shape.mem_fields_up_to.mp reached).1).2
            simp [Field.isConstructorRelevant, param] at relevant
          rw [if_neg param, Shape.no_argument sound member args present beyond, Option.getD_none]

/-- A plain shape with a construction plan has a plan that can be called. -/
theorem callee_of_construction (plain : shape.kind = .plain) {construction : Construction}
    (planned : shape.construction shape.outputQualifiedName style = .ok construction) :
    ∃ plan callee, shape.plan style = .ok plan ∧ plan.constructible = .ok callee ∧
      callee.construction = construction ∧ callee.typeName = plan.qualifiedName ∧
      callee.IsFor shape style := by
  obtain ⟨_, same⟩ := Shape.construction_eq_ok_iff.mp planned
  unfold Shape.plan
  rw [Shape.plain_parts_of_construction plain planned]
  refine ⟨_, _, rfl, rfl, rfl, rfl, ?_⟩
  subst same
  exact ⟨rfl, rfl, rfl, rfl⟩

theorem overload_stage (sound : shape.IsSound) {overload : Overload}
    (member : overload ∈ shape.attachEntries style shape.overloads) :
    ∃ newer, (overload.version, newer) ∈ withNewer shape.versions ∧
      overload = shape.plannedOverload style overload.version newer := by
  rw [Shape.attach_entries_eq sound] at member
  obtain ⟨⟨version, newer⟩, stage, rfl⟩ := List.mem_map.mp member
  exact ⟨newer, stage, rfl⟩

end Constructible

/-- Every entry point of a planned shape takes exactly the fields that its version reaches, and a
call of it makes an instance with every field of the shape, in order, each at its called value. -/
theorem call_gives_every_field_its_value (declarations : List ShapeDeclaration)
    (settings : Settings) (shape : Shape) (style : Style) (construction : Construction)
    (normalized : shape ∈ (Schema.ofDeclarations declarations settings).schema.shapes)
    (plain : shape.kind = .plain)
    (planned : shape.construction shape.outputQualifiedName style = .ok construction) :
    ∃ plan callee, shape.plan style = .ok plan ∧ plan.constructible = .ok callee ∧
      callee.construction = construction ∧
      ∀ overload ∈ construction.overloads, ∀ entry ∈ overload.entries,
        entry.params.map (·.name) = (shape.fieldsUpTo overload.version).map (·.name) ∧
        ∀ args callback, args.length = entry.params.length →
          (callback = [] ∨ entry.callback.isSome ∧ shape.setsOptional callback) →
          callee.invoke overload.version entry.variant args callback =
            .ok ⟨plan.qualifiedName, shape.fields.map fun field =>
              (field.name, field.calledValue entry args callback)⟩ := by
  have sound := Schema.of_declarations_sound declarations settings shape normalized
  obtain ⟨plan, callee, made, callable, same, named, source⟩ :=
    Constructible.callee_of_construction plain planned
  refine ⟨plan, callee, made, callable, same, ?_⟩
  intro overload overloadMember entry entryMember
  rw [← same, source.overloads] at overloadMember
  obtain ⟨newer, stage, overloadEq⟩ := Constructible.overload_stage sound overloadMember
  rw [overloadEq] at entryMember
  refine ⟨Shape.entry_names entryMember, ?_⟩
  intro args callback lengths valid
  rw [← named]
  obtain ⟨accepted, offered⟩ := callback_of_valid valid
  exact Constructible.invoke_eq source sound stage entryMember args lengths callback accepted offered

def personDeclaration : ShapeDeclaration :=
  { name := "PersonDBC"
    package := "com.acme"
    fields := [
      { name := "id", type := "String" },
      { name := "label", type := "String", default := some { plain := "x" } },
      { name := "email", type := "String", requirement := some ⟨3, true, { raw := "none" }⟩ },
      { name := "code", type := "Int", mutability := .immutableRecently,
        requirement := some ⟨2, false, { raw := "0" }⟩ }] }

def personShape : Shape :=
  personDeclaration.toShape {} (accepted (checkFields [] personDeclaration.fields))

theorem person_normalized :
    personShape ∈ (Schema.ofDeclarations [personDeclaration] {}).schema.shapes := by
  decide +kernel

theorem person_construction (style : Style) :
    personShape.construction personShape.outputQualifiedName style =
      .ok (personShape.plannedConstruction personShape.outputQualifiedName style) := by
  apply Shape.construction_of_distinct
  cases style <;> decide +kernel

theorem person_called :
    personShape ∈ (Schema.ofDeclarations [personDeclaration] {}).schema.shapes ∧
      ∃ plan callee, personShape.plan .overload = .ok plan ∧ plan.constructible = .ok callee ∧
        callee.invoke 1 .withOptionalCallback ["7"] [⟨"email", "a"⟩, ⟨"email", "b"⟩] =
          .ok ⟨plan.qualifiedName,
            [("id", "7"), ("label", "\"x\""), ("email", "b"), ("code", "0")]⟩ := by
  obtain ⟨plan, callee, made, callable, _, calls⟩ := call_gives_every_field_its_value
    [personDeclaration] {} personShape .overload _ person_normalized rfl
    (person_construction .overload)
  have called := (calls (personShape.plannedOverload .overload 1 (some 2)) (by decide +kernel)
    (personShape.mainEntry 1 (some 2)) (by decide +kernel)).2 ["7"]
    [⟨"email", "a"⟩, ⟨"email", "b"⟩] (by decide +kernel)
    (.inr (by decide +kernel))
  have values : (personShape.fields.map fun field =>
      (field.name, field.calledValue (personShape.mainEntry 1 (some 2)) ["7"]
        [⟨"email", "a"⟩, ⟨"email", "b"⟩])) =
      [("id", "7"), ("label", "\"x\""), ("email", "b"), ("code", "0")] := by
    decide +kernel
  rw [values] at called
  exact ⟨person_normalized, plan, callee, made, callable, called⟩

end ShapeCompat
