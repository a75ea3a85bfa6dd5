import ShapeCompat.Evaluation
import ShapeCompat.Proofs.Assembly.OwnNames
import ShapeCompat.Proofs.Schema.Acceptance

/-!
How values of a planned shape are told apart, from its declaration on. Equality and hash are over the
same fields, those that are not declared as excluded, whether they are all, some or none; an excluded
field shows in the text of a value only.
-/

namespace ShapeCompat

/-- The second value is the first but for the fields of these names. -/
def Instance.DiffersOnlyIn (names : List String) (value changed : Instance) : Prop :=
  changed.typeName = value.typeName ∧ ∀ name ∉ names, changed.get? name = value.get? name

namespace ShapeDeclaration

variable {declaration : ShapeDeclaration}

def comparedNames (declaration : ShapeDeclaration) : List String :=
  (declaration.fields.filter fun field => !field.excludedFromEquality).map (·.name)

def excludedNames (declaration : ShapeDeclaration) : List String :=
  (declaration.fields.filter (·.excludedFromEquality)).map (·.name)

theorem forall_compared {test : String → Prop} :
    (∀ name ∈ declaration.comparedNames, test name) ↔
      ∀ field ∈ declaration.fields, field.excludedFromEquality = false → test field.name := by
  rw [comparedNames, List.forall_mem_map]
  simp only [List.mem_filter, Bool.not_eq_true', and_imp]

theorem compared_not_excluded (distinct : (declaration.fields.map (·.name)).Nodup) {name : String}
    (compared : name ∈ declaration.comparedNames) : name ∉ declaration.excludedNames := by
  intro excluded
  obtain ⟨field, kept, rfl⟩ := List.mem_map.mp compared
  obtain ⟨other, left, same⟩ := List.mem_map.mp excluded
  obtain ⟨member, included⟩ := List.mem_filter.mp kept
  obtain ⟨otherMember, out⟩ := List.mem_filter.mp left
  rw [List.inj_on_of_nodup_map distinct otherMember member same] at out
  rw [out] at included
  cases included

end ShapeDeclaration

/-- The identity that a declaration asks for. The hash is over the fields of equality, or over the
type alone if there are none. -/
structure Identity.Follows (identity : Identity) (declaration : ShapeDeclaration) : Prop where
  equality : identity.equality = declaration.comparedNames
  hash : ∃ typeName, identity.hash =
    if identity.equality = [] then .typeMarker typeName else .fields identity.equality
  display : identity.display.fields = declaration.fields.map (·.name)

section Yields

variable {declared : List FieldDeclaration} {fields : List Field}

theorem yielded_names (yields : List.Forall₂ FieldDeclaration.Yields declared fields) :
    fields.map (·.name) = declared.map (·.name) := by
  induction yields with
  | nil => rfl
  | cons yield _ induction => rw [List.map_cons, List.map_cons, induction, yield.name]

/-- Taking part in equality is what is not excluded, field by field. -/
theorem yielded_equality_names (yields : List.Forall₂ FieldDeclaration.Yields declared fields) :
    (fields.filter (·.equality)).map (·.name) =
      (declared.filter fun field => !field.excludedFromEquality).map (·.name) := by
  apply yielded_names
  apply List.rel_filter _ yields
  intro declaration field yield
  dsimp only
  rw [yield.equality]

end Yields

theorem Shape.identity_follows {shape : Shape} {declaration : ShapeDeclaration}
    (yields : List.Forall₂ FieldDeclaration.Yields declaration.fields shape.fields)
    (typeName : String) : (shape.identity typeName).Follows declaration where
  equality := yielded_equality_names yields
  hash := ⟨typeName, rfl⟩
  display := yielded_names yields

namespace Constructible

variable {callee : Constructible} {declaration : ShapeDeclaration} {first second : Instance}

theorem equal_iff : callee.equal first second = true ↔
    first.typeName = second.typeName ∧
      ∀ name ∈ callee.identity.equality, first.get? name = second.get? name := by
  simp [equal]

/-- The hash is over what the fields of equality hold and nothing else. -/
theorem hash_key_eq_iff (follows : callee.identity.Follows declaration) :
    callee.hashKey first = callee.hashKey second ↔
      ∀ name ∈ callee.identity.equality, first.get? name = second.get? name := by
  obtain ⟨typeName, hash⟩ := follows.hash
  unfold hashKey
  rw [hash]
  by_cases bare : callee.identity.equality = []
  · rw [if_pos bare]
    simp [bare]
  · rw [if_neg bare]
    exact List.map_inj_left

theorem hash_key_of_equal (follows : callee.identity.Follows declaration)
    (same : callee.equal first second = true) : callee.hashKey first = callee.hashKey second :=
  (hash_key_eq_iff follows).mpr (equal_iff.mp same).2

theorem equal_symm (same : callee.equal first second = true) :
    callee.equal second first = true := by
  obtain ⟨type, agree⟩ := equal_iff.mp same
  exact equal_iff.mpr ⟨type.symm, fun name compared => (agree name compared).symm⟩

theorem equal_trans {third : Instance} (same : callee.equal first second = true)
    (again : callee.equal second third = true) : callee.equal first third = true := by
  obtain ⟨type, agree⟩ := equal_iff.mp same
  obtain ⟨typeAgain, agreeAgain⟩ := equal_iff.mp again
  exact equal_iff.mpr ⟨type.trans typeAgain,
    fun name compared => (agree name compared).trans (agreeAgain name compared)⟩

/-- Values that are equal can stand for each other wherever values are compared. -/
theorem equal_congr (same : callee.equal first second = true) (other : Instance) :
    callee.equal first other = callee.equal second other ∧
      callee.equal other first = callee.equal other second := by
  constructor
  · exact Bool.eq_iff_iff.mpr ⟨equal_trans (equal_symm same), equal_trans same⟩
  · exact Bool.eq_iff_iff.mpr
      ⟨fun left => equal_trans left same, fun left => equal_trans left (equal_symm same)⟩

theorem equal_of_differs (follows : callee.identity.Follows declaration)
    (distinct : (declaration.fields.map (·.name)).Nodup)
    (differs : first.DiffersOnlyIn declaration.excludedNames second) :
    callee.equal second first = true := by
  refine equal_iff.mpr ⟨differs.1, ?_⟩
  intro name compared
  rw [follows.equality] at compared
  exact differs.2 name (ShapeDeclaration.compared_not_excluded distinct compared)

/-- Values are told apart and written out as their declaration says. -/
structure Identifies (callee : Constructible) (declaration : ShapeDeclaration) : Prop where
  distinct : (declaration.fields.map (·.name)).Nodup
  equality : ∀ first second, callee.equal first second = true ↔
    first.typeName = second.typeName ∧
      ∀ field ∈ declaration.fields, field.excludedFromEquality = false →
        first.get? field.name = second.get? field.name
  hash : ∀ first second, callee.equal first second = true →
    callee.hashKey first = callee.hashKey second
  hashed : ∀ first second, callee.hashKey first = callee.hashKey second ↔
    ∀ field ∈ declaration.fields, field.excludedFromEquality = false →
      first.get? field.name = second.get? field.name
  excluded : ∀ value changed, value.DiffersOnlyIn declaration.excludedNames changed →
    callee.hashKey changed = callee.hashKey value ∧
      ∀ other, callee.equal changed other = callee.equal value other ∧
        callee.equal other changed = callee.equal other value
  display : ∀ (value : Instance) (current : FieldDeclaration → String),
    (∀ field ∈ declaration.fields, value.get? field.name = some (current field)) →
      callee.display value = callee.identity.display.typeName ++ "(" ++
        String.intercalate ", "
          (declaration.fields.map fun field => field.name ++ "=" ++ current field) ++ ")"

theorem identifies_of_follows (follows : callee.identity.Follows declaration)
    (distinct : (declaration.fields.map (·.name)).Nodup) : callee.Identifies declaration where
  distinct := distinct
  equality := by
    intro first second
    rw [equal_iff, follows.equality, ShapeDeclaration.forall_compared]
  hash := fun first second same => hash_key_of_equal follows same
  hashed := by
    intro first second
    rw [hash_key_eq_iff follows, follows.equality, ShapeDeclaration.forall_compared]
  excluded := by
    intro value changed differs
    have same := equal_of_differs follows distinct differs
    exact ⟨hash_key_of_equal follows same, equal_congr same⟩
  display := by
    intro value current held
    have written : callee.identity.display.fields.map
          (fun name => name ++ "=" ++ (value.get? name).getD "") =
        declaration.fields.map fun field => field.name ++ "=" ++ current field := by
      rw [follows.display, List.map_map]
      apply List.map_congr_left
      intro field member
      rw [Function.comp_apply, held field member, Option.getD_some]
    unfold display
    dsimp only
    rw [written]

end Constructible

namespace Assembly

variable {declarations : List ShapeDeclaration} {settings : Settings} {plan : ShapePlan}

/-- Nesting a plan keeps its name, its kind, its builder and its identity. -/
theorem output_plan_keeps {kept : List PlannedShape} {shape : PlannedShape}
    (found : outputPlan? kept shape = some plan) :
    plan.name = shape.plan.name ∧ plan.kind = shape.plan.kind ∧
      plan.construction.isSome = shape.plan.construction.isSome ∧
      plan.builder = shape.plan.builder ∧ plan.identity = shape.plan.identity := by
  rcases output_plan_cases found with ⟨_, rfl⟩ | ⟨root, _, rfl⟩
  · exact ⟨rfl, rfl, rfl, rfl, rfl⟩
  · exact ⟨rfl, rfl, Option.isSome_map, rfl, rfl⟩

/-- A plan that is put out was made of a shape in the schema, with what that one alone decides. -/
theorem plain_plan_callable (listed : plan ∈ (ofDeclarations declarations settings).shapePlans)
    (plain : plan.kind = .plain) :
    ∃ shape ∈ (Schema.ofDeclarations declarations settings).schema.shapes,
      plan.declaredName = shape.declaredQualifiedName ∧ plan.name = shape.outputName ∧
      ∃ callee, plan.constructible = .ok callee ∧
        callee.identity = shape.identity shape.outputQualifiedName := by
  have plans := unit_plans_perm (kept_accounted declarations settings).distinct
  obtain ⟨planned, kept, found⟩ := List.mem_filterMap.mp (plans.mem_iff.mp listed)
  obtain ⟨shape, member, made⟩ := planned_shape (kept_planned kept)
  obtain ⟨name, kind, constructed, builder, identity⟩ := output_plan_keeps found
  have fits := PlannedShape.of_shape_ok made
  obtain ⟨own, ownPlan, placed⟩ := of_bind_ok made
  cases placed
  obtain ⟨ownConstruction, ownBuilder, ownIdentity⟩ :=
    Shape.plan_of_plain (fits.kind.symm.trans (kind.symm.trans plain)) ownPlan
  rw [ownConstruction] at constructed
  obtain ⟨construction, constructed⟩ := Option.isSome_iff_exists.mp constructed
  refine ⟨shape, member, (output_plan_declared found).trans fits.declared,
    name.trans (PlannedShape.of_shape_names made).1, ?_⟩
  rw [ShapePlan.constructible, constructed, builder, identity, ownBuilder, ownIdentity]
  exact ⟨_, rfl, rfl⟩

end Assembly

open ShapeDeclaration in
/-- A schema shape has the fields of the first declaration of its name. -/
theorem Schema.shape_declared {declarations : List ShapeDeclaration} {settings : Settings}
    {shape : Shape} (member : shape ∈ (Schema.ofDeclarations declarations settings).schema.shapes) :
    ∃ declaration, first? declarations shape.declaredQualifiedName = some declaration ∧
      (declaration.fields.map (·.name)).Nodup ∧
      List.Forall₂ FieldDeclaration.Yields declaration.fields shape.fields := by
  obtain ⟨declaration, found, checked⟩ := schema_shape_iff.mp ⟨shape, member, rfl, rfl⟩
  obtain ⟨clean, same⟩ := check_ok_fields _ _ _ _ checked
  have fields : shape.fields = accepted (checkFields [] declaration.fields) :=
    congrArg Shape.fields same
  refine ⟨declaration, found, ((check_fields_clean_iff _ _).mp clean).1, ?_⟩
  rw [fields]
  exact check_fields_yield _ _ clean

/-- A plain plan that is put out can make values, and they are told apart as the first declaration
under its declared name says. Their text begins with the simple output name. -/
theorem identity_follows_declaration (declarations : List ShapeDeclaration) (settings : Settings)
    (plan : ShapePlan)
    (listed : plan ∈ (Assembly.ofDeclarations declarations settings).shapePlans)
    (plain : plan.kind = .plain) :
    ∃ declaration callee,
      ShapeDeclaration.first? declarations plan.declaredName = some declaration ∧
      plan.constructible = .ok callee ∧ callee.identity.display.typeName = plan.name ∧
      callee.Identifies declaration := by
  obtain ⟨shape, member, declared, name, callee, callable, identity⟩ :=
    Assembly.plain_plan_callable listed plain
  obtain ⟨declaration, found, distinct, yields⟩ := Schema.shape_declared member
  have follows : callee.identity.Follows declaration := by
    rw [identity]
    exact Shape.identity_follows yields _
  rw [declared, name]
  refine ⟨declaration, callee, found, callable, ?_,
    Constructible.identifies_of_follows follows distinct⟩
  rw [identity]
  rfl

def pointDeclaration : ShapeDeclaration :=
  { name := "PointDBC"
    package := "com.acme"
    fields := [
      { name := "x", type := "Int" },
      { name := "y", type := "Int" },
      { name := "label", type := "String", excludedFromEquality := true }] }

/-- A point that is labelled anew equals what it was. -/
theorem label_does_not_identify_point :
    ∃ plan ∈ (Assembly.ofDeclarations [pointDeclaration] {}).shapePlans, plan.kind = .plain ∧
      ∃ callee, plan.constructible = .ok callee ∧
        callee.equal ⟨"com.acme.Point", [("x", "1"), ("y", "2"), ("label", "a")]⟩
          ⟨"com.acme.Point", [("x", "1"), ("y", "2"), ("label", "b")]⟩ = true ∧
        callee.display ⟨"com.acme.Point", [("x", "1"), ("y", "2"), ("label", "b")]⟩ =
          "Point(x=1, y=2, label=b)" := by
  have planned : ∃ plan ∈ (Assembly.ofDeclarations [pointDeclaration] {}).shapePlans,
      plan.kind = .plain ∧ plan.name = "Point" ∧ plan.declaredName = "com.acme.PointDBC" := by
    decide +kernel
  obtain ⟨plan, listed, plain, named, declared⟩ := planned
  obtain ⟨declaration, callee, found, callable, title, identifies⟩ :=
    identity_follows_declaration [pointDeclaration] {} plan listed plain
  rw [declared] at found
  obtain rfl : pointDeclaration = declaration := Option.some.inj found
  refine ⟨plan, listed, plain, callee, callable, ?_, ?_⟩
  · exact (identifies.equality _ _).mpr ⟨rfl, by decide +kernel⟩
  · have written := identifies.display
      ⟨"com.acme.Point", [("x", "1"), ("y", "2"), ("label", "b")]⟩
      (fun field => if field.name = "x" then "1" else if field.name = "y" then "2" else "b")
      (by decide +kernel)
    rw [written, title, named]
    decide +kernel

end ShapeCompat
