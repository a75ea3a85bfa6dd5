import ShapeCompat.Proofs.Assembly.Collisions
import ShapeCompat.Proofs.Assembly.Families
import ShapeCompat.Proofs.Assembly.Totals

/-!
The names that a plan has of its own shape. Nesting gives a child a new qualified name and hands it
on to the factory function that makes the child, but not to the type marker that stands for a child
without fields to hash: that one keeps the name which the child has outside its parent.
-/

namespace ShapeCompat

/-- The type name that is hashed for a shape none of whose fields take part in identity. -/
def ShapePlan.typeMarker? (plan : ShapePlan) : Option String :=
  plan.identity.bind fun identity =>
    match identity.hash with
    | .typeMarker typeName => some typeName
    | .fields _ => none

/-- What a plan in a unit says of its own name, where `shape` is the shape that was planned. -/
structure ShapePlan.NamesItself (plan : ShapePlan) (style : Style) (unit : OutputUnit)
    (shape : Shape) : Prop where
  declared : plan.declaredName = shape.declaredQualifiedName
  marker : plan.typeMarker? =
    if shape.kind = .plain ∧ ∀ field ∈ shape.fields, field.equality = false then
      some shape.outputQualifiedName
    else none
  root : plan = unit.shape → plan.qualifiedName = shape.outputQualifiedName
  nested : plan ∈ unit.children →
    plan.qualifiedName = unit.qualifiedName ++ "." ++ shape.outputName
  factories : unit.factories.filter (·.owner == plan.qualifiedName) =
    if shape.kind = .plain ∧ style = .callback then [shape.factory plan.qualifiedName] else []

theorem Shape.type_marker_eq (shape : Shape) (typeName : String) :
    (match (shape.identity typeName).hash with
      | .typeMarker name => some name
      | .fields _ => none) =
      if ∀ field ∈ shape.fields, field.equality = false then some typeName else none := by
  have none_takes_part : (shape.fields.filter (·.equality)).map (·.name) = [] ↔
      ∀ field ∈ shape.fields, field.equality = false := by
    simp
  unfold identity
  dsimp only
  by_cases bare : ∀ field ∈ shape.fields, field.equality = false
  · rw [if_pos (none_takes_part.mpr bare), if_pos bare]
  · rw [if_neg (mt none_takes_part.mp bare), if_neg bare]

namespace PlannedShape

variable {style : Style} {shape : Shape} {planned : PlannedShape}

/-- What a planned shape names after the shape that it was planned from. -/
theorem of_shape_names (made : ofShape style shape = .ok planned) :
    planned.plan.name = shape.outputName ∧
      planned.plan.qualifiedName = shape.outputQualifiedName ∧
      planned.plan.typeMarker? =
        (if shape.kind = .plain ∧ ∀ field ∈ shape.fields, field.equality = false then
          some shape.outputQualifiedName
        else none) ∧
      planned.plan.construction.bind (·.factory) =
        if shape.kind = .plain ∧ style = .callback then
          some (shape.factory shape.outputQualifiedName)
        else none := by
  unfold ofShape Shape.plan Shape.plainParts? at made
  cases kind : shape.kind with
  | sealedParent =>
      rw [kind] at made
      cases made
      refine ⟨rfl, rfl, ?_, ?_⟩
      · simp [ShapePlan.typeMarker?]
      · simp
  | plain =>
      rw [kind] at made
      dsimp only at made
      cases outcome : shape.construction shape.outputQualifiedName style with
      | error defect =>
          rw [outcome] at made
          cases made
      | ok construction =>
          rw [outcome] at made
          cases made
          obtain ⟨_, rfl⟩ := Shape.construction_eq_ok_iff.mp outcome
          refine ⟨rfl, rfl, ?_, ?_⟩
          · simp only [true_and]
            exact shape.type_marker_eq shape.outputQualifiedName
          · cases style <;> simp [Shape.plannedConstruction]

end PlannedShape

namespace Assembly

variable {declarations : List ShapeDeclaration} {settings : Settings}

theorem planned_shape {planned : PlannedShape} (member : planned ∈ plannedOf declarations settings) :
    ∃ shape ∈ (Schema.ofDeclarations declarations settings).schema.shapes,
      PlannedShape.ofShape settings.style shape = .ok planned := by
  rw [plannedOf, mem_accepted, List.mem_map] at member
  exact member

section Unit

variable {unit : OutputUnit} {plan : ShapePlan} {shape : Shape}

theorem unit_plan_names_distinct (member : unit ∈ (ofDeclarations declarations settings).units) :
    (unit.shapePlans.map (·.qualifiedName)).Nodup :=
  (plan_names_distinct declarations settings).sublist ((unit_plans_sublist member).map _)

/-- A factory function that is housed in a unit under the name of a plan is the only one there. -/
theorem own_factories (member : unit ∈ (ofDeclarations declarations settings).units)
    (listed : plan ∈ unit.shapePlans) (kind : plan.kind = shape.kind)
    (housed : shape.kind = .plain ∧ settings.style = .callback →
      shape.factory plan.qualifiedName ∈ unit.factories) :
    unit.factories.filter (·.owner == plan.qualifiedName) =
      if shape.kind = .plain ∧ settings.style = .callback then [shape.factory plan.qualifiedName]
      else [] := by
  have owners := unit_factory_owners member
  have distinct := unit_plan_names_distinct member
  split_ifs with both
  · rw [if_pos both.2] at owners
    have once : (unit.factories.map (·.owner)).Nodup := by
      rw [owners]
      exact distinct.sublist (List.filter_sublist.map _)
    exact filter_key_eq_singleton Factory.owner unit.factories once (housed both)
  · rw [List.filter_eq_nil_iff]
    intro factory present same
    have owned := List.mem_map_of_mem (f := Factory.owner) present
    rw [owners] at owned
    by_cases style : settings.style = .callback
    · rw [if_pos style, beq_iff_eq.mp same] at owned
      obtain ⟨other, plainOther, named⟩ := List.mem_map.mp owned
      obtain ⟨otherListed, plain⟩ := List.mem_filter.mp plainOther
      have equal := List.inj_on_of_nodup_map distinct otherListed listed named
      rw [equal, kind, decide_eq_true_eq] at plain
      exact both ⟨plain, style⟩
    · rw [if_neg style] at owned
      cases owned

end Unit

section Housing

variable {kept : List PlannedShape} {root child : PlannedShape} {factory : Factory}

theorem root_factory_housed (made : root.plan.construction.bind (·.factory) = some factory) :
    factory ∈ (root.unit (nested kept)).factories := by
  obtain ⟨construction, built, own⟩ := Option.bind_eq_some_iff.mp made
  apply List.mem_append_left
  rw [List.filterMap_filterMap, List.mem_filterMap]
  refine ⟨root.plan, List.mem_cons_self, ?_⟩
  rw [built]
  exact own

/-- The factory function of a child has its place in the unit, under the child's nested name. -/
theorem child_factory_housed (own : child ∈ (nested kept).filter root.isChildOf)
    (made : child.plan.construction.bind (·.factory) = some factory) :
    { factory with owner := (root.nestedPlan child).qualifiedName } ∈
      (root.unit (nested kept)).factories := by
  apply List.mem_append_right
  rw [PlannedShape.unit, (List.mergeSort_perm _ _).mem_iff, List.mem_filterMap]
  refine ⟨child, own, ?_⟩
  rw [PlannedShape.sharedFactory?, made]
  rfl

end Housing

/-- Every plan that is put out is of a shape in the schema. Its type marker, if it has one, is the
name that this shape has outside its parent, which is the name of the plan where it is not nested;
and the one factory function of the unit under the name of the plan makes this shape. -/
theorem nesting_renames_all_but_type_markers (declarations : List ShapeDeclaration)
    (settings : Settings) :
    ∀ unit ∈ (ofDeclarations declarations settings).units, ∀ plan ∈ unit.shapePlans,
      ∃ shape ∈ (Schema.ofDeclarations declarations settings).schema.shapes,
        plan.NamesItself settings.style unit shape := by
  intro unit member plan listed
  have distinct := unit_plan_names_distinct member
  have factories {shape : Shape} := @own_factories _ _ _ _ shape member listed
  obtain ⟨root, rootMember, rfl⟩ := unit_of_root member
  have apart : ∀ child ∈ (root.unit (nested (keptOf declarations settings))).children,
      child ≠ root.plan := by
    intro child nested same
    exact (List.nodup_cons.mp distinct).1 (List.mem_map.mpr ⟨child, nested, by rw [same]; rfl⟩)
  rcases List.mem_cons.mp listed with rfl | nestedPlan
  · obtain ⟨shape, placed, made⟩ := planned_shape (kept_planned (mem_roots.mp rootMember).1)
    have fits := PlannedShape.of_shape_ok made
    obtain ⟨name, qualified, marker, factory⟩ := PlannedShape.of_shape_names made
    refine ⟨shape, placed, fits.declared, marker, fun _ => qualified, ?_, factories fits.kind ?_⟩
    · intro nested
      exact (apart root.plan nested rfl).elim
    · intro both
      rw [if_pos both, ← qualified] at factory
      exact root_factory_housed factory
  · obtain ⟨child, childMember, enclosed, rfl⟩ := mem_children.mp nestedPlan
    obtain ⟨shape, placed, made⟩ := planned_shape (kept_planned childMember)
    have fits := PlannedShape.of_shape_ok made
    obtain ⟨name, qualified, marker, factory⟩ := PlannedShape.of_shape_names made
    refine ⟨shape, placed, fits.declared, marker, ?_, ?_, factories fits.kind ?_⟩
    · intro same
      exact (apart _ nestedPlan same).elim
    · intro _
      rw [← name]
      exact nested_plan_qualified (mem_roots.mp rootMember).1
    · intro both
      rw [if_pos both] at factory
      exact child_factory_housed (mem_own.mpr ⟨childMember, enclosed⟩) factory

theorem nested_ok_kept :
    ∃ root ∈ roots (keptOf [nestedOk, sealedResult] {}),
      ∃ child ∈ keptOf [nestedOk, sealedResult] {}, child.parent = some root.declaredName ∧
        (root.nestedPlan child).qualifiedName = "com.acme.Result.Ok" ∧
        (root.nestedPlan child).typeMarker? = some "com.acme.Ok" := by
  have sorted : ShapeDeclaration.sorted [nestedOk, sealedResult] = [nestedOk, sealedResult] :=
    List.mergeSort_of_pairwise (by decide +kernel)
  rw [keptOf, planned_of_sorted {} sorted]
  decide +kernel

/-- The factory function of a child has the name that the child is put out under. -/
theorem nested_ok_is_made_under_its_name :
    ∃ unit ∈ (ofDeclarations [nestedOk, sealedResult] {}).units, ∃ child ∈ unit.shapePlans,
      child.qualifiedName = "com.acme.Result.Ok" ∧
      ∃ shape ∈ (Schema.ofDeclarations [nestedOk, sealedResult] {}).schema.shapes,
        child.NamesItself .callback unit shape := by
  obtain ⟨root, rootMember, child, childMember, enclosed, named, _⟩ := nested_ok_kept
  have member := mem_units.mpr ⟨root, rootMember, rfl⟩
  have listed := List.mem_cons_of_mem (root.unit (nested (keptOf [nestedOk, sealedResult] {}))).shape
    (mem_children.mpr ⟨child, childMember, enclosed, rfl⟩)
  exact ⟨_, member, _, listed, named,
    nesting_renames_all_but_type_markers [nestedOk, sealedResult] {} _ member _ listed⟩

/-- What is hashed for a child without fields is not its name. -/
theorem nested_ok_is_hashed_under_another_name :
    ∃ unit ∈ (ofDeclarations [nestedOk, sealedResult] {}).units, ∃ child ∈ unit.children,
      child.typeMarker? = some "com.acme.Ok" ∧ child.qualifiedName = "com.acme.Result.Ok" := by
  obtain ⟨root, rootMember, child, childMember, enclosed, named, marked⟩ := nested_ok_kept
  exact ⟨_, mem_units.mpr ⟨root, rootMember, rfl⟩, _,
    mem_children.mpr ⟨child, childMember, enclosed, rfl⟩, marked, named⟩

end Assembly

end ShapeCompat
