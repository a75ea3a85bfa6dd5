import ShapeCompat.Proofs.Assembly.Names

/-!
What can be relied on in an assembly: its names, its orders, its imports and the places of its
factory functions. Units and their children are sorted lists of distinct names, and what a unit
holds besides is put together from the kept shapes of its family.
-/

namespace ShapeCompat

namespace ShapeDeclaration

theorem nested_shape_plain {declaration : ShapeDeclaration} {settings : Settings}
    {markerOf : String → Option Marker} {enclosing : String}
    (enclosed : declaration.parent = some enclosing)
    (sound : declaration.structuralFault? settings markerOf = none) :
    declaration.shapeKind = .plain := by
  unfold shapeKind
  cases marker : declaration.marker with
  | dataClass => rfl
  | sealedParent =>
      unfold structuralFault? at sound
      simp only [enclosed, marker, if_true] at sound
      repeat' split at sound
      all_goals cases sound

end ShapeDeclaration

/-- A child's factory function, if it has one, is shared under the name that the child is nested
under. -/
theorem PlannedShape.shared_factory_owner (root child : PlannedShape) :
    (root.sharedFactory? child).map (·.owner) =
      child.plan.factoryOwner?.map fun _ => (root.nestedPlan child).qualifiedName := by
  unfold sharedFactory? ShapePlan.factoryOwner?
  rw [Option.map_map, Option.map_map]
  rfl

theorem PlannedShape.nested_factory (root child : PlannedShape) :
    (root.nestedPlan child).factoryOwner? = none := by
  unfold nestedPlan ShapePlan.factoryOwner?
  cases child.plan.construction <;> rfl

namespace Assembly

open ShapeDeclaration

/-- How an assembly of declarations in a style is made up. -/
structure IsWellFormed (declarations : List ShapeDeclaration) (style : Style)
    (assembly : Assembly) : Prop where
  plans_distinct : (assembly.shapePlans.map (·.qualifiedName)).Nodup
  unit_named : ∀ unit ∈ assembly.units, unit.qualifiedName = unit.shape.qualifiedName
  units_ascending :
    assembly.units.Pairwise fun first second => first.qualifiedName < second.qualifiedName
  children_ascending : ∀ unit ∈ assembly.units,
    unit.children.Pairwise fun first second => first.qualifiedName < second.qualifiedName
  child_named : ∀ unit ∈ assembly.units, ∀ child ∈ unit.children,
    child.qualifiedName = unit.qualifiedName ++ "." ++ child.name
  plan_resolved : ∀ plan ∈ assembly.shapePlans,
    ∃ output, assembly.names.resolve? plan.declaredName = some output ∧
      output.qualified = plan.qualifiedName
  imports_ascending : ∀ unit ∈ assembly.units, unit.imports.Pairwise (· < ·)
  imports_declared : ∀ unit ∈ assembly.units, ∀ text, text ∈ unit.imports ↔
    ∃ plan ∈ unit.shapePlans, ∃ declaration,
      first? declarations plan.declaredName = some declaration ∧ text ∈ declaration.imports
  root_factory : ∀ unit ∈ assembly.units, unit.shape.factoryOwner? =
    if unit.shape.kind = .plain ∧ style = .callback then some unit.shape.qualifiedName else none
  child_factory : ∀ unit ∈ assembly.units, ∀ child ∈ unit.children, child.factoryOwner? = none
  shared_factories : ∀ unit ∈ assembly.units, unit.sharedFactories.map (·.owner) =
    if style = .callback then unit.children.map (·.qualifiedName) else []
  shared_once : ∀ unit ∈ assembly.units, style = .callback → ∀ child ∈ unit.children,
    (unit.sharedFactories.map (·.owner)).count child.qualifiedName = 1

section Lists

variable {assembly : Assembly} {unit : OutputUnit}

theorem unit_plans_sublist (member : unit ∈ assembly.units) :
    unit.shapePlans.Sublist assembly.shapePlans :=
  List.sublist_flatten_of_mem (List.mem_map_of_mem member)

theorem root_plans_sublist (units : List OutputUnit) :
    (units.map (·.shape)).Sublist (units.flatMap (·.shapePlans)) := by
  induction units with
  | nil => exact List.Sublist.slnil
  | cons unit rest induction =>
      rw [List.map_cons, List.flatMap_cons]
      exact (induction.trans (List.sublist_append_right _ _)).cons_cons _

end Lists

section Batch

variable {declarations : List ShapeDeclaration} {settings : Settings} {shape root : PlannedShape}

theorem unit_of_root {unit : OutputUnit}
    (member : unit ∈ (ofDeclarations declarations settings).units) :
    ∃ root ∈ roots (keptOf declarations settings),
      root.unit (nested (keptOf declarations settings)) = unit := mem_units.mp member

/-- The imports of a kept shape are those of the declaration that stands for its name. -/
theorem mem_kept_imports (member : shape ∈ keptOf declarations settings) {text : String} :
    text ∈ shape.imports ↔ ∃ declaration,
      first? declarations shape.declaredName = some declaration ∧ text ∈ declaration.imports := by
  obtain ⟨declaration, fields, found, _, fits⟩ := mem_planned (kept_planned member)
  have imports : text ∈ shape.imports ↔ text ∈ declaration.imports := by
    rw [fits.imports]
    exact mem_ascending
  rw [imports]
  constructor
  · intro listed
    exact ⟨declaration, found, listed⟩
  · intro both
    obtain ⟨other, otherFound, listed⟩ := both
    rw [found] at otherFound
    cases otherFound
    exact listed

theorem kept_factory (member : shape ∈ keptOf declarations settings) :
    shape.plan.factoryOwner? =
      if shape.plan.kind = .plain ∧ settings.style = .callback then
        some shape.plan.qualifiedName
      else none := by
  obtain ⟨_, _, _, _, fits⟩ := mem_planned (kept_planned member)
  rw [fits.factory, fits.kind]

theorem nested_plan_plain {enclosing : String} (member : shape ∈ keptOf declarations settings)
    (enclosed : shape.parent = some enclosing) : shape.plan.kind = .plain := by
  obtain ⟨declaration, _, _, sound, fits⟩ := mem_planned (kept_planned member)
  rw [fits.parent, to_shape_parent] at enclosed
  rw [fits.kind]
  exact nested_shape_plain enclosed sound

/-- In callback style every child has a factory function to share. -/
theorem shared_owners (root : PlannedShape) {children : List PlannedShape}
    (own : ∀ child ∈ children,
      child ∈ keptOf declarations settings ∧ child.parent = some root.declaredName) :
    (children.filterMap root.sharedFactory?).map (·.owner) =
      if settings.style = .callback then
        (children.map root.nestedPlan).map (·.qualifiedName)
      else [] := by
  have owner (child : PlannedShape) (listed : child ∈ children) :
      (root.sharedFactory? child).map (·.owner) =
        if settings.style = .callback then some (root.nestedPlan child).qualifiedName
        else none := by
    obtain ⟨member, enclosed⟩ := own child listed
    rw [PlannedShape.shared_factory_owner, kept_factory member, nested_plan_plain member enclosed]
    by_cases style : settings.style = .callback
    · simp [style]
    · simp [style]
  rw [List.map_filterMap, List.filterMap_congr owner]
  by_cases style : settings.style = .callback
  · simp [style]
  · simp [style]

/-- The shared factory functions are in the order of the children that they are for. -/
theorem unit_shared_owners (declarations : List ShapeDeclaration) (settings : Settings)
    (root : PlannedShape) :
    (root.unit (nested (keptOf declarations settings))).sharedFactories.map (·.owner) =
      if settings.style = .callback then
        (root.unit (nested (keptOf declarations settings))).children.map (·.qualifiedName)
      else [] := by
  have owners : (((nested (keptOf declarations settings)).filter root.isChildOf).filterMap
      root.sharedFactory?).map (·.owner) = _ :=
    shared_owners root fun _ own => mem_own.mp own
  have shared := (sorted_by_perm Factory.owner
    (((nested (keptOf declarations settings)).filter root.isChildOf).filterMap
      root.sharedFactory?)).map (·.owner)
  have children := (sorted_by_perm ShapePlan.qualifiedName
    (((nested (keptOf declarations settings)).filter root.isChildOf).map
      root.nestedPlan)).map (·.qualifiedName)
  rw [owners] at shared
  by_cases style : settings.style = .callback
  · rw [if_pos style] at shared ⊢
    apply List.Perm.eq_of_pairwise (fun _ _ _ _ => String.le_antisymm)
    · exact List.pairwise_map.mpr (sorted_by_ascending Factory.owner _)
    · exact List.pairwise_map.mpr (sorted_by_ascending ShapePlan.qualifiedName _)
    · exact shared.trans children.symm
  · rw [if_neg style] at shared ⊢
    exact shared.eq_nil

theorem mem_unit_imports (member : root ∈ roots (keptOf declarations settings)) {text : String} :
    text ∈ (root.unit (nested (keptOf declarations settings))).imports ↔
      ∃ plan ∈ (root.unit (nested (keptOf declarations settings))).shapePlans, ∃ declaration,
        first? declarations plan.declaredName = some declaration ∧ text ∈ declaration.imports := by
  have imports : text ∈ (root.unit (nested (keptOf declarations settings))).imports ↔
      text ∈ root.imports ∨ ∃ child ∈ keptOf declarations settings,
        child.parent = some root.declaredName ∧ text ∈ child.imports := by
    rw [PlannedShape.unit, mem_ascending, List.mem_append, List.mem_flatMap]
    simp only [mem_own, and_assoc]
  rw [imports, mem_kept_imports (mem_roots.mp member).1]
  constructor
  · intro either
    rcases either with own | ⟨child, listed, enclosed, imported⟩
    · exact ⟨root.plan, List.mem_cons_self, own⟩
    · refine ⟨root.nestedPlan child, List.mem_cons_of_mem _ ?_,
        (mem_kept_imports listed).mp imported⟩
      exact mem_children.mpr ⟨child, listed, enclosed, rfl⟩
  · intro both
    obtain ⟨plan, listed, imported⟩ := both
    rcases List.mem_cons.mp listed with rfl | nestedPlan
    · exact .inl imported
    · obtain ⟨child, childMember, enclosed, rfl⟩ := mem_children.mp nestedPlan
      exact .inr ⟨child, childMember, enclosed, (mem_kept_imports childMember).mpr imported⟩

/-- A unit's shape has the name of the unit, so units have distinct names as plans do. -/
theorem unit_names_distinct (declarations : List ShapeDeclaration) (settings : Settings) :
    ((ofDeclarations declarations settings).units.map (·.qualifiedName)).Nodup := by
  have named : (ofDeclarations declarations settings).units.map (·.qualifiedName) =
      ((ofDeclarations declarations settings).units.map (·.shape)).map (·.qualifiedName) := by
    rw [List.map_map]
    apply List.map_congr_left
    intro unit member
    obtain ⟨root, _, rfl⟩ := unit_of_root member
    rfl
  rw [named]
  exact (plan_names_distinct declarations settings).sublist ((root_plans_sublist _).map _)

theorem child_names_distinct {unit : OutputUnit}
    (member : unit ∈ (ofDeclarations declarations settings).units) :
    (unit.children.map (·.qualifiedName)).Nodup := by
  have names := (plan_names_distinct declarations settings).sublist
    ((unit_plans_sublist member).map (·.qualifiedName))
  exact (List.nodup_cons.mp names).2

end Batch

/-- Every assembly is well-formed: its plans have distinct names, which are in order and are what
the name table says, its imports are those declared, and its factory functions are where the style
has them. -/
theorem assembly_is_well_formed (declarations : List ShapeDeclaration) (settings : Settings) :
    IsWellFormed declarations settings.style (ofDeclarations declarations settings) where
  plans_distinct := plan_names_distinct declarations settings
  unit_named := by
    intro unit member
    obtain ⟨root, _, rfl⟩ := unit_of_root member
    rfl
  units_ascending := by
    apply strictly_of_distinct (sorted_by_ascending OutputUnit.qualifiedName _)
    exact unit_names_distinct declarations settings
  children_ascending := by
    intro unit member
    have distinct := child_names_distinct member
    obtain ⟨root, _, rfl⟩ := unit_of_root member
    exact strictly_of_distinct (sorted_by_ascending ShapePlan.qualifiedName _) distinct
  child_named := by
    intro unit member child listed
    obtain ⟨root, rootMember, rfl⟩ := unit_of_root member
    obtain ⟨shape, _, _, rfl⟩ := mem_children.mp listed
    exact nested_plan_qualified (mem_roots.mp rootMember).1
  plan_resolved := by
    intro plan member
    have plans := unit_plans_perm (kept_accounted declarations settings).distinct
    obtain ⟨shape, listed, found⟩ := List.mem_filterMap.mp (plans.mem_iff.mp member)
    exact name_table_resolves listed found
  imports_ascending := by
    intro unit member
    obtain ⟨root, _, rfl⟩ := unit_of_root member
    exact ascending_strictly _
  imports_declared := by
    intro unit member text
    obtain ⟨root, rootMember, rfl⟩ := unit_of_root member
    exact mem_unit_imports rootMember
  root_factory := by
    intro unit member
    obtain ⟨root, rootMember, rfl⟩ := unit_of_root member
    exact kept_factory (mem_roots.mp rootMember).1
  child_factory := by
    intro unit member child listed
    obtain ⟨root, _, rfl⟩ := unit_of_root member
    obtain ⟨shape, _, _, rfl⟩ := mem_children.mp listed
    exact root.nested_factory shape
  shared_factories := by
    intro unit member
    obtain ⟨root, _, rfl⟩ := unit_of_root member
    exact unit_shared_owners declarations settings root
  shared_once := by
    intro unit member style child listed
    have distinct := child_names_distinct member
    obtain ⟨root, _, rfl⟩ := unit_of_root member
    rw [unit_shared_owners, if_pos style]
    exact List.count_eq_one_of_mem distinct (List.mem_map_of_mem listed)

end Assembly

end ShapeCompat
