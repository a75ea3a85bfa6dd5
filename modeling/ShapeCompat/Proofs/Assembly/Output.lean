import ShapeCompat.Assembly
import Mathlib.Data.List.Nodup
import Mathlib.Data.List.Perm.Basic

/-!
What is put out for each kept shape on its own: its plan when it has no parent, its nested plan when
its parent has a unit, and else nothing. The units together hold exactly these plans, so later
results look at shapes one by one and never at the merging of families.
-/

namespace ShapeCompat

namespace Assembly

/-- All plans that are put out, of units and of their children. -/
def shapePlans (assembly : Assembly) : List ShapePlan := assembly.units.flatMap (·.shapePlans)

/-- The plan of a kept shape as it is put out, if it is. -/
def outputPlan? (kept : List PlannedShape) (shape : PlannedShape) : Option ShapePlan :=
  match shape.parent with
  | none => some shape.plan
  | some _ => (parentOf? kept shape).map fun root => root.nestedPlan shape

variable {kept : List PlannedShape} {shape root : PlannedShape} {plan : ShapePlan}

theorem mem_roots : shape ∈ roots kept ↔ shape ∈ kept ∧ shape.parent = none := by
  simp [roots]

theorem mem_nested : shape ∈ nested kept ↔ shape ∈ kept ∧ shape.parent.isSome = true := by
  simp [nested]

theorem mem_units {unit : OutputUnit} :
    unit ∈ unitsOf kept ↔ ∃ root ∈ roots kept, root.unit (nested kept) = unit := by
  rw [unitsOf, (List.mergeSort_perm _ _).mem_iff, List.mem_map]

/-- The shapes that go into a root's unit are the kept ones that name it as parent. -/
theorem mem_own :
    shape ∈ (nested kept).filter root.isChildOf ↔
      shape ∈ kept ∧ shape.parent = some root.declaredName := by
  rw [List.mem_filter, mem_nested, PlannedShape.isChildOf, beq_iff_eq]
  constructor
  · intro both
    exact ⟨both.1.1, both.2⟩
  · intro both
    exact ⟨⟨both.1, by rw [both.2]; rfl⟩, both.2⟩

theorem mem_children :
    plan ∈ (root.unit (nested kept)).children ↔
      ∃ child ∈ kept, child.parent = some root.declaredName ∧ root.nestedPlan child = plan := by
  rw [PlannedShape.unit, (List.mergeSort_perm _ _).mem_iff, List.mem_map]
  simp only [mem_own, and_assoc]

theorem parent_of_some (found : parentOf? kept shape = some root) :
    root ∈ kept ∧ root.parent = none ∧ shape.parent = some root.declaredName := by
  have member := mem_roots.mp (List.mem_of_find?_eq_some found)
  have child := List.find?_some found
  rw [PlannedShape.isChildOf, beq_iff_eq] at child
  exact ⟨member.1, member.2, child⟩

/-- A shape is put out as it was planned or within its parent's unit. -/
theorem output_plan_cases (found : outputPlan? kept shape = some plan) :
    (shape.parent = none ∧ plan = shape.plan) ∨
      ∃ root, parentOf? kept shape = some root ∧ plan = root.nestedPlan shape := by
  unfold outputPlan? at found
  cases enclosed : shape.parent with
  | none =>
      rw [enclosed] at found
      cases found
      exact .inl ⟨rfl, rfl⟩
  | some parent =>
      rw [enclosed] at found
      obtain ⟨root, placed, rfl⟩ := Option.map_eq_some_iff.mp found
      exact .inr ⟨root, placed, rfl⟩

theorem output_plan_of_root (free : shape.parent = none) :
    outputPlan? kept shape = some shape.plan := by
  rw [outputPlan?, free]

theorem output_plan_of_nested (nested : shape.parent.isSome = true) :
    outputPlan? kept shape = (parentOf? kept shape).map fun root => root.nestedPlan shape := by
  obtain ⟨parent, enclosed⟩ := Option.isSome_iff_exists.mp nested
  rw [outputPlan?, enclosed]

theorem output_plan_declared (found : outputPlan? kept shape = some plan) :
    plan.declaredName = shape.declaredName := by
  rcases output_plan_cases found with ⟨_, rfl⟩ | ⟨_, _, rfl⟩
  · rfl
  · rfl

/-- A child is in the unit of the root that it is found at, and in no other. -/
theorem own_plan_eq (distinct : (roots kept).Pairwise fun first second =>
      first.declaredName ≠ second.declaredName) (child : PlannedShape) :
    ((roots kept).flatMap fun root =>
        if root.isChildOf child then [root.nestedPlan child] else []) =
      ((parentOf? kept child).map fun root => root.nestedPlan child).toList := by
  unfold parentOf?
  generalize roots kept = all at distinct ⊢
  induction all with
  | nil => rfl
  | cons root rest induction =>
      rw [List.pairwise_cons] at distinct
      rw [List.flatMap_cons, List.find?_cons]
      cases own : root.isChildOf child with
      | false => exact induction distinct.2
      | true =>
          have others : ∀ other ∈ rest,
              (if other.isChildOf child then [other.nestedPlan child] else []) = [] := by
            intro other member
            apply if_neg
            intro again
            rw [PlannedShape.isChildOf, beq_iff_eq] at own again
            rw [own, Option.some.injEq] at again
            exact distinct.1 other member again
          rw [List.flatMap_eq_nil_iff.mpr others]
          rfl

/-- Each child once, by units or one by one. -/
theorem nested_plans_perm (distinct : (roots kept).Pairwise fun first second =>
      first.declaredName ≠ second.declaredName) (children : List PlannedShape) :
    ((roots kept).flatMap fun root =>
        (children.filter root.isChildOf).map root.nestedPlan).Perm
      (children.filterMap fun child =>
        (parentOf? kept child).map fun root => root.nestedPlan child) := by
  induction children with
  | nil => simp
  | cons child rest induction =>
      have split : ((roots kept).flatMap fun root =>
            ((child :: rest).filter root.isChildOf).map root.nestedPlan) =
          (roots kept).flatMap fun root =>
            (if root.isChildOf child then [root.nestedPlan child] else []) ++
              (rest.filter root.isChildOf).map root.nestedPlan := by
        congr 1
        funext root
        by_cases own : root.isChildOf child = true
        · simp [own]
        · simp [own]
      rw [split]
      apply (List.flatMap_append_perm _ _ _).symm.trans
      rw [own_plan_eq distinct child, List.filterMap_cons]
      cases parentOf? kept child with
      | none => exact induction
      | some root => exact induction.cons _

theorem roots_nested_perm (kept : List PlannedShape) : (roots kept ++ nested kept).Perm kept := by
  have complement : nested kept = kept.filter fun shape => !shape.parent.isNone := by
    simp [nested]
  rw [complement]
  exact List.filter_append_perm _ _

theorem roots_distinct (distinct : (kept.map (·.declaredName)).Nodup) :
    (roots kept).Pairwise fun first second => first.declaredName ≠ second.declaredName := by
  rw [List.nodup_iff_pairwise_ne, List.pairwise_map] at distinct
  exact distinct.filter _

/-- The plans of all units. -/
theorem unit_plans_perm (distinct : (kept.map (·.declaredName)).Nodup) :
    ((unitsOf kept).flatMap (·.shapePlans)).Perm (kept.filterMap (outputPlan? kept)) := by
  have children (root : PlannedShape) :
      (root.unit (nested kept)).shapePlans.Perm
        ([root.plan] ++ ((nested kept).filter root.isChildOf).map root.nestedPlan) :=
    (List.mergeSort_perm _ _).cons root.plan
  have merged : ((unitsOf kept).flatMap (·.shapePlans)).Perm
      ((roots kept).flatMap fun root => (root.unit (nested kept)).shapePlans) := by
    apply ((List.mergeSort_perm _ _).flatMap_right _).trans
    rw [List.flatMap_map]
  apply merged.trans
  apply (List.Perm.flatMap_left _ fun root _ => children root).trans
  apply (List.flatMap_append_perm _ _ _).symm.trans
  apply List.Perm.trans _ ((roots_nested_perm kept).filterMap (outputPlan? kept))
  rw [List.filterMap_append]
  apply List.Perm.append
  · have own : (roots kept).filterMap (outputPlan? kept) = (roots kept).map (·.plan) := by
      rw [← List.filterMap_eq_map]
      apply List.filterMap_congr
      intro root member
      exact output_plan_of_root (mem_roots.mp member).2
    rw [own, List.map_eq_flatMap]
  · have own : (nested kept).filterMap (outputPlan? kept) =
        (nested kept).filterMap fun child =>
          (parentOf? kept child).map fun root => root.nestedPlan child := by
      apply List.filterMap_congr
      intro child member
      exact output_plan_of_nested (mem_nested.mp member).2
    rw [own]
    exact nested_plans_perm (roots_distinct distinct) (nested kept)

end Assembly

end ShapeCompat
