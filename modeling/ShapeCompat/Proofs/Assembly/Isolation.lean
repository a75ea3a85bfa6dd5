import ShapeCompat.Proofs.Assembly.Absence
import ShapeCompat.Proofs.Assembly.Faults

/-!
One declaration more in a batch. What it adds is under its own name, unless it takes part in a
collision of output names; and where it is reported for another reason it adds no plan at all.
-/

namespace ShapeCompat

namespace ShapeDeclaration

variable {before after : List ShapeDeclaration} {added : ShapeDeclaration}

theorem without_added
    (fresh : ∀ other ∈ before ++ after, other.qualifiedName ≠ added.qualifiedName) :
    without added.qualifiedName (before ++ added :: after) = before ++ after := by
  have others := List.filter_eq_self.mpr fun other member => bne_iff_ne.mpr (fresh other member)
  rw [List.filter_append] at others
  simpa [without] using others

theorem unreferenced_added
    (unreferenced : ∀ other ∈ before ++ after, other.parent ≠ some added.qualifiedName) :
    Unreferenced added.qualifiedName (before ++ added :: after) := by
  intro other member different
  apply unreferenced
  rcases List.mem_append.mp member with earlier | later
  · exact List.mem_append_left _ earlier
  · rcases List.mem_cons.mp later with rfl | later
    · exact (different rfl).elim
    · exact List.mem_append_right _ later

theorem added_once
    (fresh : ∀ other ∈ before ++ after, other.qualifiedName ≠ added.qualifiedName) :
    ((before ++ added :: after).map (·.qualifiedName)).count added.qualifiedName = 1 := by
  have absent : ((before ++ after).map (·.qualifiedName)).count added.qualifiedName = 0 := by
    rw [List.count_eq_zero]
    intro again
    obtain ⟨other, member, same⟩ := List.mem_map.mp again
    exact fresh other member same
  rw [List.map_append, List.count_append] at absent
  rw [List.map_append, List.map_cons, List.count_append, List.count_cons_self]
  omega

end ShapeDeclaration

namespace Assembly

open ShapeDeclaration

/-- All that one assembly has beyond another is under one name, with no more than one plan. -/
structure AddsOnly (name : String) (wider narrower : Assembly) : Prop where
  plans : (wider.shapePlans.filter (·.declaredName != name)).Perm narrower.shapePlans
  own_plan : (wider.shapePlans.filter (·.declaredName == name)).length ≤ 1
  defects : (wider.defects.filter (·.shape != name)).Perm narrower.defects

section Reports

variable {declarations : List ShapeDeclaration} {settings : Settings} {name : String}

theorem adds_only_of_no_collision (free : Unreferenced name declarations)
    (alone : ∀ collision ∈ collisions (plannedOf declarations settings), collision.shape ≠ name) :
    AddsOnly name (ofDeclarations declarations settings)
      (ofDeclarations (without name declarations) settings) where
  plans := plans_without free alone
  own_plan :=
    filter_key_length_le_one _ _ (declarations_accounted declarations settings).distinct name
  defects := defects_without free alone

theorem collision_is_defect {collision : Defect}
    (member : collision ∈ collisions (plannedOf declarations settings)) :
    collision ∈ (ofDeclarations declarations settings).defects := by
  rw [(defects_perm declarations settings).mem_iff]
  simp only [List.mem_append]
  exact .inr (.inr (.inl member))

/-- A defect of a name that is declared once does not report a repetition. -/
theorem proper_of_once {defect : Defect}
    (once : (declarations.map (·.qualifiedName)).count name = 1)
    (listed : defect ∈ (ofDeclarations declarations settings).defects)
    (own : defect.shape = name) : defect.isDuplicate = false := by
  cases duplicate : defect.isDuplicate with
  | false => rfl
  | true =>
      have counted := List.count_pos_iff.mpr listed
      rw [Defect.duplicate_eq duplicate, own, duplicates_counted, once] at counted
      cases counted

/-- A name that has a defect of another kind takes part in no collision: the stages before have not
passed it on, or the collisions have passed it on to the stage behind. -/
theorem no_collision_of_defect {defect : Defect} (proper : defect.isDuplicate = false)
    (listed : defect ∈ (ofDeclarations declarations settings).defects)
    (own : defect.shape = name)
    (apart : ∀ output, defect ≠ .structural name (.duplicateOutputName output)) :
    ∀ collision ∈ collisions (plannedOf declarations settings), collision.shape ≠ name := by
  intro collision member same
  have collided := kept_accounted declarations settings
  have passed := collided.reported collision member
  have planned := planned_accounted declarations settings
  have sound := ((planned.settled _).mp passed).1
  have checked := Schema.declarations_accounted declarations settings
  rw [(defects_perm declarations settings).mem_iff] at listed
  simp only [List.mem_append] at listed
  rcases listed with faulty | ambiguous | colliding | orphaned
  · refine ((checked.settled _).mp sound).2 defect (List.mem_filter.mpr ⟨faulty, ?_⟩)
      (own.trans same.symm)
    rw [proper]
    rfl
  · exact ((planned.settled _).mp passed).2 defect ambiguous (own.trans same.symm)
  · obtain ⟨shape, _, rfl⟩ := mem_collisions colliding
    change shape.declaredName = name at own
    subst own
    exact apart _ rfl
  · have kept := (output_accounted declarations settings).reported defect orphaned
    exact ((collided.settled _).mp kept).2 collision member (same.trans own.symm)

/-- Shapes of a name with a defect are not put out, so the units do without them. -/
theorem units_without_defect {defect : Defect} (free : Unreferenced name declarations)
    (alone : ∀ collision ∈ collisions (plannedOf declarations settings), collision.shape ≠ name)
    (listed : defect ∈ (ofDeclarations declarations settings).defects)
    (own : defect.shape = name) (proper : defect.isDuplicate = false) :
    (ofDeclarations declarations settings).units =
      (ofDeclarations (without name declarations) settings).units := by
  have accounted := declarations_accounted declarations settings
  have distinct := (kept_accounted declarations settings).distinct
  have absent : ∀ shape ∈ keptOf declarations settings, shape.declaredName = name →
      outputPlan? (keptOf declarations settings) shape = none := by
    intro shape member here
    cases found : outputPlan? (keptOf declarations settings) shape with
    | none => rfl
    | some plan =>
        have put : plan ∈ (unitsOf (keptOf declarations settings)).flatMap (·.shapePlans) :=
          (unit_plans_perm distinct).mem_iff.mpr (List.mem_filterMap.mpr ⟨shape, member, found⟩)
        have planned : plan.declaredName ∈ (ofDeclarations declarations settings).plannedNames :=
          List.mem_map_of_mem put
        have clean := ((accounted.settled _).mp planned).2
        refine (clean defect (List.mem_filter.mpr ⟨listed, by simp [proper]⟩) ?_).elim
        rw [own, output_plan_declared found, here]
  change unitsOf (keptOf declarations settings) =
    unitsOf (keptOf (without name declarations) settings)
  rw [kept_without free alone, units_without absent]

end Reports

/-- A declaration that no other one shares its name with or is enclosed in, and that is in no
collision of output names, adds at most its own plan and its own defects. If it has a defect of any
other kind, the units are the same as without it. -/
theorem added_declaration_is_isolated (before after : List ShapeDeclaration)
    (added : ShapeDeclaration) (settings : Settings)
    (fresh : ∀ other ∈ before ++ after, other.qualifiedName ≠ added.qualifiedName)
    (unreferenced : ∀ other ∈ before ++ after, other.parent ≠ some added.qualifiedName) :
    ((∀ output, .structural added.qualifiedName (.duplicateOutputName output) ∉
        (ofDeclarations (before ++ added :: after) settings).defects) →
      AddsOnly added.qualifiedName (ofDeclarations (before ++ added :: after) settings)
        (ofDeclarations (before ++ after) settings)) ∧
    ∀ defect ∈ (ofDeclarations (before ++ added :: after) settings).defects,
      defect.shape = added.qualifiedName →
      (∀ output, defect ≠ .structural added.qualifiedName (.duplicateOutputName output)) →
      AddsOnly added.qualifiedName (ofDeclarations (before ++ added :: after) settings)
          (ofDeclarations (before ++ after) settings) ∧
        (ofDeclarations (before ++ added :: after) settings).units =
          (ofDeclarations (before ++ after) settings).units := by
  have free := unreferenced_added unreferenced
  rw [← without_added fresh]
  constructor
  · intro clear
    apply adds_only_of_no_collision free
    intro collision member own
    have listed := collision_is_defect member
    obtain ⟨shape, _, rfl⟩ := mem_collisions member
    change shape.declaredName = added.qualifiedName at own
    rw [own] at listed
    exact clear _ listed
  · intro defect listed own apart
    have proper := proper_of_once (added_once fresh) listed own
    have alone := no_collision_of_defect proper listed own apart
    exact ⟨adds_only_of_no_collision free alone, units_without_defect free alone listed own proper⟩

def acmePoint : ShapeDeclaration := { name := "PointDBC", package := "com.acme" }

def acmeClass : ShapeDeclaration :=
  { name := "NoteDBC", package := "com.acme", kind := .concreteClass }

/-- A class behind a point is reported, and the point is planned as if it were alone. -/
theorem class_leaves_point_alone :
    (∀ other ∈ [acmePoint] ++ [], other.qualifiedName ≠ acmeClass.qualifiedName) ∧
      (∀ other ∈ [acmePoint] ++ [], other.parent ≠ some acmeClass.qualifiedName) ∧
      AddsOnly acmeClass.qualifiedName (ofDeclarations ([acmePoint] ++ acmeClass :: []) {})
        (ofDeclarations ([acmePoint] ++ []) {}) ∧
      (ofDeclarations ([acmePoint] ++ acmeClass :: []) {}).units =
        (ofDeclarations ([acmePoint] ++ []) {}).units := by
  have fresh : ∀ other ∈ [acmePoint] ++ [], other.qualifiedName ≠ acmeClass.qualifiedName := by
    decide +kernel
  have unreferenced : ∀ other ∈ [acmePoint] ++ [],
      other.parent ≠ some acmeClass.qualifiedName := by
    decide +kernel
  have reported : .structural acmeClass.qualifiedName (.notAnInterface .concreteClass) ∈
      (ofDeclarations ([acmePoint] ++ acmeClass :: []) {}).defects := by
    rw [mem_structural_defects (by simp) (by simp)]
    refine ⟨acmeClass, ?_, rfl⟩
    rw [List.singleton_append, first_cons, if_neg (fresh acmePoint (by simp)), first_cons,
      if_pos rfl]
  have isolated := (added_declaration_is_isolated [acmePoint] [] acmeClass {} fresh unreferenced).2
  exact ⟨fresh, unreferenced, isolated _ reported rfl (by simp)⟩

end Assembly

end ShapeCompat
