import ShapeCompat.Proofs.Assembly.WellFormed

/-!
Totals of an assembly. It has fewer plans than there are declarations exactly when it reports
something, and in callback style one factory function for each plain shape, kept by the shape or
moved to the parent's unit.
-/

namespace ShapeCompat

/-- The qualified names of the plans that have a construction to call. -/
def plainNames (plans : List ShapePlan) : List String :=
  (plans.filter fun plan => decide (plan.kind = .plain)).map (·.qualifiedName)

/-- The factory functions that the shapes of a unit keep, then those moved to the unit. -/
def OutputUnit.factories (unit : OutputUnit) : List Factory :=
  (unit.shapePlans.filterMap (·.construction)).filterMap (·.factory) ++ unit.sharedFactories

theorem plain_names_flat_map (units : List OutputUnit) :
    plainNames (units.flatMap (·.shapePlans)) =
      units.flatMap fun unit => plainNames unit.shapePlans := by
  unfold plainNames
  rw [List.filter_flatMap, List.map_flatMap]

theorem kept_owners (plans : List ShapePlan) :
    ((plans.filterMap (·.construction)).filterMap (·.factory)).map (·.owner) =
      plans.filterMap (·.factoryOwner?) := by
  rw [List.filterMap_filterMap, List.map_filterMap]
  rfl

/-- Factory functions are counted by shapes and by units, and listed by units. -/
theorem factories_length (units : List OutputUnit) :
    (units.flatMap (·.factories)).length =
      (((units.flatMap (·.shapePlans)).filterMap (·.construction)).filterMap (·.factory)).length +
        (units.flatMap (·.sharedFactories)).length := by
  have parts := List.flatMap_append_perm units
    (fun unit => (unit.shapePlans.filterMap (·.construction)).filterMap (·.factory))
    (fun unit => unit.sharedFactories)
  rw [List.filterMap_flatMap, List.filterMap_flatMap, ← List.length_append]
  exact parts.length_eq.symm

namespace Assembly

variable (declarations : List ShapeDeclaration) (settings : Settings)

/-- A repetition leaves one plan fewer than declarations, and so does a name without a plan. -/
theorem planned_fewer_iff :
    (ofDeclarations declarations settings).plannedNames.length < declarations.length ↔
      (ofDeclarations declarations settings).defects ≠ [] := by
  have accounted := declarations_accounted declarations settings
  have planned : (ofDeclarations declarations settings).plannedNames ⊆
      declarations.map (·.qualifiedName) := by
    intro name member
    exact ((accounted.settled name).mp member).1
  have below := List.subperm_of_subset accounted.distinct planned
  constructor
  · intro fewer clean
    have distinct : (declarations.map (·.qualifiedName)).Nodup := by
      rw [List.nodup_iff_count_le_one]
      intro name
      have counted := duplicates_counted declarations settings name
      rw [clean, List.count_nil] at counted
      omega
    have all : declarations.map (·.qualifiedName) ⊆
        (ofDeclarations declarations settings).plannedNames := by
      intro name declared
      apply (accounted.settled name).mpr
      rw [clean]
      exact ⟨declared, by simp⟩
    have least := (List.subperm_of_subset distinct all).length_le
    rw [List.length_map] at least
    omega
  · intro reported
    by_contra enough
    obtain ⟨defect, member⟩ := List.exists_mem_of_ne_nil _ reported
    have same : (ofDeclarations declarations settings).plannedNames.Perm
        (declarations.map (·.qualifiedName)) := by
      apply below.perm_of_length_le
      rw [List.length_map]
      omega
    rcases duplicate_or_proper member with duplicate | proper
    · have positive := List.count_pos_iff.mpr member
      have once := List.nodup_iff_count_le_one.mp (same.nodup_iff.mp accounted.distinct) defect.shape
      rw [duplicate, duplicates_counted] at positive
      omega
    · have listed := same.mem_iff.mpr (accounted.reported defect proper)
      exact ((accounted.settled _).mp listed).2 defect proper rfl

variable {declarations settings}

/-- The factory functions of a unit are those of its plain shapes, under the names that these are put
out under. -/
theorem unit_factory_owners {unit : OutputUnit}
    (member : unit ∈ (ofDeclarations declarations settings).units) :
    unit.factories.map (·.owner) =
      if settings.style = .callback then plainNames unit.shapePlans else [] := by
  obtain ⟨root, rootMember, rfl⟩ := unit_of_root member
  have kept := kept_factory (mem_roots.mp rootMember).1
  have moved : (root.unit (nested (keptOf declarations settings))).children.filterMap
      (·.factoryOwner?) = [] := by
    rw [List.filterMap_eq_nil_iff]
    intro plan listed
    obtain ⟨child, _, _, rfl⟩ := mem_children.mp listed
    exact root.nested_factory child
  have plain : (root.unit (nested (keptOf declarations settings))).children.filter
      (fun plan => decide (plan.kind = .plain)) =
        (root.unit (nested (keptOf declarations settings))).children := by
    rw [List.filter_eq_self]
    intro plan listed
    obtain ⟨child, childMember, enclosed, rfl⟩ := mem_children.mp listed
    exact decide_eq_true (nested_plan_plain childMember enclosed)
  have shape : (root.unit (nested (keptOf declarations settings))).shape = root.plan := rfl
  rw [OutputUnit.factories, List.map_append, kept_owners, OutputUnit.shapePlans,
    List.filterMap_cons, moved, unit_shared_owners, shape, kept, plainNames, List.filter_cons, plain]
  by_cases style : settings.style = .callback
  · by_cases kind : root.plan.kind = .plain
    · simp [style, kind]
    · simp [style, kind]
  · simp [style]

theorem factory_owners (declarations : List ShapeDeclaration) (settings : Settings) :
    ((ofDeclarations declarations settings).units.flatMap (·.factories)).map (·.owner) =
      if settings.style = .callback then
        plainNames (ofDeclarations declarations settings).shapePlans
      else [] := by
  rw [shapePlans, plain_names_flat_map, List.map_flatMap]
  by_cases style : settings.style = .callback
  · rw [if_pos style]
    apply List.flatMap_congr
    intro unit member
    rw [unit_factory_owners member, if_pos style]
  · rw [if_neg style, List.flatMap_eq_nil_iff]
    intro unit member
    rw [unit_factory_owners member, if_neg style]

/-- No shape has two factory functions. -/
theorem factory_owners_distinct (declarations : List ShapeDeclaration) (settings : Settings) :
    (((ofDeclarations declarations settings).units.flatMap (·.factories)).map (·.owner)).Nodup := by
  rw [factory_owners]
  split_ifs
  · exact (plan_names_distinct declarations settings).sublist (List.filter_sublist.map _)
  · exact List.nodup_nil

end Assembly

end ShapeCompat
