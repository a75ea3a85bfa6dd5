import ShapeCompat.Proofs.Assembly.Accounting
import ShapeCompat.Proofs.Lists

/-!
The names that plans are put out under. Each is the one that the shape claimed when collisions were
looked for, and the one that the name table has for its declaration; so no two plans share a name.
-/

namespace ShapeCompat

/-- A nested name is qualified behind its parent's qualified name. -/
theorem qualify_nested (package outer inner : String) :
    qualify package (outer ++ "." ++ inner) = qualify package outer ++ "." ++ inner := by
  unfold qualify
  split
  · rfl
  · simp only [String.append_assoc]

/-- Of items with distinct keys, each of which is registered or passed over in turn, every one is
found by its own key, and all other names are as they were before. -/
theorem NameTable.resolve_registered {Item : Type} {step : NameTable → Item → NameTable}
    (key : Item → String) (output? : Item → Option OutputName)
    (registers : ∀ table item,
      step table item = ((output? item).map (table.register (key item))).getD table)
    (items : List Item) (distinct : (items.map key).Nodup) (table : NameTable) (name : String) :
    (items.foldl step table).resolve? name =
      ((items.find? (key · == name)).bind output?).or (table.resolve? name) := by
  induction items generalizing table with
  | nil => rfl
  | cons item rest induction =>
      rw [List.map_cons, List.nodup_cons] at distinct
      rw [List.foldl_cons, registers, induction distinct.2, List.find?_cons]
      by_cases here : key item = name
      · subst here
        have absent : rest.find? (key · == key item) = none := by
          rw [List.find?_eq_none]
          intro other member same
          rw [beq_iff_eq] at same
          exact distinct.1 (same ▸ List.mem_map_of_mem member)
        rw [absent, beq_self_eq_true]
        cases made : output? item with
        | none => simp [made]
        | some output => simp [made, resolve_register]
      · rw [beq_false_of_ne here]
        cases output? item with
        | none => rfl
        | some output =>
            rw [Option.map_some, Option.getD_some, resolve_register_ne table output (Ne.symm here)]

namespace Assembly

/-- No two of the shapes that are kept claim the same name. -/
theorem kept_claims_distinct (planned : List PlannedShape) :
    ((uncontested planned).map (·.claimedName planned)).Nodup := by
  have claimed : (uncontested planned).map (·.claimedName planned) =
      ((withClaims planned).filter fun claim =>
        !isContested ((withClaims planned).map (·.2)) claim.2).map (·.2) := by
    simp only [uncontested, List.map_map]
    apply List.map_congr_left
    intro claim member
    obtain ⟨shape, _, rfl⟩ := List.mem_map.mp (List.mem_filter.mp member).1
    rfl
  rw [claimed, List.nodup_iff_count_le_one]
  intro name
  by_cases listed : name ∈ ((withClaims planned).filter fun claim =>
      !isContested ((withClaims planned).map (·.2)) claim.2).map (·.2)
  · obtain ⟨claim, member, rfl⟩ := List.mem_map.mp listed
    have single := (List.mem_filter.mp member).2
    simp only [isContested, Bool.not_eq_true', decide_eq_false_iff_not, Nat.not_lt] at single
    exact Nat.le_trans ((List.filter_sublist.map _).count_le _) single
  · rw [List.count_eq_zero.mpr listed]
    exact Nat.zero_le _

theorem nested_distinct {kept : List PlannedShape} (distinct : (kept.map (·.declaredName)).Nodup) :
    ((nested kept).map (·.declaredName)).Nodup :=
  distinct.sublist (List.filter_sublist.map _)

/-- A child whose parent was found has its nested name there, every other shape its own. -/
theorem resolve_name_table {kept : List PlannedShape}
    (distinct : (kept.map (·.declaredName)).Nodup) (name : String) :
    (nameTable kept).resolve? name =
      (((nested kept).find? (·.declaredName == name)).bind fun child =>
        (parentOf? kept child).map fun root => root.nestedName child).or
      ((kept.find? (·.declaredName == name)).map (·.outputName)) := by
  have own : (kept.foldl (fun (table : NameTable) (shape : PlannedShape) =>
        table.register shape.declaredName shape.outputName) {}).resolve? name =
      (kept.find? (·.declaredName == name)).map (·.outputName) := by
    have registered := NameTable.resolve_registered PlannedShape.declaredName
      (fun shape : PlannedShape => some shape.outputName) (fun _ _ => rfl) kept distinct {} name
    apply registered.trans
    cases kept.find? (·.declaredName == name) <;> rfl
  unfold nameTable
  rw [NameTable.resolve_registered PlannedShape.declaredName
      (fun child => (parentOf? kept child).map fun root => root.nestedName child)
      (fun table child => by cases parentOf? kept child <;> rfl) _ (nested_distinct distinct), own]

section Batch

variable {declarations : List ShapeDeclaration} {settings : Settings} {shape root : PlannedShape}
  {plan : ShapePlan}

theorem kept_qualified (member : shape ∈ keptOf declarations settings) :
    shape.plan.qualifiedName = shape.outputName.qualified := by
  obtain ⟨_, _, _, _, fits⟩ := mem_planned (kept_planned member)
  exact fits.qualified

theorem nested_plan_qualified (member : root ∈ keptOf declarations settings) :
    (root.nestedPlan shape).qualifiedName =
      root.plan.qualifiedName ++ "." ++ (root.nestedPlan shape).name := by
  rw [kept_qualified member]
  exact qualify_nested _ _ _

/-- The name that a shape is put out under is the one that it claimed. -/
theorem output_plan_claimed
    (found : outputPlan? (keptOf declarations settings) shape = some plan) :
    plan.qualifiedName = shape.claimedName (plannedOf declarations settings) := by
  rcases output_plan_cases found with ⟨free, rfl⟩ | ⟨root, placed, rfl⟩
  · rw [PlannedShape.claimedName, free]
  · obtain ⟨member, _, enclosed⟩ := parent_of_some placed
    have outer := find_of_distinct PlannedShape.declaredName _
      (planned_accounted declarations settings).distinct (kept_planned member)
    rw [nested_plan_qualified member, PlannedShape.claimedName, enclosed]
    simp only [outer]
    rfl

theorem plan_names_distinct (declarations : List ShapeDeclaration) (settings : Settings) :
    ((ofDeclarations declarations settings).shapePlans.map (·.qualifiedName)).Nodup := by
  have plans := unit_plans_perm (kept_accounted declarations settings).distinct
  have names := map_filter_map (keptOf declarations settings)
    (outputPlan? (keptOf declarations settings))
    (·.claimedName (plannedOf declarations settings)) (·.qualifiedName)
    fun shape _ plan found => output_plan_claimed found
  apply (plans.map (·.qualifiedName)).nodup_iff.mpr
  rw [names]
  exact (kept_claims_distinct _).sublist (List.filter_sublist.map _)

/-- The table has, for every shape that is put out, the name that it is put out under. -/
theorem name_table_resolves (member : shape ∈ keptOf declarations settings)
    (found : outputPlan? (keptOf declarations settings) shape = some plan) :
    ∃ output, (nameTable (keptOf declarations settings)).resolve? plan.declaredName = some output ∧
      output.qualified = plan.qualifiedName := by
  have distinct := (kept_accounted declarations settings).distinct
  have shapeFound := find_of_distinct PlannedShape.declaredName _ distinct member
  rw [output_plan_declared found, resolve_name_table distinct, shapeFound]
  rcases output_plan_cases found with ⟨free, rfl⟩ | ⟨root, placed, rfl⟩
  · have absent : (nested (keptOf declarations settings)).find?
        (·.declaredName == shape.declaredName) = none := by
      rw [List.find?_eq_none]
      intro child listed same
      rw [beq_iff_eq] at same
      obtain ⟨childMember, enclosed⟩ := mem_nested.mp listed
      rw [List.inj_on_of_nodup_map distinct childMember member same, free] at enclosed
      cases enclosed
    rw [absent]
    exact ⟨_, rfl, (kept_qualified member).symm⟩
  · have enclosed := (parent_of_some placed).2.2
    have listed : shape ∈ nested (keptOf declarations settings) :=
      mem_nested.mpr ⟨member, by rw [enclosed]; rfl⟩
    have children := nested_distinct distinct
    rw [find_of_distinct PlannedShape.declaredName _ children listed, Option.bind_some, placed]
    exact ⟨_, rfl, rfl⟩

end Batch

end Assembly

end ShapeCompat
