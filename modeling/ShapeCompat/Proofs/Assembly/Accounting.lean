import ShapeCompat.Proofs.Assembly.Stages
import Mathlib.Logic.Basic

/-!
Every declared name is planned once or reported, and every repetition of it is reported as one. Of
several declarations of a name the first stands for it in all stages.
-/

namespace ShapeCompat

namespace ShapeDeclaration

variable {declaration : ShapeDeclaration} {settings : Settings}
  {markerOf : String → Option Marker}

theorem structural_fault_proper {fault : StructuralFault}
    (found : declaration.structuralFault? settings markerOf = some fault) (name : String) :
    (Defect.structural name fault).isDuplicate = false := by
  cases fault with
  | duplicateShape =>
      unfold structuralFault? at found
      repeat' split at found
      all_goals cases found
  | _ => rfl

/-- A declaration that fails its check has defects, all of its own and none for being repeated. -/
theorem check_error {defects : List Defect}
    (failed : declaration.check settings markerOf = .error defects) :
    defects ≠ [] ∧ ∀ defect ∈ defects,
      defect.shape = declaration.qualifiedName ∧ defect.isDuplicate = false := by
  unfold check at failed
  split at failed
  · rename_i fault found
    cases failed
    refine ⟨List.cons_ne_nil _ _, ?_⟩
    intro defect member
    rw [List.mem_singleton.mp member]
    exact ⟨rfl, structural_fault_proper found _⟩
  · dsimp only at failed
    split at failed
    · cases failed
    · rename_i faulty
      cases failed
      refine ⟨fun none => faulty (List.map_eq_nil_iff.mp none), ?_⟩
      intro defect member
      obtain ⟨field, _, rfl⟩ := List.mem_map.mp member
      exact ⟨rfl, rfl⟩

/-- Every declaration of a name but the first is reported as repeated. -/
theorem check_all_duplicates (settings : Settings) (markerOf : String → Option Marker)
    (seen : List String) (declarations : List ShapeDeclaration) (name : String) :
    (rejected (checkAll settings markerOf seen declarations)).flatten.count
        (.structural name .duplicateShape) =
      (declarations.map (·.qualifiedName)).count name - if name ∈ seen then 0 else 1 := by
  induction declarations generalizing seen with
  | nil => simp [checkAll, rejected]
  | cons declaration rest induction =>
      have later := induction (declaration.qualifiedName :: seen)
      -- Where the name is new the declaration is not repeated, and every later one of the name is.
      rw [check_all_cons, List.map_cons, List.count_cons]
      by_cases repeated : declaration.qualifiedName ∈ seen
      · rw [if_pos repeated, rejected_cons_error, List.flatten_cons, List.count_append, later]
        by_cases same : declaration.qualifiedName = name
        · subst same
          simp [repeated]
          omega
        · simp [same, Ne.symm same]
      · rw [if_neg repeated]
        cases checked : declaration.check settings markerOf with
        | ok shape =>
            rw [rejected_cons_ok, later]
            by_cases same : declaration.qualifiedName = name
            · subst same
              simp [repeated]
            · simp [same, Ne.symm same]
        | error defects =>
            have absent : defects.count (.structural name .duplicateShape) = 0 := by
              apply List.count_eq_zero.mpr
              intro member
              have proper := ((check_error checked).2 _ member).2
              cases proper
            rw [rejected_cons_error, List.flatten_cons, List.count_append, absent, later]
            by_cases same : declaration.qualifiedName = name
            · subst same
              simp [repeated]
            · simp [same, Ne.symm same]

/-- Checking declarations, of which those named in `seen` were repeated. -/
theorem checking_accounted (settings : Settings) (markerOf : String → Option Marker)
    (seen : List String) (declarations : List ShapeDeclaration) :
    Accounted ((declarations.map (·.qualifiedName)).filter fun name => decide (name ∉ seen))
      ((accepted (checkAll settings markerOf seen declarations)).map (·.declaredQualifiedName))
      ((rejected (checkAll settings markerOf seen declarations)).flatten.filter
        fun defect => !defect.isDuplicate) := by
  induction declarations generalizing seen with
  | nil => exact Accounted.nil
  | cons declaration rest induction =>
      have later := induction (declaration.qualifiedName :: seen)
      rw [check_all_cons, List.map_cons]
      by_cases repeated : declaration.qualifiedName ∈ seen
      · rw [if_pos repeated, accepted_cons_error, rejected_cons_error, List.flatten_cons,
          List.filter_append]
        refine later.congr ?_ later.distinct (fun _ => Iff.rfl) (fun _ => Iff.rfl)
        intro name
        by_cases same : name = declaration.qualifiedName
        · simp [same, repeated]
        · simp [same]
      · have fresh : declaration.qualifiedName ∉
            (rest.map (·.qualifiedName)).filter
              fun name => decide (name ∉ declaration.qualifiedName :: seen) := by simp
        have before (name : String) :
            name ∈ (declaration.qualifiedName :: rest.map (·.qualifiedName)).filter
                (fun name => decide (name ∉ seen)) ↔
              name ∈ declaration.qualifiedName :: (rest.map (·.qualifiedName)).filter
                fun name => decide (name ∉ declaration.qualifiedName :: seen) := by
          by_cases same : name = declaration.qualifiedName
          · simp [same, repeated]
          · simp [same]
        rw [if_neg repeated]
        cases checked : declaration.check settings markerOf with
        | ok shape =>
            rw [accepted_cons_ok, rejected_cons_ok, List.map_cons, check_ok_name checked]
            have passed := later.cons_passed fresh
            exact passed.congr before passed.distinct (fun _ => Iff.rfl) (fun _ => Iff.rfl)
        | error defects =>
            obtain ⟨some, own⟩ := check_error checked
            have proper : defects.filter (fun defect => !defect.isDuplicate) = defects := by
              apply List.filter_eq_self.mpr
              intro defect member
              rw [(own defect member).2]
              rfl
            rw [accepted_cons_error, rejected_cons_error, List.flatten_cons, List.filter_append,
              proper]
            have reported := later.cons_reported fresh some own
            exact reported.congr before reported.distinct (fun _ => Iff.rfl) (fun _ => Iff.rfl)

end ShapeDeclaration

theorem Defect.duplicate_eq {defect : Defect} (duplicate : defect.isDuplicate = true) :
    defect = .structural defect.shape .duplicateShape := by
  unfold isDuplicate at duplicate
  split at duplicate
  · rfl
  · cases duplicate

/-- The schema holds exactly the names without a defect of their own. -/
theorem Schema.declarations_accounted (declarations : List ShapeDeclaration) (settings : Settings) :
    Accounted (declarations.map (·.qualifiedName))
      ((ofDeclarations declarations settings).schema.shapes.map (·.declaredQualifiedName))
      ((ofDeclarations declarations settings).defects.filter fun defect => !defect.isDuplicate) := by
  have checking := ShapeDeclaration.checking_accounted settings
    (ShapeDeclaration.markerIn? declarations) [] (ShapeDeclaration.sorted declarations)
  rw [← outcomes, ← of_declarations_unplaced, ← of_declarations_defects, List.map_map] at checking
  refine checking.congr ?_ checking.distinct (fun _ => Iff.rfl) (fun _ => Iff.rfl)
  intro name
  rw [← (ShapeDeclaration.sorted_names_perm declarations).mem_iff]
  simp

namespace Assembly

/-- The declared names of all plans that are put out, of units and of their children. -/
def plannedNames (assembly : Assembly) : List String :=
  (assembly.units.flatMap (·.shapePlans)).map (·.declaredName)

section Stages

variable (declarations : List ShapeDeclaration) (settings : Settings)

theorem planned_accounted :
    Accounted
      ((Schema.ofDeclarations declarations settings).schema.shapes.map (·.declaredQualifiedName))
      ((plannedOf declarations settings).map (·.declaredName))
      (ambiguities declarations settings) :=
  planning_accounted settings.style _ (Schema.declarations_accounted declarations settings).distinct

theorem kept_accounted :
    Accounted ((plannedOf declarations settings).map (·.declaredName))
      ((keptOf declarations settings).map (·.declaredName))
      (collisions (plannedOf declarations settings)) :=
  collisions_accounted _ (planned_accounted declarations settings).distinct

theorem output_accounted :
    Accounted ((keptOf declarations settings).map (·.declaredName))
      (ofDeclarations declarations settings).plannedNames (orphans declarations settings) :=
  nesting_accounted _ _ (kept_accounted declarations settings).distinct

/-- Behind the checks of the declarations every stage accounts for the names that it is given. -/
theorem stages_accounted :
    Accounted
      ((Schema.ofDeclarations declarations settings).schema.shapes.map (·.declaredQualifiedName))
      (ofDeclarations declarations settings).plannedNames
      (ambiguities declarations settings ++
        (collisions (plannedOf declarations settings) ++ orphans declarations settings)) :=
  (planned_accounted declarations settings).trans
    ((kept_accounted declarations settings).trans (output_accounted declarations settings))

theorem declarations_accounted :
    Accounted (declarations.map (·.qualifiedName))
      (ofDeclarations declarations settings).plannedNames
      ((ofDeclarations declarations settings).defects.filter fun defect => !defect.isDuplicate) := by
  have checking := Schema.declarations_accounted declarations settings
  have stages := stages_accounted declarations settings
  have all := (defects_perm declarations settings).filter fun defect => !defect.isDuplicate
  have proper : (ambiguities declarations settings ++
      (collisions (plannedOf declarations settings) ++ orphans declarations settings)).filter
        (fun defect => !defect.isDuplicate) =
      ambiguities declarations settings ++
        (collisions (plannedOf declarations settings) ++ orphans declarations settings) := by
    apply List.filter_eq_self.mpr
    intro defect member
    rw [stages.proper defect member]
    rfl
  rw [List.filter_append, proper] at all
  exact (checking.trans stages).congr (fun _ => Iff.rfl) stages.distinct (fun _ => Iff.rfl)
    fun _ => all.mem_iff

theorem duplicates_counted (name : String) :
    (ofDeclarations declarations settings).defects.count (.structural name .duplicateShape) =
      (declarations.map (·.qualifiedName)).count name - 1 := by
  have stages := stages_accounted declarations settings
  have none : (ambiguities declarations settings ++
      (collisions (plannedOf declarations settings) ++ orphans declarations settings)).count
        (.structural name .duplicateShape) = 0 := by
    apply List.count_eq_zero.mpr
    intro member
    have proper := stages.proper _ member
    cases proper
  have order := ShapeDeclaration.sorted_names_perm declarations
  have checked := ShapeDeclaration.check_all_duplicates settings
    (ShapeDeclaration.markerIn? declarations) [] (ShapeDeclaration.sorted declarations) name
  rw [← Schema.outcomes, ← Schema.of_declarations_defects, if_neg List.not_mem_nil] at checked
  rw [(defects_perm declarations settings).count_eq, List.count_append, none, Nat.add_zero,
    ← order.count_eq]
  exact checked

end Stages

theorem duplicate_or_proper {defects : List Defect} {defect : Defect} (member : defect ∈ defects) :
    defect = .structural defect.shape .duplicateShape ∨
      defect ∈ defects.filter fun defect => !defect.isDuplicate := by
  cases duplicate : defect.isDuplicate with
  | true => exact .inl (Defect.duplicate_eq duplicate)
  | false => exact .inr (List.mem_filter.mpr ⟨member, by rw [duplicate]; rfl⟩)

/-- Every declared name is planned exactly once without a defect of its own, or is not planned and has
one; each repetition of its declaration is one more defect. Nothing else is planned or reported. -/
theorem every_declaration_is_planned_or_reported (declarations : List ShapeDeclaration)
    (settings : Settings) :
    (∀ name ∈ declarations.map (·.qualifiedName),
      (ofDeclarations declarations settings).defects.count (.structural name .duplicateShape) =
        (declarations.map (·.qualifiedName)).count name - 1 ∧
      Xor
        ((ofDeclarations declarations settings).plannedNames.count name = 1 ∧
          ∀ defect ∈ (ofDeclarations declarations settings).defects, defect.shape = name →
            defect = .structural name .duplicateShape)
        ((ofDeclarations declarations settings).plannedNames.count name = 0 ∧
          ∃ defect ∈ (ofDeclarations declarations settings).defects, defect.shape = name ∧
            defect ≠ .structural name .duplicateShape)) ∧
    (∀ name ∈ (ofDeclarations declarations settings).plannedNames,
      name ∈ declarations.map (·.qualifiedName)) ∧
    ∀ defect ∈ (ofDeclarations declarations settings).defects,
      defect.shape ∈ declarations.map (·.qualifiedName) := by
  have accounted := declarations_accounted declarations settings
  refine ⟨?_, ?_, ?_⟩
  · intro name declared
    refine ⟨duplicates_counted declarations settings name, ?_⟩
    by_cases planned : name ∈ (ofDeclarations declarations settings).plannedNames
    · have clean := ((accounted.settled name).mp planned).2
      have once := List.count_eq_one_of_mem accounted.distinct planned
      refine .inl ⟨⟨once, ?_⟩, ?_⟩
      · intro defect member same
        rcases duplicate_or_proper member with duplicate | proper
        · rw [duplicate, same]
        · exact (clean defect proper same).elim
      · intro both
        rcases both with ⟨absent, _⟩
        omega
    · have absent := List.count_eq_zero.mpr planned
      have reported : ∃ defect ∈ (ofDeclarations declarations settings).defects,
          defect.shape = name ∧ defect ≠ .structural name .duplicateShape := by
        by_contra clean
        refine planned ((accounted.settled name).mpr ⟨declared, ?_⟩)
        intro defect member same
        obtain ⟨listed, proper⟩ := List.mem_filter.mp member
        refine clean ⟨defect, listed, same, ?_⟩
        intro same
        subst same
        cases proper
      refine .inr ⟨⟨absent, reported⟩, ?_⟩
      intro both
      rcases both with ⟨once, _⟩
      omega
  · intro name planned
    exact ((accounted.settled name).mp planned).1
  · intro defect member
    rcases duplicate_or_proper member with duplicate | proper
    · have positive := List.count_pos_iff.mpr member
      rw [duplicate, duplicates_counted] at positive
      exact List.count_pos_iff.mp (by omega)
    · exact accounted.reported defect proper

def repeatedPoint : List ShapeDeclaration :=
  [{ name := "PointDBC", package := "com.acme" }, { name := "PointDBC", package := "com.acme" }]

/-- The second declaration of a point is reported, which alone says nothing about its plan. -/
theorem repeated_point_is_accounted_for :
    "com.acme.PointDBC" ∈ repeatedPoint.map (·.qualifiedName) ∧
    (ofDeclarations repeatedPoint {}).defects.count
      (.structural "com.acme.PointDBC" .duplicateShape) = 1 ∧
    Xor
      ((ofDeclarations repeatedPoint {}).plannedNames.count "com.acme.PointDBC" = 1 ∧
        ∀ defect ∈ (ofDeclarations repeatedPoint {}).defects,
          defect.shape = "com.acme.PointDBC" →
            defect = .structural "com.acme.PointDBC" .duplicateShape)
      ((ofDeclarations repeatedPoint {}).plannedNames.count "com.acme.PointDBC" = 0 ∧
        ∃ defect ∈ (ofDeclarations repeatedPoint {}).defects,
          defect.shape = "com.acme.PointDBC" ∧
            defect ≠ .structural "com.acme.PointDBC" .duplicateShape) := by
  have names : repeatedPoint.map (·.qualifiedName) =
      ["com.acme.PointDBC", "com.acme.PointDBC"] := by
    decide +kernel
  have declared : "com.acme.PointDBC" ∈ repeatedPoint.map (·.qualifiedName) := by
    rw [names]
    decide
  obtain ⟨settled, _, _⟩ := every_declaration_is_planned_or_reported repeatedPoint {}
  obtain ⟨counted, outcome⟩ := settled "com.acme.PointDBC" declared
  refine ⟨declared, ?_, outcome⟩
  rw [counted, names]
  decide

end Assembly

end ShapeCompat
