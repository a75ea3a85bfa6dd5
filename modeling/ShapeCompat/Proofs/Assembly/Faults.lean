import ShapeCompat.Proofs.Assembly.Accounting

/-!
Structural faults of a batch, read off its declarations: but for repetitions and collisions they are
those of the first declaration of each name, judged by the last marker of its enclosing name.
-/

namespace ShapeCompat

namespace ShapeDeclaration

variable {declaration : ShapeDeclaration} {settings : Settings}
  {markerOf : String → Option Marker} {name : String} {fault : StructuralFault}

theorem structural_of_check {defects : List Defect}
    (failed : declaration.check settings markerOf = .error defects)
    (listed : .structural name fault ∈ defects) :
    declaration.qualifiedName = name ∧
      declaration.structuralFault? settings markerOf = some fault := by
  unfold check at failed
  split at failed
  · rename_i found present
    cases failed
    cases List.mem_singleton.mp listed
    exact ⟨rfl, present⟩
  · dsimp only at failed
    split at failed
    · cases failed
    · cases failed
      obtain ⟨_, _, made⟩ := List.mem_map.mp listed
      cases made

theorem check_of_structural
    (present : declaration.structuralFault? settings markerOf = some fault) :
    declaration.check settings markerOf =
      .error [.structural declaration.qualifiedName fault] := by
  unfold check
  rw [present]

end ShapeDeclaration

namespace Assembly

open ShapeDeclaration

variable {declarations : List ShapeDeclaration} {settings : Settings} {name : String}
  {fault : StructuralFault}

/-- The structural fault of the first declaration of a name is reported. -/
theorem structural_defect {declaration : ShapeDeclaration}
    (found : first? declarations declaration.qualifiedName = some declaration)
    (structural : declaration.structuralFault? settings (markerIn? declarations) = some fault) :
    .structural declaration.qualifiedName fault ∈
      (ofDeclarations declarations settings).defects := by
  have proper (other : String) :
      Defect.structural declaration.qualifiedName fault ≠ .structural other .duplicateShape := by
    intro same
    have kind := structural_fault_proper structural declaration.qualifiedName
    rw [same] at kind
    cases kind
  rw [(defects_perm declarations settings).mem_iff]
  apply List.mem_append_left
  exact (Schema.mem_defects proper).mpr
    ⟨declaration, _, found, check_of_structural structural, List.mem_cons_self⟩

theorem mem_structural_defects (single : fault ≠ .duplicateShape)
    (apart : ∀ output, fault ≠ .duplicateOutputName output) :
    .structural name fault ∈ (ofDeclarations declarations settings).defects ↔
      ∃ declaration, first? declarations name = some declaration ∧
        declaration.structuralFault? settings (markerIn? declarations) = some fault := by
  have proper (other : String) :
      Defect.structural name fault ≠ .structural other .duplicateShape := by
    intro same
    cases same
    exact single rfl
  constructor
  · intro listed
    rw [(defects_perm declarations settings).mem_iff] at listed
    simp only [List.mem_append] at listed
    rcases listed with checked | ambiguous | collided | orphaned
    · obtain ⟨declaration, defects, found, failed, present⟩ :=
        (Schema.mem_defects proper).mp checked
      obtain ⟨rfl, structural⟩ := structural_of_check failed present
      exact ⟨declaration, found, structural⟩
    · obtain ⟨shape, _, failed⟩ := List.mem_map.mp (mem_rejected.mp ambiguous)
      obtain ⟨_, _, _, same⟩ := PlannedShape.of_shape_error failed
      cases same
    · obtain ⟨_, _, same⟩ := mem_collisions collided
      cases same
      exact (apart _ rfl).elim
    · obtain ⟨child, _, found⟩ := List.mem_filterMap.mp orphaned
      unfold orphanDefect? at found
      split at found
      · cases found
      · cases found
  · intro both
    obtain ⟨declaration, found, structural⟩ := both
    have named := first_name found
    subst named
    exact structural_defect found structural

end Assembly

end ShapeCompat
