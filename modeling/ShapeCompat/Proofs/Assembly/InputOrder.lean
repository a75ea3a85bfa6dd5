import ShapeCompat.Proofs.Assembly.Faults

/-!
The order in which declarations are given. It does not show in what is planned and reported, but
for repeated declarations: the first of a name stands for it, so there the order decides.
-/

namespace ShapeCompat

/-- Neighbours of different names may change places. -/
theorem ShapeDeclaration.Reorders.swap {first second : ShapeDeclaration}
    (different : first.qualifiedName ≠ second.qualifiedName) (rest : List ShapeDeclaration) :
    Reorders (first :: second :: rest) (second :: first :: rest) where
  order := List.Perm.swap _ _ _
  firsts := by
    intro name
    simp only [first_cons]
    by_cases here : first.qualifiedName = name
    · have absent : second.qualifiedName ≠ name := fun same => different (here.trans same.symm)
      rw [if_pos here, if_neg absent, if_pos here]
    · simp only [here, if_false]
  markers := by
    intro name
    unfold markerIn?
    by_cases here : first.qualifiedName = name
    · have absent : second.qualifiedName ≠ name := fun same => different (here.trans same.symm)
      simp [here, absent]
    · simp [here]

namespace Assembly

open ShapeDeclaration

theorem of_declarations_reordered {declarations reordered : List ShapeDeclaration}
    (settings : Settings) (same : Reorders reordered declarations) :
    ofDeclarations reordered settings = ofDeclarations declarations settings := by
  have schema := Schema.of_declarations_same settings same
  have orphaned : orphanDefect? (reordered.map (·.qualifiedName)) =
      orphanDefect? (declarations.map (·.qualifiedName)) := by
    funext kept child
    have declared (parent : String) : parent ∈ reordered.map (·.qualifiedName) ↔
        parent ∈ declarations.map (·.qualifiedName) := (same.order.map _).mem_iff
    simp only [orphanDefect?, declared]
  simp only [ofDeclarations, schema, orphaned]

/-- A reordering that keeps the first declaration and the last marker of each name has no effect;
where no name is repeated, no reordering has any. -/
theorem input_order_shows_in_repetitions_only (declarations reordered : List ShapeDeclaration)
    (settings : Settings) :
    (Reorders reordered declarations →
      ofDeclarations reordered settings = ofDeclarations declarations settings) ∧
    (reordered.Perm declarations → (declarations.map (·.qualifiedName)).Nodup →
      ofDeclarations reordered settings = ofDeclarations declarations settings) := by
  constructor
  · intro same
    exact of_declarations_reordered settings same
  · intro order distinct
    exact of_declarations_reordered settings (Reorders.of_distinct order distinct)

def notePoint : ShapeDeclaration := { name := "PointDBC", package := "com.acme" }

def noteInterface : ShapeDeclaration := { name := "NoteDBC", package := "com.acme" }

def noteClass : ShapeDeclaration := { noteInterface with kind := .concreteClass }

/-- A point may be declared in front of a note, or of two notes, as well as behind the first. -/
theorem point_moves_between_notes :
    (Reorders [noteInterface, notePoint, noteClass] [notePoint, noteInterface, noteClass] ∧
      ofDeclarations [noteInterface, notePoint, noteClass] {} =
        ofDeclarations [notePoint, noteInterface, noteClass] {}) ∧
    ([noteInterface, notePoint].Perm [notePoint, noteInterface] ∧
      ([notePoint, noteInterface].map (·.qualifiedName)).Nodup ∧
      ofDeclarations [noteInterface, notePoint] {} =
        ofDeclarations [notePoint, noteInterface] {}) := by
  have different : noteInterface.qualifiedName ≠ notePoint.qualifiedName := by decide +kernel
  have same := Reorders.swap different [noteClass]
  have order := List.Perm.swap notePoint noteInterface []
  have distinct : ([notePoint, noteInterface].map (·.qualifiedName)).Nodup := by decide +kernel
  exact ⟨⟨same, (input_order_shows_in_repetitions_only _ _ {}).1 same⟩,
    order, distinct, (input_order_shows_in_repetitions_only _ _ {}).2 order distinct⟩

/-- Two notes may not: whichever is the first decides whether a note is planned at all. -/
theorem first_note_decides :
    [noteClass, noteInterface].Perm [noteInterface, noteClass] ∧
      (ofDeclarations [noteClass, noteInterface] {}).defects ≠
        (ofDeclarations [noteInterface, noteClass] {}).defects := by
  refine ⟨List.Perm.swap _ _ _, ?_⟩
  intro same
  have listed : .structural noteClass.qualifiedName (.notAnInterface .concreteClass) ∈
      (ofDeclarations [noteClass, noteInterface] {}).defects := by
    rw [mem_structural_defects (by simp) (by simp)]
    refine ⟨noteClass, ?_, rfl⟩
    rw [first_cons, if_pos rfl]
  rw [same, mem_structural_defects (by simp) (by simp)] at listed
  obtain ⟨declaration, found, fault⟩ := listed
  have named : noteInterface.qualifiedName = noteClass.qualifiedName := rfl
  rw [first_cons, if_pos named] at found
  cases found
  have sound : noteInterface.structuralFault? {}
      (markerIn? [noteInterface, noteClass]) = none := by decide +kernel
  rw [sound] at fault
  cases fault

end Assembly

end ShapeCompat
