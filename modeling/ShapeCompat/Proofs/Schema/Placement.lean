import ShapeCompat.Proofs.Schema.Repetition

/-!
Shapes are placed in a schema after they were checked: they take a position and their parent links
are resolved, and nothing else about them changes. What holds of checked shapes therefore holds of
the shapes of a schema, in the same order.
-/

namespace ShapeCompat

/-- A shape as it is before it has a place in a schema. -/
def Shape.unplaced (shape : Shape) : Shape :=
  { shape with
    position := 0
    parent := shape.parent.map fun link => { link with position := none } }

theorem to_shape_unplaced (declaration : ShapeDeclaration) (settings : Settings)
    (fields : List Field) :
    (declaration.toShape settings fields).unplaced = declaration.toShape settings fields := by
  unfold Shape.unplaced ShapeDeclaration.toShape
  cases declaration.parent <;> rfl

namespace Schema

theorem push_all_shapes (schema : Schema) (shapes : List Shape) :
    (shapes.foldl push schema).shapes = schema.shapes ++
      shapes.mapIdx fun index shape => { shape with position := schema.shapes.length + index } := by
  induction shapes generalizing schema with
  | nil => simp
  | cons shape rest induction =>
      rw [List.foldl_cons, induction, List.mapIdx_cons]
      simp [push, Nat.add_assoc, Nat.add_comm 1]

theorem of_shapes_shapes (shapes : List Shape) :
    (ofShapes shapes).shapes =
      shapes.mapIdx fun index shape => { shape with position := index } := by
  simp [ofShapes, push_all_shapes]

theorem of_shapes_unplaced (shapes : List Shape) :
    (ofShapes shapes).shapes.map Shape.unplaced = shapes.map Shape.unplaced := by
  rw [of_shapes_shapes]
  apply List.ext_getElem
  · simp
  · intro index _ _
    simp [Shape.unplaced]

theorem linked_unplaced (schema : Schema) :
    schema.linked.shapes.map Shape.unplaced = schema.shapes.map Shape.unplaced := by
  unfold linked
  rw [List.map_map]
  apply List.map_congr_left
  intro shape _
  simp [Shape.unplaced, Function.comp_def]

/-- The shapes of a schema are the checked shapes in their order. -/
theorem of_declarations_unplaced (declarations : List ShapeDeclaration) (settings : Settings) :
    (ofDeclarations declarations settings).schema.shapes.map Shape.unplaced =
      accepted (outcomes declarations settings) := by
  simp only [of_declarations_eq, linked_unplaced, of_shapes_unplaced]
  refine (List.map_congr_left ?_).trans (List.map_id _)
  intro shape member
  obtain ⟨declaration, _, checked⟩ := mem_accepted_outcomes.mp member
  obtain ⟨_, rfl⟩ := ShapeDeclaration.check_ok_fields _ _ _ _ checked
  exact to_shape_unplaced _ _ _

theorem of_declarations_sound (declarations : List ShapeDeclaration) (settings : Settings)
    (shape : Shape) (member : shape ∈ (ofDeclarations declarations settings).schema.shapes) :
    shape.IsSound := by
  have placed : shape.unplaced ∈
      (ofDeclarations declarations settings).schema.shapes.map Shape.unplaced :=
    List.mem_map_of_mem member
  rw [of_declarations_unplaced] at placed
  obtain ⟨declaration, _, checked⟩ := mem_accepted_outcomes.mp placed
  obtain ⟨distinct, sound⟩ := ShapeDeclaration.check_ok_sound _ _ _ _ checked
  exact ⟨distinct, sound⟩

end Schema

end ShapeCompat
