import ShapeCompat.Assembly
import ShapeCompat.Proofs.Construction.Ambiguity
import ShapeCompat.Proofs.Schema.Placement

/-!
Planning shapes one by one. A plan does not depend on the place of its shape in the schema, so the
planned shapes are those of the sound first declarations, and everything that later stages read off
a planned shape is told by its declaration.
-/

namespace ShapeCompat

namespace Shape

variable (shape : Shape) (style : Style) (owner : String)

theorem construction_unplaced :
    shape.unplaced.construction owner style = shape.construction owner style := by
  have overloads : shape.unplaced.overloads = shape.overloads := overloads_of_fields rfl
  unfold construction
  rw [overloads]
  rfl

theorem content_unplaced : shape.unplaced.content style = shape.content style := by
  unfold content unplaced
  cases shape.parent <;> rfl

theorem plan_unplaced : shape.unplaced.plan style = shape.plan style := by
  have parts : shape.unplaced.plainParts? style = shape.plainParts? style := by
    simp only [plainParts?, construction_unplaced]
    rfl
  unfold plan contentText
  rw [parts, content_unplaced]
  rfl

end Shape

/-- The owner that a plan's factory function names, if the plan keeps one. -/
def ShapePlan.factoryOwner? (plan : ShapePlan) : Option String :=
  (plan.construction.bind (·.factory)).map (·.owner)

namespace PlannedShape

variable {style : Style} {shape : Shape} {planned : PlannedShape}

theorem of_shape_unplaced (style : Style) (shape : Shape) :
    ofShape style shape.unplaced = ofShape style shape := by
  unfold ofShape
  rw [Shape.plan_unplaced]
  unfold Shape.unplaced
  cases shape.parent <;> rfl

/-- What a planned shape has of the shape that it was planned from. -/
structure Fits (style : Style) (shape : Shape) (planned : PlannedShape) : Prop where
  declared : planned.declaredName = shape.declaredQualifiedName
  qualified : planned.plan.qualifiedName = planned.outputName.qualified
  kind : planned.plan.kind = shape.kind
  parent : planned.parent = shape.parent.map (·.declared)
  imports : planned.imports = shape.imports
  factory : planned.plan.factoryOwner? =
    if shape.kind = .plain ∧ style = .callback then some planned.plan.qualifiedName else none

theorem of_shape_ok (made : ofShape style shape = .ok planned) : Fits style shape planned := by
  unfold ofShape Shape.plan Shape.plainParts? at made
  cases kind : shape.kind with
  | sealedParent =>
      rw [kind] at made
      cases made
      refine ⟨rfl, rfl, kind.symm, rfl, rfl, ?_⟩
      rw [if_neg fun both => by rw [kind] at both; cases both.1]
      rfl
  | plain =>
      rw [kind] at made
      dsimp only at made
      cases outcome : shape.construction shape.outputQualifiedName style with
      | error defect =>
          rw [outcome] at made
          cases made
      | ok construction =>
          rw [outcome] at made
          cases made
          obtain ⟨_, rfl⟩ := Shape.construction_eq_ok_iff.mp outcome
          refine ⟨rfl, rfl, kind.symm, rfl, rfl, ?_⟩
          cases style with
          | callback =>
              rw [if_pos ⟨kind, rfl⟩]
              rfl
          | overload =>
              rw [if_neg fun both => by cases both.2]
              rfl

/-- Planning a shape fails only where two of its entries cannot be told apart. -/
theorem of_shape_error {defect : Defect} (failed : ofShape style shape = .error defect) :
    ∃ first second signature, defect =
      .schema shape.declaredQualifiedName none (.ambiguousOverloads first second signature) := by
  unfold ofShape Shape.plan Shape.plainParts? at failed
  cases kind : shape.kind with
  | sealedParent =>
      rw [kind] at failed
      cases failed
  | plain =>
      rw [kind] at failed
      dsimp only at failed
      cases outcome : shape.construction shape.outputQualifiedName style with
      | ok construction =>
          rw [outcome] at failed
          cases failed
      | error found =>
          rw [outcome] at failed
          cases failed
          exact Shape.construction_error outcome

end PlannedShape

namespace ShapeDeclaration

variable {declaration : ShapeDeclaration} {settings : Settings}
  {markerOf : String → Option Marker} {shape : Shape}

theorem to_shape_parent (declaration : ShapeDeclaration) (settings : Settings)
    (fields : List Field) :
    (declaration.toShape settings fields).parent.map (·.declared) = declaration.parent := by
  unfold toShape
  cases declaration.parent <;> rfl

theorem check_ok_name (checked : declaration.check settings markerOf = .ok shape) :
    shape.declaredQualifiedName = declaration.qualifiedName := by
  obtain ⟨_, rfl⟩ := check_ok_fields _ _ _ _ checked
  rfl

theorem check_ok_structure (checked : declaration.check settings markerOf = .ok shape) :
    declaration.structuralFault? settings markerOf = none := by
  unfold check at checked
  split at checked
  · cases checked
  · assumption

/-- A schema has a shape for a name when the first declaration of the name passes its check. -/
theorem schema_shape_iff {declarations : List ShapeDeclaration} {name : String} :
    (∃ placed ∈ (Schema.ofDeclarations declarations settings).schema.shapes,
        placed.declaredQualifiedName = name ∧ placed.unplaced = shape) ↔
      ∃ declaration, first? declarations name = some declaration ∧
        declaration.check settings (markerIn? declarations) = .ok shape := by
  constructor
  · intro kept
    obtain ⟨placed, member, rfl, rfl⟩ := kept
    have sound : placed.unplaced ∈ accepted (Schema.outcomes declarations settings) := by
      rw [← Schema.of_declarations_unplaced]
      exact List.mem_map_of_mem member
    obtain ⟨declaration, found, checked⟩ := Schema.mem_accepted_outcomes.mp sound
    rw [← check_ok_name checked] at found
    exact ⟨declaration, found, checked⟩
  · intro passed
    obtain ⟨declaration, found, checked⟩ := passed
    have named := first_name found
    subst named
    have sound := Schema.mem_accepted_outcomes.mpr ⟨declaration, found, checked⟩
    rw [← Schema.of_declarations_unplaced] at sound
    obtain ⟨placed, member, rfl⟩ := List.mem_map.mp sound
    have named := check_ok_name checked
    exact ⟨placed, member, named, rfl⟩

end ShapeDeclaration

namespace Assembly

open ShapeDeclaration

variable {declarations : List ShapeDeclaration} {settings : Settings} {planned : PlannedShape}

/-- All shapes that could be planned on their own. -/
def plannedOf (declarations : List ShapeDeclaration) (settings : Settings) : List PlannedShape :=
  accepted ((Schema.ofDeclarations declarations settings).schema.shapes.map
    (PlannedShape.ofShape settings.style))

/-- The planned shapes that are left when colliding ones are dropped. -/
def keptOf (declarations : List ShapeDeclaration) (settings : Settings) : List PlannedShape :=
  uncontested (plannedOf declarations settings)

theorem planning_of_outcomes (declarations : List ShapeDeclaration) (settings : Settings) :
    (Schema.ofDeclarations declarations settings).schema.shapes.map
        (PlannedShape.ofShape settings.style) =
      (accepted (Schema.outcomes declarations settings)).map
        (PlannedShape.ofShape settings.style) := by
  rw [← Schema.of_declarations_unplaced, List.map_map]
  apply List.map_congr_left
  intro shape _
  exact (PlannedShape.of_shape_unplaced _ _).symm

/-- A planned shape comes from the first declaration of its name, which has no fault. -/
theorem mem_planned (member : planned ∈ plannedOf declarations settings) :
    ∃ declaration fields, first? declarations planned.declaredName = some declaration ∧
      declaration.structuralFault? settings (markerIn? declarations) = none ∧
      planned.Fits settings.style (declaration.toShape settings fields) := by
  rw [plannedOf, planning_of_outcomes, mem_accepted] at member
  obtain ⟨shape, sound, made⟩ := List.mem_map.mp member
  obtain ⟨declaration, found, checked⟩ := Schema.mem_accepted_outcomes.mp sound
  have fits := PlannedShape.of_shape_ok made
  refine ⟨declaration, accepted (checkFields [] declaration.fields), ?_,
    check_ok_structure checked, ?_⟩
  · rw [fits.declared, check_ok_name checked]
    exact found
  · rw [(check_ok_fields _ _ _ _ checked).2] at fits
    exact fits

theorem kept_planned (member : planned ∈ keptOf declarations settings) :
    planned ∈ plannedOf declarations settings := by
  obtain ⟨claim, listed, rfl⟩ := List.mem_map.mp member
  obtain ⟨shape, source, rfl⟩ := List.mem_map.mp (List.mem_filter.mp listed).1
  exact source

end Assembly

end ShapeCompat
