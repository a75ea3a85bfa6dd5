import ShapeCompat.Ascending
import ShapeCompat.Defect
import ShapeCompat.Naming
import ShapeCompat.Schema.Basic
import ShapeCompat.Settings.Basic

/-!
From declarations to a schema. Every defect of a declaration is collected; a declaration with any
defect is left out, and the others are not affected by it.
-/

namespace ShapeCompat

/-- The first version in which a field can newly become required is 2. -/
def requirementVersion? (declared : Int64) : Option UInt32 :=
  let value := declared.toInt
  if 1 < value ∧ value < UInt32.size then some (.ofNat value.toNat) else none

namespace FieldDeclaration

def declaredLiteral? (field : FieldDeclaration) : Option String := field.default.bind (·.literal?)

/-- The literal and the requirement of a field. A nullable field without either has the null
literal. -/
def checkDefault (field : FieldDeclaration) :
    Except SchemaFault (Option String × Option Requirement) :=
  match field.requirement with
  | some requirement =>
      if field.declaredLiteral?.isSome then .error .conflictingDefaults
      else
        match requirementVersion? requirement.sinceVersion, requirement.default.literal? with
        | none, _ => .error (.invalidSinceVersion requirement.sinceVersion)
        | some _, none => .error .emptyRequirementDefault
        | some version, some literal =>
            .ok (some literal, some ⟨version, requirement.previouslyOptional⟩)
  | none =>
      .ok (field.declaredLiteral?.or (if field.nullable then some nullLiteral else none), none)

def check (field : FieldDeclaration) : Except SchemaFault Field := do
  let (default, requirement) ← field.checkDefault
  if field.mutability ≠ .mutable ∧ default = none then
    .error (.missingFrozenDefault field.mutability)
  else return {
    name := field.name
    type := field.type
    nullable := field.nullable
    mutability := field.mutability
    default
    requirement
    equality := !field.excludedFromEquality
    overrides := field.overrides
    doc := field.doc }

end FieldDeclaration

/-- A field that is left out of its shape, and why. -/
structure RejectedField where
  name : String
  fault : SchemaFault
  deriving DecidableEq

/-- Each declared field in turn, where `seen` holds the names of earlier ones. A repeated name is
one fault, whatever else is wrong with the field. -/
def checkFields (seen : List String) :
    List FieldDeclaration → List (Except RejectedField Field)
  | [] => []
  | field :: rest =>
      let outcome :=
        if field.name ∈ seen then .error ⟨field.name, .duplicateField⟩
        else field.check.mapError (⟨field.name, ·⟩)
      outcome :: checkFields (field.name :: seen) rest

def accepted {Fault Value : Type} (outcomes : List (Except Fault Value)) : List Value :=
  outcomes.filterMap fun
    | .ok value => some value
    | .error _ => none

def rejected {Fault Value : Type} (outcomes : List (Except Fault Value)) : List Fault :=
  outcomes.filterMap fun
    | .ok _ => none
    | .error fault => some fault

namespace ShapeDeclaration

def outputName? (declaration : ShapeDeclaration) (settings : Settings) : Option String :=
  ShapeCompat.outputName? declaration.name declaration.generatedName settings.requiredSuffix

/-- What must hold of a declaration whatever its fields are; `markerOf` tells the marker of other
declarations by qualified name. -/
def structuralFault? (declaration : ShapeDeclaration) (settings : Settings)
    (markerOf : String → Option Marker) : Option StructuralFault :=
  if declaration.kind ≠ .interface then some (.notAnInterface declaration.kind)
  else if declaration.typeParameters ≠ [] then some .typeParameters
  else if declaration.outputName? settings = none then
    some (.missingSuffix settings.requiredSuffix)
  else
    match declaration.parent with
    | none => none
    | some enclosing =>
        if declaration.marker = .sealedParent then some (.nestedSealedParent enclosing)
        else if markerOf enclosing = some .dataClass then some (.nestedInPlainShape enclosing)
        else none

def shapeKind (declaration : ShapeDeclaration) : ShapeKind :=
  match declaration.marker with
  | .dataClass => .plain
  | .sealedParent => .sealedParent

def toShape (declaration : ShapeDeclaration) (settings : Settings) (fields : List Field) : Shape :=
  { position := 0
    kind := declaration.shapeKind
    declaredName := declaration.name
    declaredPackage := declaration.package
    outputName := (declaration.outputName? settings).getD declaration.name
    outputPackage := outputPackage declaration.package settings.droppedPackageSuffixes
    version := declaration.version
    parent := declaration.parent.map (⟨·, none⟩)
    fields
    interfaces := declaration.interfaces
    annotations := declaration.annotations
    imports := ascending declaration.imports
    doc := declaration.doc }

/-- The shape of a declaration, or everything that is wrong with it. -/
def check (declaration : ShapeDeclaration) (settings : Settings)
    (markerOf : String → Option Marker) : Except (List Defect) Shape :=
  let name := declaration.qualifiedName
  match declaration.structuralFault? settings markerOf with
  | some fault => .error [.structural name fault]
  | none =>
      let outcomes := checkFields [] declaration.fields
      match rejected outcomes with
      | [] => .ok (declaration.toShape settings (accepted outcomes))
      | faults => .error (faults.map fun field => .schema name (some field.name) field.fault)

/-- The order in which declarations are taken up; equal names keep their order. -/
def sorted (declarations : List ShapeDeclaration) : List ShapeDeclaration :=
  declarations.mergeSort fun first second =>
    decide (first.qualifiedName ≤ second.qualifiedName)

/-- The marker of the last declaration of a name. -/
def markerIn? (declarations : List ShapeDeclaration) (name : String) : Option Marker :=
  (declarations.filter (·.qualifiedName == name)).getLast?.map (·.marker)

/-- Each declaration in turn, where `seen` holds the names of earlier ones; of several with one name
only the first is looked at. -/
def checkAll (settings : Settings) (markerOf : String → Option Marker) (seen : List String) :
    List ShapeDeclaration → List (Except (List Defect) Shape)
  | [] => []
  | declaration :: rest =>
      let name := declaration.qualifiedName
      let outcome :=
        if name ∈ seen then .error [.structural name .duplicateShape]
        else declaration.check settings markerOf
      outcome :: checkAll settings markerOf (name :: seen) rest

end ShapeDeclaration

/-- Fills every parent link with the position of the shape that it names. -/
def Schema.linked (schema : Schema) : Schema :=
  ⟨schema.shapes.map fun shape =>
    { shape with
      parent := shape.parent.map fun link =>
        { link with position := (schema.findDeclared? link.declared).map (·.position) } }⟩

structure CheckedSchema where
  schema : Schema
  defects : List Defect

/-- The schema of all sound declarations, and the defects of the others in the order of names. -/
def Schema.ofDeclarations (declarations : List ShapeDeclaration) (settings : Settings) :
    CheckedSchema :=
  let sorted := ShapeDeclaration.sorted declarations
  let outcomes := ShapeDeclaration.checkAll settings (ShapeDeclaration.markerIn? sorted) [] sorted
  ⟨(Schema.ofShapes (accepted outcomes)).linked, (rejected outcomes).flatten⟩

end ShapeCompat
