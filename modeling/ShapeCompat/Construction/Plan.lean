import ShapeCompat.Construction.Entries

/-!
The construction plan of one shape: its overloads with their entries, the private constructors, the
copy plan and, in callback style, the factory function.
-/

namespace ShapeCompat

/-- Name of the hidden last parameter of the primary constructor. -/
def primaryMarker : String := "builderMarker"

def Field.typed (field : Field) : TypedName := ⟨field.name, field.typeName⟩

/-- A frozen field is taken from its literal, whatever the builder stores. -/
def Field.assignment (field : Field) : Assignment :=
  ⟨field.name, if field.isFrozen then .literal field.literal else .storage⟩

namespace Shape

def primaryConstructor (shape : Shape) : PrimaryConstructor :=
  ⟨shape.fields.map Field.typed, primaryMarker⟩

def copyPlan (shape : Shape) : CopyPlan :=
  { builderArgs := shape.relevantFields.map (·.name)
    setters := (shape.fields.filter fun field =>
      !field.isBuilderParam && decide (field.mutability = .mutable)).map (·.name)
    callback := .full }

def factory (shape : Shape) (owner : String) : Factory :=
  { name := shape.outputName
    owner
    params := shape.relevantFields.map Field.typed
    callback := .full
    delegation :=
      ⟨.concreteBuilder, shape.relevantFields.map fun field => .param field.name, .forwarded⟩ }

/-- Fails only where two entries cannot be told apart. -/
def construction (shape : Shape) (owner : String) (style : Style) :
    Except Defect Construction := do
  let overloads := shape.attachEntries style shape.overloads
  checkAmbiguity shape.declaredQualifiedName overloads
  return {
    style
    overloads
    primary := shape.primaryConstructor
    assignments := shape.fields.map Field.assignment
    copy := shape.copyPlan
    factory := match style with
      | .callback => some (shape.factory owner)
      | .overload => none }

end Shape

end ShapeCompat
