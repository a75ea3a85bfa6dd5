import ShapeCompat.Declaration.Codec

/-!
The checked form of declarations. Fields know how they take part in constructors, builders and
identity; shapes lie in a schema by position and refer to their parents by it.
-/

namespace ShapeCompat

/-- The literal that stands for a value where a field has none of its own. -/
def nullLiteral : String := "null"

/-- The field became required in a version after the first. -/
structure Requirement where
  sinceVersion : UInt32
  previouslyOptional : Bool
  deriving DecidableEq

structure Field where
  name : String
  type : String
  nullable : Bool
  mutability : Mutability
  /-- For a field with a requirement this is the requirement's default. -/
  default : Option String
  requirement : Option Requirement
  equality : Bool
  overrides : Bool
  doc : Option String
  deriving DecidableEq

namespace Field

def literal (field : Field) : String := field.default.getD nullLiteral

/-- The declared type with its nullability mark. -/
def typeName (field : Field) : String :=
  if field.nullable ∧ field.type.toList.getLast? ≠ some '?' then field.type ++ "?" else field.type

/-- The version from which calls must supply the field, if they ever must. -/
def mandatorySince (field : Field) : Option UInt32 :=
  match field.default, field.requirement with
  | none, _ => some 1
  | some _, some requirement => some requirement.sinceVersion
  | some _, none => none

def watermark (field : Field) : UInt32 := field.mandatorySince.getD 1

/-- Handed to the constructor of the concrete builder, when it has storage there. -/
def isBuilderParam (field : Field) : Bool :=
  field.default.isNone || field.requirement.isSome ||
    decide (field.mutability = .immutableRecently)

/-- Takes part in the versioned constructors. -/
def isConstructorRelevant (field : Field) : Bool :=
  decide (field.mutability ≠ .immutable) && field.isBuilderParam

def hasStorage (field : Field) : Bool := decide (field.mutability ≠ .immutable)

/-- Offered on the optional tier of the builder. -/
def isOptionalTier (field : Field) : Bool :=
  decide (field.mutability ≠ .immutable) && field.default.isSome &&
    (field.requirement.map (·.previouslyOptional)).getD true

def isSettable (field : Field) : Bool := decide (field.mutability ≠ .immutable)

def hasInertSetter (field : Field) : Bool := decide (field.mutability = .immutableRecently)

/-- The stored value is always the literal. -/
def isFrozen (field : Field) : Bool := decide (field.mutability ≠ .mutable)

end Field

inductive ShapeKind where
  | plain
  | sealedParent
  deriving DecidableEq

/-- A nested shape's link to the shape that encloses it. -/
structure ParentLink where
  declared : String
  /-- Position of the parent, when it is in the schema. -/
  position : Option Nat
  deriving DecidableEq

structure Shape where
  position : Nat
  kind : ShapeKind
  declaredName : String
  declaredPackage : String
  outputName : String
  outputPackage : String
  version : UInt32
  parent : Option ParentLink
  fields : List Field
  interfaces : List String
  annotations : List String
  imports : List String
  doc : Option String
  deriving DecidableEq

namespace Shape

def declaredQualifiedName (shape : Shape) : String :=
  qualify shape.declaredPackage shape.declaredName

def outputQualifiedName (shape : Shape) : String := qualify shape.outputPackage shape.outputName

def field? (shape : Shape) (name : String) : Option Field :=
  shape.fields.find? (·.name == name)

def relevantFields (shape : Shape) : List Field := shape.fields.filter (·.isConstructorRelevant)

def hasOptionalTier (shape : Shape) : Bool := shape.fields.any (·.isOptionalTier)

end Shape

structure Schema where
  shapes : List Shape := []
  deriving DecidableEq

namespace Schema

/-- Appends a shape, which takes its position from its place. -/
def push (schema : Schema) (shape : Shape) : Schema :=
  ⟨schema.shapes ++ [{ shape with position := schema.shapes.length }]⟩

def ofShapes (shapes : List Shape) : Schema := shapes.foldl push {}

def get? (schema : Schema) (position : Nat) : Option Shape := schema.shapes[position]?

def findDeclared? (schema : Schema) (qualified : String) : Option Shape :=
  schema.shapes.find? (·.declaredQualifiedName == qualified)

def childrenOf (schema : Schema) (position : Nat) : List Shape :=
  schema.shapes.filter fun shape => (shape.parent.bind (·.position)) == some position

end Schema

end ShapeCompat
