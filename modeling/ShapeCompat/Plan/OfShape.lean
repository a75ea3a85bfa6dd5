import ShapeCompat.Digest.Sha256
import ShapeCompat.Json.Printer
import ShapeCompat.Plan.Codec

/-!
The plan of one shape on its own, before families are merged. Its fingerprint is taken over a
canonical text of everything that the plan depends on, documentation of the shape apart.
-/

namespace ShapeCompat

def Field.role (field : Field) : FieldRole :=
  match field.mutability, field.requirement, field.default with
  | .immutable, _, _ => .frozen field.literal
  | .immutableRecently, _, _ => .frozenRecently field.literal
  | .mutable, some requirement, _ => .requiredSince requirement.sinceVersion field.literal
  | .mutable, none, none => .required
  | .mutable, none, some default => .optional default

def Field.plan (field : Field) : FieldPlan :=
  { name := field.name
    type := field.typeName
    mutability := field.mutability
    default := field.default
    mandatorySince := field.mandatorySince
    role := field.role
    equality := field.equality
    overrides := field.overrides
    doc := field.doc }

namespace Shape

/-- What a fingerprint is taken over. -/
def content (shape : Shape) (style : Style) : Json := .record [
  ("declared", .text shape.declaredQualifiedName),
  ("output_name", .text shape.outputName),
  ("output_package", .text shape.outputPackage),
  ("version", .int shape.version.toNat),
  ("kind", shape.kind.toJson),
  ("parent", (shape.parent.map fun link => Json.text link.declared).getD .null),
  ("fields", .list (shape.fields.map Field.toJson)),
  ("interfaces", .texts shape.interfaces),
  ("annotations", .texts shape.annotations),
  ("style", style.toJson)]

def contentText (shape : Shape) (style : Style) : String := (shape.content style).canonical

/-- The parts of a plan that only a plain shape has. -/
structure PlainParts where
  construction : Construction
  builder : Builder
  identity : Identity

def plainParts? (shape : Shape) (style : Style) : Except Defect (Option PlainParts) :=
  match shape.kind with
  | .sealedParent => .ok none
  | .plain => do
      let name := shape.outputQualifiedName
      return some ⟨← shape.construction name style, shape.builder, shape.identity name⟩

def plan (shape : Shape) (style : Style) : Except Defect ShapePlan := do
  let parts ← shape.plainParts? style
  return {
    declaredName := shape.declaredQualifiedName
    name := shape.outputName
    qualifiedName := shape.outputQualifiedName
    kind := shape.kind
    version := shape.version
    fingerprint := Digest.Sha256.hexOfText (shape.contentText style)
    fields := shape.fields.map Field.plan
    interfaces := shape.interfaces
    annotations := shape.annotations
    doc := shape.doc
    construction := parts.map (·.construction)
    builder := parts.map (·.builder)
    identity := parts.map (·.identity) }

end Shape

end ShapeCompat
