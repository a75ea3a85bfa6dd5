import ShapeCompat.Schema.Basic

/-!
The JSON form of fields, shapes and schemas.
-/

namespace ShapeCompat

open Json

namespace Requirement

def toJson (requirement : Requirement) : Json := .record (
  member "since_version" (.int requirement.sinceVersion.toNat) ++
  member "previously_optional" (.bool requirement.previouslyOptional))

def ofJson? (json : Json) : Option Requirement := do
  let members ← members? ["since_version", "previously_optional"] json
  return {
    sinceVersion := ← members.required? "since_version" uint32?
    previouslyOptional := ← members.required? "previously_optional" bool? }

end Requirement

namespace Field

def literalToJson (literal : String) : Json := .record (member "literal" (.text literal))

def literalOfJson? (json : Json) : Option String := do
  let members ← members? ["literal"] json
  members.required? "literal" text?

def toJson (field : Field) : Json := .record (
  member "name" (.text field.name) ++
  member "ty" (.text field.type) ++
  member "nullable" (.bool field.nullable) ++
  member "mutability" field.mutability.toJson ++
  optionalMember "default" literalToJson field.default ++
  optionalMember "requirement" Requirement.toJson field.requirement ++
  member "equality" (.bool field.equality) ++
  member "overrides" (.bool field.overrides) ++
  optionalMember "doc" .text field.doc)

def memberNames : List String :=
  ["name", "ty", "nullable", "mutability", "default", "requirement", "equality", "overrides", "doc"]

def ofJson? (json : Json) : Option Field := do
  let members ← members? memberNames json
  return {
    name := ← members.required? "name" text?
    type := ← members.required? "ty" text?
    nullable := ← members.required? "nullable" bool?
    mutability := ← members.required? "mutability" Mutability.ofJson?
    default := ← members.optional? "default" literalOfJson?
    requirement := ← members.optional? "requirement" Requirement.ofJson?
    equality := ← members.required? "equality" bool?
    overrides := ← members.required? "overrides" bool?
    doc := ← members.optional? "doc" text? }

end Field

namespace ShapeKind

def name : ShapeKind → String
  | .plain => "plain"
  | .sealedParent => "sealed_parent"

def ofName? : String → Option ShapeKind
  | "plain" => some .plain
  | "sealed_parent" => some .sealedParent
  | _ => none

def toJson (kind : ShapeKind) : Json := .text kind.name

def ofJson? (json : Json) : Option ShapeKind := json.choice?.bind ofName?

end ShapeKind

namespace ParentLink

def toJson (link : ParentLink) : Json := .record (
  member "declared" (.text link.declared) ++
  optionalMember "id" (fun position : Nat => .int position) link.position)

def ofJson? (json : Json) : Option ParentLink := do
  let members ← members? ["declared", "id"] json
  return {
    declared := ← members.required? "declared" text?
    position := ← members.optional? "id" nat? }

end ParentLink

namespace Shape

def toJson (shape : Shape) : Json := .record (
  member "id" (.int shape.position) ++
  member "kind" shape.kind.toJson ++
  member "declared_name" (.text shape.declaredName) ++
  member "declared_package" (.text shape.declaredPackage) ++
  member "output_name" (.text shape.outputName) ++
  member "output_package" (.text shape.outputPackage) ++
  member "version" (.int shape.version.toNat) ++
  optionalMember "parent" ParentLink.toJson shape.parent ++
  listMember "fields" Field.toJson shape.fields ++
  textsMember "interfaces" shape.interfaces ++
  textsMember "annotations" shape.annotations ++
  textsMember "imports" shape.imports ++
  optionalMember "doc" .text shape.doc)

def memberNames : List String :=
  ["id", "kind", "declared_name", "declared_package", "output_name", "output_package", "version",
    "parent", "fields", "interfaces", "annotations", "imports", "doc"]

def ofJson? (json : Json) : Option Shape := do
  let members ← members? memberNames json
  return {
    position := ← members.required? "id" nat?
    kind := ← members.required? "kind" ShapeKind.ofJson?
    declaredName := ← members.required? "declared_name" text?
    declaredPackage := ← members.required? "declared_package" text?
    outputName := ← members.required? "output_name" text?
    outputPackage := ← members.required? "output_package" text?
    version := ← members.required? "version" uint32?
    parent := ← members.optional? "parent" ParentLink.ofJson?
    fields := ← members.required? "fields" (listOf? Field.ofJson?)
    interfaces := ← members.withFallback? "interfaces" [] texts?
    annotations := ← members.withFallback? "annotations" [] texts?
    imports := ← members.withFallback? "imports" [] texts?
    doc := ← members.optional? "doc" text? }

end Shape

namespace Schema

def toJson (schema : Schema) : Json := .record (
  listMember "shapes" Shape.toJson schema.shapes)

def ofJson? (json : Json) : Option Schema := do
  let members ← members? ["shapes"] json
  return { shapes := ← members.required? "shapes" (listOf? Shape.ofJson?) }

end Schema

end ShapeCompat
