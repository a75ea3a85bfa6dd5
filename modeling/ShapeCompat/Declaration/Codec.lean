import ShapeCompat.Declaration.Basic
import ShapeCompat.Json.Decoding

/-!
The JSON form of declarations. Empty lists of names and empty texts of a default are left out.
-/

namespace ShapeCompat

open Json

namespace Mutability

def name : Mutability → String
  | .mutable => "mutable"
  | .immutable => "immutable"
  | .immutableRecently => "immutable_recently"

def ofName? : String → Option Mutability
  | "mutable" => some .mutable
  | "immutable" => some .immutable
  | "immutable_recently" => some .immutableRecently
  | _ => none

def toJson (mutability : Mutability) : Json := .text mutability.name

def ofJson? (json : Json) : Option Mutability := json.choice?.bind ofName?

end Mutability

namespace DeclarationKind

def name : DeclarationKind → String
  | .interface => "interface"
  | .concreteClass => "class"
  | .singleton => "object"
  | .enumeration => "enum"

def ofName? : String → Option DeclarationKind
  | "interface" => some .interface
  | "class" => some .concreteClass
  | "object" => some .singleton
  | "enum" => some .enumeration
  | _ => none

def toJson (kind : DeclarationKind) : Json := .text kind.name

def ofJson? (json : Json) : Option DeclarationKind := json.choice?.bind ofName?

end DeclarationKind

namespace Marker

def name : Marker → String
  | .dataClass => "data_class"
  | .sealedParent => "sealed_parent"

def ofName? : String → Option Marker
  | "data_class" => some .dataClass
  | "sealed_parent" => some .sealedParent
  | _ => none

def toJson (marker : Marker) : Json := .text marker.name

def ofJson? (json : Json) : Option Marker := json.choice?.bind ofName?

end Marker

namespace DeclaredDefault

def textMember (name value : String) : Members := if value = "" then [] else [(name, .text value)]

def toJson (value : DeclaredDefault) : Json := .record (
  textMember "raw" value.raw ++
  textMember "string" value.plain)

def ofJson? (json : Json) : Option DeclaredDefault := do
  let members ← members? ["raw", "string"] json
  return {
    raw := ← members.withFallback? "raw" "" text?
    plain := ← members.withFallback? "string" "" text? }

end DeclaredDefault

namespace DeclaredRequirement

def toJson (requirement : DeclaredRequirement) : Json := .record (
  member "since_version" (.int requirement.sinceVersion.toInt) ++
  member "previously_optional" (.bool requirement.previouslyOptional) ++
  member "default" requirement.default.toJson)

def ofJson? (json : Json) : Option DeclaredRequirement := do
  let members ← members? ["since_version", "previously_optional", "default"] json
  return {
    sinceVersion := ← members.required? "since_version" int64?
    previouslyOptional := ← members.withFallback? "previously_optional" false bool?
    default := ← members.withFallback? "default" {} DeclaredDefault.ofJson? }

end DeclaredRequirement

namespace FieldDeclaration

def toJson (field : FieldDeclaration) : Json := .record (
  member "name" (.text field.name) ++
  member "type" (.text field.type) ++
  member "nullable" (.bool field.nullable) ++
  member "mutability" field.mutability.toJson ++
  optionalMember "default" DeclaredDefault.toJson field.default ++
  optionalMember "new_required" DeclaredRequirement.toJson field.requirement ++
  member "exclude_from_equality" (.bool field.excludedFromEquality) ++
  member "overrides" (.bool field.overrides) ++
  optionalMember "doc" .text field.doc)

def memberNames : List String :=
  ["name", "type", "nullable", "mutability", "default", "new_required", "exclude_from_equality",
    "overrides", "doc"]

def ofJson? (json : Json) : Option FieldDeclaration := do
  let members ← members? memberNames json
  return {
    name := ← members.required? "name" text?
    type := ← members.required? "type" text?
    nullable := ← members.withFallback? "nullable" false bool?
    mutability := ← members.withFallback? "mutability" .mutable Mutability.ofJson?
    default := ← members.optional? "default" DeclaredDefault.ofJson?
    requirement := ← members.optional? "new_required" DeclaredRequirement.ofJson?
    excludedFromEquality := ← members.withFallback? "exclude_from_equality" false bool?
    overrides := ← members.withFallback? "overrides" false bool?
    doc := ← members.optional? "doc" text? }

end FieldDeclaration

namespace ShapeDeclaration

def toJson (shape : ShapeDeclaration) : Json := .record (
  member "name" (.text shape.name) ++
  member "package" (.text shape.package) ++
  member "kind" shape.kind.toJson ++
  member "marker" shape.marker.toJson ++
  optionalMember "generated_name" .text shape.generatedName ++
  member "version" (.int shape.version.toNat) ++
  textsMember "type_parameters" shape.typeParameters ++
  optionalMember "parent" .text shape.parent ++
  textsMember "interfaces" shape.interfaces ++
  textsMember "annotations" shape.annotations ++
  textsMember "imports" shape.imports ++
  optionalMember "doc" .text shape.doc ++
  listMember "fields" FieldDeclaration.toJson shape.fields)

def memberNames : List String :=
  ["name", "package", "kind", "marker", "generated_name", "version", "type_parameters", "parent",
    "interfaces", "annotations", "imports", "doc", "fields"]

def ofJson? (json : Json) : Option ShapeDeclaration := do
  let members ← members? memberNames json
  return {
    name := ← members.required? "name" text?
    package := ← members.withFallback? "package" "" text?
    kind := ← members.withFallback? "kind" .interface DeclarationKind.ofJson?
    marker := ← members.withFallback? "marker" .dataClass Marker.ofJson?
    generatedName := ← members.optional? "generated_name" text?
    version := ← members.withFallback? "version" 1 uint32?
    typeParameters := ← members.withFallback? "type_parameters" [] texts?
    parent := ← members.optional? "parent" text?
    interfaces := ← members.withFallback? "interfaces" [] texts?
    annotations := ← members.withFallback? "annotations" [] texts?
    imports := ← members.withFallback? "imports" [] texts?
    doc := ← members.optional? "doc" text?
    fields := ← members.withFallback? "fields" [] (listOf? FieldDeclaration.ofJson?) }

end ShapeDeclaration

namespace Document

def toJson (document : Document) : Json := .record (
  optionalMember "schema" .text document.schema ++
  listMember "shapes" ShapeDeclaration.toJson document.shapes)

def ofJson? (json : Json) : Option Document := do
  let members ← members? ["schema", "shapes"] json
  return {
    schema := ← members.optional? "schema" text?
    shapes := ← members.withFallback? "shapes" [] (listOf? ShapeDeclaration.ofJson?) }

end Document

end ShapeCompat
