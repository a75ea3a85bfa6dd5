import ShapeCompat.Plan.Basic
import ShapeCompat.Schema.Codec

/-!
The JSON form of plans.
-/

namespace ShapeCompat

open Json

namespace FieldRole

def toJson : FieldRole → Json
  | .required => .record (member "role" (.text "required"))
  | .requiredSince version previousDefault => .record (
      member "role" (.text "required_since") ++
      member "version" (.int version.toNat) ++
      member "previous_default" (.text previousDefault))
  | .optional default => .record (
      member "role" (.text "optional") ++
      member "default" (.text default))
  | .frozen literal => .record (
      member "role" (.text "frozen") ++
      member "literal" (.text literal))
  | .frozenRecently literal => .record (
      member "role" (.text "frozen_recently") ++
      member "literal" (.text literal))

def ofJson? (json : Json) : Option FieldRole := do
  match ← tagged? "role" json with
  | ("required", content) =>
      let _ ← members? [] content
      return .required
  | ("required_since", content) =>
      let members ← members? ["version", "previous_default"] content
      return .requiredSince (← members.required? "version" uint32?)
        (← members.required? "previous_default" text?)
  | ("optional", content) =>
      return .optional (← (← members? ["default"] content).required? "default" text?)
  | ("frozen", content) =>
      return .frozen (← (← members? ["literal"] content).required? "literal" text?)
  | ("frozen_recently", content) =>
      return .frozenRecently (← (← members? ["literal"] content).required? "literal" text?)
  | _ => none

end FieldRole

namespace FieldPlan

def toJson (field : FieldPlan) : Json := .record (
  member "name" (.text field.name) ++
  member "ty" (.text field.type) ++
  member "mutability" field.mutability.toJson ++
  optionalMember "default" .text field.default ++
  optionalMember "mandatory_since" (fun version : UInt32 => .int version.toNat)
    field.mandatorySince ++
  member "role" field.role.toJson ++
  member "equality" (.bool field.equality) ++
  member "overrides" (.bool field.overrides) ++
  optionalMember "doc" .text field.doc)

def memberNames : List String :=
  ["name", "ty", "mutability", "default", "mandatory_since", "role", "equality", "overrides", "doc"]

def ofJson? (json : Json) : Option FieldPlan := do
  let members ← members? memberNames json
  return {
    name := ← members.required? "name" text?
    type := ← members.required? "ty" text?
    mutability := ← members.required? "mutability" Mutability.ofJson?
    default := ← members.optional? "default" text?
    mandatorySince := ← members.optional? "mandatory_since" uint32?
    role := ← members.required? "role" FieldRole.ofJson?
    equality := ← members.required? "equality" bool?
    overrides := ← members.required? "overrides" bool?
    doc := ← members.optional? "doc" text? }

end FieldPlan

namespace ShapePlan

def toJson (shape : ShapePlan) : Json := .record (
  member "declared_name" (.text shape.declaredName) ++
  member "name" (.text shape.name) ++
  member "qualified_name" (.text shape.qualifiedName) ++
  member "kind" shape.kind.toJson ++
  member "version" (.int shape.version.toNat) ++
  member "fingerprint" (.text shape.fingerprint) ++
  listMember "fields" FieldPlan.toJson shape.fields ++
  textsMember "interfaces" shape.interfaces ++
  textsMember "annotations" shape.annotations ++
  optionalMember "doc" .text shape.doc ++
  optionalMember "construction" Construction.toJson shape.construction ++
  optionalMember "builder" Builder.toJson shape.builder ++
  optionalMember "identity" Identity.toJson shape.identity)

def memberNames : List String :=
  ["declared_name", "name", "qualified_name", "kind", "version", "fingerprint", "fields",
    "interfaces", "annotations", "doc", "construction", "builder", "identity"]

def ofJson? (json : Json) : Option ShapePlan := do
  let members ← members? memberNames json
  return {
    declaredName := ← members.required? "declared_name" text?
    name := ← members.required? "name" text?
    qualifiedName := ← members.required? "qualified_name" text?
    kind := ← members.required? "kind" ShapeKind.ofJson?
    version := ← members.required? "version" uint32?
    fingerprint := ← members.required? "fingerprint" text?
    fields := ← members.required? "fields" (listOf? FieldPlan.ofJson?)
    interfaces := ← members.withFallback? "interfaces" [] texts?
    annotations := ← members.withFallback? "annotations" [] texts?
    doc := ← members.optional? "doc" text?
    construction := ← members.optional? "construction" Construction.ofJson?
    builder := ← members.optional? "builder" Builder.ofJson?
    identity := ← members.optional? "identity" Identity.ofJson? }

end ShapePlan

namespace OutputUnit

/-- A list that is left out when it is empty. -/
def nonEmptyMember {Value : Type} (name : String) (encode : Value → Json) :
    List Value → Members
  | [] => []
  | values => listMember name encode values

def toJson (unit : OutputUnit) : Json := .record (
  member "qualified_name" (.text unit.qualifiedName) ++
  member "package" (.text unit.package) ++
  member "shape" unit.shape.toJson ++
  nonEmptyMember "children" ShapePlan.toJson unit.children ++
  nonEmptyMember "shared_statics" Factory.toJson unit.sharedFactories ++
  textsMember "imports" unit.imports)

def memberNames : List String :=
  ["qualified_name", "package", "shape", "children", "shared_statics", "imports"]

def ofJson? (json : Json) : Option OutputUnit := do
  let members ← members? memberNames json
  return {
    qualifiedName := ← members.required? "qualified_name" text?
    package := ← members.required? "package" text?
    shape := ← members.required? "shape" ShapePlan.ofJson?
    children := ← members.withFallback? "children" [] (listOf? ShapePlan.ofJson?)
    sharedFactories := ← members.withFallback? "shared_statics" [] (listOf? Factory.ofJson?)
    imports := ← members.withFallback? "imports" [] texts? }

end OutputUnit

namespace Tool

def toJson (tool : Tool) : Json := .record (
  member "name" (.text tool.name) ++
  optionalMember "version" .text tool.version)

def ofJson? (json : Json) : Option Tool := do
  let members ← members? ["name", "version"] json
  return {
    name := ← members.required? "name" text?
    version := ← members.optional? "version" text? }

end Tool

namespace PlanInput

def toJson (input : PlanInput) : Json := .record (
  member "path" (.text input.path) ++
  member "shapes" (.int input.shapes) ++
  optionalMember "error" .text input.error)

def ofJson? (json : Json) : Option PlanInput := do
  let members ← members? ["path", "shapes", "error"] json
  return {
    path := ← members.required? "path" text?
    shapes := ← members.withFallback? "shapes" 0 nat?
    error := ← members.optional? "error" text? }

end PlanInput

namespace PlanSummary

def toJson (summary : PlanSummary) : Json := .record (
  member "shapes_total" (.int summary.shapesTotal) ++
  member "shapes_planned" (.int summary.shapesPlanned) ++
  member "units" (.int summary.units) ++
  member "overloads" (.int summary.overloads) ++
  member "entry_points" (.int summary.entryPoints) ++
  member "failures" (.int summary.failures))

def memberNames : List String :=
  ["shapes_total", "shapes_planned", "units", "overloads", "entry_points", "failures"]

def ofJson? (json : Json) : Option PlanSummary := do
  let members ← members? memberNames json
  return {
    shapesTotal := ← members.required? "shapes_total" nat?
    shapesPlanned := ← members.required? "shapes_planned" nat?
    units := ← members.required? "units" nat?
    overloads := ← members.required? "overloads" nat?
    entryPoints := ← members.required? "entry_points" nat?
    failures := ← members.required? "failures" nat? }

end PlanSummary

namespace Plan

def toJson (plan : Plan) : Json := .record (
  member "schema" (.text plan.schema) ++
  member "tool" plan.tool.toJson ++
  member "plan_id" (.text plan.planId) ++
  member "config" plan.settings.toJson ++
  listMember "inputs" PlanInput.toJson plan.inputs ++
  listMember "units" OutputUnit.toJson plan.units ++
  listMember "failures" Failure.toJson plan.failures ++
  member "summary" plan.summary.toJson)

def memberNames : List String :=
  ["schema", "tool", "plan_id", "config", "inputs", "units", "failures", "summary"]

def ofJson? (json : Json) : Option Plan := do
  let members ← members? memberNames json
  return {
    schema := ← members.required? "schema" text?
    tool := ← members.required? "tool" Tool.ofJson?
    planId := ← members.withFallback? "plan_id" "" text?
    settings := ← members.required? "config" Settings.ofJson?
    inputs := ← members.withFallback? "inputs" [] (listOf? PlanInput.ofJson?)
    units := ← members.withFallback? "units" [] (listOf? OutputUnit.ofJson?)
    failures := ← members.withFallback? "failures" [] (listOf? Failure.ofJson?)
    summary := ← members.withFallback? "summary" {} PlanSummary.ofJson? }

end Plan

end ShapeCompat
