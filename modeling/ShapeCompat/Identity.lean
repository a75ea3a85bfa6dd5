import ShapeCompat.Json.Decoding
import ShapeCompat.Schema.Basic

/-!
Identity of planned values: equality and hash over the fields that take part in them, display over
all fields.
-/

namespace ShapeCompat

inductive HashRule where
  | fields (names : List String)
  /-- No field takes part, so the type alone is hashed. -/
  | typeMarker (typeName : String)
  deriving DecidableEq

structure DisplayRule where
  typeName : String
  fields : List String
  deriving DecidableEq

structure Identity where
  equality : List String
  hash : HashRule
  display : DisplayRule
  deriving DecidableEq

def Shape.identity (shape : Shape) (typeName : String) : Identity :=
  let equality := (shape.fields.filter (·.equality)).map (·.name)
  { equality
    hash := if equality = [] then .typeMarker typeName else .fields equality
    display := ⟨shape.outputName, shape.fields.map (·.name)⟩ }

open Json

namespace HashRule

def toJson : HashRule → Json
  | .fields names => .record (member "hash" (.text "fields") ++ member "fields" (.texts names))
  | .typeMarker typeName =>
      .record (member "hash" (.text "type_marker") ++ member "type_name" (.text typeName))

def ofJson? (json : Json) : Option HashRule := do
  match ← tagged? "hash" json with
  | ("fields", content) =>
      return .fields (← (← members? ["fields"] content).required? "fields" texts?)
  | ("type_marker", content) =>
      return .typeMarker (← (← members? ["type_name"] content).required? "type_name" text?)
  | _ => none

end HashRule

namespace DisplayRule

def toJson (display : DisplayRule) : Json := .record (
  member "type_name" (.text display.typeName) ++
  member "fields" (.texts display.fields))

def ofJson? (json : Json) : Option DisplayRule := do
  let members ← members? ["type_name", "fields"] json
  return {
    typeName := ← members.required? "type_name" text?
    fields := ← members.required? "fields" texts? }

end DisplayRule

namespace Identity

def toJson (identity : Identity) : Json := .record (
  member "equality" (.texts identity.equality) ++
  member "hash" identity.hash.toJson ++
  member "display" identity.display.toJson)

def ofJson? (json : Json) : Option Identity := do
  let members ← members? ["equality", "hash", "display"] json
  return {
    equality := ← members.required? "equality" texts?
    hash := ← members.required? "hash" HashRule.ofJson?
    display := ← members.required? "display" DisplayRule.ofJson? }

end Identity

end ShapeCompat
