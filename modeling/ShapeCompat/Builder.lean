import ShapeCompat.Construction.Codec
import ShapeCompat.Construction.Plan

/-!
The builder of a shape: an optional tier with the properties that may be left out, a full tier with
all of them, and the concrete class that stores them.
-/

namespace ShapeCompat

inductive SetterKind where
  | absent
  | live
  /-- Deprecated: returns the builder unchanged. -/
  | inert
  deriving DecidableEq

structure BuilderProperty where
  name : String
  type : String
  setter : SetterKind
  /-- Declared again from the tier that this one extends. -/
  overridesParent : Bool := false
  doc : Option String := none
  deriving DecidableEq

structure TierSpec where
  tier : Tier
  parent : Option Tier
  properties : List BuilderProperty
  deriving DecidableEq

def TierSpec.property? (spec : TierSpec) (name : String) : Option BuilderProperty :=
  spec.properties.find? (·.name == name)

inductive StorageInit where
  | constructorParam
  | literal (text : String)
  deriving DecidableEq

structure StorageSlot where
  name : String
  type : String
  init : StorageInit
  deriving DecidableEq

structure ConcreteBuilder where
  constructorParams : List TypedName
  storage : List StorageSlot
  /-- The shape has a public constructor without arguments. -/
  publicNoArg : Bool
  deriving DecidableEq

structure Builder where
  /-- Absent when no property may be left out. -/
  optional : Option TierSpec
  full : TierSpec
  concrete : ConcreteBuilder
  deriving DecidableEq

/-- The properties offered on a tier; the concrete class is no tier to call setters on. -/
def Builder.tier? (builder : Builder) : Tier → Option TierSpec
  | .optional => builder.optional
  | .full => some builder.full
  | .concrete => none

namespace Field

def setterKind (field : Field) : SetterKind :=
  if field.hasInertSetter then .inert else if field.isSettable then .live else .absent

def builderProperty (field : Field) (overridesParent : Bool) : BuilderProperty :=
  ⟨field.name, field.typeName, field.setterKind, overridesParent, field.doc⟩

def storageSlot (field : Field) : StorageSlot :=
  ⟨field.name, field.typeName,
    if field.isBuilderParam then .constructorParam else .literal field.literal⟩

end Field

namespace Shape

def storedFields (shape : Shape) : List Field := shape.fields.filter (·.hasStorage)

def optionalTier (shape : Shape) : Option TierSpec :=
  let properties := (shape.fields.filter (·.isOptionalTier)).map (·.builderProperty false)
  if properties = [] then none else some ⟨.optional, none, properties⟩

def concreteBuilder (shape : Shape) : ConcreteBuilder :=
  let params := (shape.storedFields.filter (·.isBuilderParam)).map Field.typed
  ⟨params, shape.storedFields.map Field.storageSlot, params.isEmpty⟩

def builder (shape : Shape) : Builder :=
  { optional := shape.optionalTier
    full :=
      { tier := .full
        parent := shape.optionalTier.map (·.tier)
        properties := shape.storedFields.map fun field =>
          field.builderProperty field.isOptionalTier }
    concrete := shape.concreteBuilder }

end Shape

open Json

namespace SetterKind

def name : SetterKind → String
  | .absent => "none"
  | .live => "live"
  | .inert => "inert"

def ofName? : String → Option SetterKind
  | "none" => some .absent
  | "live" => some .live
  | "inert" => some .inert
  | _ => none

def toJson (setter : SetterKind) : Json := .text setter.name

def ofJson? (json : Json) : Option SetterKind := json.choice?.bind ofName?

end SetterKind

namespace BuilderProperty

def toJson (property : BuilderProperty) : Json := .record (
  member "name" (.text property.name) ++
  member "ty" (.text property.type) ++
  member "setter" property.setter.toJson ++
  member "overrides_parent" (.bool property.overridesParent) ++
  optionalMember "doc" .text property.doc)

def ofJson? (json : Json) : Option BuilderProperty := do
  let members ← members? ["name", "ty", "setter", "overrides_parent", "doc"] json
  return {
    name := ← members.required? "name" text?
    type := ← members.required? "ty" text?
    setter := ← members.required? "setter" SetterKind.ofJson?
    overridesParent := ← members.withFallback? "overrides_parent" false bool?
    doc := ← members.optional? "doc" text? }

end BuilderProperty

namespace TierSpec

def toJson (spec : TierSpec) : Json := .record (
  member "tier" spec.tier.toJson ++
  optionalMember "extends" Tier.toJson spec.parent ++
  listMember "properties" BuilderProperty.toJson spec.properties)

def ofJson? (json : Json) : Option TierSpec := do
  let members ← members? ["tier", "extends", "properties"] json
  return {
    tier := ← members.required? "tier" Tier.ofJson?
    parent := ← members.optional? "extends" Tier.ofJson?
    properties := ← members.required? "properties" (listOf? BuilderProperty.ofJson?) }

end TierSpec

namespace StorageInit

def toJson : StorageInit → Json
  | .constructorParam => .record (member "init" (.text "constructor_param"))
  | .literal value => .record (member "init" (.text "literal") ++ member "literal" (.text value))

def ofJson? (json : Json) : Option StorageInit := do
  match ← tagged? "init" json with
  | ("constructor_param", content) =>
      let _ ← members? [] content
      return .constructorParam
  | ("literal", content) =>
      return .literal (← (← members? ["literal"] content).required? "literal" text?)
  | _ => none

end StorageInit

namespace StorageSlot

def toJson (slot : StorageSlot) : Json := .record (
  member "name" (.text slot.name) ++
  member "ty" (.text slot.type) ++
  member "init" slot.init.toJson)

def ofJson? (json : Json) : Option StorageSlot := do
  let members ← members? ["name", "ty", "init"] json
  return {
    name := ← members.required? "name" text?
    type := ← members.required? "ty" text?
    init := ← members.required? "init" StorageInit.ofJson? }

end StorageSlot

namespace ConcreteBuilder

def toJson (concrete : ConcreteBuilder) : Json := .record (
  listMember "constructor_params" TypedName.toJson concrete.constructorParams ++
  listMember "storage" StorageSlot.toJson concrete.storage ++
  member "public_no_arg" (.bool concrete.publicNoArg))

def ofJson? (json : Json) : Option ConcreteBuilder := do
  let members ← members? ["constructor_params", "storage", "public_no_arg"] json
  return {
    constructorParams := ← members.required? "constructor_params" (listOf? TypedName.ofJson?)
    storage := ← members.required? "storage" (listOf? StorageSlot.ofJson?)
    publicNoArg := ← members.required? "public_no_arg" bool? }

end ConcreteBuilder

namespace Builder

def toJson (builder : Builder) : Json := .record (
  optionalMember "optional" TierSpec.toJson builder.optional ++
  member "full" builder.full.toJson ++
  member "concrete" builder.concrete.toJson)

def ofJson? (json : Json) : Option Builder := do
  let members ← members? ["optional", "full", "concrete"] json
  return {
    optional := ← members.optional? "optional" TierSpec.ofJson?
    full := ← members.required? "full" TierSpec.ofJson?
    concrete := ← members.required? "concrete" ConcreteBuilder.ofJson? }

end Builder

end ShapeCompat
