import ShapeCompat.Construction.Basic

/-!
The JSON form of construction plans. A variant with content is a record whose tag member says which
variant it is; a slot has the members of its kind beside its own.
-/

namespace ShapeCompat

open Json

namespace TypedName

def toJson (typed : TypedName) : Json := .record (
  member "name" (.text typed.name) ++
  member "ty" (.text typed.type))

def ofJson? (json : Json) : Option TypedName := do
  let members ← members? ["name", "ty"] json
  return {
    name := ← members.required? "name" text?
    type := ← members.required? "ty" text? }

end TypedName

namespace Argument

def toJson : Argument → Json
  | .param name => .record (member "from" (.text "param") ++ member "name" (.text name))
  | .literal value => .record (member "from" (.text "literal") ++ member "literal" (.text value))

def ofJson? (json : Json) : Option Argument := do
  match ← tagged? "from" json with
  | ("param", content) => return .param (← (← members? ["name"] content).required? "name" text?)
  | ("literal", content) =>
      return .literal (← (← members? ["literal"] content).required? "literal" text?)
  | _ => none

end Argument

namespace Slot

def kindMembers : SlotKind → Members
  | .param => member "slot" (.text "param")
  | .deprecated literal => member "slot" (.text "deprecated") ++ member "literal" (.text literal)
  | .defaulted literal => member "slot" (.text "defaulted") ++ member "literal" (.text literal)

def toJson (slot : Slot) : Json := .record (
  member "field" (.text slot.field) ++
  member "ty" (.text slot.type) ++
  kindMembers slot.kind)

/-- The tags of slots; one may also be given by its place among them. -/
def tags : List String := ["param", "deprecated", "defaulted"]

def tag? : Json → Option String
  | .text name => some name
  | .int (.ofNat place) => tags[place]?
  | _ => none

def kindOfMembers? (members : Members) : Option SlotKind := do
  match ← members.required? "slot" tag? with
  | "param" => return .param
  | "deprecated" => return .deprecated (← members.required? "literal" text?)
  | "defaulted" => return .defaulted (← members.required? "literal" text?)
  | _ => none

/-- A slot is always a record, since the members of its kind have no fixed places. -/
def ofJson? : Json → Option Slot
  | .record members => do
      return {
        field := ← Members.required? members "field" text?
        type := ← Members.required? members "ty" text?
        kind := ← kindOfMembers? members }
  | _ => none

end Slot

namespace ResolvedArgument

def toJson (resolved : ResolvedArgument) : Json := .record (
  member "field" (.text resolved.field) ++
  member "value" resolved.value.toJson)

def ofJson? (json : Json) : Option ResolvedArgument := do
  let members ← members? ["field", "value"] json
  return {
    field := ← members.required? "field" text?
    value := ← members.required? "value" Argument.ofJson? }

end ResolvedArgument

namespace Tier

def name : Tier → String
  | .optional => "optional"
  | .full => "full"
  | .concrete => "concrete"

def ofName? : String → Option Tier
  | "optional" => some .optional
  | "full" => some .full
  | "concrete" => some .concrete
  | _ => none

def toJson (tier : Tier) : Json := .text tier.name

def ofJson? (json : Json) : Option Tier := json.choice?.bind ofName?

end Tier

namespace EntryVariant

def name : EntryVariant → String
  | .mandatoryOnly => "mandatory_only"
  | .defaultedOptionals => "defaulted_optionals"
  | .withOptionalCallback => "with_optional_callback"
  | .callbackOnly => "callback_only"
  | .noArg => "no_arg"

def ofName? : String → Option EntryVariant
  | "mandatory_only" => some .mandatoryOnly
  | "defaulted_optionals" => some .defaultedOptionals
  | "with_optional_callback" => some .withOptionalCallback
  | "callback_only" => some .callbackOnly
  | "no_arg" => some .noArg
  | _ => none

def toJson (variant : EntryVariant) : Json := .text variant.name

def ofJson? (json : Json) : Option EntryVariant := json.choice?.bind ofName?

/-- A variant among the members of a delegation target. -/
def ofInnerJson? (json : Json) : Option EntryVariant := json.innerChoice?.bind ofName?

end EntryVariant

namespace EntryParam

def toJson (param : EntryParam) : Json := .record (
  member "name" (.text param.name) ++
  member "ty" (.text param.type) ++
  member "deprecated" (.bool param.deprecated))

def ofJson? (json : Json) : Option EntryParam := do
  let members ← members? ["name", "ty", "deprecated"] json
  return {
    name := ← members.required? "name" text?
    type := ← members.required? "ty" text?
    deprecated := ← members.withFallback? "deprecated" false bool? }

end EntryParam

namespace CallbackPass

def name : CallbackPass → String
  | .withheld => "none"
  | .forwarded => "forward"
  | .empty => "empty"

def ofName? : String → Option CallbackPass
  | "none" => some .withheld
  | "forward" => some .forwarded
  | "empty" => some .empty
  | _ => none

def toJson (pass : CallbackPass) : Json := .text pass.name

def ofJson? (json : Json) : Option CallbackPass := json.choice?.bind ofName?

end CallbackPass

namespace DelegationTarget

def toJson : DelegationTarget → Json
  | .overload version variant => .record (
      member "to" (.text "overload") ++
      member "version" (.int version.toNat) ++
      member "variant" variant.toJson)
  | .concreteBuilder => .record (member "to" (.text "concrete_builder"))

def ofJson? (json : Json) : Option DelegationTarget := do
  match ← tagged? "to" json with
  | ("overload", content) =>
      let members ← members? ["version", "variant"] content
      return .overload (← members.required? "version" uint32?)
        (← members.required? "variant" EntryVariant.ofInnerJson?)
  | ("concrete_builder", content) =>
      let _ ← members? [] content
      return .concreteBuilder
  | _ => none

end DelegationTarget

namespace Delegation

def toJson (delegation : Delegation) : Json := .record (
  member "target" delegation.target.toJson ++
  listMember "args" Argument.toJson delegation.args ++
  member "callback" delegation.callback.toJson)

def ofJson? (json : Json) : Option Delegation := do
  let members ← members? ["target", "args", "callback"] json
  return {
    target := ← members.required? "target" DelegationTarget.ofJson?
    args := ← members.required? "args" (listOf? Argument.ofJson?)
    callback := ← members.required? "callback" CallbackPass.ofJson? }

end Delegation

namespace EntryPoint

def toJson (entry : EntryPoint) : Json := .record (
  member "variant" entry.variant.toJson ++
  listMember "params" EntryParam.toJson entry.params ++
  optionalMember "callback" Tier.toJson entry.callback ++
  member "delegation" entry.delegation.toJson)

def ofJson? (json : Json) : Option EntryPoint := do
  let members ← members? ["variant", "params", "callback", "delegation"] json
  return {
    variant := ← members.required? "variant" EntryVariant.ofJson?
    params := ← members.required? "params" (listOf? EntryParam.ofJson?)
    callback := ← members.optional? "callback" Tier.ofJson?
    delegation := ← members.required? "delegation" Delegation.ofJson? }

end EntryPoint

namespace Overload

def toJson (overload : Overload) : Json := .record (
  member "version" (.int overload.version.toNat) ++
  listMember "slots" Slot.toJson overload.slots ++
  listMember "resolved" ResolvedArgument.toJson overload.resolved ++
  listMember "entries" EntryPoint.toJson overload.entries)

def ofJson? (json : Json) : Option Overload := do
  let members ← members? ["version", "slots", "resolved", "entries"] json
  return {
    version := ← members.required? "version" uint32?
    slots := ← members.required? "slots" (listOf? Slot.ofJson?)
    resolved := ← members.required? "resolved" (listOf? ResolvedArgument.ofJson?)
    entries := ← members.required? "entries" (listOf? EntryPoint.ofJson?) }

end Overload

namespace PrimaryConstructor

def toJson (primary : PrimaryConstructor) : Json := .record (
  listMember "params" TypedName.toJson primary.params ++
  member "marker" (.text primary.marker))

def ofJson? (json : Json) : Option PrimaryConstructor := do
  let members ← members? ["params", "marker"] json
  return {
    params := ← members.required? "params" (listOf? TypedName.ofJson?)
    marker := ← members.required? "marker" text? }

end PrimaryConstructor

namespace FieldSource

def toJson : FieldSource → Json
  | .storage => .record (member "from" (.text "storage"))
  | .literal value => .record (member "from" (.text "literal") ++ member "literal" (.text value))

def ofJson? (json : Json) : Option FieldSource := do
  match ← tagged? "from" json with
  | ("storage", content) =>
      let _ ← members? [] content
      return .storage
  | ("literal", content) =>
      return .literal (← (← members? ["literal"] content).required? "literal" text?)
  | _ => none

end FieldSource

namespace Assignment

def toJson (assignment : Assignment) : Json := .record (
  member "field" (.text assignment.field) ++
  member "source" assignment.source.toJson)

def ofJson? (json : Json) : Option Assignment := do
  let members ← members? ["field", "source"] json
  return {
    field := ← members.required? "field" text?
    source := ← members.required? "source" FieldSource.ofJson? }

end Assignment

namespace CopyPlan

def toJson (copy : CopyPlan) : Json := .record (
  member "builder_args" (.texts copy.builderArgs) ++
  member "setters" (.texts copy.setters) ++
  member "callback" copy.callback.toJson)

def ofJson? (json : Json) : Option CopyPlan := do
  let members ← members? ["builder_args", "setters", "callback"] json
  return {
    builderArgs := ← members.required? "builder_args" texts?
    setters := ← members.required? "setters" texts?
    callback := ← members.required? "callback" Tier.ofJson? }

end CopyPlan

namespace Factory

def toJson (factory : Factory) : Json := .record (
  member "name" (.text factory.name) ++
  member "owner" (.text factory.owner) ++
  listMember "params" TypedName.toJson factory.params ++
  member "callback" factory.callback.toJson ++
  member "delegation" factory.delegation.toJson)

def ofJson? (json : Json) : Option Factory := do
  let members ← members? ["name", "owner", "params", "callback", "delegation"] json
  return {
    name := ← members.required? "name" text?
    owner := ← members.required? "owner" text?
    params := ← members.required? "params" (listOf? TypedName.ofJson?)
    callback := ← members.required? "callback" Tier.ofJson?
    delegation := ← members.required? "delegation" Delegation.ofJson? }

end Factory

namespace Construction

def assignmentsToJson (assignments : List Assignment) : Json := .record (
  listMember "assignments" Assignment.toJson assignments)

def assignmentsOfJson? (json : Json) : Option (List Assignment) := do
  let members ← members? ["assignments"] json
  members.required? "assignments" (listOf? Assignment.ofJson?)

def toJson (construction : Construction) : Json := .record (
  member "style" construction.style.toJson ++
  listMember "overloads" Overload.toJson construction.overloads ++
  member "primary" construction.primary.toJson ++
  member "from_builder" (assignmentsToJson construction.assignments) ++
  member "copy" construction.copy.toJson ++
  optionalMember "factory" Factory.toJson construction.factory)

def memberNames : List String :=
  ["style", "overloads", "primary", "from_builder", "copy", "factory"]

def ofJson? (json : Json) : Option Construction := do
  let members ← members? memberNames json
  return {
    style := ← members.required? "style" Style.ofJson?
    overloads := ← members.required? "overloads" (listOf? Overload.ofJson?)
    primary := ← members.required? "primary" PrimaryConstructor.ofJson?
    assignments := ← members.required? "from_builder" assignmentsOfJson?
    copy := ← members.required? "copy" CopyPlan.ofJson?
    factory := ← members.optional? "factory" Factory.ofJson? }

end Construction

end ShapeCompat
