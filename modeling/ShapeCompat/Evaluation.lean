import ShapeCompat.Plan.Basic

/-!
Running a shape plan on literal values, the way code generated from it would run. A call follows its
delegation chain into the concrete builder, the callback's setter calls are applied there, and the
constructor behind the builder collects the fields.
-/

namespace ShapeCompat

/-- One setter call inside a callback. -/
structure SetCall where
  field : String
  value : String
  deriving DecidableEq

/-- A constructed value: its type and its fields in schema order. -/
structure Instance where
  typeName : String
  values : List (String × String)
  deriving DecidableEq

def Instance.get? (value : Instance) (field : String) : Option String := value.values.lookup field

inductive CallFault where
  | notConstructible (shape : String)
  | unknownEntry (version : UInt32) (variant : EntryVariant)
  | noFactory (shape : String)
  | argumentCount (expected got : Nat)
  | unexpectedCallback
  | unknownProperty (tier : Tier) (field : String)
  | readOnlyProperty (field : String)
  | unbound (name : String)
  | delegationCycle
  deriving DecidableEq

namespace CallFault

def code : CallFault → String
  | .notConstructible _ => "not_constructible"
  | .unknownEntry _ _ => "unknown_entry"
  | .noFactory _ => "no_factory"
  | .argumentCount _ _ => "arg_count"
  | .unexpectedCallback => "unexpected_callback"
  | .unknownProperty _ _ => "unknown_property"
  | .readOnlyProperty _ => "read_only_property"
  | .unbound _ => "unbound"
  | .delegationCycle => "delegation_cycle"

def message : CallFault → String
  | .notConstructible shape => shape ++ " has no construction plan"
  | .unknownEntry version variant => s!"no entry point v{version.toNat}/{variant.name}"
  | .noFactory shape => shape ++ " has no factory function"
  | .argumentCount expected got => s!"expected {expected} argument(s), got {got}"
  | .unexpectedCallback => "no callback accepted here"
  | .unknownProperty tier field => s!"{tier.typeName} has no property '{field}'"
  | .readOnlyProperty field => s!"property '{field}' has no setter"
  | .unbound name => s!"unbound parameter '{name}'"
  | .delegationCycle => "delegation chain does not terminate"

end CallFault

/-- A planned shape that values can be made of. -/
structure Constructible where
  typeName : String
  construction : Construction
  builder : Builder
  identity : Identity

def ShapePlan.constructible (plan : ShapePlan) : Except CallFault Constructible :=
  match plan.construction, plan.builder, plan.identity with
  | some construction, some builder, some identity =>
      .ok ⟨plan.qualifiedName, construction, builder, identity⟩
  | _, _, _ => .error (.notConstructible plan.qualifiedName)

/-- Values by name; of several under one name the first counts. -/
abbrev Bindings := List (String × String)

namespace Bindings

/-- Of repeated names the last is bound. -/
def ofLists (names values : List String) : Bindings := (names.zip values).reverse

def find (bindings : Bindings) (name : String) : Except CallFault String :=
  match bindings.lookup name with
  | some value => .ok value
  | none => .error (.unbound name)

def set (bindings : Bindings) (name value : String) : Bindings := (name, value) :: bindings

end Bindings

def Argument.evaluate (bindings : Bindings) : Argument → Except CallFault String
  | .param name => bindings.find name
  | .literal value => .ok value

def CallbackPass.apply (pass : CallbackPass) (callback : List SetCall) : List SetCall :=
  match pass with
  | .forwarded => callback
  | .withheld | .empty => []

namespace Constructible

def slotValue (params : Bindings) (slot : StorageSlot) : Except CallFault (String × String) :=
  match slot.init with
  | .constructorParam => do return (slot.name, ← params.find slot.name)
  | .literal value => .ok (slot.name, value)

/-- The storage of a new concrete builder. -/
def newStorage (builder : ConcreteBuilder) (args : List String) : Except CallFault Bindings := do
  if args.length ≠ builder.constructorParams.length then
    .error (.argumentCount builder.constructorParams.length args.length)
  else
    let params := Bindings.ofLists (builder.constructorParams.map (·.name)) args
    return (← builder.storage.mapM (slotValue params)).reverse

/-- A setter call on a tier: an inert setter leaves the storage as it is. -/
def applySetter (builder : Builder) (tier : Tier) (storage : Bindings) (call : SetCall) :
    Except CallFault Bindings :=
  match (builder.tier? tier).bind (·.property? call.field) with
  | none => .error (.unknownProperty tier call.field)
  | some property =>
      match property.setter with
      | .live => .ok (storage.set call.field call.value)
      | .inert => .ok storage
      | .absent => .error (.readOnlyProperty call.field)

def assignedValue (storage : Bindings) (assignment : Assignment) :
    Except CallFault (String × String) :=
  match assignment.source with
  | .storage => do return (assignment.field, ← storage.find assignment.field)
  | .literal value => .ok (assignment.field, value)

/-- Makes the concrete builder, restores `presets` in it, applies the callback and builds. -/
def build (shape : Constructible) (args : List String) (tier : Tier)
    (callback presets : List SetCall) : Except CallFault Instance := do
  let fresh ← newStorage shape.builder.concrete args
  let restored := presets.foldl (fun storage call => storage.set call.field call.value) fresh
  let storage ← callback.foldlM (applySetter shape.builder tier) restored
  return ⟨shape.typeName, ← shape.construction.assignments.mapM (assignedValue storage)⟩

/-- A call on its way along the delegation chain. -/
structure PendingCall where
  version : UInt32
  variant : EntryVariant
  args : List String
  callback : List SetCall
  /-- The tier of the first entry on the way that takes a callback. -/
  tier : Option Tier

/-- The entry that a pending call is for, once its arguments and callback are checked. -/
def enter (construction : Construction) (call : PendingCall) :
    Except CallFault (EntryPoint × Option Tier) := do
  match (construction.overload? call.version).bind (·.entryFor call.variant) with
  | none => .error (.unknownEntry call.version call.variant)
  | some entry =>
      if call.args.length ≠ entry.params.length then
        .error (.argumentCount entry.params.length call.args.length)
      else
        let tier := call.tier.or entry.callback
        if tier = none ∧ call.callback ≠ [] then .error .unexpectedCallback
        else return (entry, tier)

/-- Follows a call for at most so many entries. -/
def follow (shape : Constructible) : Nat → PendingCall → Except CallFault Instance
  | 0, _ => .error .delegationCycle
  | fuel + 1, call => do
      let (entry, tier) ← enter shape.construction call
      let bindings := Bindings.ofLists (entry.params.map (·.name)) call.args
      let args ← entry.delegation.args.mapM (Argument.evaluate bindings)
      let callback := entry.delegation.callback.apply call.callback
      match entry.delegation.target with
      | .overload version variant => follow shape fuel ⟨version, variant, args, callback, tier⟩
      | .concreteBuilder => shape.build args (tier.getD .full) callback []

/-- Calls a public entry point. A chain visits at most two entries of each overload. -/
def invoke (shape : Constructible) (version : UInt32) (variant : EntryVariant)
    (args : List String) (callback : List SetCall) : Except CallFault Instance :=
  shape.follow (shape.construction.overloads.length * 2 + 1)
    ⟨version, variant, args, callback, none⟩

def callFactory (shape : Constructible) (args : List String) (callback : List SetCall) :
    Except CallFault Instance := do
  match shape.construction.factory with
  | none => .error (.noFactory shape.typeName)
  | some factory =>
      if args.length ≠ factory.params.length then
        .error (.argumentCount factory.params.length args.length)
      else
        let bindings := Bindings.ofLists (factory.params.map (·.name)) args
        let bound ← factory.delegation.args.mapM (Argument.evaluate bindings)
        shape.build bound factory.callback callback []

def currentValue (value : Instance) (field : String) : Except CallFault String :=
  match value.get? field with
  | some current => .ok current
  | none => .error (.unbound field)

/-- Rebuilds a value from its current fields and applies a callback. -/
def copy (shape : Constructible) (value : Instance) (callback : List SetCall) :
    Except CallFault Instance := do
  let plan := shape.construction.copy
  let args ← plan.builderArgs.mapM (currentValue value)
  let presets ← plan.setters.mapM fun field => do
    return (⟨field, ← currentValue value field⟩ : SetCall)
  shape.build args plan.callback callback presets

def equal (shape : Constructible) (first second : Instance) : Bool :=
  first.typeName == second.typeName &&
    shape.identity.equality.all fun field => first.get? field == second.get? field

/-- What the hash of a value is computed from; the type marker is one for all values. -/
def hashKey (shape : Constructible) (value : Instance) : List (Option String) :=
  match shape.identity.hash with
  | .fields fields => fields.map value.get?
  | .typeMarker typeName => [some typeName]

/-- The text of a value, as in `Name(a=1, b=2)`, over all fields. -/
def display (shape : Constructible) (value : Instance) : String :=
  let rule := shape.identity.display
  let fields := rule.fields.map fun field => field ++ "=" ++ (value.get? field).getD ""
  rule.typeName ++ "(" ++ String.intercalate ", " fields ++ ")"

end Constructible

end ShapeCompat
