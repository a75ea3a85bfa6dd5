import ShapeCompat.Settings.Basic

/-!
The vocabulary of construction plans: overloads by version, the slots and entry points of each, and
the private constructors behind them.
-/

namespace ShapeCompat

structure TypedName where
  name : String
  type : String
  deriving DecidableEq

/-- What is passed on a call: a parameter of the calling entry, or a literal. -/
inductive Argument where
  | param (name : String)
  | literal (text : String)
  deriving DecidableEq

/-- How a field appears in the overload of one version. -/
inductive SlotKind where
  | param
  /-- A parameter for linking only; its value is discarded. -/
  | deprecated (literal : String)
  /-- No parameter here; the literal goes to the next newer overload. -/
  | defaulted (literal : String)
  deriving DecidableEq

def SlotKind.isParam : SlotKind → Bool
  | .param | .deprecated _ => true
  | .defaulted _ => false

def SlotKind.literal? : SlotKind → Option String
  | .param => none
  | .deprecated literal | .defaulted literal => some literal

structure Slot where
  field : String
  type : String
  kind : SlotKind
  deriving DecidableEq

/-- The value that a field reaches the concrete builder with. -/
structure ResolvedArgument where
  field : String
  value : Argument
  deriving DecidableEq

/-- The faces of a builder: optional properties only, all properties, and the class with storage. -/
inductive Tier where
  | optional
  | full
  | concrete
  deriving DecidableEq

def Tier.typeName : Tier → String
  | .optional => "OptionalPropertiesBuilder"
  | .full => "Builder"
  | .concrete => "BuilderImpl"

inductive EntryVariant where
  /-- Mandatory parameters; the shape has no optional tier. -/
  | mandatoryOnly
  /-- Mandatory parameters, with the optional properties at their literals. -/
  | defaultedOptionals
  /-- Mandatory parameters and a callback on the optional tier. -/
  | withOptionalCallback
  /-- Only a callback on the optional tier. -/
  | callbackOnly
  /-- The public entry without arguments, when nothing is mandatory. -/
  | noArg
  deriving DecidableEq

structure EntryParam where
  name : String
  type : String
  deprecated : Bool := false
  deriving DecidableEq

/-- What becomes of the caller's callback on a delegated call. -/
inductive CallbackPass where
  | withheld
  | forwarded
  | empty
  deriving DecidableEq

inductive DelegationTarget where
  | overload (version : UInt32) (variant : EntryVariant)
  /-- Make the concrete builder with the arguments, apply the callback, and build. -/
  | concreteBuilder
  deriving DecidableEq

structure Delegation where
  target : DelegationTarget
  args : List Argument
  callback : CallbackPass
  deriving DecidableEq

structure EntryPoint where
  variant : EntryVariant
  params : List EntryParam
  callback : Option Tier
  delegation : Delegation
  deriving DecidableEq

structure Overload where
  version : UInt32
  slots : List Slot
  resolved : List ResolvedArgument
  entries : List EntryPoint
  deriving DecidableEq

/-- The slots that are parameters, live or deprecated. -/
def Overload.params (overload : Overload) : List Slot := overload.slots.filter (·.kind.isParam)

def Overload.entryFor (overload : Overload) (variant : EntryVariant) : Option EntryPoint :=
  overload.entries.find? (·.variant == variant)

/-- The private constructor over all fields, with a hidden parameter that marks it. -/
structure PrimaryConstructor where
  params : List TypedName
  marker : String
  deriving DecidableEq

/-- Where the constructor behind the builder takes a field from. -/
inductive FieldSource where
  | storage
  | literal (text : String)
  deriving DecidableEq

structure Assignment where
  field : String
  source : FieldSource
  deriving DecidableEq

/-- A copy hands current values to the builder, as arguments and by setters, and then applies a
callback. -/
structure CopyPlan where
  builderArgs : List String
  setters : List String
  callback : Tier
  deriving DecidableEq

structure Factory where
  name : String
  /-- Qualified output name of the shape that it builds. -/
  owner : String
  params : List TypedName
  callback : Tier
  delegation : Delegation
  deriving DecidableEq

structure Construction where
  style : Style
  /-- Oldest first. -/
  overloads : List Overload
  primary : PrimaryConstructor
  assignments : List Assignment
  copy : CopyPlan
  factory : Option Factory
  deriving DecidableEq

namespace Construction

def overload? (construction : Construction) (version : UInt32) : Option Overload :=
  construction.overloads.find? (·.version == version)

def entryPoints (construction : Construction) : List (Overload × EntryPoint) :=
  construction.overloads.flatMap fun overload => overload.entries.map (overload, ·)

end Construction

end ShapeCompat
