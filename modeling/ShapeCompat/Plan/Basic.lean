import ShapeCompat.Builder
import ShapeCompat.Defect
import ShapeCompat.Identity

/-!
Plans: what is decided for every declared shape, family by family, with the inputs it was decided
from and the declarations that could not be planned.
-/

namespace ShapeCompat

/-- What a field is to the callers of a constructor. -/
inductive FieldRole where
  | required
  | requiredSince (version : UInt32) (previousDefault : String)
  | optional (default : String)
  | frozen (literal : String)
  | frozenRecently (literal : String)
  deriving DecidableEq

structure FieldPlan where
  name : String
  type : String
  mutability : Mutability
  default : Option String
  mandatorySince : Option UInt32
  role : FieldRole
  equality : Bool
  overrides : Bool
  doc : Option String
  deriving DecidableEq

structure ShapePlan where
  declaredName : String
  /-- Simple output name. -/
  name : String
  /-- Output name with the package and, when nested, the parent. -/
  qualifiedName : String
  kind : ShapeKind
  version : UInt32
  fingerprint : String
  fields : List FieldPlan
  interfaces : List String
  annotations : List String
  doc : Option String
  /-- A sealed parent has neither construction nor builder nor identity. -/
  construction : Option Construction
  builder : Option Builder
  identity : Option Identity
  deriving DecidableEq

/-- A shape that stands alone, or a sealed parent with its children. -/
structure OutputUnit where
  qualifiedName : String
  package : String
  shape : ShapePlan
  children : List ShapePlan
  /-- The factory functions of the children, which have their place at the parent. -/
  sharedFactories : List Factory
  imports : List String
  deriving DecidableEq

/-- The shape of a unit, then its children. -/
def OutputUnit.shapePlans (unit : OutputUnit) : List ShapePlan := unit.shape :: unit.children

structure Tool where
  name : String := "bincompat"
  version : Option String := none
  deriving DecidableEq

structure PlanInput where
  path : String
  shapes : Nat
  error : Option String
  deriving DecidableEq

structure PlanSummary where
  shapesTotal : Nat := 0
  shapesPlanned : Nat := 0
  units : Nat := 0
  overloads : Nat := 0
  entryPoints : Nat := 0
  failures : Nat := 0
  deriving DecidableEq

structure Plan where
  schema : String
  tool : Tool
  planId : String
  settings : Settings
  inputs : List PlanInput
  units : List OutputUnit
  failures : List Failure
  summary : PlanSummary
  deriving DecidableEq

namespace Plan

def schemaName : String := "bincompat.plan.v1"

def shapePlans (plan : Plan) : List ShapePlan := plan.units.flatMap (·.shapePlans)

/-- A shape by output qualified name or declared name; failing that, by simple output name. -/
def findShape? (plan : Plan) (name : String) : Option ShapePlan :=
  (plan.shapePlans.find? fun shape =>
    shape.qualifiedName == name || shape.declaredName == name).or
    (plan.shapePlans.find? (·.name == name))

end Plan

end ShapeCompat
