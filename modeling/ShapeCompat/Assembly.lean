import ShapeCompat.Plan.OfShape
import ShapeCompat.Schema.Checking

/-!
From declarations to output units. Every sound shape is first planned on its own; then shapes whose
final names collide are dropped, and the children of each sealed parent are moved into its unit.
-/

namespace ShapeCompat

/-- A shape planned on its own, with what its unit needs besides. -/
structure PlannedShape where
  plan : ShapePlan
  package : String
  imports : List String
  /-- Qualified declared name of the parent. -/
  parent : Option String

namespace PlannedShape

def ofShape (style : Style) (shape : Shape) : Except Defect PlannedShape := do
  return ⟨← shape.plan style, shape.outputPackage, shape.imports, shape.parent.map (·.declared)⟩

def declaredName (planned : PlannedShape) : String := planned.plan.declaredName

/-- The name under which a shape will be put out: its own, or its own behind its parent's. A parent
that is not planned lends its declared name. -/
def claimedName (all : List PlannedShape) (planned : PlannedShape) : String :=
  match planned.parent with
  | none => planned.plan.qualifiedName
  | some parent =>
      let enclosing := match all.find? (·.declaredName == parent) with
        | some outer => outer.plan.qualifiedName
        | none => parent
      enclosing ++ "." ++ planned.plan.name

def outputName (planned : PlannedShape) : OutputName := ⟨planned.package, planned.plan.name⟩

def nestedName (root child : PlannedShape) : OutputName :=
  ⟨root.package, root.plan.name ++ "." ++ child.plan.name⟩

/-- The plan of a child within its parent's unit. Its factory function moves to the unit. -/
def nestedPlan (root child : PlannedShape) : ShapePlan :=
  { child.plan with
    qualifiedName := (nestedName root child).qualified
    construction := child.plan.construction.map fun construction =>
      { construction with factory := none } }

def sharedFactory? (root child : PlannedShape) : Option Factory :=
  (child.plan.construction.bind (·.factory)).map fun factory =>
    { factory with owner := (nestedName root child).qualified }

def isChildOf (root child : PlannedShape) : Bool := child.parent == some root.declaredName

/-- The unit of a shape without parent, with those of `children` that are its own. -/
def unit (children : List PlannedShape) (root : PlannedShape) : OutputUnit :=
  let own := children.filter (isChildOf root)
  { qualifiedName := root.plan.qualifiedName
    package := root.package
    shape := root.plan
    children := (own.map (nestedPlan root)).mergeSort fun first second =>
      decide (first.qualifiedName ≤ second.qualifiedName)
    sharedFactories := (own.filterMap (sharedFactory? root)).mergeSort fun first second =>
      decide (first.owner ≤ second.owner)
    imports := ascending (root.imports ++ own.flatMap (·.imports)) }

end PlannedShape

structure Assembly where
  units : List OutputUnit
  defects : List Defect
  names : NameTable

namespace Assembly

/-- Shapes that were planned, with the names that they claim. -/
def withClaims (planned : List PlannedShape) : List (PlannedShape × String) :=
  planned.map fun shape => (shape, shape.claimedName planned)

def isContested (claims : List String) (claim : String) : Bool := decide (1 < claims.count claim)

/-- The shapes whose claimed names nobody else claims. -/
def uncontested (planned : List PlannedShape) : List PlannedShape :=
  let claims := withClaims planned
  let names := claims.map (·.2)
  (claims.filter fun claim => !isContested names claim.2).map (·.1)

def collisions (planned : List PlannedShape) : List Defect :=
  let claims := withClaims planned
  let names := claims.map (·.2)
  (claims.filter fun claim => isContested names claim.2).map fun claim =>
    .structural claim.1.declaredName (.duplicateOutputName claim.2)

def roots (kept : List PlannedShape) : List PlannedShape := kept.filter (·.parent.isNone)

def nested (kept : List PlannedShape) : List PlannedShape := kept.filter (·.parent.isSome)

def parentOf? (kept : List PlannedShape) (child : PlannedShape) : Option PlannedShape :=
  (roots kept).find? (PlannedShape.isChildOf · child)

/-- A child without a parent to go to, and why. -/
def orphanDefect? (declared : List String) (kept : List PlannedShape) (child : PlannedShape) :
    Option Defect :=
  match child.parent, parentOf? kept child with
  | some parent, none =>
      let reason : OrphanReason :=
        if parent ∈ declared then .parentNotPlanned else .parentNotDeclared
      some (.consistency parent child.declaredName reason)
  | _, _ => none

/-- Every kept shape under its own name, and then every child that found its parent under its
nested name. -/
def nameTable (kept : List PlannedShape) : NameTable :=
  let own := kept.foldl (fun table shape => table.register shape.declaredName shape.outputName) {}
  (nested kept).foldl (fun table child =>
    match parentOf? kept child with
    | some root => table.register child.declaredName (root.nestedName child)
    | none => table) own

def unitsOf (kept : List PlannedShape) : List OutputUnit :=
  ((roots kept).map (PlannedShape.unit (nested kept))).mergeSort fun first second =>
    decide (first.qualifiedName ≤ second.qualifiedName)

/-- Plans a batch of declarations. -/
def ofDeclarations (declarations : List ShapeDeclaration) (settings : Settings) : Assembly :=
  let checkedSchema := Schema.ofDeclarations declarations settings
  let outcomes := checkedSchema.schema.shapes.map (PlannedShape.ofShape settings.style)
  let planned := accepted outcomes
  let kept := uncontested planned
  let declared := declarations.map (·.qualifiedName)
  let defects := checkedSchema.defects ++ rejected outcomes ++ collisions planned ++
    (nested kept).filterMap (orphanDefect? declared kept)
  { units := unitsOf kept
    defects := defects.mergeSort fun first second => decide (first.sortKey ≤ second.sortKey)
    names := nameTable kept }

end Assembly

end ShapeCompat
