import ShapeCompat.Assembly
import ShapeCompat.Digest.NameId
import ShapeCompat.Document.Loaded
import ShapeCompat.Path

/-!
The plan of a list of documents: their shapes assembled in one batch, the inputs as they read from
the declaration directory, a summary, and an identifier that only depends on what was planned.
-/

namespace ShapeCompat

def PlanInput.ofDocument (directory : String) (document : LoadedDocument) : PlanInput :=
  { path := Path.relativeTo directory document.path
    shapes := document.shapes.length
    error := document.fault?.map (·.message) }

namespace PlanSummary

/-- What calls can begin with: the entry points and the factory functions. -/
def entryPointCount (units : List OutputUnit) (constructions : List Construction) : Nat :=
  (constructions.flatMap (·.entryPoints)).length + (constructions.filterMap (·.factory)).length +
    (units.flatMap (·.sharedFactories)).length

def ofUnits (shapesTotal : Nat) (units : List OutputUnit) (failures : Nat) : PlanSummary :=
  let shapes := units.flatMap (·.shapePlans)
  let constructions := shapes.filterMap (·.construction)
  { shapesTotal
    shapesPlanned := shapes.length
    units := units.length
    overloads := (constructions.flatMap (·.overloads)).length
    entryPoints := entryPointCount units constructions
    failures }

end PlanSummary

/-- The identifier of a list of content keys. -/
def planIdOf (keys : List String) : String :=
  let space : List UInt8 :=
    [0x7c, 0x1e, 0x52, 0x9a, 0x3d, 0x44, 0x4f, 0x0b, 0x91, 0x6a, 0x2e, 0x8f, 0xc3, 0x15, 0x70, 0xd4]
  Digest.NameId.text (Digest.NameId.bytes space (String.intercalate "|" keys))

namespace Plan

/-- Every planned shape with its fingerprint, then every failure with its code. -/
def contentKeys (units : List OutputUnit) (failures : List Failure) : List String :=
  (units.flatMap (·.shapePlans)).map (fun shape => shape.qualifiedName ++ ":" ++ shape.fingerprint)
    ++ failures.map fun failure => failure.shape ++ ":" ++ failure.code

def ofDocuments (directory : String) (settings : Settings) (tool : Tool)
    (documents : List LoadedDocument) : Plan :=
  let shapes := documents.flatMap (·.shapes)
  let assembly := Assembly.ofDeclarations shapes settings
  let failures := assembly.defects.map Defect.toFailure
  { schema := schemaName
    tool
    planId := planIdOf (contentKeys assembly.units failures)
    settings
    inputs := documents.map (PlanInput.ofDocument directory)
    units := assembly.units
    failures
    summary := PlanSummary.ofUnits shapes.length assembly.units failures.length }

end Plan

end ShapeCompat
