import ShapeCompat.Declaration.Codec

/-!
Why a declaration is not planned. A schema fault is a contradiction in field metadata, a structural
fault lies in the declaration itself, and a consistency fault is a child whose parent has no plan.
Each cause has one code and one text.
-/

namespace ShapeCompat

inductive SchemaFault where
  /-- Both a default and a version requirement. -/
  | conflictingDefaults
  | invalidSinceVersion (value : Int64)
  | duplicateField
  /-- A frozen field collapses to its literal, so it needs one. -/
  | missingFrozenDefault (mutability : Mutability)
  | emptyRequirementDefault
  /-- Two entry points erase to one signature. -/
  | ambiguousOverloads (first second signature : String)
  deriving DecidableEq

inductive StructuralFault where
  | notAnInterface (kind : DeclarationKind)
  | typeParameters
  | missingSuffix (suffix : String)
  | nestedSealedParent (enclosing : String)
  | nestedInPlainShape (enclosing : String)
  | duplicateShape
  | duplicateOutputName (output : String)
  deriving DecidableEq

inductive OrphanReason where
  | parentNotDeclared
  | parentNotPlanned
  deriving DecidableEq

inductive Defect where
  | schema (shape : String) (field : Option String) (fault : SchemaFault)
  | structural (shape : String) (fault : StructuralFault)
  | consistency (parent child : String) (reason : OrphanReason)
  deriving DecidableEq

inductive DefectFamily where
  | schema
  | structural
  | consistency
  deriving DecidableEq

/-- A defect as it is reported. -/
structure Failure where
  shape : String
  family : DefectFamily
  code : String
  field : Option String
  message : String
  deriving DecidableEq

namespace SchemaFault

def code : SchemaFault → String
  | .conflictingDefaults => "conflicting_defaults"
  | .invalidSinceVersion _ => "invalid_since_version"
  | .duplicateField => "duplicate_field"
  | .missingFrozenDefault _ => "missing_frozen_default"
  | .emptyRequirementDefault => "empty_requirement_default"
  | .ambiguousOverloads _ _ _ => "ambiguous_overloads"

def message : SchemaFault → String
  | .conflictingDefaults => "field declares both a default value and a version requirement"
  | .invalidSinceVersion value =>
      "since_version must be greater than 1, got " ++ toString value.toInt
  | .duplicateField => "field name is declared more than once"
  | .missingFrozenDefault mutability => mutability.name ++ " field has no default literal"
  | .emptyRequirementDefault => "version requirement has an empty default literal"
  | .ambiguousOverloads first second signature =>
      s!"entry points {first} and {second} share the erased signature ({signature})"

end SchemaFault

namespace StructuralFault

def code : StructuralFault → String
  | .notAnInterface _ => "not_an_interface"
  | .typeParameters => "type_parameters"
  | .missingSuffix _ => "missing_suffix"
  | .nestedSealedParent _ => "nested_sealed_parent"
  | .nestedInPlainShape _ => "nested_in_plain_shape"
  | .duplicateShape => "duplicate_shape"
  | .duplicateOutputName _ => "duplicate_output_name"

def message : StructuralFault → String
  | .notAnInterface kind => s!"cannot target a non-interface declaration ({kind.name})"
  | .typeParameters => "declaration must not have type parameters"
  | .missingSuffix suffix =>
      s!"name must end with the '{suffix}' suffix or set a generated name"
  | .nestedSealedParent enclosing => s!"sealed parent cannot be nested in {enclosing}"
  | .nestedInPlainShape enclosing =>
      s!"enclosing declaration {enclosing} is not a sealed parent"
  | .duplicateShape => "declared more than once"
  | .duplicateOutputName output =>
      s!"output name {output} is claimed by more than one declaration"

end StructuralFault

namespace OrphanReason

def code : OrphanReason → String
  | .parentNotDeclared => "parent_not_declared"
  | .parentNotPlanned => "parent_not_planned"

def message : OrphanReason → String
  | .parentNotDeclared => "parent was never declared"
  | .parentNotPlanned => "parent failed to plan"

end OrphanReason

namespace DefectFamily

def name : DefectFamily → String
  | .schema => "schema"
  | .structural => "structural"
  | .consistency => "consistency"

def ofName? : String → Option DefectFamily
  | "schema" => some .schema
  | "structural" => some .structural
  | "consistency" => some .consistency
  | _ => none

def toJson (family : DefectFamily) : Json := .text family.name

def ofJson? (json : Json) : Option DefectFamily := json.choice?.bind ofName?

end DefectFamily

namespace Defect

def family : Defect → DefectFamily
  | .schema _ _ _ => .schema
  | .structural _ _ => .structural
  | .consistency _ _ _ => .consistency

def code : Defect → String
  | .schema _ _ fault => "schema." ++ fault.code
  | .structural _ fault => "structural." ++ fault.code
  | .consistency _ _ reason => "consistency." ++ reason.code

/-- The shape that the defect is reported against; for a missing parent it is the child. -/
def shape : Defect → String
  | .schema shape _ _ => shape
  | .structural shape _ => shape
  | .consistency _ child _ => child

def field : Defect → Option String
  | .schema _ field _ => field
  | _ => none

def message : Defect → String
  | .schema shape field fault =>
      let place := (field.map ("." ++ ·)).getD ""
      s!"schema error in {shape}{place}: {fault.message}"
  | .structural shape fault => s!"structural error in {shape}: {fault.message}"
  | .consistency parent child reason =>
      s!"consistency error: {child} references parent {parent}: {reason.message}"

def toFailure (defect : Defect) : Failure :=
  ⟨defect.shape, defect.family, defect.code, defect.field, defect.message⟩

/-- Defects are reported in the order of these keys. -/
def sortKey (defect : Defect) : String :=
  String.intercalate "|" [defect.shape, defect.code, defect.field.getD "", defect.message]

end Defect

namespace Failure

open Json

def toJson (failure : Failure) : Json := .record (
  member "shape" (.text failure.shape) ++
  member "family" failure.family.toJson ++
  member "code" (.text failure.code) ++
  optionalMember "field" .text failure.field ++
  member "message" (.text failure.message))

def ofJson? (json : Json) : Option Failure := do
  let members ← members? ["shape", "family", "code", "field", "message"] json
  return {
    shape := ← members.required? "shape" text?
    family := ← members.required? "family" DefectFamily.ofJson?
    code := ← members.required? "code" text?
    field := ← members.optional? "field" text?
    message := ← members.required? "message" text? }

end Failure

end ShapeCompat
