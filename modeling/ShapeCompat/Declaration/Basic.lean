/-!
Declarations of data shapes as they are supplied. They are loose on purpose: contradictions between
their parts are found later and reported, so every declaration that can be read can be planned for.
-/

namespace ShapeCompat

/-- Joins a package and a name with a dot; the root package is empty and adds nothing. -/
def qualify (package name : String) : String :=
  if package = "" then name else package ++ "." ++ name

inductive Mutability where
  | mutable
  | immutable
  /-- Frozen now and mutable before: setters and parameters remain without effect. -/
  | immutableRecently
  deriving DecidableEq

inductive DeclarationKind where
  | interface
  | concreteClass
  | singleton
  | enumeration
  deriving DecidableEq

inductive Marker where
  | dataClass
  | sealedParent
  deriving DecidableEq

/-- A default value: an expression, or else a plain text that is put in quotes. -/
structure DeclaredDefault where
  raw : String := ""
  plain : String := ""
  deriving DecidableEq

/-- No literal when both forms are empty. -/
def DeclaredDefault.literal? (value : DeclaredDefault) : Option String :=
  if value.raw ≠ "" then some value.raw
  else if value.plain ≠ "" then some ("\"" ++ value.plain ++ "\"")
  else none

/-- The field is required from `sinceVersion` on; calls of older versions use its own default. The
version is signed so that nonsense is reported and does not stop the reading. -/
structure DeclaredRequirement where
  sinceVersion : Int64
  previouslyOptional : Bool := false
  default : DeclaredDefault := {}
  deriving DecidableEq

structure FieldDeclaration where
  name : String
  type : String
  nullable : Bool := false
  mutability : Mutability := .mutable
  default : Option DeclaredDefault := none
  requirement : Option DeclaredRequirement := none
  excludedFromEquality : Bool := false
  overrides : Bool := false
  doc : Option String := none
  deriving DecidableEq

structure ShapeDeclaration where
  name : String
  package : String := ""
  kind : DeclarationKind := .interface
  marker : Marker := .dataClass
  /-- Replaces the output name when it is not blank. -/
  generatedName : Option String := none
  version : UInt32 := 1
  typeParameters : List String := []
  /-- Qualified name of the enclosing declaration of a nested one. -/
  parent : Option String := none
  interfaces : List String := []
  annotations : List String := []
  imports : List String := []
  doc : Option String := none
  fields : List FieldDeclaration := []
  deriving DecidableEq

def ShapeDeclaration.qualifiedName (declaration : ShapeDeclaration) : String :=
  qualify declaration.package declaration.name

/-- The content of one declaration file. -/
structure Document where
  schema : Option String := none
  shapes : List ShapeDeclaration := []
  deriving DecidableEq

end ShapeCompat
