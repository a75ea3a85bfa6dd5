import ShapeCompat.Declaration.Codec
import ShapeCompat.Path

/-!
Declaration documents as they come from a source, each under its path and some of them with a fault
in place of content.
-/

namespace ShapeCompat

/-- The one schema that a document may name. -/
def Document.schemaName : String := "bincompat.decls.v1"

/-- Why a document has no content. -/
inductive LoadFault where
  | io (text : String)
  | json (text : String)
  | schema (name : String)
  deriving DecidableEq

def LoadFault.message : LoadFault → String
  | .io text => "io error: " ++ text
  | .json text => "json parse error: " ++ text
  | .schema name => s!"unsupported schema '{name}'"

structure LoadedDocument where
  path : String
  content : Except LoadFault Document

namespace LoadedDocument

def shapes (document : LoadedDocument) : List ShapeDeclaration :=
  match document.content with
  | .ok content => content.shapes
  | .error _ => []

def fault? (document : LoadedDocument) : Option LoadFault :=
  match document.content with
  | .ok _ => none
  | .error fault => some fault

/-- Documents in the order of their paths; those with one path keep their order. -/
def sorted (documents : List LoadedDocument) : List LoadedDocument :=
  documents.mergeSort fun first second => Path.le first.path second.path

end LoadedDocument

end ShapeCompat
