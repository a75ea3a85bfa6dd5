import ShapeCompat.Document.Loaded
import ShapeCompat.Files.Glob
import ShapeCompat.Json.Reader

/-!
Reading declaration documents: one from its text, and all that lie below a directory.
-/

namespace ShapeCompat

namespace Document

/-- A text is first read as a whole; only then its schema is looked at. -/
def parse (text : String) : Except LoadFault Document :=
  match (Json.parse? text).bind ofJson? with
  | none => .error (.json "not a declaration document")
  | some document =>
      match document.schema with
      | none => .ok document
      | some name => if name = schemaName then .ok document else .error (.schema name)

end Document

/-- The text of a file, or the reason that it has none. -/
def FileTree.text : FileTree → Except String String
  | .file content =>
      match String.fromUTF8? content with
      | some text => .ok text
      | none => .error "not UTF-8"
  | .directory _ => .error "a directory"

namespace LoadedDocument

/-- The document in a file, by its text or the reason that it has none. -/
def ofText (path : String) (text : Except String String) : LoadedDocument :=
  { path
    content := match text with
      | .ok text => Document.parse text
      | .error reason => .error (.io reason) }

/-- Declaration files below a directory; the directory itself may be a pattern. -/
def filePattern (directory : String) : String := Path.join directory "**/*.json"

/-- The documents that a pattern leads to, in the order of their paths; `none` for a pattern that is
not well formed. -/
def find? (tree : FileTree) (directory : String) : Option (List LoadedDocument) :=
  (Glob.parse? (filePattern directory)).map fun pattern =>
    sorted ((Glob.find tree pattern).map fun place => ofText place.path place.node.text)

end LoadedDocument

end ShapeCompat
