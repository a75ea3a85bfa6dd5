import ShapeCompat.Path

/-!
A tree of files and directories, with the ways to look things up and to write in it. Places carry
the directories above them, so that two dots lead back. Above the top nothing is found, and what is
written there is out of sight.
-/

namespace ShapeCompat

inductive FileTree where
  | file (content : ByteArray)
  | directory (entries : List (String × FileTree))

namespace FileTree

def isDirectory : FileTree → Bool
  | .directory _ => true
  | .file _ => false

def entries : FileTree → List (String × FileTree)
  | .directory entries => entries
  | .file _ => []

def setEntry (name : String) (node : FileTree) :
    List (String × FileTree) → List (String × FileTree)
  | [] => [(name, node)]
  | entry :: rest =>
      if entry.1 = name then (name, node) :: rest else entry :: setEntry name node rest

/-- Replaces what lies at a path, making the directories on the way; a file on the way is in it. -/
def alter (change : Option FileTree → Option FileTree) :
    List String → Option FileTree → Option FileTree
  | [], node => change node
  | name :: rest, none => (alter change rest none).map fun node => .directory [(name, node)]
  | name :: rest, some (.directory entries) =>
      (alter change rest (entries.lookup name)).map fun node =>
        .directory (setEntry name node entries)
  | _ :: _, some (.file _) => none

def asDirectory : Option FileTree → Option FileTree
  | none => some (.directory [])
  | some (.directory entries) => some (.directory entries)
  | some (.file _) => none

/-- Keeps a directory that is there, and makes none. -/
def presentDirectory : Option FileTree → Option FileTree
  | some (.directory entries) => some (.directory entries)
  | _ => none

def asFile (content : ByteArray) : Option FileTree → Option FileTree
  | some (.directory _) => none
  | _ => some (.file content)

/-- A name that a file can have. -/
def isFileName (name : String) : Bool :=
  decide (name.utf8ByteSize ≤ 255) && !name.toList.contains '\x00'

/-- Where components lead from the top. -/
inductive Aim where
  | below (names : List String)
  /-- Above the top, out of sight. -/
  | above
  | nowhere
  deriving DecidableEq

def aim (reversed : List String) : List Path.Part → Aim
  | [] => .below reversed.reverse
  | .root :: _ => .nowhere
  | .here :: rest => aim reversed rest
  | .up :: rest =>
      match reversed with
      | [] => .above
      | _ :: outer => aim outer rest
  | .name text :: rest => if isFileName text then aim (text :: reversed) rest else .nowhere

/-- Changes what lies at components that lead from the top. -/
def alterAt (change : Option FileTree → Option FileTree) (tree : FileTree)
    (parts : List Path.Part) : Option FileTree :=
  match aim [] parts with
  | .below names => alter change names (some tree)
  | .above => some tree
  | .nowhere => none

/-- Makes one directory, unless it is there. A path that ends in a dot only names one that is. -/
def makeLast (tree : FileTree) (path : String) : Option FileTree :=
  tree.alterAt (if Path.endsHere path then presentDirectory else asDirectory) (Path.parts path)

mutual
/-- Every file with the path that leads to it. -/
def filesBelow (path : String) : FileTree → List (String × ByteArray)
  | .file content => [(path, content)]
  | .directory entries => filesOfEntries path entries

def filesOfEntries (path : String) : List (String × FileTree) → List (String × ByteArray)
  | [] => []
  | (name, node) :: rest => filesBelow (Path.join path name) node ++ filesOfEntries path rest
end

/-- A file or directory under the path text that it was reached by. -/
structure Place where
  path : String
  node : FileTree
  /-- The directories around it, the nearest first. -/
  above : List FileTree

def Place.child? (place : Place) (name : String) : Option Place :=
  (place.node.entries.lookup name).map fun node =>
    ⟨Path.join place.path name, node, place.node :: place.above⟩

/-- Goes one component on; dots lead on only from a directory. -/
def Place.step (place : Place) : Path.Part → Option Place
  | .root => none
  | .here => if place.node.isDirectory then some place else none
  | .up =>
      match place.node, place.above with
      | .directory _, outer :: above => some ⟨Path.join place.path "..", outer, above⟩
      | _, _ => none
  | .name text => place.child? text

/-- What lies at a relative path. -/
def find? (tree : FileTree) (path : String) : Option Place :=
  if path = "" ∨ Path.isTooLong path then none
  else
    ((Path.parts path).foldlM Place.step ⟨"", tree, []⟩).map fun place =>
      { place with path := path }

/-- Makes a directory that is not there, and every other one that its path passes through, those
that it leaves again too. -/
def makeDirectory (tree : FileTree) (path : String) : Option FileTree :=
  if Path.isTooLong path then none
  else if (tree.find? path).any (·.node.isDirectory) then some tree
  else (Path.ladder path).foldlM makeLast tree

/-- Writes a file, making the directory that it lies in. -/
def writeFile (tree : FileTree) (path : String) (content : ByteArray) : Option FileTree := do
  let parts := Path.parts path
  let tree ← tree.makeDirectory (Path.ofParts parts.dropLast)
  if Path.isTooLong path then none else tree.alterAt (asFile content) parts

end FileTree

end ShapeCompat
