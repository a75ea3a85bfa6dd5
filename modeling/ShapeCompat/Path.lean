/-!
Paths by components. A path is a text with slashes; repeated slashes, inner dots and a slash at the
end do not count, a dot in front and a slash in front do.
-/

namespace ShapeCompat.Path

inductive Part where
  | root
  | here
  | up
  | name (text : String)
  deriving DecidableEq

namespace Part

def rank : Part → Nat
  | .root => 0
  | .here => 1
  | .up => 2
  | .name _ => 3

/-- Root, dot, two dots, and then names by their text. -/
def le : Part → Part → Bool
  | .name first, .name second => decide (first ≤ second)
  | first, second => decide (first.rank ≤ second.rank)

end Part

def isAbsolute (path : String) : Bool := path.toList.head? == some '/'

/-- The texts between slashes. -/
def segments (path : String) : List String :=
  (path.toList.splitOn '/').map String.ofList

def innerPart? (segment : String) : Option Part :=
  if segment = "" ∨ segment = "." then none
  else if segment = ".." then some .up
  else some (.name segment)

def parts (path : String) : List Part :=
  match segments path with
  | [] => []
  | first :: rest =>
      let start :=
        if isAbsolute path then [.root] else if first = "." then [.here]
        else (innerPart? first).toList
      start ++ rest.filterMap innerPart?

def leParts : List Part → List Part → Bool
  | [], _ => true
  | _ :: _, [] => false
  | first :: firsts, second :: seconds =>
      if first = second then leParts firsts seconds else first.le second

/-- Paths in order of their components; a path comes before those that it leads to. -/
def le (first second : String) : Bool := leParts (parts first) (parts second)

def Part.text : Part → String
  | .root => "/"
  | .here => "."
  | .up => ".."
  | .name text => text

/-- The text of components. -/
def ofParts : List Part → String
  | .root :: rest => "/" ++ String.intercalate "/" (rest.map Part.text)
  | parts => String.intercalate "/" (parts.map Part.text)

/-- The paths on the way to a path, the shortest first, and the path itself as it is written. -/
def ladder (path : String) : List String :=
  match parts path with
  | [] => []
  | parts =>
      (List.range (parts.length - 1)).map (fun count => ofParts (parts.take (count + 1))) ++ [path]

/-- Whether the last thing that a path says is a dot, so that it names a directory from within. -/
def endsHere (path : String) : Bool :=
  ((segments path).filter (· != "")).getLast? == some "."

/-- A path that is too long in bytes leads nowhere. -/
def isTooLong (path : String) : Bool := decide (4096 ≤ path.utf8ByteSize)

def withoutHere (path : String) : List Part := (parts path).filter (· != .here)

/-- The components below a directory. -/
def below? : List Part → List Part → Option (List Part)
  | [], parts => some parts
  | directory :: directories, part :: parts =>
      if directory = part then below? directories parts else none
  | _ :: _, [] => none

/-- A path as it reads from a directory that it lies in, with slashes only; a path outside stays as
it is. -/
def relativeTo (directory path : String) : String :=
  match below? (withoutHere directory) (withoutHere path) with
  | some parts => (ofParts parts).map fun char => if char = '\\' then '/' else char
  | none => path

/-- A path taken from a directory: an absolute one stands for itself. -/
def join (directory path : String) : String :=
  if isAbsolute path ∨ directory = "" then path
  else if directory.toList.getLast? = some '/' then directory ++ path
  else directory ++ "/" ++ path

end ShapeCompat.Path
