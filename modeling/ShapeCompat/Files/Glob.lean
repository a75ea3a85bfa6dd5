import ShapeCompat.Files.Tree

/-!
Searching a file tree by pattern. A pattern is matched component by component: plain names are
looked up, two stars stand for any depth, and all other components are matched against the names in
a directory, hidden ones included and letters by their case.
-/

namespace ShapeCompat.Glob

inductive Token where
  | char (char : Char)
  | anyChar
  | anySequence
  /-- A character in one of the ranges, or in none of them when it is excluded. -/
  | within (excluded : Bool) (ranges : List (Char × Char))
  deriving DecidableEq

inductive Component where
  | plain (name : String)
  | anyDepth
  | form (tokens : List Token)
  deriving DecidableEq

/-- The ranges of a bracket expression; a character alone is a range of one. -/
def ranges : List Char → List (Char × Char)
  | first :: '-' :: last :: rest => (first, last) :: ranges rest
  | char :: rest => (char, char) :: ranges rest
  | [] => []

/-- The tokens of a component. Inside brackets, whose characters are collected in reverse, a closing
bracket counts only from the second place on. Stars must not touch. -/
def tokens? : Option (Bool × List Char) → List Char → Option (List Token)
  | none, [] => some []
  | some _, [] => none
  | some (excluded, collected), char :: rest =>
      if char = ']' ∧ collected ≠ [] then
        (tokens? none rest).map (.within excluded (ranges collected.reverse) :: ·)
      else tokens? (some (excluded, char :: collected)) rest
  | none, '[' :: '!' :: rest => tokens? (some (true, [])) rest
  | none, '[' :: rest => tokens? (some (false, [])) rest
  | none, '?' :: rest => (tokens? none rest).map (.anyChar :: ·)
  | none, '*' :: '*' :: _ => none
  | none, '*' :: rest => (tokens? none rest).map (.anySequence :: ·)
  | none, char :: rest => (tokens? none rest).map (.char char :: ·)

def plainName? : List Token → Option (List Char)
  | [] => some []
  | .char char :: rest => (plainName? rest).map (char :: ·)
  | _ :: _ => none

def component? (text : String) : Option Component :=
  if text = "**" then some .anyDepth
  else (tokens? none text.toList).map fun tokens =>
    match plainName? tokens with
    | some name => .plain (String.ofList name)
    | none => .form tokens

/-- A pattern split at its slashes. -/
structure Pattern where
  /-- Where the search starts: the root directory or the working directory. -/
  start : String
  components : List Component
  deriving DecidableEq

/-- Reads a pattern; `none` for one with a bracket left open or with stars that touch other than as
a whole component. -/
def parse? (text : String) : Option Pattern := do
  let segments := Path.segments text
  if Path.isAbsolute text then
    return ⟨"/", ← (segments.dropWhile (· == "")).mapM component?⟩
  return ⟨".", ← segments.mapM component?⟩

/-- Whether a token can stand for a character. -/
def Token.accepts (char : Char) : Token → Bool
  | .char expected => char == expected
  | .anyChar | .anySequence => true
  | .within excluded ranges =>
      (ranges.any fun (first, last) => decide (first ≤ char) && decide (char ≤ last)) != excluded

/-- A list and all that is left of it from later places on. -/
def endings : List Char → List (List Char)
  | [] => [[]]
  | char :: rest => (char :: rest) :: endings rest

/-- What may be left of a name behind a token, given what may be left in front of it. Both lists are
endings of the name with the longest first, so that a star takes all endings of the first one. -/
def advance (left : List (List Char)) : Token → List (List Char)
  | .anySequence => (left.head?.map endings).getD []
  | token => left.filterMap fun
      | [] => none
      | char :: rest => if token.accepts char then some rest else none

/-- Whether a name has the form of the tokens. -/
def fits (tokens : List Token) (name : List Char) : Bool :=
  (tokens.foldl advance [name]).contains []

def Component.fitsName (component : Component) (name : String) : Bool :=
  match component with
  | .plain text => text == name
  | .anyDepth => true
  | .form tokens => fits tokens name.toList

/-- A name taken from a directory; the working directory itself leaves no trace in front of it. -/
def joined (path name : String) : String :=
  if Path.parts path = [.here] then name else Path.join path name

/-- The path that the plain components in front lead to, and the components after them. An empty
component right at the working directory leads nowhere. -/
def leading (path : String) : List Component → Option (String × List Component)
  | .plain name :: rest =>
      let next := joined path name
      if next = "" then none else leading next rest
  | rest => some (path, rest)

def inside (place : FileTree.Place) (entry : String × FileTree) : String × FileTree.Place :=
  (entry.1, ⟨joined place.path entry.1, entry.2, place.node :: place.above⟩)

/-- Everything in a directory, by name. -/
def children (place : FileTree.Place) : List (String × FileTree.Place) :=
  place.node.entries.map (inside place)

mutual
/-- Everything below a node, at any depth, by name. -/
def below (path : String) (above : List FileTree) :
    FileTree → List (String × FileTree.Place)
  | .file _ => []
  | .directory entries => belowEntries path (.directory entries :: above) entries

def belowEntries (path : String) (above : List FileTree) :
    List (String × FileTree) → List (String × FileTree.Place)
  | [] => []
  | (name, node) :: rest =>
      let here : FileTree.Place := ⟨joined path name, node, above⟩
      (name, here) :: below here.path above node ++ belowEntries path above rest
end

def startsWithDot : List Token → Bool
  | .char '.' :: _ => true
  | _ => false

/-- The two entries that every directory has; only a pattern with a dot in front can mean them. -/
def dotEntries (tokens : List Token) (place : FileTree.Place) : List (String × FileTree.Place) :=
  if startsWithDot tokens then
    ([("..", Path.Part.up), (".", Path.Part.here)]).filterMap fun (name, part) =>
      (place.step part).map fun next => (name, { next with path := Path.join place.path name })
  else []

/-- Looks one name up; an empty one stays where it is. -/
def plainStep? (place : FileTree.Place) (name : String) : Option FileTree.Place := do
  let path := joined place.path name
  if path = "" then none
  let next ←
    if name = "." then place.step .here
    else if name = ".." then place.step .up
    else if name = "" then some place
    else place.step (.name name)
  return { next with path }

/-- The places that a list of components leads to, each as often as there are ways to it. -/
def search : List Component → FileTree.Place → List FileTree.Place
  | [], place => [place]
  | .plain name :: rest, place =>
      match plainStep? place name with
      | some next => search rest next
      | none => []
  | .form tokens :: rest, place =>
      (dotEntries tokens place ++ children place).flatMap fun (name, next) =>
        if fits tokens name.toList then search rest next else []
  | [.anyDepth], place =>
      ((below place.path place.above place.node).filter (·.2.node.isDirectory)).map (·.2)
  | .anyDepth :: .anyDepth :: rest, place => search (.anyDepth :: rest) place
  | .anyDepth :: component :: rest, place =>
      (below place.path place.above place.node).flatMap fun (name, next) =>
        if component.fitsName name then search rest next else []

/-- The places in a tree that a pattern leads to. -/
def find (tree : FileTree) (pattern : Pattern) : List FileTree.Place :=
  match leading pattern.start pattern.components with
  | none => []
  | some (path, rest) =>
      match tree.find? path with
      | some place => search rest place
      | none => []

end ShapeCompat.Glob
