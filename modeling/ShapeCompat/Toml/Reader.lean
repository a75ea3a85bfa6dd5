import ShapeCompat.Toml.Basic
import ShapeCompat.Toml.Scalar

/-!
Reading TOML text. Lines end with a line feed, with or without a carriage return in front, and a
text over several lines keeps either form. Tables between braces may span lines and end with a
comma, like lists. Each step takes the remaining characters and returns what is left behind what it
read.
-/

namespace ShapeCompat.Toml

open Text (hexValue? isDigit valueIn)

def isSpace (char : Char) : Bool := char == ' ' || char == '\t'

/-- A character that comments and strings may hold as it is. -/
def isPrintable (char : Char) : Bool :=
  char == '\t' || (0x20 ≤ char.toNat && char.toNat != 0x7F)

def skipSpaces (input : List Char) : List Char := input.dropWhile isSpace

/-- What follows spaces, line ends and comments. -/
def skipFiller (inComment : Bool) : List Char → Option (List Char)
  | [] => some []
  | '\n' :: rest => skipFiller false rest
  | '\r' :: '\n' :: rest => skipFiller false rest
  | char :: rest =>
      if inComment then if isPrintable char then skipFiller true rest else none
      else if isSpace char then skipFiller false rest
      else if char = '#' then skipFiller true rest
      else some (char :: rest)

/-- The next line, when nothing but spaces and a comment is left of this one. -/
def endLine (inComment : Bool) : List Char → Option (List Char)
  | [] => some []
  | '\n' :: rest => some rest
  | '\r' :: '\n' :: rest => some rest
  | char :: rest =>
      if inComment then if isPrintable char then endLine true rest else none
      else if isSpace char then endLine false rest
      else if char = '#' then endLine true rest
      else none

/-- The character with a code in hexadecimal digits. -/
def codedChar? (digits : List Char) : Option Char :=
  let code := valueIn 16 digits
  if digits.all (fun digit => (hexValue? digit).isSome) ∧ code.isValidChar then
    some (Char.ofNat code)
  else none

def escapedChar? : Char → Option Char
  | 'b' => some '\x08'
  | 't' => some '\t'
  | 'n' => some '\n'
  | 'f' => some '\x0c'
  | 'r' => some '\r'
  | 'e' => some '\x1b'
  | '"' => some '"'
  | '\\' => some '\\'
  | _ => none

/-- Whether only spaces are left of a line. -/
def atLineEnd (input : List Char) : Bool :=
  match skipSpaces input with
  | '\n' :: _ | '\r' :: '\n' :: _ => true
  | _ => false

/-- The end of a string between triple quotes, up to two quotes of its content in front. -/
def closing? (mark : Char) : List Char → Option (List Char × List Char)
  | first :: second :: third :: rest =>
      if first = mark ∧ second = mark ∧ third = mark then
        let extra := (rest.take 2).takeWhile (· == mark)
        some (extra, rest.drop extra.length)
      else none
  | _ => none

def prepend (char : Char) (result : Option (List Char × List Char)) :
    Option (List Char × List Char) :=
  result.map fun (chars, rest) => (char :: chars, rest)

/-- The content of a string behind its opening mark. Backslashes count only between double quotes.
One at the end of a line takes the spaces and line ends after it away; `folding` is within those. -/
def readQuoted (mark : Char) (triple folding : Bool) : List Char → Option (List Char × List Char)
  | [] => none
  | '\r' :: '\n' :: rest =>
      if !triple then none
      else if folding then readQuoted mark triple true rest
      else prepend '\r' (prepend '\n' (readQuoted mark triple false rest))
  | '\n' :: rest =>
      if !triple then none
      else if folding then readQuoted mark triple true rest
      else prepend '\n' (readQuoted mark triple false rest)
  | char :: rest =>
      if folding && isSpace char then readQuoted mark triple true rest
      else if char = mark then
        if !triple then some ([], rest)
        else match closing? mark (char :: rest) with
          | some ending => some ending
          | none => prepend char (readQuoted mark triple false rest)
      else if char = '\\' ∧ mark = '"' then
        if triple && atLineEnd rest then readQuoted mark triple true rest
        else match rest with
          | 'x' :: a :: b :: rest => do
              prepend (← codedChar? [a, b]) (readQuoted mark triple false rest)
          | 'u' :: a :: b :: c :: d :: rest => do
              prepend (← codedChar? [a, b, c, d]) (readQuoted mark triple false rest)
          | 'U' :: a :: b :: c :: d :: e :: f :: g :: h :: rest => do
              prepend (← codedChar? [a, b, c, d, e, f, g, h]) (readQuoted mark triple false rest)
          | escape :: rest => do
              prepend (← escapedChar? escape) (readQuoted mark triple false rest)
          | [] => none
      else if isPrintable char then prepend char (readQuoted mark triple false rest)
      else none

def skipLineEnd : List Char → List Char
  | '\n' :: rest => rest
  | '\r' :: '\n' :: rest => rest
  | rest => rest

def readLine (mark : Char) (input : List Char) : Option (String × List Char) :=
  (readQuoted mark false false input).map fun (chars, rest) => (String.ofList chars, rest)

/-- A string behind its first mark; a line end right behind three marks does not count. -/
def readText (mark : Char) : List Char → Option (String × List Char)
  | second :: third :: rest =>
      if second = mark ∧ third = mark then
        (readQuoted mark true false (skipLineEnd rest)).map fun (chars, rest) =>
          (String.ofList chars, rest)
      else readLine mark (second :: third :: rest)
  | input => readLine mark input

def isBareKeyChar (char : Char) : Bool := char.isAlphanum || char == '_' || char == '-'

def readSimpleKey : List Char → Option (String × List Char)
  | '"' :: rest => readLine '"' rest
  | '\'' :: rest => readLine '\'' rest
  | input =>
      match input.takeWhile isBareKeyChar with
      | [] => none
      | chars => some (String.ofList chars, input.dropWhile isBareKeyChar)

/-- Keys with dots between them; the number bounds how many. -/
def readKeys : Nat → List Char → Option (List String × List Char)
  | 0, _ => none
  | fuel + 1, input => do
      let (key, rest) ← readSimpleKey (skipSpaces input)
      match skipSpaces rest with
      | '.' :: rest => do
          let (keys, rest) ← readKeys fuel rest
          return (key :: keys, rest)
      | rest => return ([key], rest)

/-- How many keys one path may have. -/
def maxKeys : Nat := 80

def readKey (input : List Char) : Option (Key × List Char) := do
  let (keys, rest) ← readKeys maxKeys input
  return (⟨keys.dropLast, ← keys.getLast?⟩, rest)

/-- The characters that end the word of a bare value. -/
def wordEnds : List Char := [',', '=', '[', ']', '{', '}', '#', ' ', '\t', '\r', '\n']

def isWordChar (char : Char) : Bool := !wordEnds.contains char

/-- The word of a bare value. A date and a time may have a space between them. -/
def readWord (input : List Char) : List Char × List Char :=
  let word := input.takeWhile isWordChar
  let rest := input.dropWhile isWordChar
  match rest with
  | ' ' :: next :: _ =>
      if isDate word && isDigit next then
        (word ++ ' ' :: rest.tail.takeWhile isWordChar, rest.tail.dropWhile isWordChar)
      else (word, rest)
  | _ => (word, rest)

def readScalar (input : List Char) : Option (Value × List Char) :=
  let (word, rest) := readWord input
  (scalar? word).map fun kind => (.scalar kind, rest)

mutual
/-- A value behind its leading spaces. The first number bounds the steps, two for each remaining
character being enough; the second is how deep brackets may still nest. -/
def readValue : Nat → Nat → List Char → Option (Value × List Char)
  | 0, _, _ => none
  | fuel + 1, depth, input =>
      match input, depth with
      | '"' :: rest, _ => (readText '"' rest).map fun (text, rest) => (.text text, rest)
      | '\'' :: rest, _ => (readText '\'' rest).map fun (text, rest) => (.text text, rest)
      | '[' :: rest, depth + 1 => do
          let (items, rest) ← readItems fuel depth (← skipFiller false rest)
          return (.list items, rest)
      | '{' :: rest, depth + 1 => do
          let (entries, rest) ← readEntries fuel depth (← skipFiller false rest)
          return (.table .inline (← addEntries .inline [] entries), rest)
      | rest, _ => readScalar rest

def readItems : Nat → Nat → List Char → Option (List Value × List Char)
  | 0, _, _ => none
  | _ + 1, _, ']' :: rest => some ([], rest)
  | fuel + 1, depth, input => do
      let (item, rest) ← readValue fuel depth input
      match ← skipFiller false rest with
      | ',' :: rest => do
          let (items, rest) ← readItems fuel depth (← skipFiller false rest)
          return (item :: items, rest)
      | ']' :: rest => return ([item], rest)
      | _ => none

def readEntries : Nat → Nat → List Char → Option (List (Key × Value) × List Char)
  | 0, _, _ => none
  | _ + 1, _, '}' :: rest => some ([], rest)
  | fuel + 1, depth, input => do
      let (key, rest) ← readKey input
      let rest ← expect? '=' (← skipFiller false rest)
      let (value, rest) ← readValue fuel depth (← skipFiller false rest)
      match ← skipFiller false rest with
      | ',' :: rest => do
          let (entries, rest) ← readEntries fuel depth (← skipFiller false rest)
          return ((key, value) :: entries, rest)
      | '}' :: rest => return ([(key, value)], rest)
      | _ => none
end

/-- How deep brackets may nest in one value. -/
def maxDepth : Nat := 80

def readEntry (input : List Char) : Option ((Key × Value) × List Char) := do
  let (key, rest) ← readKey input
  let (value, rest) ← readValue (2 * rest.length + 2) maxDepth (skipSpaces (← expect? '=' rest))
  return ((key, value), ← endLine false rest)

/-- A header behind its first bracket: whether it is one of many, and its key. -/
def readHeader : List Char → Option ((Bool × Key) × List Char)
  | '[' :: rest => do
      let (key, rest) ← readKey rest
      return ((true, key), ← endLine false (← expect? ']' (← expect? ']' rest)))
  | rest => do
      let (key, rest) ← readKey rest
      return ((false, key), ← endLine false (← expect? ']' rest))

/-- The entries in front of the next header and the sections from there on; the number bounds the
lines. -/
def readLines : Nat → List Char → Option (List (Key × Value) × List Section)
  | 0, _ => none
  | fuel + 1, input => do
      match ← skipFiller false input with
      | [] => return ([], [])
      | '[' :: rest =>
          let ((many, header), rest) ← readHeader rest
          let (entries, sections) ← readLines fuel rest
          return ([], ⟨many, header, entries⟩ :: sections)
      | rest =>
          let (entry, rest) ← readEntry rest
          let (entries, sections) ← readLines fuel rest
          return (entry :: entries, sections)

/-- A byte order mark in front does not count. -/
def withoutMark : List Char → List Char
  | '\uFEFF' :: rest => rest
  | input => input

/-- The tables that a text holds. -/
def parse? (text : String) : Option Members := do
  let input := withoutMark text.toList
  let (entries, sections) ← readLines (input.length + 1) input
  build entries sections

end ShapeCompat.Toml
