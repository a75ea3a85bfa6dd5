import ShapeCompat.Json.Basic

/-!
Two written forms of a JSON value: the compact form without blanks, and the indented form with two
spaces a level. The canonical form is the compact form with sorted members; it is the text that
fingerprints are taken over.
-/

namespace ShapeCompat.Json

def hexDigit (value : Nat) : Char :=
  if value < 10 then Char.ofNat (48 + value) else Char.ofNat (87 + value)

/-- Only the quote, the backslash and the controls below U+0020 are escaped. -/
def escapeChar (char : Char) : List Char :=
  if char = '"' then ['\\', '"']
  else if char = '\\' then ['\\', '\\']
  else if char = '\x08' then ['\\', 'b']
  else if char = '\x0c' then ['\\', 'f']
  else if char = '\n' then ['\\', 'n']
  else if char = '\r' then ['\\', 'r']
  else if char = '\t' then ['\\', 't']
  else if char.toNat < 0x20 then
    ['\\', 'u', '0', '0', hexDigit (char.toNat / 16), hexDigit (char.toNat % 16)]
  else [char]

def quoted (value : String) : List Char := '"' :: value.toList.flatMap escapeChar ++ ['"']

def digits (value : Int) : List Char :=
  match value with
  | .ofNat magnitude => Nat.toDigits 10 magnitude
  | .negSucc magnitude => '-' :: Nat.toDigits 10 (magnitude + 1)

def nullChars : List Char := ['n', 'u', 'l', 'l']

def boolChars : Bool → List Char
  | true => ['t', 'r', 'u', 'e']
  | false => ['f', 'a', 'l', 's', 'e']

mutual
def compactChars : Json → List Char
  | .null => nullChars
  | .bool value => boolChars value
  | .int value => digits value
  | .decimal written => written.toList
  | .text value => quoted value
  | .list [] => ['[', ']']
  | .list (item :: rest) => '[' :: compactChars item ++ compactItems rest
  | .record [] => ['{', '}']
  | .record ((name, value) :: rest) =>
      '{' :: quoted name ++ ':' :: compactChars value ++ compactMembers rest
  | .unreadable => nullChars

/-- The items after the first, each behind a comma, and the closing bracket. -/
def compactItems : List Json → List Char
  | [] => [']']
  | item :: rest => ',' :: compactChars item ++ compactItems rest

def compactMembers : List (String × Json) → List Char
  | [] => ['}']
  | (name, value) :: rest =>
      ',' :: quoted name ++ ':' :: compactChars value ++ compactMembers rest
end

def compact (json : Json) : String := String.ofList (compactChars json)

def canonical (json : Json) : String := json.sortMembers.compact

def newline (depth : Nat) : List Char := '\n' :: List.replicate (2 * depth) ' '

mutual
/-- An empty list or record stays on one line. -/
def indentedChars (depth : Nat) : Json → List Char
  | .list (item :: rest) =>
      '[' :: newline (depth + 1) ++ indentedChars (depth + 1) item ++ indentedItems depth rest
  | .record ((name, value) :: rest) =>
      '{' :: newline (depth + 1) ++ quoted name ++ [':', ' '] ++ indentedChars (depth + 1) value
        ++ indentedMembers depth rest
  | .list [] => ['[', ']']
  | .record [] => ['{', '}']
  | .null => nullChars
  | .bool value => boolChars value
  | .int value => digits value
  | .decimal written => written.toList
  | .text value => quoted value
  | .unreadable => nullChars

def indentedItems (depth : Nat) : List Json → List Char
  | [] => newline depth ++ [']']
  | item :: rest =>
      ',' :: newline (depth + 1) ++ indentedChars (depth + 1) item ++ indentedItems depth rest

def indentedMembers (depth : Nat) : List (String × Json) → List Char
  | [] => newline depth ++ ['}']
  | (name, value) :: rest =>
      ',' :: newline (depth + 1) ++ quoted name ++ [':', ' '] ++ indentedChars (depth + 1) value
        ++ indentedMembers depth rest
end

def indented (json : Json) : String := String.ofList (indentedChars 0 json)

end ShapeCompat.Json
