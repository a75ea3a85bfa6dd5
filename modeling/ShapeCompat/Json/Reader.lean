import ShapeCompat.Json.Basic
import ShapeCompat.Text.Digit

/-!
Reading JSON text strictly: no comments, no trailing commas, no byte order mark, no leading zeros
and no raw control characters in strings; only space, tab, line feed and carriage return are blank.
Each step takes the remaining characters and returns what is left behind what it read.
-/

namespace ShapeCompat.Json

open Text (hexValue? isDigit valueIn)

def isBlank (char : Char) : Bool :=
  char == ' ' || char == '\t' || char == '\n' || char == '\r'

def skipBlanks (input : List Char) : List Char := input.dropWhile isBlank

def hexQuad? (first second third fourth : Char) : Option Nat := do
  let first ← hexValue? first
  let second ← hexValue? second
  let third ← hexValue? third
  let fourth ← hexValue? fourth
  return ((first * 16 + second) * 16 + third) * 16 + fourth

def simpleEscape? : Char → Option Nat
  | '"' => some 0x22
  | '\\' => some 0x5C
  | '/' => some 0x2F
  | 'b' => some 0x08
  | 'f' => some 0x0C
  | 'n' => some 0x0A
  | 'r' => some 0x0D
  | 't' => some 0x09
  | _ => none

/-- The code points and escaped units up to the closing quote. An escaped unit may be half of a
surrogate pair; a character written out never is. -/
def readUnits : List Char → Option (List Nat × List Char)
  | [] => none
  | '"' :: rest => some ([], rest)
  | '\\' :: 'u' :: first :: second :: third :: fourth :: rest => do
      let unit ← hexQuad? first second third fourth
      let (units, rest) ← readUnits rest
      return (unit :: units, rest)
  | '\\' :: escape :: rest => do
      let unit ← simpleEscape? escape
      let (units, rest) ← readUnits rest
      return (unit :: units, rest)
  | char :: rest =>
      if char.toNat < 0x20 ∨ char = '\\' then none
      else do
        let (units, rest) ← readUnits rest
        return (char.toNat :: units, rest)

def isHighSurrogate (unit : Nat) : Bool := 0xD800 ≤ unit && unit ≤ 0xDBFF

def isLowSurrogate (unit : Nat) : Bool := 0xDC00 ≤ unit && unit ≤ 0xDFFF

/-- Joins surrogate pairs to characters; an unpaired half has no reading. -/
def joinUnits : List Nat → Option (List Char)
  | [] => some []
  | unit :: rest =>
      if isHighSurrogate unit then
        match rest with
        | low :: rest =>
            if isLowSurrogate low then
              let code := 0x10000 + (unit - 0xD800) * 0x400 + (low - 0xDC00)
              (joinUnits rest).map (Char.ofNat code :: ·)
            else none
        | [] => none
      else if isLowSurrogate unit then none
      else (joinUnits rest).map (Char.ofNat unit :: ·)

/-- A string behind its opening quote: its value, or `none` where only its form can be read. -/
def readString (input : List Char) : Option (Option String × List Char) := do
  let (units, rest) ← readUnits input
  return ((joinUnits units).map String.ofList, rest)

def oneOrMoreDigits? (input : List Char) : Option (List Char × List Char) :=
  match input.takeWhile isDigit with
  | [] => none
  | digits => some (digits, input.dropWhile isDigit)

/-- A zero stands alone. -/
def integerDigits? (input : List Char) : Option (List Char × List Char) := do
  let (digits, rest) ← oneOrMoreDigits? input
  if digits.head? = some '0' ∧ digits.length ≠ 1 then none else return (digits, rest)

def fractionDigits? : List Char → Option (List Char × List Char)
  | '.' :: rest => (oneOrMoreDigits? rest).map fun (digits, rest) => ('.' :: digits, rest)
  | rest => some ([], rest)

def exponentDigits? : List Char → Option (List Char × List Char)
  | mark :: rest =>
      if mark = 'e' ∨ mark = 'E' then
        match rest with
        | '+' :: rest =>
            (oneOrMoreDigits? rest).map fun (digits, rest) => (mark :: '+' :: digits, rest)
        | '-' :: rest =>
            (oneOrMoreDigits? rest).map fun (digits, rest) => (mark :: '-' :: digits, rest)
        | rest => (oneOrMoreDigits? rest).map fun (digits, rest) => (mark :: digits, rest)
      else some ([], mark :: rest)
  | [] => some ([], [])

/-- Integers are those that fit 64 bits, signed or unsigned; all other numbers stay as written. -/
def readNumber (input : List Char) : Option (Json × List Char) := do
  let (sign, unsigned) := match input with
    | '-' :: rest => (['-'], rest)
    | rest => ([], rest)
  let (whole, rest) ← integerDigits? unsigned
  let (fraction, rest) ← fractionDigits? rest
  let (exponent, rest) ← exponentDigits? rest
  let magnitude := valueIn 10 whole
  let written := Json.decimal (String.ofList (sign ++ whole ++ fraction ++ exponent))
  let value :=
    if fraction ≠ [] ∨ exponent ≠ [] then written
    else if sign = [] then if magnitude < UInt64.size then .int magnitude else written
    else if magnitude = 0 ∨ UInt64.size / 2 < magnitude then written
    else .int (-magnitude)
  return (value, rest)

/-- A record with one unreadable member name is unreadable as a whole. -/
def recordOf (members : List (Option String × Json)) : Json :=
  match members.mapM fun (name, value) => name.map (·, value) with
  | some members => .record members
  | none => .unreadable

mutual
/-- A value behind its leading blanks. The number bounds the nesting and the items still to come;
two for each remaining character are always enough. -/
def readValue : Nat → List Char → Option (Json × List Char)
  | 0, _ => none
  | fuel + 1, input =>
      match input with
      | 'n' :: 'u' :: 'l' :: 'l' :: rest => some (.null, rest)
      | 't' :: 'r' :: 'u' :: 'e' :: rest => some (.bool true, rest)
      | 'f' :: 'a' :: 'l' :: 's' :: 'e' :: rest => some (.bool false, rest)
      | '"' :: rest => do
          let (value, rest) ← readString rest
          return (value.elim .unreadable .text, rest)
      | '[' :: rest =>
          match skipBlanks rest with
          | ']' :: rest => some (.list [], rest)
          | rest => do
              let (items, rest) ← readItems fuel rest
              return (.list items, rest)
      | '{' :: rest =>
          match skipBlanks rest with
          | '}' :: rest => some (.record [], rest)
          | rest => do
              let (members, rest) ← readMembers fuel rest
              return (recordOf members, rest)
      | rest => readNumber rest

def readItems : Nat → List Char → Option (List Json × List Char)
  | 0, _ => none
  | fuel + 1, input => do
      let (item, rest) ← readValue fuel input
      match skipBlanks rest with
      | ',' :: rest => do
          let (items, rest) ← readItems fuel (skipBlanks rest)
          return (item :: items, rest)
      | ']' :: rest => return ([item], rest)
      | _ => none

def readMembers : Nat → List Char → Option (List (Option String × Json) × List Char)
  | 0, _ => none
  | fuel + 1, input =>
      match input with
      | '"' :: rest => do
          let (name, rest) ← readString rest
          match skipBlanks rest with
          | ':' :: rest => do
              let (value, rest) ← readValue fuel (skipBlanks rest)
              match skipBlanks rest with
              | ',' :: rest => do
                  let (members, rest) ← readMembers fuel (skipBlanks rest)
                  return ((name, value) :: members, rest)
              | '}' :: rest => return ([(name, value)], rest)
              | _ => none
          | _ => none
      | _ => none
end

/-- The one value that `text` holds between blanks. -/
def parse? (text : String) : Option Json :=
  let input := text.toList
  match readValue (2 * input.length + 2) (skipBlanks input) with
  | some (json, rest) => if skipBlanks rest = [] then some json else none
  | none => none

end ShapeCompat.Json
