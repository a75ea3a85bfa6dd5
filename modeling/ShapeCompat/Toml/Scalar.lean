import ShapeCompat.Text.Digit

/-!
Bare words that are TOML values: truth values, numbers, dates and times. What a word says is of no
interest; what counts is whether it is a value at all, and whether it still is one when it is looked
at. Numbers that are too large, and some whose digits are not of their base, are found out only
then.
-/

namespace ShapeCompat.Toml

open Text (hexValue? isDigit valueIn)

inductive Scalar where
  /-- A truth value, or a number that can be looked at. -/
  | plain
  /-- A number by its form alone. -/
  | hollow
  /-- A date, a time of day, or both. -/
  | moment
  deriving DecidableEq

def Scalar.ofNumber (hasValue : Bool) : Scalar := if hasValue then .plain else .hollow

/-- Digits with single underscores between them, and what follows; `needed` is whether a digit must
be next. -/
def digitsFrom? (needed : Bool) : List Char → Option (List Char × List Char)
  | [] => if needed then none else some ([], [])
  | char :: rest =>
      if isDigit char then
        (digitsFrom? false rest).map fun (digits, rest) => (char :: digits, rest)
      else if needed then none
      else if char = '_' then digitsFrom? true rest
      else some ([], char :: rest)

def digits? (word : List Char) : Option (List Char × List Char) := digitsFrom? true word

/-- The digits in front of a point or an exponent: a zero stands alone, and an underscore may stand
right behind a sign. -/
def whole? (signed : Bool) (word : List Char) : Option (List Char × List Char) :=
  match signed, word with
  | true, '_' :: rest => digits? rest
  | _, _ => do
      let (digits, rest) ← digits? word
      if digits.head? = some '0' ∧ digits.length ≠ 1 then none else return (digits, rest)

def fraction? : List Char → Option (List Char × List Char)
  | '.' :: rest => digits? rest
  | rest => some ([], rest)

/-- A power of ten, with its sign. -/
def exponent? : List Char → Option (Int × List Char)
  | [] => some (0, [])
  | mark :: rest =>
      if mark = 'e' ∨ mark = 'E' then
        match rest with
        | '-' :: rest => (digits? rest).map fun (digits, rest) => (-(valueIn 10 digits : Int), rest)
        | '+' :: rest => (digits? rest).map fun (digits, rest) => (valueIn 10 digits, rest)
        | rest => (digits? rest).map fun (digits, rest) => (valueIn 10 digits, rest)
      else some (0, mark :: rest)

/-- Whether a decimal number with this power of ten rounds to a finite number of 64 bits. -/
def isFinite (digits : List Char) (exponent : Int) : Bool :=
  let value := valueIn 10 digits
  let bound := (1 <<< 1024) - (1 <<< 970)
  let size := digits.length + exponent
  if value = 0 ∨ size < 300 then true
  else if 400 + digits.length < size then false
  else if 0 ≤ exponent then value * Nat.pow 10 exponent.toNat < bound
  else value < bound * Nat.pow 10 (-exponent).toNat

/-- A decimal number with a point or an exponent, behind its sign. -/
def float? (signed : Bool) (word : List Char) : Option Scalar := do
  let (whole, rest) ← whole? signed word
  let (fraction, rest) ← fraction? rest
  let (exponent, rest) ← exponent? rest
  if rest = [] then return .ofNumber (isFinite (whole ++ fraction) (exponent - fraction.length))
  else none

/-- Integers have up to 128 bits, with or without a sign. -/
def fitsInteger (negative : Bool) (value : Nat) : Bool :=
  if negative then value ≤ 1 <<< 127 else value < 1 <<< 128

def isHexDigit (char : Char) : Bool := (hexValue? char).isSome

/-- Whether underscores stand between hexadecimal digits, for what stands behind each of them. -/
def areGroups : List (List Char) → Bool
  | [] => true
  | [last] => last.head?.any isHexDigit
  | group :: rest =>
      group.head?.any isHexDigit && group.getLast?.any isHexDigit && areGroups rest

/-- A decimal integer behind its sign. In front of the first underscore there are only digits,
except that a sign is enough; behind it they are told from other characters only when the number is
looked at. -/
def integer? (signed negative : Bool) (word : List Char) : Option Scalar :=
  match word.splitOn '_' with
  | [] => none
  | whole :: groups =>
      if whole.all isDigit ∧ (whole ≠ [] ∨ (signed ∧ groups ≠ [])) ∧
          (whole.head? ≠ some '0' ∨ word = ['0']) ∧ areGroups groups then
        let digits := whole ++ groups.flatten
        some (.ofNumber (digits.all isDigit && fitsInteger negative (valueIn 10 digits)))
      else none

/-- A number without a sign in another base. Underscores stand between digits, of which there may be
none until the number is looked at. -/
def inBase? (base : Nat) (word : List Char) : Option Scalar :=
  let groups := word.splitOn '_'
  let digits := groups.flatten
  if digits.all (fun digit => (hexValue? digit).any (· < base)) ∧ (word = [] ∨ [] ∉ groups) then
    some (.ofNumber (!digits.isEmpty && fitsInteger false (valueIn base digits)))
  else none

/-- Points and exponents tell the two kinds of decimal numbers apart. -/
def isFloatMark (char : Char) : Bool := char == '.' || char == 'e' || char == 'E'

/-- A decimal number or one of the two special words, behind its sign. -/
def decimal? (signed negative : Bool) (word : List Char) : Option Scalar :=
  if word = "inf".toList ∨ word = "nan".toList then some .plain
  else if word.any isFloatMark then float? signed word
  else integer? signed negative word

def number? : List Char → Option Scalar
  | '0' :: 'x' :: word => inBase? 16 word
  | '0' :: 'o' :: word => inBase? 8 word
  | '0' :: 'b' :: word => inBase? 2 word
  | '+' :: word => decimal? true false word
  | '-' :: word => decimal? true true word
  | word => decimal? false false word

/-- Two digits that write a number up to a bound. -/
def twoDigits? (bound : Nat) : List Char → Option (Nat × List Char)
  | first :: second :: rest =>
      let value := valueIn 10 [first, second]
      if isDigit first && isDigit second && decide (value ≤ bound) then some (value, rest) else none
  | _ => none

def expect? (char : Char) : List Char → Option (List Char)
  | head :: rest => if head = char then some rest else none
  | [] => none

def isLeapYear (year : Nat) : Bool := year % 4 == 0 && (year % 100 != 0 || year % 400 == 0)

def monthLength (year month : Nat) : Nat :=
  if month = 2 then if isLeapYear year then 29 else 28
  else if month ∈ [4, 6, 9, 11] then 30 else 31

def afterDate? (word : List Char) : Option (List Char) := do
  let (century, rest) ← twoDigits? 99 word
  let (yearOfCentury, rest) ← twoDigits? 99 rest
  let (month, rest) ← twoDigits? 12 (← expect? '-' rest)
  if month = 0 then none
  let (day, rest) ← twoDigits? (monthLength (100 * century + yearOfCentury) month)
    (← expect? '-' rest)
  if day = 0 then none else return rest

/-- Digits behind a point, when there is one. -/
def afterFraction? : List Char → Option (List Char)
  | '.' :: rest => if (rest.takeWhile isDigit) = [] then none else some (rest.dropWhile isDigit)
  | rest => some rest

/-- A time of day; the seconds may be left out. -/
def afterTime? (word : List Char) : Option (List Char) := do
  let (_, rest) ← twoDigits? 23 word
  let (_, rest) ← twoDigits? 59 (← expect? ':' rest)
  match rest with
  | ':' :: rest =>
      let (_, rest) ← twoDigits? 60 rest
      afterFraction? rest
  | rest => return rest

def isOffset : List Char → Bool
  | [] | ['Z'] | ['z'] => true
  | sign :: rest =>
      (sign == '+' || sign == '-') &&
        (do
          let (_, rest) ← twoDigits? 23 rest
          let (_, rest) ← twoDigits? 59 (← expect? ':' rest)
          return rest == []).getD false

def isDateMark (char : Char) : Bool := char == 'T' || char == 't' || char == ' '

def isDateOrTime (word : List Char) : Bool :=
  afterTime? word == some [] ||
    match afterDate? word with
    | some [] => true
    | some (mark :: rest) => isDateMark mark && (afterTime? rest).any isOffset
    | none => false

def isDate (word : List Char) : Bool := afterDate? word == some []

def scalar? (word : List Char) : Option Scalar :=
  if word = "true".toList ∨ word = "false".toList then some .plain
  else if isDateOrTime word then some .moment
  else number? word

end ShapeCompat.Toml
