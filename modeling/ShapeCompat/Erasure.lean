import ShapeCompat.Text.Blank

/-!
Erasure of declared types to what a linker sees: nullability, type arguments and redundant
parentheses go, and a function type becomes `Function` with the number of its parameters behind it.
Any text has an erasure, also one that is no type.
-/

namespace ShapeCompat.Erasure

/-- What stands before and behind the parenthesis that closes an open one, where `depth` more are
open inside it. -/
def closing? : Nat → List Char → Option (List Char × List Char)
  | _, [] => none
  | 0, ')' :: rest => some ([], rest)
  | depth + 1, ')' :: rest =>
      (closing? depth rest).map fun (inside, behind) => (')' :: inside, behind)
  | depth, '(' :: rest =>
      (closing? (depth + 1) rest).map fun (inside, behind) => ('(' :: inside, behind)
  | depth, char :: rest =>
      (closing? depth rest).map fun (inside, behind) => (char :: inside, behind)

/-- The inside of the parenthesis that a text opens with, and what follows it. -/
def parenthesised? : List Char → Option (List Char × List Char)
  | '(' :: rest => closing? 0 rest
  | _ => none

/-- One more than the commas outside all brackets. -/
def listedTypes : Nat → List Char → Nat
  | _, [] => 1
  | depth, char :: rest =>
      if char = '(' ∨ char = '<' then listedTypes (depth + 1) rest
      else if char = ')' ∨ char = '>' then listedTypes (depth - 1) rest
      else if char = ',' ∧ depth = 0 then listedTypes depth rest + 1
      else listedTypes depth rest

/-- The number of parameters of a text that reads as a function type. -/
def arity? (type : List Char) : Option Nat :=
  match parenthesised? type with
  | some (inside, behind) =>
      if ['-', '>'].isPrefixOf (Text.trimStart behind) then
        let params := Text.trim inside
        some (if params = [] then 0 else listedTypes 0 params)
      else none
  | none => none

/-- The inside of a text that is one parenthesis from end to end. -/
def unwrapped? (type : List Char) : Option (List Char) :=
  match parenthesised? type with
  | some (inside, []) => some inside
  | _ => none

/-- Everything outside angle brackets, without blanks. -/
def withoutArguments : Nat → List Char → List Char
  | _, [] => []
  | depth, char :: rest =>
      if char = '<' then withoutArguments (depth + 1) rest
      else if char = '>' then withoutArguments (depth - 1) rest
      else if depth = 0 ∧ ¬Text.isBlank char then char :: withoutArguments depth rest
      else withoutArguments depth rest

/-- One question mark at the end is dropped. -/
def withoutMark (type : List Char) : List Char :=
  if type.getLast? = some '?' then type.dropLast else type

/-- The type without the blanks and the nullability mark around it. -/
def core (type : List Char) : List Char := Text.trim (withoutMark (Text.trim type))

theorem closing_length {depth : Nat} {input inside behind : List Char}
    (found : closing? depth input = some (inside, behind)) :
    inside.length + behind.length < input.length := by
  fun_induction closing? depth input generalizing inside behind with
  | case1 => cases found
  | case2 rest =>
      simp only [Option.some.injEq, Prod.mk.injEq] at found
      rw [← found.1, ← found.2]
      simp
  | case3 depth rest induction | case4 depth rest induction
  | case5 depth char rest _ _ _ induction =>
      obtain ⟨⟨tail, after⟩, later, same⟩ := Option.map_eq_some_iff.mp found
      simp only [Prod.mk.injEq] at same
      rw [← same.1, ← same.2]
      have shorter := induction later
      simp only [List.length_cons]
      omega

theorem unwrapped_length {type inside : List Char} (found : unwrapped? type = some inside) :
    inside.length < type.length := by
  unfold unwrapped? parenthesised? at found
  split at found
  · rename_i opened
    split at opened
    · have shorter := closing_length opened
      simp only [Option.some.injEq] at found
      simp only [List.length_nil, List.length_cons] at shorter ⊢
      rw [← found]
      omega
    · cases opened
  · cases found

theorem core_length_le (type : List Char) : (core type).length ≤ type.length := by
  have outer := Text.trim_length_le type
  have inner := Text.trim_length_le (withoutMark (Text.trim type))
  have unmarked : (withoutMark (Text.trim type)).length ≤ (Text.trim type).length := by
    unfold withoutMark
    split
    · simp
    · exact Nat.le_refl _
  exact Nat.le_trans inner (Nat.le_trans unmarked outer)

def eraseChars (type : List Char) : List Char :=
  match arity? (core type) with
  | some count => ['F', 'u', 'n', 'c', 't', 'i', 'o', 'n'] ++ Nat.toDigits 10 count
  | none =>
      match found : unwrapped? (core type) with
      | some inside =>
          have := Nat.lt_of_lt_of_le (unwrapped_length found) (core_length_le type)
          eraseChars inside
      | none => withoutArguments 0 (core type)
termination_by type.length

end Erasure

/-- The erased form of a type text. -/
def eraseType (type : String) : String := String.ofList (Erasure.eraseChars type.toList)

end ShapeCompat
