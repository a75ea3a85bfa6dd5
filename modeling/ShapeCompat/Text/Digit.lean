/-!
Digits and the numbers that they write.
-/

namespace ShapeCompat.Text

def isDigit (char : Char) : Bool := '0' ≤ char && char ≤ '9'

def hexValue? (char : Char) : Option Nat :=
  let code := char.toNat
  if 48 ≤ code ∧ code ≤ 57 then some (code - 48)
  else if 97 ≤ code ∧ code ≤ 102 then some (code - 87)
  else if 65 ≤ code ∧ code ≤ 70 then some (code - 55)
  else none

/-- The number that digits write, the most significant first. -/
def valueIn (base : Nat) (digits : List Char) : Nat :=
  digits.foldl (fun value digit => value * base + (hexValue? digit).getD 0) 0

end ShapeCompat.Text
