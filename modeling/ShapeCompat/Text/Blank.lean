/-!
Blank characters, by the Unicode property White_Space, and trimming. Type texts, generated names,
style names and dropped package suffixes are all trimmed by this one rule.
-/

namespace ShapeCompat.Text

/-- The code points of the Unicode property White_Space. -/
def isBlank (char : Char) : Bool :=
  let code := char.toNat
  (9 ≤ code && code ≤ 13) || code == 0x20 || code == 0x85 || code == 0xA0 || code == 0x1680 ||
    (0x2000 ≤ code && code ≤ 0x200A) || code == 0x2028 || code == 0x2029 || code == 0x202F ||
    code == 0x205F || code == 0x3000

def trimStart (chars : List Char) : List Char := chars.dropWhile isBlank

def trimEnd (chars : List Char) : List Char := (trimStart chars.reverse).reverse

def trim (chars : List Char) : List Char := trimEnd (trimStart chars)

theorem trim_start_length_le (chars : List Char) : (trimStart chars).length ≤ chars.length :=
  (List.dropWhile_sublist isBlank).length_le

theorem trim_end_length_le (chars : List Char) : (trimEnd chars).length ≤ chars.length := by
  have bound := trim_start_length_le chars.reverse
  simpa [trimEnd] using bound

theorem trim_length_le (chars : List Char) : (trim chars).length ≤ chars.length :=
  Nat.le_trans (trim_end_length_le _) (trim_start_length_le chars)

end ShapeCompat.Text
