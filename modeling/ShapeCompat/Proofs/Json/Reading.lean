import ShapeCompat.Json.Printer
import ShapeCompat.Json.Reader
import Mathlib.Tactic.SplitIfs

/-!
Reading back what was written compactly. Every part of the text, an escaped character, a string, a
number and then a value, is read off the front of whatever follows it; numbers alone need to know
that what follows does not go on with them. So the text of a value determines the value.
-/

namespace ShapeCompat.Json

open Text (hexValue? isDigit valueIn)

section Strings

theorem hex_value_of_digit (value : Nat) (bound : value < 16) :
    hexValue? (hexDigit value) = some value := by
  revert value
  decide

theorem read_units_control (code : Nat) (bound : code < 0x20) (rest : List Char) :
    readUnits (['\\', 'u', '0', '0', hexDigit (code / 16), hexDigit (code % 16)] ++ rest) =
      (readUnits rest).map fun read => (code :: read.1, read.2) := by
  have quad : hexQuad? '0' '0' (hexDigit (code / 16)) (hexDigit (code % 16)) = some code := by
    have zero : hexValue? '0' = some 0 := by decide
    simp only [hexQuad?, zero, hex_value_of_digit (code / 16) (by omega),
      hex_value_of_digit (code % 16) (by omega)]
    change some (((0 * 16 + 0) * 16 + code / 16) * 16 + code % 16) = some code
    congr 1
    omega
  simp only [List.cons_append, List.nil_append]
  rw [readUnits, quad]
  cases readUnits rest <;> rfl

theorem read_units_simple {escape : Char} {code : Nat} (simple : simpleEscape? escape = some code)
    (rest : List Char) :
    readUnits (['\\', escape] ++ rest) =
      (readUnits rest).map fun read => (code :: read.1, read.2) := by
  have notLong : escape ≠ 'u' := by
    rintro rfl
    cases simple
  simp only [List.cons_append, List.nil_append]
  rw [readUnits, simple]
  · cases readUnits rest <;> rfl
  · intro first second third fourth others long
    exact (notLong long).elim

theorem read_units_plain {char : Char} (quote : char ≠ '"') (backslash : char ≠ '\\')
    (visible : ¬char.toNat < 0x20) (rest : List Char) :
    readUnits ([char] ++ rest) =
      (readUnits rest).map fun read => (char.toNat :: read.1, read.2) := by
  simp only [List.cons_append, List.nil_append]
  rw [readUnits, if_neg]
  · cases readUnits rest <;> rfl
  · simp [backslash, visible]
  · exact quote
  · intro _ _ _ _ _ same _
    exact backslash same
  · intro _ _ same _
    exact backslash same

/-- A written character is read as one unit, whatever follows. -/
theorem read_units_escaped (char : Char) (rest : List Char) :
    readUnits (escapeChar char ++ rest) =
      (readUnits rest).map fun read => (char.toNat :: read.1, read.2) := by
  unfold escapeChar
  split_ifs with quote backslash backspace feed line carriage tab control
  · rw [quote]
    exact read_units_simple rfl rest
  · rw [backslash]
    exact read_units_simple rfl rest
  · rw [backspace]
    exact read_units_simple rfl rest
  · rw [feed]
    exact read_units_simple rfl rest
  · rw [line]
    exact read_units_simple rfl rest
  · rw [carriage]
    exact read_units_simple rfl rest
  · rw [tab]
    exact read_units_simple rfl rest
  · exact read_units_control char.toNat control rest
  · exact read_units_plain quote backslash control rest

theorem read_units_text (chars rest : List Char) :
    readUnits (chars.flatMap escapeChar ++ '"' :: rest) = some (chars.map (·.toNat), rest) := by
  induction chars with
  | nil => rfl
  | cons char chars induction =>
      rw [List.flatMap_cons, List.append_assoc, read_units_escaped, induction]
      rfl

/-- A character is never half of a surrogate pair. -/
theorem join_units_text (chars : List Char) : joinUnits (chars.map (·.toNat)) = some chars := by
  induction chars with
  | nil => rfl
  | cons char chars induction =>
      have whole : isHighSurrogate char.toNat = false ∧ isLowSurrogate char.toNat = false := by
        have valid : char.toNat < 0xD800 ∨ 0xDFFF < char.toNat ∧ char.toNat < 0x110000 :=
          char.valid
        simp only [isHighSurrogate, isLowSurrogate, Bool.and_eq_false_iff, decide_eq_false_iff_not]
        omega
      rw [List.map_cons]
      unfold joinUnits
      rw [whole.1, whole.2, induction]
      simp

theorem read_string_quoted (value : String) (rest : List Char) :
    readString (value.toList.flatMap escapeChar ++ '"' :: rest) = some (some value, rest) := by
  unfold readString
  rw [read_units_text]
  simp [join_units_text]

theorem quoted_append (value : String) (rest : List Char) :
    quoted value ++ rest = '"' :: (value.toList.flatMap escapeChar ++ '"' :: rest) := by
  simp [quoted]

end Strings

section Numbers

theorem digits_are_digits {number : Nat} {char : Char} (member : char ∈ Nat.toDigits 10 number) :
    isDigit char = true := by
  have digit := Nat.isDigit_of_mem_toDigits (by omega) (by omega) member
  simpa [Char.isDigit, isDigit, Char.le_def] using digit

theorem hex_value_of_decimal {char : Char} (digit : isDigit char = true) :
    hexValue? char = some (char.toNat - 48) := by
  have range : 48 ≤ char.toNat ∧ char.toNat ≤ 57 := by
    simpa [isDigit, Char.le_def, UInt32.le_iff_toNat_le] using digit
  unfold hexValue?
  dsimp only
  rw [if_pos range]

theorem fold_digits (digits : List Char) (decimal : ∀ char ∈ digits, isDigit char = true)
    (value : Nat) :
    digits.foldl (fun value digit => value * 10 + (hexValue? digit).getD 0) value =
      Nat.ofDigitChars 10 digits value := by
  induction digits generalizing value with
  | nil => rfl
  | cons digit digits induction =>
      rw [List.forall_mem_cons] at decimal
      rw [List.foldl_cons, Nat.ofDigitChars_cons, hex_value_of_decimal decimal.1, Nat.mul_comm]
      exact induction decimal.2 _

theorem value_in_digits (number : Nat) : valueIn 10 (Nat.toDigits 10 number) = number :=
  (fold_digits _ (fun _ => digits_are_digits) 0).trans Nat.ofDigitChars_ten_toDigits

/-- The text goes on with nothing that could belong to a number. -/
def EndsNumber (rest : List Char) : Prop :=
  ∀ char ∈ rest.head?, isDigit char = false ∧ char ≠ '.' ∧ char ≠ 'e' ∧ char ≠ 'E'

theorem digits_nonempty (number : Nat) :
    ∃ digit more, Nat.toDigits 10 number = digit :: more ∧ isDigit digit = true := by
  cases written : Nat.toDigits 10 number with
  | nil => exact (Nat.toDigits_ne_nil written).elim
  | cons digit more =>
      have member : digit ∈ Nat.toDigits 10 number := by
        rw [written]
        exact List.mem_cons_self
      exact ⟨digit, more, rfl, digits_are_digits member⟩

theorem no_leading_zero {number : Nat} (positive : 0 < number) :
    (Nat.toDigits 10 number).head? ≠ some '0' := by
  induction number using Nat.base_induction 10 (by omega) with
  | single digit bound =>
      rw [Nat.toDigits_of_lt_base bound]
      revert digit
      decide
  | digit leading digit bound some induction =>
      rw [← Nat.toDigits_append_toDigits (by omega) some bound, List.head?_append]
      obtain ⟨first, more, written, _⟩ := digits_nonempty leading
      have before := induction some
      rw [written] at before ⊢
      exact before

theorem read_digits (number : Nat) {rest : List Char} (ends : EndsNumber rest) :
    integerDigits? (Nat.toDigits 10 number ++ rest) = some (Nat.toDigits 10 number, rest) := by
  have stops : rest.takeWhile isDigit = [] ∧ rest.dropWhile isDigit = rest := by
    cases rest with
    | nil => exact ⟨rfl, rfl⟩
    | cons char rest =>
        have other := (ends char rfl).1
        simp [other]
  have decimal : ∀ char ∈ Nat.toDigits 10 number, isDigit char = true :=
    fun _ => digits_are_digits
  have taken : oneOrMoreDigits? (Nat.toDigits 10 number ++ rest) =
      some (Nat.toDigits 10 number, rest) := by
    obtain ⟨digit, more, written, _⟩ := digits_nonempty number
    unfold oneOrMoreDigits?
    rw [List.takeWhile_append_of_pos decimal, List.dropWhile_append_of_pos decimal, stops.1,
      stops.2, List.append_nil, written]
  have alone : ¬((Nat.toDigits 10 number).head? = some '0' ∧
      (Nat.toDigits 10 number).length ≠ 1) := by
    intro zero
    rcases Nat.eq_zero_or_pos number with rfl | positive
    · exact zero.2 rfl
    · exact no_leading_zero positive zero.1
  unfold integerDigits?
  rw [taken]
  exact if_neg alone

theorem no_fraction {rest : List Char} (ends : EndsNumber rest) :
    fractionDigits? rest = some ([], rest) := by
  cases rest with
  | nil => rfl
  | cons char rest =>
      unfold fractionDigits?
      split
      · rename_i point
        exact ((ends char rfl).2.1 (List.cons.inj point).1).elim
      · rfl

theorem no_exponent {rest : List Char} (ends : EndsNumber rest) :
    exponentDigits? rest = some ([], rest) := by
  cases rest with
  | nil => rfl
  | cons char rest =>
      obtain ⟨_, _, small, capital⟩ := ends char rfl
      simp [exponentDigits?, small, capital]

/-- The integers that are read as such, those of 64 bits with or without a sign. -/
def IsWord (value : Int) : Prop := -(UInt64.size / 2 : Nat) ≤ value ∧ value < UInt64.size

theorem read_number_digits {value : Int} (word : IsWord value) {rest : List Char}
    (ends : EndsNumber rest) : readNumber (digits value ++ rest) = some (.int value, rest) := by
  obtain ⟨low, high⟩ := word
  cases value with
  | ofNat magnitude =>
      have bound : magnitude < UInt64.size := Int.ofNat_lt.mp high
      have read := read_digits magnitude ends
      obtain ⟨digit, more, written, decimal⟩ := digits_nonempty magnitude
      have unsigned : digit ≠ '-' := by
        rintro rfl
        cases decimal
      have value : valueIn 10 (digit :: more) = magnitude := by rw [← written, value_in_digits]
      rw [written, List.cons_append] at read
      unfold readNumber digits
      dsimp only
      rw [written, List.cons_append]
      simp [unsigned, read, no_fraction ends, no_exponent ends, value, bound]
  | negSucc magnitude =>
      have bound : ¬(magnitude + 1 = 0 ∨ UInt64.size / 2 < magnitude + 1) := by
        omega
      unfold readNumber digits
      simp only [List.cons_append, read_digits (magnitude + 1) ends, Option.bind_eq_bind,
        Option.bind_some, no_fraction ends, no_exponent ends, value_in_digits, if_neg bound]
      rfl

end Numbers

mutual
/-- The value has an exact written form: its integers are words, and there is neither another number
nor an unreadable part in it. -/
def IsExact : Json → Prop
  | .int value => IsWord value
  | .list items => ItemsExact items
  | .record members => MembersExact members
  | .decimal _ | .unreadable => False
  | .null | .bool _ | .text _ => True

def ItemsExact : List Json → Prop
  | [] => True
  | item :: rest => IsExact item ∧ ItemsExact rest

def MembersExact : List (String × Json) → Prop
  | [] => True
  | (_, value) :: rest => IsExact value ∧ MembersExact rest
end

theorem digits_start (value : Int) :
    ∃ char more, digits value = char :: more ∧ (isDigit char = true ∨ char = '-') := by
  cases value with
  | ofNat magnitude =>
      obtain ⟨digit, more, written, decimal⟩ := digits_nonempty magnitude
      exact ⟨digit, more, written, .inl decimal⟩
  | negSucc magnitude => exact ⟨'-', _, rfl, .inr rfl⟩

theorem number_start {char : Char} (start : isDigit char = true ∨ char = '-') :
    isBlank char = false ∧ char ∉ ['n', 't', 'f', '"', '[', '{', ']'] := by
  constructor
  · cases blank : isBlank char with
    | false => rfl
    | true =>
        simp only [isBlank, Bool.or_eq_true, beq_iff_eq] at blank
        rcases blank with ((rfl | rfl) | rfl) | rfl <;> simp [isDigit] at start
  · intro member
    simp only [List.mem_cons, List.not_mem_nil, or_false] at member
    rcases member with rfl | rfl | rfl | rfl | rfl | rfl | rfl <;> simp [isDigit] at start

theorem read_value_number {char : Char} (start : isDigit char = true ∨ char = '-') (fuel : Nat)
    (rest : List Char) : readValue (fuel + 1) (char :: rest) = readNumber (char :: rest) := by
  have others := (number_start start).2
  simp only [List.mem_cons, List.not_mem_nil, or_false, not_or] at others
  simp [readValue, others]

/-- No written value begins with a blank or a closing bracket. -/
theorem compact_start {json : Json} (exact : json.IsExact) :
    ∃ char more, compactChars json = char :: more ∧ isBlank char = false ∧ char ≠ ']' := by
  cases json with
  | null => exact ⟨_, _, rfl, rfl, by decide⟩
  | bool value => cases value <;> exact ⟨_, _, rfl, rfl, by decide⟩
  | int value =>
      obtain ⟨char, more, written, start⟩ := digits_start value
      obtain ⟨visible, others⟩ := number_start start
      refine ⟨char, more, by rw [compactChars, written], visible, ?_⟩
      rintro rfl
      exact others (by decide)
  | text value => exact ⟨_, _, by rw [compactChars, quoted]; rfl, rfl, by decide⟩
  | list items =>
      cases items with
      | nil => exact ⟨_, _, rfl, rfl, by decide⟩
      | cons item items => exact ⟨_, _, rfl, rfl, by decide⟩
  | record members =>
      cases members with
      | nil => exact ⟨_, _, rfl, rfl, by decide⟩
      | cons member members => exact ⟨_, _, rfl, rfl, by decide⟩
  | decimal written => exact exact.elim
  | unreadable => exact exact.elim

section Steps

variable {fuel : Nat} {input more rest : List Char} {item value : Json} {items : List Json}
  {members : List (Option String × Json)}

theorem read_list (opened : (skipBlanks input).head? ≠ some ']')
    (read : readItems fuel (skipBlanks input) = some (items, rest)) :
    readValue (fuel + 1) ('[' :: input) = some (.list items, rest) := by
  rw [readValue]
  split
  · rename_i closed
    rw [closed] at opened
    exact (opened rfl).elim
  · rw [read]
    rfl

theorem read_last_item (read : readValue fuel input = some (item, ']' :: rest)) :
    readItems (fuel + 1) input = some ([item], rest) := by
  rw [readItems, read]
  rfl

theorem read_next_item (read : readValue fuel input = some (item, ',' :: more))
    (others : readItems fuel (skipBlanks more) = some (items, rest)) :
    readItems (fuel + 1) input = some (item :: items, rest) := by
  rw [readItems, read]
  change (readItems fuel (skipBlanks more)).bind (fun read => some (item :: read.1, read.2)) = _
  rw [others]
  rfl

theorem read_record (opened : (skipBlanks input).head? ≠ some '}')
    (read : readMembers fuel (skipBlanks input) = some (members, rest)) :
    readValue (fuel + 1) ('{' :: input) = some (recordOf members, rest) := by
  rw [readValue]
  split
  · rename_i closed
    rw [closed] at opened
    exact (opened rfl).elim
  · rw [read]
    rfl

theorem read_last_member (name : String)
    (read : readValue fuel (skipBlanks input) = some (value, '}' :: rest)) :
    readMembers (fuel + 1) (quoted name ++ ':' :: input) = some ([(some name, value)], rest) := by
  rw [quoted_append, readMembers, read_string_quoted]
  change (readValue fuel (skipBlanks input)).bind _ = _
  rw [read]
  rfl

theorem read_next_member (name : String)
    (read : readValue fuel (skipBlanks input) = some (value, ',' :: more))
    (others : readMembers fuel (skipBlanks more) = some (members, rest)) :
    readMembers (fuel + 1) (quoted name ++ ':' :: input) =
      some ((some name, value) :: members, rest) := by
  rw [quoted_append, readMembers, read_string_quoted]
  change (readValue fuel (skipBlanks input)).bind _ = _
  rw [read]
  change (readMembers fuel (skipBlanks more)).bind
    (fun read => some ((some name, value) :: read.1, read.2)) = _
  rw [others]
  rfl

end Steps

theorem skip_blanks_compact {json : Json} (exact : json.IsExact) (rest : List Char) :
    skipBlanks (compactChars json ++ rest) = compactChars json ++ rest := by
  obtain ⟨char, more, start, visible, _⟩ := compact_start exact
  rw [start, List.cons_append, skipBlanks, List.dropWhile_cons, visible]
  rfl

theorem ends_items (items : List Json) (rest : List Char) :
    EndsNumber (compactItems items ++ rest) := by
  cases items with
  | nil =>
      rintro char ⟨⟩
      decide
  | cons item items =>
      rw [compactItems]
      rintro char ⟨⟩
      decide

theorem ends_members (members : List (String × Json)) (rest : List Char) :
    EndsNumber (compactMembers members ++ rest) := by
  cases members with
  | nil =>
      rintro char ⟨⟩
      decide
  | cons member members =>
      rw [compactMembers]
      rintro char ⟨⟩
      decide

theorem record_of_named (members : List (String × Json)) :
    recordOf (members.map fun member => (some member.1, member.2)) = .record members := by
  have named : (members.map fun member => (some member.1, member.2)).mapM
      (fun member : Option String × Json => member.1.map (·, member.2)) = some members := by
    rw [List.mapM_map]
    induction members with
    | nil => rfl
    | cons member members induction =>
        rw [List.mapM_cons, induction]
        rfl
  unfold recordOf
  rw [named]

mutual
/-- A written value is read off whatever follows it, with two units of fuel for each of its
characters. -/
theorem read_compact (json : Json) (exact : json.IsExact) (fuel : Nat)
    (enough : 2 * (compactChars json).length ≤ fuel) (rest : List Char) (ends : EndsNumber rest) :
    readValue fuel (compactChars json ++ rest) = some (json, rest) := by
  obtain ⟨char, more, start, _⟩ := compact_start exact
  obtain ⟨fuel, rfl⟩ : ∃ less, fuel = less + 1 :=
    Nat.exists_eq_succ_of_ne_zero (by rw [start, List.length_cons] at enough; omega)
  match json with
  | .null => rfl
  | .bool true => rfl
  | .bool false => rfl
  | .int value =>
      obtain ⟨char, more, written, start⟩ := digits_start value
      rw [compactChars, written, List.cons_append, read_value_number start, ← List.cons_append,
        ← written]
      exact read_number_digits exact ends
  | .text value =>
      rw [compactChars, quoted_append, readValue, read_string_quoted]
      rfl
  | .list [] => rfl
  | .list (item :: items) =>
      rw [compactChars, List.length_append, List.length_cons] at enough
      have read := read_compact_items item items exact.1 exact.2 fuel (by omega) rest
      obtain ⟨char, more, start, _, opened⟩ := compact_start exact.1
      rw [compactChars, List.cons_append, List.cons_append, List.append_assoc]
      apply read_list
      · rw [skip_blanks_compact exact.1, start]
        simpa using opened
      · rw [skip_blanks_compact exact.1]
        exact read
  | .record [] => rfl
  | .record ((name, value) :: members) =>
      rw [compactChars, List.length_append, List.length_append, List.length_cons] at enough
      have read := read_compact_members name value members exact.1 exact.2 fuel (by omega) rest
      rw [quoted_append] at read
      simp only [compactChars, List.cons_append, List.append_assoc, quoted_append]
      rw [← record_of_named]
      exact read_record (by rintro ⟨⟩) read
termination_by fuel

theorem read_compact_items (item : Json) (items : List Json) (itemExact : item.IsExact)
    (exact : ItemsExact items) (fuel : Nat)
    (enough : 2 * ((compactChars item).length + (compactItems items).length) ≤ fuel)
    (rest : List Char) :
    readItems fuel (compactChars item ++ (compactItems items ++ rest)) =
      some (item :: items, rest) := by
  have ended : 0 < (compactItems items).length := by cases items <;> simp [compactItems]
  obtain ⟨fuel, rfl⟩ : ∃ less, fuel = less + 1 := Nat.exists_eq_succ_of_ne_zero (by omega)
  have read := read_compact item itemExact fuel (by omega) (compactItems items ++ rest)
    (ends_items items rest)
  match items with
  | [] => exact read_last_item read
  | next :: items =>
      rw [compactItems, List.length_append, List.length_cons] at enough
      have others := read_compact_items next items exact.1 exact.2 fuel (by omega) rest
      rw [compactItems, List.cons_append, List.cons_append, List.append_assoc] at read ⊢
      refine read_next_item read ?_
      rw [skip_blanks_compact exact.1]
      exact others
termination_by fuel

theorem read_compact_members (name : String) (value : Json) (members : List (String × Json))
    (valueExact : value.IsExact) (exact : MembersExact members) (fuel : Nat)
    (enough : 2 * ((quoted name).length + (':' :: compactChars value).length +
      (compactMembers members).length) ≤ fuel)
    (rest : List Char) :
    readMembers fuel
        (quoted name ++ ':' :: (compactChars value ++ (compactMembers members ++ rest))) =
      some (((name, value) :: members).map fun member => (some member.1, member.2), rest) := by
  have ended : 0 < (compactMembers members).length := by cases members <;> simp [compactMembers]
  rw [List.length_cons] at enough
  obtain ⟨fuel, rfl⟩ : ∃ less, fuel = less + 1 := Nat.exists_eq_succ_of_ne_zero (by omega)
  have read := read_compact value valueExact fuel (by omega) (compactMembers members ++ rest)
    (ends_members members rest)
  rw [← skip_blanks_compact valueExact] at read
  match members with
  | [] => exact read_last_member name read
  | (other, next) :: members =>
      rw [compactMembers, List.length_append, List.length_append, List.length_cons] at enough
      have others := read_compact_members other next members exact.1 exact.2 fuel (by omega) rest
      simp only [compactMembers, List.cons_append, List.append_assoc] at read ⊢
      refine read_next_member name read ?_
      rw [quoted_append] at others ⊢
      exact others
termination_by fuel
end

/-- What is written compactly is read back. -/
theorem parse_compact {json : Json} (exact : json.IsExact) : parse? json.compact = some json := by
  have started := skip_blanks_compact exact []
  have read := read_compact json exact (2 * (compactChars json).length + 2) (by omega) []
    (by rintro char ⟨⟩)
  rw [List.append_nil] at started read
  unfold parse? compact
  rw [String.toList_ofList]
  dsimp only
  rw [started, read]
  rfl

/-- No two values have the same compact text. -/
theorem compact_injective {first second : Json} (firstExact : first.IsExact)
    (secondExact : second.IsExact) (same : first.compact = second.compact) : first = second := by
  have read := parse_compact firstExact
  rw [same, parse_compact secondExact] at read
  exact (Option.some.inj read).symm

end ShapeCompat.Json
