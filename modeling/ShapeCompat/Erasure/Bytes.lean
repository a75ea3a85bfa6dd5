import ShapeCompat.Erasure
import ShapeCompat.Naming

/-!
Erasure as it is carried out on encoded text. Texts are cut at byte positions and counters are
unsigned, so a cut can miss a character boundary and a difference can fall below zero; either is a
fault that ends the erasure. Sums have no bound: what is counted are characters of one text, and no
text has more of them than a counter can hold.
-/

namespace ShapeCompat.Erasure

inductive ByteFault where
  | belowZero
  | badCut (start stop : Nat)
  deriving DecidableEq

/-- The difference of two unsigned numbers. -/
def difference (number less : Nat) : Except ByteFault Nat :=
  if less ≤ number then .ok (number - less) else .error .belowZero

/-- The bytes from `start` on and before `stop`, where both are boundaries of characters. -/
def slice (text : String) (start stop : Nat) : Except ByteFault String :=
  if valid : start ≤ stop ∧ (String.Pos.Raw.mk start).IsValid text ∧
      (String.Pos.Raw.mk stop).IsValid text then
    .ok (String.extract (text.pos ⟨start⟩ valid.2.1) (text.pos ⟨stop⟩ valid.2.2))
  else .error (.badCut start stop)

/-- Reads on at a byte position, where `depth` parentheses are open, to the position of the
parenthesis that closes the last one. -/
def closingFrom (depth position : Nat) : List Char → Except ByteFault (Option Nat)
  | [] => .ok none
  | char :: rest =>
      if char = '(' then closingFrom (depth + 1) (position + char.utf8Size) rest
      else if char = ')' then
        match difference depth 1 with
        | .error fault => .error fault
        | .ok 0 => .ok (some position)
        | .ok (left + 1) => closingFrom (left + 1) (position + char.utf8Size) rest
      else closingFrom depth (position + char.utf8Size) rest

/-- Where the parenthesis that a text opens with is closed. -/
def closingPosition (text : String) : Except ByteFault (Option Nat) :=
  if text.toList.head? = some '(' then closingFrom 0 0 text.toList else .ok none

/-- The number of parameters of a text that reads as a function type. -/
def parameterCount (text : String) : Except ByteFault (Option Nat) := do
  match ← closingPosition text with
  | none => return none
  | some close =>
      let behind ← slice text (close + 1) text.utf8ByteSize
      if ['-', '>'].isPrefixOf (Text.trimStart behind.toList) then
        let inside ← slice text 1 close
        let params := Text.trim inside.toList
        return some (if params = [] then 0 else listedTypes 0 params)
      else return none

/-- The inside of a text that is one parenthesis from end to end. -/
def enclosed (text : String) : Except ByteFault (Option String) := do
  match ← closingPosition text with
  | none => return none
  | some close =>
      let last ← difference text.utf8ByteSize 1
      if close = last then return some (← slice text 1 close) else return none

/-- What one round of the erasure comes to: the erased text, or a text to erase in its place. -/
inductive Round where
  | erased (text : String)
  | inside (type : String)
  deriving DecidableEq

/-- A round on a text without blanks and nullability mark around it. -/
def roundOf (text : String) : Except ByteFault Round := do
  match ← parameterCount text with
  | some count =>
      return .erased (String.ofList
        (['F', 'u', 'n', 'c', 't', 'i', 'o', 'n'] ++ Nat.toDigits 10 count))
  | none =>
      match ← enclosed text with
      | some inner => return .inside inner
      | none => return .erased (String.ofList (withoutArguments 0 text.toList))

def round (type : String) : Except ByteFault Round := roundOf (String.ofList (core type.toList))

/-! ### Every round shortens the text -/

theorem slice_size {text part : String} {start stop : Nat} (cut : slice text start stop = .ok part) :
    part.utf8ByteSize = stop - start := by
  unfold slice at cut
  split at cut
  · rename_i valid
    cases cut
    have within : stop ≤ text.toByteArray.size := valid.2.2.le_utf8ByteSize
    rw [String.utf8ByteSize, String.toByteArray_extract, ByteArray.size_extract]
    change min stop _ - start = stop - start
    rw [Nat.min_eq_left within]
  · cases cut

theorem difference_eq {number less left : Nat} (found : difference number less = .ok left) :
    number = left + less := by
  unfold difference at found
  split at found
  · cases found
    omega
  · cases found

/-- The inside is cut out between the first byte and the last. -/
theorem enclosed_cut {text inner : String} (found : enclosed text = .ok (some inner)) :
    ∃ last, difference text.utf8ByteSize 1 = .ok last ∧ slice text 1 last = .ok inner := by
  unfold enclosed at found
  simp only [bind, Except.bind] at found
  repeat' split at found
  all_goals cases found
  subst_vars
  exact ⟨_, ‹_›, ‹_›⟩

theorem enclosed_shorter {text inner : String} (found : enclosed text = .ok (some inner)) :
    inner.utf8ByteSize < text.utf8ByteSize := by
  obtain ⟨last, whole, cut⟩ := enclosed_cut found
  have size := slice_size cut
  have bytes := difference_eq whole
  omega

theorem core_within (type : List Char) : core type <:+: type := by
  have trimmed (chars : List Char) : Text.trim chars <:+: chars := by
    have front : Text.trimStart chars <:+ chars := List.dropWhile_suffix _
    have back : Text.trimEnd (Text.trimStart chars) <+: Text.trimStart chars := by
      rw [← List.reverse_suffix, Text.trimEnd, List.reverse_reverse]
      exact List.dropWhile_suffix _
    exact back.isInfix.trans front.isInfix
  have unmarked : withoutMark (Text.trim type) <:+: Text.trim type := by
    unfold withoutMark
    split
    · exact (List.dropLast_prefix _).isInfix
    · exact List.infix_refl _
  exact (trimmed _).trans (unmarked.trans (trimmed type))

theorem byte_length_of_within {part whole : List Char} (within : part <:+: whole) :
    byteLength part ≤ byteLength whole := by
  obtain ⟨before, after, rfl⟩ := within
  rw [byte_length_append, byte_length_append]
  omega

/-- Only the inside of an enclosed text is left to erase. -/
theorem round_enclosed {text inner : String} (found : roundOf text = .ok (.inside inner)) :
    enclosed text = .ok (some inner) := by
  unfold roundOf at found
  simp only [bind, Except.bind] at found
  repeat' split at found
  all_goals cases found
  assumption

theorem round_shorter {type inner : String} (found : round type = .ok (.inside inner)) :
    inner.utf8ByteSize < type.utf8ByteSize := by
  have whole : (String.ofList (core type.toList)).utf8ByteSize ≤ type.utf8ByteSize := by
    have bytes := byte_length_of_within (core_within type.toList)
    simpa only [byteLength, String.ofList_toList] using bytes
  exact Nat.lt_of_lt_of_le (enclosed_shorter (round_enclosed found)) whole

/-- Rounds on ever shorter texts, up to one that comes to an erased text. -/
def rounds (step : String → Except ByteFault Round)
    (shorter : ∀ type inner, step type = .ok (.inside inner) →
      inner.utf8ByteSize < type.utf8ByteSize)
    (type : String) : Except ByteFault String :=
  match found : step type with
  | .error fault => .error fault
  | .ok (.erased text) => .ok text
  | .ok (.inside inner) =>
      have := shorter type inner found
      rounds step shorter inner
termination_by type.utf8ByteSize

/-- The erased form of a type text, unless a cut or a difference fails. -/
def eraseBytes (type : String) : Except ByteFault String :=
  rounds round (fun _ _ => round_shorter) type

end ShapeCompat.Erasure
