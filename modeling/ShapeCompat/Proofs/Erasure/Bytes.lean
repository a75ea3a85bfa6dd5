import ShapeCompat.Erasure.Bytes
import ShapeCompat.Proofs.Erasure.Structure

/-!
Erasure on encoded text never faults. While the closing parenthesis of an opening one is looked for,
the counter is the number of parentheses that the characters read so far have left open, and the
search ends where that number comes to zero; so nothing is taken from zero, and every cut is made
beside a parenthesis that was read. What comes out is the erasure of the characters.
-/

namespace ShapeCompat.Erasure

/-! ### Cuts -/

theorem byte_length_of_text (text : String) : byteLength text.toList = text.utf8ByteSize := by
  rw [byteLength, String.ofList_toList]

theorem bytes_between (before middle after : ByteArray) :
    (before ++ (middle ++ after)).extract before.size (before.size + middle.size) = middle := by
  calc
    _ = (middle ++ after).extract 0 middle.size := ByteArray.extract_append_size_add (i := 0)
    _ = middle := ByteArray.extract_append_eq_left rfl

/-- A cut between two boundaries is what stands between them. -/
theorem slice_between (before middle after : String) :
    slice (before ++ (middle ++ after)) before.utf8ByteSize
      (before.utf8ByteSize + middle.utf8ByteSize) = .ok middle := by
  have start : (String.Pos.Raw.mk before.utf8ByteSize).IsValid (before ++ (middle ++ after)) :=
    String.Pos.Raw.isValid_iff_exists_append.mpr ⟨before, middle ++ after, rfl, rfl⟩
  have stop : (String.Pos.Raw.mk (before.utf8ByteSize + middle.utf8ByteSize)).IsValid
      (before ++ (middle ++ after)) := by
    rw [String.Pos.Raw.isValid_iff_exists_append]
    refine ⟨before ++ middle, after, (String.append_assoc ..).symm, ?_⟩
    rw [← String.utf8ByteSize_append]
    rfl
  rw [slice, dif_pos ⟨Nat.le_add_right _ _, start, stop⟩]
  congr 1
  rw [← String.toByteArray_inj, String.toByteArray_extract, String.toByteArray_append,
    String.toByteArray_append]
  exact bytes_between _ _ _

/-! ### The closing parenthesis -/

theorem closing_split {depth : Nat} {chars inside behind : List Char}
    (found : closing? depth chars = some (inside, behind)) : chars = inside ++ ')' :: behind := by
  fun_induction closing? depth chars generalizing inside behind with
  | case1 => cases found
  | case2 rest =>
      cases found
      rfl
  | case3 depth rest induction | case4 depth rest induction
  | case5 depth char rest _ _ _ induction =>
      obtain ⟨⟨tail, after⟩, later, same⟩ := Option.map_eq_some_iff.mp found
      cases same
      rw [induction later, List.cons_append]

theorem ne_closed {depth : Nat} {char : Char} (notLast : depth = 0 → char = ')' → False)
    (notClosed : ∀ left, depth = left + 1 → char = ')' → False) : char ≠ ')' := by
  cases depth with
  | zero => exact notLast rfl
  | succ depth => exact notClosed depth rfl

/-- With at least one parenthesis open the counter is never at zero when it is lowered. -/
theorem closing_from_eq (depth position : Nat) (chars : List Char) :
    closingFrom (depth + 1) position chars =
      .ok ((closing? depth chars).map fun found => position + byteLength found.1) := by
  fun_induction closing? depth chars generalizing position with
  | case1 => rfl
  | case2 rest => rfl
  | case3 depth rest induction =>
      have lowered : difference (depth + 1 + 1) 1 = .ok (depth + 1) := by simp [difference]
      rw [closingFrom, if_neg (by decide), if_pos rfl, lowered]
      dsimp only
      rw [induction, Option.map_map]
      simp only [Function.comp_def, byte_length_cons, Nat.add_assoc]
  | case4 depth rest induction =>
      rw [closingFrom, if_pos rfl, induction, Option.map_map]
      simp only [Function.comp_def, byte_length_cons, Nat.add_assoc]
  | case5 depth char rest notLast notClosed notOpened induction =>
      rw [closingFrom, if_neg notOpened, if_neg (ne_closed notLast notClosed), induction,
        Option.map_map]
      simp only [Function.comp_def, byte_length_cons, Nat.add_assoc]

/-- The position of the closing parenthesis is behind the opening one and what it closes in. -/
theorem closing_position_eq (text : String) :
    closingPosition text =
      .ok ((parenthesised? text.toList).map fun found => 1 + byteLength found.1) := by
  unfold closingPosition parenthesised?
  split
  · rename_i opened
    obtain ⟨rest, written⟩ := List.head?_eq_some_iff.mp opened
    rw [written, closingFrom, if_pos rfl, closing_from_eq]
    rfl
  · rename_i bare
    split
    · rename_i rest written
      rw [written] at bare
      exact (bare rfl).elim
    · rfl

/-! ### Cuts beside parentheses -/

/-- A text that opens with a parenthesis, by what the closing one parts it into. -/
structure Closes (text inside behind : String) : Prop where
  found : parenthesised? text.toList = some (inside.toList, behind.toList)
  written : text = "(" ++ (inside ++ (")" ++ behind))

theorem closes_of_found {text : String} {inside behind : List Char}
    (found : parenthesised? text.toList = some (inside, behind)) :
    Closes text (String.ofList inside) (String.ofList behind) := by
  refine ⟨by simpa only [String.toList_ofList] using found, ?_⟩
  unfold parenthesised? at found
  split at found
  · rename_i rest opened
    have parts := closing_split found
    rw [← String.toList_inj, opened, parts]
    simp
  · cases found

namespace Closes

variable {text inside behind : String}

theorem position (closes : Closes text inside behind) :
    closingPosition text = .ok (some (1 + inside.utf8ByteSize)) := by
  rw [closing_position_eq, closes.found, Option.map_some, byte_length_of_text]

theorem size (closes : Closes text inside behind) :
    text.utf8ByteSize = 1 + inside.utf8ByteSize + 1 + behind.utf8ByteSize := by
  have opening : "(".utf8ByteSize = 1 := rfl
  have closing : ")".utf8ByteSize = 1 := rfl
  rw [closes.written, String.utf8ByteSize_append, String.utf8ByteSize_append,
    String.utf8ByteSize_append, opening, closing]
  omega

theorem inside_cut (closes : Closes text inside behind) :
    slice text 1 (1 + inside.utf8ByteSize) = .ok inside := by
  rw [closes.written]
  exact slice_between "(" inside (")" ++ behind)

theorem behind_cut (closes : Closes text inside behind) :
    slice text (1 + inside.utf8ByteSize + 1) text.utf8ByteSize = .ok behind := by
  have front : ("(" ++ (inside ++ ")")).utf8ByteSize = 1 + inside.utf8ByteSize + 1 := by
    rw [String.utf8ByteSize_append, String.utf8ByteSize_append, ← Nat.add_assoc]
    rfl
  have whole : text = "(" ++ (inside ++ ")") ++ (behind ++ "") := by
    rw [closes.written, String.append_empty, String.append_assoc, String.append_assoc]
  have cut := slice_between ("(" ++ (inside ++ ")")) behind ""
  rw [← whole, front, ← closes.size] at cut
  exact cut

end Closes

theorem parameter_count_eq (text : String) : parameterCount text = .ok (arity? text.toList) := by
  unfold parameterCount arity?
  cases found : parenthesised? text.toList with
  | none =>
      rw [closing_position_eq, found]
      rfl
  | some parts =>
      obtain ⟨inside, behind⟩ := parts
      have closes := closes_of_found found
      rw [closes.position]
      simp only [bind, Except.bind, pure, Except.pure]
      rw [closes.behind_cut]
      simp only [String.toList_ofList]
      split
      · rw [closes.inside_cut]
        simp only [String.toList_ofList]
      · rfl

theorem enclosed_eq (text : String) :
    enclosed text = .ok ((unwrapped? text.toList).map String.ofList) := by
  unfold enclosed unwrapped?
  cases found : parenthesised? text.toList with
  | none =>
      rw [closing_position_eq, found]
      rfl
  | some parts =>
      obtain ⟨inside, behind⟩ := parts
      have closes := closes_of_found found
      have size := closes.size
      have last : difference text.utf8ByteSize 1 =
          .ok (1 + (String.ofList inside).utf8ByteSize + (String.ofList behind).utf8ByteSize) := by
        rw [difference, if_pos (by omega)]
        congr 1
        omega
      rw [closes.position]
      simp only [bind, Except.bind, pure, Except.pure]
      rw [last]
      cases behind with
      | nil =>
          have nothing : (String.ofList []).utf8ByteSize = 0 := rfl
          dsimp only
          rw [nothing, Nat.add_zero, if_pos rfl, closes.inside_cut]
          rfl
      | cons char rest =>
          have more : (String.ofList (char :: rest)).utf8ByteSize ≠ 0 := by
            rw [ne_eq, String.utf8ByteSize_eq_zero_iff, String.ofList_eq_empty_iff]
            exact List.cons_ne_nil char rest
          dsimp only
          rw [if_neg (by omega)]
          rfl

/-! ### Rounds -/

section Rounds

variable {type : String} {count : Nat} {inside : List Char}

theorem round_of_arity (found : arity? (core type.toList) = some count) :
    round type = .ok (.erased (String.ofList (eraseChars type.toList))) := by
  rw [round, roundOf, parameter_count_eq, String.toList_ofList, found, erase_of_arity found]
  rfl

theorem round_of_unwrapped (noArity : arity? (core type.toList) = none)
    (found : unwrapped? (core type.toList) = some inside) :
    round type = .ok (.inside (String.ofList inside)) := by
  rw [round, roundOf, parameter_count_eq, String.toList_ofList, noArity, enclosed_eq,
    String.toList_ofList, found]
  rfl

theorem round_of_neither (noArity : arity? (core type.toList) = none)
    (notUnwrapped : unwrapped? (core type.toList) = none) :
    round type = .ok (.erased (String.ofList (eraseChars type.toList))) := by
  rw [round, roundOf, parameter_count_eq, String.toList_ofList, noArity, enclosed_eq,
    String.toList_ofList, notUnwrapped, erase_of_neither noArity notUnwrapped]
  rfl

theorem round_succeeds (type : String) : ∃ outcome, round type = .ok outcome := by
  cases counted : arity? (core type.toList) with
  | some count => exact ⟨_, round_of_arity counted⟩
  | none =>
      cases wrapped : unwrapped? (core type.toList) with
      | none => exact ⟨_, round_of_neither counted wrapped⟩
      | some inside => exact ⟨_, round_of_unwrapped counted wrapped⟩

variable {step : String → Except ByteFault Round}
  {shorter : ∀ type inner, step type = .ok (.inside inner) →
    inner.utf8ByteSize < type.utf8ByteSize} {text inner : String}

theorem rounds_eq : rounds step shorter type =
    match step type with
    | .error fault => .error fault
    | .ok (.erased text) => .ok text
    | .ok (.inside inner) => rounds step shorter inner := by
  rw [rounds]
  split
  all_goals
    rename_i found
    simp only [found]

theorem rounds_erased (found : step type = .ok (.erased text)) :
    rounds step shorter type = .ok text := by
  rw [rounds_eq, found]

theorem rounds_inside (found : step type = .ok (.inside inner)) :
    rounds step shorter type = rounds step shorter inner := by
  rw [rounds_eq, found]

end Rounds

/-- The rounds come to the erasure of the characters. -/
theorem erase_bytes_eq (type : String) : eraseBytes type = .ok (eraseType type) := by
  -- Every further round has fewer bytes before it.
  induction bytes : type.utf8ByteSize using Nat.strong_induction_on generalizing type with
  | _ size induction =>
      subst bytes
      unfold eraseBytes eraseType
      cases counted : arity? (core type.toList) with
      | some count => exact rounds_erased (round_of_arity counted)
      | none =>
          cases wrapped : unwrapped? (core type.toList) with
          | none => exact rounds_erased (round_of_neither counted wrapped)
          | some inside =>
              have step := round_of_unwrapped counted wrapped
              have later := induction _ (round_shorter step) _ rfl
              rw [rounds_inside step, erase_of_unwrapped counted wrapped]
              rw [eraseBytes, eraseType, String.toList_ofList] at later
              exact later

/-! ### Where the parentheses are level -/

/-- How many more parentheses are closed than opened. -/
def excess (chars : List Char) : Int := chars.count ')' - chars.count '('

theorem excess_cons (char : Char) (chars : List Char) :
    excess (char :: chars) = excess [char] + excess chars := by
  simp only [excess, List.count_cons, List.count_nil]
  omega

theorem excess_other {char : Char} (notOpened : char ≠ '(') (notClosed : char ≠ ')') :
    excess [char] = 0 := by
  simp [excess, notOpened, notClosed]

/-- The first character up to which the excess is `target` stands between `inside` and `behind`. -/
def Reaches (target : Int) (chars inside behind : List Char) : Prop :=
  ∃ char, chars = inside ++ char :: behind ∧ excess (inside ++ [char]) = target ∧
    ∀ read, read <+: inside → excess read ≠ target

theorem Reaches.target_ne_zero {target : Int} {chars inside behind : List Char}
    (reaches : Reaches target chars inside behind) : target ≠ 0 := by
  obtain ⟨_, _, _, unmet⟩ := reaches
  exact (unmet [] List.nil_prefix).symm

theorem reaches_nil_iff {target : Int} {char : Char} {chars behind : List Char} :
    Reaches target (char :: chars) [] behind ↔
      target ≠ 0 ∧ excess [char] = target ∧ behind = chars := by
  constructor
  · intro reaches
    have nonzero := reaches.target_ne_zero
    obtain ⟨last, split, met, _⟩ := reaches
    cases split
    exact ⟨nonzero, met, rfl⟩
  · intro both
    obtain ⟨nonzero, met, rfl⟩ := both
    refine ⟨char, rfl, met, ?_⟩
    intro read front
    rw [List.prefix_nil.mp front]
    exact nonzero.symm

/-- Behind a first character less is left to reach. -/
theorem reaches_cons_iff {target : Int} {char other : Char} {chars inside behind : List Char} :
    Reaches target (char :: chars) (other :: inside) behind ↔
      target ≠ 0 ∧ other = char ∧ Reaches (target - excess [char]) chars inside behind := by
  constructor
  · intro reaches
    have nonzero := reaches.target_ne_zero
    obtain ⟨last, split, met, unmet⟩ := reaches
    cases split
    refine ⟨nonzero, rfl, last, rfl, ?_, ?_⟩
    · rw [List.cons_append, excess_cons] at met
      omega
    · intro read front again
      apply unmet (char :: read) (List.cons_prefix_cons.mpr ⟨rfl, front⟩)
      rw [excess_cons]
      omega
  · intro all
    obtain ⟨nonzero, rfl, last, rfl, met, unmet⟩ := all
    refine ⟨last, rfl, ?_, ?_⟩
    · rw [List.cons_append, excess_cons]
      omega
    · intro read front again
      rcases List.prefix_cons_iff.mp front with rfl | ⟨tail, rfl, rest⟩
      · exact nonzero again.symm
      · rw [excess_cons] at again
        exact unmet tail rest (by omega)

/-- A search that keeps the first character and goes on behind it. -/
theorem reaches_behind_iff {target : Int} {char : Char} {chars inside behind : List Char}
    {found : Option (List Char × List Char)} (nonzero : target ≠ 0) (unmet : excess [char] ≠ target)
    (later : ∀ inside behind,
      found = some (inside, behind) ↔ Reaches (target - excess [char]) chars inside behind) :
    (found.map fun (inside, behind) => (char :: inside, behind)) = some (inside, behind) ↔
      Reaches target (char :: chars) inside behind := by
  cases inside with
  | nil =>
      rw [reaches_nil_iff]
      constructor
      · intro kept
        obtain ⟨_, _, same⟩ := Option.map_eq_some_iff.mp kept
        cases same
      · intro all
        exact (unmet all.2.1).elim
  | cons first inside =>
      rw [reaches_cons_iff, ← later]
      constructor
      · intro kept
        obtain ⟨_, here, same⟩ := Option.map_eq_some_iff.mp kept
        cases same
        exact ⟨nonzero, rfl, here⟩
      · intro all
        obtain ⟨_, rfl, here⟩ := all
        rw [here]
        rfl

/-- A search with `depth` more parentheses open ends where one more than those is closed. -/
theorem closing_iff (depth : Nat) (chars inside behind : List Char) :
    closing? depth chars = some (inside, behind) ↔ Reaches (depth + 1) chars inside behind := by
  have closed : excess [')'] = 1 := rfl
  have opened : excess ['('] = -1 := rfl
  -- A character moves the depth of the search by as much as it moves the excess.
  fun_induction closing? depth chars generalizing inside behind with
  | case1 =>
      constructor
      · intro found
        cases found
      · intro reaches
        obtain ⟨_, split, _⟩ := reaches
        cases inside <;> cases split
  | case2 rest =>
      cases inside with
      | nil =>
          rw [reaches_nil_iff, closed, Option.some.injEq, Prod.mk.injEq]
          simp [eq_comm]
      | cons first inside =>
          rw [reaches_cons_iff, closed]
          constructor
          · intro found
            cases found
          · intro all
            exact (all.2.2.target_ne_zero rfl).elim
  | case3 depth rest induction =>
      have left : ((depth + 1 : Nat) : Int) + 1 - excess [')'] = depth + 1 := by omega
      apply reaches_behind_iff (by omega) (by omega)
      rw [left]
      exact induction
  | case4 depth rest induction =>
      have left : (depth : Int) + 1 - excess ['('] = ((depth + 1 : Nat) : Int) + 1 := by omega
      apply reaches_behind_iff (by omega) (by omega)
      rw [left]
      exact induction
  | case5 depth char rest notLast notClosed notOpened induction =>
      have level := excess_other notOpened (ne_closed notLast notClosed)
      apply reaches_behind_iff (by omega) (by omega)
      rw [level, Int.sub_zero]
      exact induction

/-- As many parentheses are closed as opened. -/
def IsLevel (chars : List Char) : Prop := chars.count '(' = chars.count ')'

/-- At this byte position is the first character up to which the parentheses are level. -/
def LevelsAt (text : String) (position : Nat) : Prop :=
  ∃ before char after, text.toList = before ++ char :: after ∧ position = byteLength before ∧
    IsLevel (before ++ [char]) ∧ ∀ read, read <+: before → read ≠ [] → ¬IsLevel read

theorem is_level_iff (chars : List Char) : IsLevel ('(' :: chars) ↔ excess chars = 1 := by
  simp only [IsLevel, excess, List.count_cons]
  simp
  omega

/-- Behind an opening parenthesis the text is level where one more is closed than opened. -/
theorem levels_at_iff {text : String} {rest : List Char} (opened : text.toList = '(' :: rest)
    (position : Nat) :
    LevelsAt text position ↔
      ∃ inside behind, Reaches 1 rest inside behind ∧ position = 1 + byteLength inside := by
  have width (chars : List Char) : byteLength ('(' :: chars) = 1 + byteLength chars :=
    byte_length_cons '(' chars
  constructor
  · intro levels
    obtain ⟨before, char, after, split, rfl, level, unmet⟩ := levels
    rw [opened] at split
    cases before with
    | nil =>
        cases split
        cases level
    | cons first inside =>
        cases split
        refine ⟨inside, after, ⟨char, rfl, (is_level_iff _).mp level, ?_⟩, width inside⟩
        intro read front met
        exact unmet ('(' :: read) (List.cons_prefix_cons.mpr ⟨rfl, front⟩) (List.cons_ne_nil _ _)
          ((is_level_iff read).mpr met)
  · intro both
    obtain ⟨inside, behind, ⟨char, rfl, met, unmet⟩, rfl⟩ := both
    refine ⟨'(' :: inside, char, behind, opened, (width inside).symm, (is_level_iff _).mpr met, ?_⟩
    intro read front some level
    rcases List.prefix_cons_iff.mp front with rfl | ⟨tail, rfl, rest⟩
    · exact some rfl
    · exact unmet tail rest ((is_level_iff tail).mp level)

theorem closing_position_iff (text : String) (position : Nat) :
    closingPosition text = .ok (some position) ↔
      text.toList.head? = some '(' ∧ LevelsAt text position := by
  by_cases opened : text.toList.head? = some '('
  · obtain ⟨rest, written⟩ := List.head?_eq_some_iff.mp opened
    rw [levels_at_iff written, closing_position_eq, written, parenthesised?, Except.ok.injEq,
      Option.map_eq_some_iff, Prod.exists, List.head?_cons]
    simp only [true_and]
    exact exists_congr fun inside => exists_congr fun behind =>
      and_congr (closing_iff 0 rest inside behind) eq_comm
  · simp [closingPosition, opened]

end Erasure

open Erasure

/-- Erasure on encoded text, whatever the text is. The counter of the search for the closing
parenthesis is never lowered from zero, and what the search finds is the first character up to which
the parentheses are level. No cut misses a character boundary, every further round is on a shorter
text, and the rounds come to the erasure of the characters. -/
theorem byte_erasure_never_faults (text : String) :
    (∃ found, closingPosition text = .ok found) ∧
    (∀ position, closingPosition text = .ok (some position) ↔
      text.toList.head? = some '(' ∧ LevelsAt text position) ∧
    parameterCount text = .ok (arity? text.toList) ∧
    enclosed text = .ok ((unwrapped? text.toList).map String.ofList) ∧
    (∃ outcome, round text = .ok outcome ∧
      ∀ inner, outcome = .inside inner → inner.utf8ByteSize < text.utf8ByteSize) ∧
    eraseBytes text = .ok (eraseType text) := by
  refine ⟨⟨_, closing_position_eq text⟩, closing_position_iff text, parameter_count_eq text,
    enclosed_eq text, ?_, erase_bytes_eq text⟩
  obtain ⟨outcome, ends⟩ := round_succeeds text
  refine ⟨outcome, ends, ?_⟩
  intro inner further
  exact round_shorter (ends.trans (congrArg Except.ok further))

/-- The letter takes two bytes, and the question mark and both pairs of parentheses go. -/
theorem nested_letter_is_erased :
    round "((é) )?" = .ok (.inside "(é) ") ∧ "(é) ".utf8ByteSize < "((é) )?".utf8ByteSize ∧
      eraseBytes "((é) )?" = .ok "é" := by
  have first : round "((é) )?" = .ok (.inside "(é) ") := by decide +kernel
  have letter : eraseType "((é) )?" = "é" := by decide +kernel
  obtain ⟨_, _, _, _, further, erased⟩ := byte_erasure_never_faults "((é) )?"
  obtain ⟨outcome, ends, shorter⟩ := further
  have same : outcome = .inside "(é) " := Except.ok.inj (ends.symm.trans first)
  exact ⟨first, shorter _ same, letter ▸ erased⟩

end ShapeCompat
