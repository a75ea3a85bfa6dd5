import ShapeCompat.Proofs.Erasure.Shelter

/-!
Erasure of the types of the grammar. A text of a type is erased to what the structure of the type
says, whatever blanks it has, exactly when the type is sheltered from its arrows.
-/

namespace ShapeCompat.Erasure

/-! ### Parameters -/

/-- What a scan over the parameters meets outside all brackets, the commas between them apart. -/
def exposedInside (params : List WrittenType) : List Token :=
  params.flatMap fun param => exposed Token.bracketDepth 0 param.tokens

theorem exposed_inside_cons (type : WrittenType) (rest : List WrittenType) :
    exposedInside (type :: rest) =
      exposed Token.bracketDepth 0 type.tokens ++ exposedInside rest :=
  List.flatMap_cons ..

theorem further_commas (types : List WrittenType) :
    (exposed Token.bracketDepth 0 (furtherTokens types)).count .comma =
      types.length + (exposedInside types).count .comma := by
  induction types with
  | nil => rfl
  | cons type rest induction =>
      have step : exposed Token.bracketDepth 0 (furtherTokens (type :: rest)) =
          .comma :: (exposed Token.bracketDepth 0 type.tokens ++
            exposed Token.bracketDepth 0 (furtherTokens rest)) := by
        simp only [furtherTokens, exposed, if_true, Token.bracketDepth, exposed_append, type_depth]
      rw [step, List.count_cons_self, List.count_append, induction, exposed_inside_cons,
        List.count_append, List.length_cons]
      omega

/-- Each parameter is counted, and each comma inside of one that is exposed once more. -/
theorem listed_types_of_params {params : List WrittenType} {text : List Char}
    (some : params ≠ []) (spelled : Spells (listTokens params) text) :
    listedTypes 0 text = params.length + (exposedInside params).count .comma := by
  obtain ⟨type, rest, rfl⟩ := List.exists_cons_of_ne_nil some
  rw [listed_types_of_spelled spelled, listTokens, exposed_append, type_depth, List.count_append,
    further_commas, exposed_inside_cons, List.count_append, List.length_cons]
  omega

theorem parenthesised_of_balanced {tokens : List Token} (balanced : Balanced tokens)
    {inside : List Char} (spelled : Spells tokens inside) (behind : List Char) :
    parenthesised? ('(' :: (inside ++ ')' :: behind)) = some (inside, behind) := by
  rw [parenthesised?, balanced_is_passed balanced spelled, closing?, Option.map_some, Prod.map,
    List.append_nil, id]

/-- No parameters are counted where nothing but blanks is between the parentheses. -/
theorem counted_params {params : List WrittenType} {inside : List Char}
    (spelled : Spells (listTokens params) inside) :
    (if Text.trim inside = [] then 0 else listedTypes 0 (Text.trim inside)) =
      params.length + (exposedInside params).count .comma := by
  cases params with
  | nil =>
      cases spelled with
      | nil blank =>
          rw [Text.trim, trim_start_of_blanks blank]
          rfl
  | cons type rest =>
      obtain ⟨token, tokens, listed⟩ := List.exists_cons_of_ne_nil (tokens_nonempty type)
      have shown : Text.trim inside ≠ [] := by
        rw [listTokens, listed, List.cons_append] at spelled
        obtain ⟨more, trimmed, -⟩ := spelled.trim_first
        rw [trimmed]
        exact List.append_ne_nil_of_left_ne_nil token.visible.1 more
      rw [if_neg shown, listed_types_of_params (List.cons_ne_nil _ _) spelled.trim]

theorem unmarked_function (params : List WrittenType) (result : WrittenType) :
    unmarked (WrittenType.function params result).tokens =
      .opened :: (listTokens params ++ .closed :: .arrow :: unmarked result.tokens) := by
  have joined := unmarked_append (.opened :: (listTokens params ++ [.closed, .arrow]))
    (tokens_nonempty result)
  simpa only [WrittenType.tokens, List.cons_append, List.append_assoc, List.nil_append] using joined

theorem arity_of_function {params : List WrittenType} {result : WrittenType} {text : List Char}
    (spelled : Spells (WrittenType.function params result).tokens text) :
    arity? (core text) = some (params.length + (exposedInside params).count .comma) := by
  obtain ⟨inner, trimmed, spelledCore⟩ := core_of_spelled (tokens_nonempty _) spelled
  rw [unmarked_function] at spelledCore
  obtain ⟨rest, start, spelledRest⟩ := spelledCore.trim_first
  obtain ⟨front, back, rfl, spelledFront, spelledBack⟩ := spelledRest.split
  obtain ⟨blanks, behind, rfl, blank, spelledBehind⟩ := spelledBack.first
  obtain ⟨gap, after, rfl, blankGap, -⟩ := spelledBehind.first
  have inside : Spells (listTokens params) (front ++ blanks) := by
    simpa only [List.append_nil] using spelledFront.append (.nil blank)
  have found : parenthesised? (core text) =
      some (front ++ blanks, gap ++ (Token.arrow.chars ++ after)) := by
    rw [trimmed, start, ← List.append_assoc front]
    exact parenthesised_of_balanced (list_tokens_balanced params) inside _
  have arrow : ['-', '>'].isPrefixOf (Text.trimStart (gap ++ (Token.arrow.chars ++ after))) := by
    rw [trim_start_before blankGap Token.arrow.visible]
    rfl
  simp only [arity?, found, if_pos arrow, counted_params inside]

/-! ### Erasure -/

theorem unmarked_marks {tokens : List Token} (ends : tokens.getLast? ≠ some .mark)
    (nullable : Bool) : unmarked (tokens ++ markTokens nullable) = tokens := by
  cases nullable with
  | false =>
      rw [markTokens, if_neg Bool.false_ne_true, List.append_nil, unmarked, if_neg ends]
  | true => exact unmarked_of_mark tokens

theorem erase_of_arity {text : List Char} {count : Nat} (found : arity? (core text) = some count) :
    eraseChars text = ['F', 'u', 'n', 'c', 't', 'i', 'o', 'n'] ++ Nat.toDigits 10 count := by
  rw [eraseChars, found]

theorem erase_of_unwrapped {text inside : List Char} (bare : arity? (core text) = none)
    (found : unwrapped? (core text) = some inside) : eraseChars text = eraseChars inside := by
  rw [eraseChars]
  simp only [bare]
  split
  · next other same =>
      rw [found, Option.some.injEq] at same
      rw [same]
  · next absent =>
      rw [found] at absent
      cases absent

theorem erase_of_neither {text : List Char} (noArity : arity? (core text) = none)
    (notUnwrapped : unwrapped? (core text) = none) :
    eraseChars text = withoutArguments 0 (core text) := by
  rw [eraseChars]
  simp only [noArity]
  split
  · next found =>
      rw [notUnwrapped] at found
      cases found
  · rfl

theorem erase_of_bare {text : List Char} (bare : parenthesised? (core text) = none) :
    eraseChars text = withoutArguments 0 (core text) :=
  erase_of_neither (by rw [arity?, bare]) (by rw [unwrapped?, bare])

theorem digits_eq_iff {first second : Nat} :
    Nat.toDigits 10 first = Nat.toDigits 10 second ↔ first = second := by
  constructor
  · intro same
    rw [← @Nat.ofDigitChars_ten_toDigits first, same, Nat.ofDigitChars_ten_toDigits]
  · exact congrArg _

theorem erases_function_iff {params : List WrittenType} {result : WrittenType} {text : List Char}
    (spelled : Spells (WrittenType.function params result).tokens text) :
    eraseChars text = (WrittenType.function params result).erasure ↔
      (WrittenType.function params result).Sheltered := by
  rw [erase_of_arity (arity_of_function spelled), WrittenType.erasure, List.append_cancel_left_eq,
    digits_eq_iff, Nat.add_eq_left, List.count_eq_zero, exposedInside, WrittenType.Sheltered]
  simp only [List.mem_flatMap, not_exists, not_and]

theorem erase_parenthesised {inner : WrittenType} {nullable : Bool} {text : List Char}
    (spelled : Spells (WrittenType.parenthesised inner nullable).tokens text) :
    ∃ inside, Spells inner.tokens inside ∧ eraseChars text = eraseChars inside := by
  obtain ⟨whole, trimmed, spelledCore⟩ := core_of_spelled (tokens_nonempty _) spelled
  have ends : (.opened :: (inner.tokens ++ [.closed])).getLast? ≠ some .mark := by
    rw [← List.cons_append, List.getLast?_concat]
    decide
  rw [WrittenType.tokens, unmarked_marks ends] at spelledCore
  obtain ⟨inside, enclosed, spelledInside⟩ := spelledCore.trim_between
  have found : parenthesised? (core text) = some (inside, []) := by
    rw [trimmed, enclosed]
    exact parenthesised_of_balanced (tokens_balanced inner) spelledInside []
  refine ⟨inside, spelledInside, erase_of_unwrapped ?_ ?_⟩
  · simp [arity?, found, Text.trimStart]
  · rw [unwrapped?, found]

/-- The text of a name begins with a word, and so with no parenthesis. -/
theorem bare_of_named {name : Word} {tokens : List Token} {text : List Char}
    (spelled : Spells (.word name :: tokens) text) : parenthesised? (Text.trim text) = none := by
  obtain ⟨rest, trimmed, -⟩ := spelled.trim_first
  obtain ⟨char, chars, written⟩ := List.exists_cons_of_ne_nil name.nonempty
  have other : char ≠ '(' := name.ne_of_mark (written ▸ List.mem_cons_self) (by decide)
  rw [trimmed, Token.chars, written, List.cons_append, parenthesised?]
  intro behind same
  exact other (List.cons.inj same).1

theorem kept_eq_nil_iff (token : Token) : token.kept = [] ↔ token = .less ∨ token = .greater := by
  cases token with
  | word name => simpa [Token.kept, Token.chars] using name.nonempty
  | _ => decide

theorem exposed_of_name (name : DottedName) (rest : List Token) :
    exposed Token.angleDepth 0 (name.tokens ++ rest) =
      name.tokens ++ exposed Token.angleDepth 0 rest := by
  have flat : ∀ token ∈ name.tokens, token.angleDepth 0 = 0 := by
    intro token member
    obtain rfl | ⟨part, rfl⟩ := DottedName.mem_tokens member <;> rfl
  rw [exposed_append, (exposed_of_flat flat).1, (exposed_of_flat flat).2]

theorem kept_of_name (name : DottedName) : name.tokens.flatMap Token.kept = name.chars := by
  simp only [DottedName.tokens, DottedName.chars, List.flatMap_cons, List.flatMap_assoc,
    List.flatMap_nil, Token.kept, Token.chars, List.append_nil, List.cons_append, List.nil_append]

/-- The brackets of type arguments are counted, so only what is exposed within is kept of them. -/
theorem kept_in_angles_iff (tokens : List Token) :
    (exposed Token.angleDepth 0 (inAngles tokens)).flatMap Token.kept = [] ↔
      ∀ token ∈ exposed Token.angleDepth 1 tokens, token = .less ∨ token = .greater := by
  cases tokens with
  | nil => simp [inAngles, exposed]
  | cons token rest =>
      have scanned : exposed Token.angleDepth 0 (inAngles (token :: rest)) =
          .less :: (exposed Token.angleDepth 1 (token :: rest) ++
            exposed Token.angleDepth ((token :: rest).foldl Token.angleDepth 1) [.greater]) := by
        rw [inAngles, exposed, if_pos rfl, exposed_append]
        · rfl
        · exact List.cons_ne_nil token rest
      have closing (depth : Nat) :
          (exposed Token.angleDepth depth [.greater]).flatMap Token.kept = [] := by
        simp only [exposed]
        split <;> rfl
      rw [scanned, List.flatMap_cons, List.flatMap_append, closing, List.append_nil, Token.kept,
        List.nil_append, List.flatMap_eq_nil_iff]
      exact forall₂_congr fun token _ => kept_eq_nil_iff token

theorem named_ends (name : DottedName) (tokens : List Token) :
    (name.tokens ++ inAngles tokens).getLast? ≠ some .mark := by
  cases tokens with
  | nil =>
      intro ends
      rw [inAngles, List.append_nil] at ends
      obtain same | ⟨part, same⟩ := DottedName.mem_tokens (List.mem_of_getLast? ends) <;> cases same
  | cons token rest =>
      have ends : (name.tokens ++ inAngles (token :: rest)).getLast? = some .greater := by
        rw [inAngles, ← List.cons_append, ← List.append_assoc, List.getLast?_concat]
        exact List.cons_ne_nil token rest
      rw [ends]
      decide

theorem erases_named_iff {name : DottedName} {args : List WrittenType} {nullable : Bool}
    {text : List Char} (spelled : Spells (WrittenType.named name args nullable).tokens text) :
    eraseChars text = (WrittenType.named name args nullable).erasure ↔
      (WrittenType.named name args nullable).Sheltered := by
  obtain ⟨whole, trimmed, spelledCore⟩ := core_of_spelled (tokens_nonempty _) spelled
  rw [WrittenType.tokens, unmarked_marks (named_ends name _)] at spelledCore
  have bare : parenthesised? (core text) = none := by
    rw [trimmed]
    exact bare_of_named spelledCore
  rw [erase_of_bare bare, trimmed, without_arguments_of_spelled spelledCore.trim, exposed_of_name,
    List.flatMap_append, kept_of_name, WrittenType.erasure, List.append_right_eq_self,
    kept_in_angles_iff, WrittenType.Sheltered]

theorem erases_iff : (type : WrittenType) → {text : List Char} → Spells type.tokens text →
    (eraseChars text = type.erasure ↔ type.Sheltered)
  | .named _ _ _, _, spelled => erases_named_iff spelled
  | .function _ _, _, spelled => erases_function_iff spelled
  | .parenthesised inner _, text, spelled => by
      obtain ⟨inside, spelledInside, same⟩ := erase_parenthesised spelled
      rw [same, WrittenType.erasure, WrittenType.Sheltered]
      exact erases_iff inner spelledInside

end Erasure

open Erasure

/-- Any text of a type is erased to what the structure of the type says, exactly when the type is
sheltered from its arrows. Types of the second order are. -/
theorem erasure_follows_structure (type : WrittenType) (text : String)
    (spelled : Spells type.tokens text.toList) :
    (eraseType text = String.ofList type.erasure ↔ type.Sheltered) ∧
      (type.SecondOrder → eraseType text = String.ofList type.erasure) := by
  have exactly : eraseType text = String.ofList type.erasure ↔ type.Sheltered := by
    rw [eraseType, String.ofList_inj]
    exact erases_iff type spelled
  exact ⟨exactly, fun order => exactly.mpr (second_order_sheltered type order)⟩

def simpleType (name : Word) (nullable : Bool) : WrittenType := .named ⟨name, []⟩ [] nullable

def callbackType : WrittenType :=
  let supplier := .function [] (simpleType { chars := ['V'] } true)
  let table := .named ⟨{ chars := ['M', 'a', 'p'] }, []⟩
    [simpleType { chars := ['K'] } false, supplier] true
  let handler := .function
    [simpleType { chars := ['A'] } false, simpleType { chars := ['B'] } false]
    (simpleType { chars := ['C'] } false)
  let result := .named ⟨{ chars := ['a', 'p', 'p'] }, [{ chars := ['R'] }]⟩ [] true
  .parenthesised (.function [table, handler] result) true

/-- The arrow in the table stands behind its last comma. -/
theorem callback_type_erases :
    Spells callbackType.tokens " ((Map<K, () -> V ?>?, (A , B)-> C) -> app.R?)?".toList ∧
      callbackType.Sheltered ∧
      eraseType " ((Map<K, () -> V ?>?, (A , B)-> C) -> app.R?)?" = "Function2" := by
  have spelled : Spells callbackType.tokens
      " ((Map<K, () -> V ?>?, (A , B)-> C) -> app.R?)?".toList := by
    decide +kernel
  have sheltered : callbackType.Sheltered := by decide
  refine ⟨spelled, sheltered, ?_⟩
  rw [(erasure_follows_structure callbackType _ spelled).1.mpr sheltered]
  decide +kernel

def handlerType : WrittenType :=
  .function [simpleType { chars := ['A'] } false] (simpleType { chars := ['B'] } false)

def handlerList : WrittenType := .named ⟨{ chars := ['L', 'i', 's', 't'] }, []⟩ [handlerType] false

def handlerTable : WrittenType :=
  .function
    [.named ⟨{ chars := ['M', 'a', 'p'] }, []⟩
      [handlerType, simpleType { chars := ['C'] } false] false]
    (simpleType { chars := ['D'] } false)

/-- The arrow of a type argument closes the brackets of the list and of the table too early. -/
theorem handlers_in_arguments_show :
    (Spells handlerList.tokens "List<(A) -> B>".toList ∧
      String.ofList handlerList.erasure = "List" ∧ eraseType "List<(A) -> B>" = "ListB") ∧
    (Spells handlerTable.tokens "(Map<(A) -> B, C>) -> D".toList ∧
      String.ofList handlerTable.erasure = "Function1" ∧
      eraseType "(Map<(A) -> B, C>) -> D" = "Function2") := by
  refine ⟨⟨by decide +kernel, by decide +kernel, ?_⟩, by decide +kernel, by decide +kernel, ?_⟩
  · cbv
  · cbv

end ShapeCompat
