import Mathlib.Data.List.Basic
import Mathlib.Data.List.TakeWhile
import ShapeCompat.Erasure

/-!
Texts as the tokens of the type grammar spell them: every token in its turn, with any blanks around
it. Trimming such a text leaves one that begins and ends with a token.
-/

namespace ShapeCompat.Erasure

/-- What the tokens other than words are written with. -/
def marks : List Char := ['<', '>', '(', ')', ',', '?', '.', '-']

def isWordChar (char : Char) : Bool := !Text.isBlank char && !marks.contains char

structure Word where
  chars : List Char
  nonempty : chars ≠ [] := by decide
  plain : chars.all isWordChar = true := by rfl
deriving DecidableEq

inductive Token where
  | word (name : Word)
  | dot
  | opened
  | closed
  | less
  | greater
  | comma
  | arrow
  | mark
deriving DecidableEq

def Token.chars : Token → List Char
  | .word name => name.chars
  | .dot => ['.']
  | .opened => ['(']
  | .closed => [')']
  | .less => ['<']
  | .greater => ['>']
  | .comma => [',']
  | .arrow => ['-', '>']
  | .mark => ['?']

def IsBlanks (chars : List Char) : Prop := ∀ char ∈ chars, Text.isBlank char = true

/-- Trimming stops here. -/
def IsVisible (chars : List Char) : Prop :=
  chars ≠ [] ∧ ∀ char ∈ chars, Text.isBlank char = false

/-- Every token in its turn, with any blanks before, between and behind them. -/
inductive Spells : List Token → List Char → Prop where
  | nil {blanks : List Char} (blank : IsBlanks blanks) : Spells [] blanks
  | cons {blanks text : List Char} {tokens : List Token} (blank : IsBlanks blanks)
      (token : Token) (rest : Spells tokens text) :
      Spells (token :: tokens) (blanks ++ (token.chars ++ text))

theorem Word.not_blank (name : Word) {char : Char} (member : char ∈ name.chars) :
    Text.isBlank char = false := by
  have plain := List.all_eq_true.mp name.plain char member
  simp only [isWordChar, Bool.and_eq_true, Bool.not_eq_true'] at plain
  exact plain.1

theorem Word.ne_of_mark (name : Word) {char mark : Char} (member : char ∈ name.chars)
    (other : isWordChar mark = false) : char ≠ mark := by
  rintro rfl
  rw [List.all_eq_true.mp name.plain char member] at other
  cases other

theorem Token.visible (token : Token) : IsVisible token.chars := by
  cases token with
  | word name => exact ⟨name.nonempty, fun _ => name.not_blank⟩
  | _ => simp [IsVisible, chars, Text.isBlank]

theorem IsBlanks.nil : IsBlanks [] := List.forall_mem_nil _

theorem IsBlanks.append {first second : List Char} (one : IsBlanks first) (other : IsBlanks second) :
    IsBlanks (first ++ second) := by
  intro char member
  exact (List.mem_append.mp member).elim (one char) (other char)

namespace Spells

theorem blanks_append {tokens : List Token} {blanks text : List Char} (blank : IsBlanks blanks)
    (spelled : Spells tokens text) : Spells tokens (blanks ++ text) := by
  cases spelled with
  | nil more => exact .nil (blank.append more)
  | cons more token rest =>
      rw [← List.append_assoc]
      exact .cons (blank.append more) token rest

theorem append {first second : List Token} {text more : List Char} (spelled : Spells first text)
    (behind : Spells second more) : Spells (first ++ second) (text ++ more) := by
  induction spelled with
  | nil blank => exact blanks_append blank behind
  | cons blank token rest induction =>
      rw [List.append_assoc, List.append_assoc]
      exact .cons blank token induction

theorem single (token : Token) : Spells [token] token.chars := by
  simpa only [List.nil_append, List.append_nil] using cons .nil token (.nil .nil)

/-- A text of two token lists falls into a text of each. -/
theorem split {first second : List Token} {text : List Char}
    (spelled : Spells (first ++ second) text) :
    ∃ front back, text = front ++ back ∧ Spells first front ∧ Spells second back := by
  induction first generalizing text with
  | nil => exact ⟨[], text, rfl, .nil .nil, spelled⟩
  | cons token tokens induction =>
      cases spelled with
      | @cons blanks _ _ blank _ rest =>
          obtain ⟨front, back, rfl, one, other⟩ := induction rest
          exact ⟨blanks ++ (token.chars ++ front), back, by simp only [List.append_assoc],
            .cons blank token one, other⟩

theorem first {token : Token} {tokens : List Token} {text : List Char}
    (spelled : Spells (token :: tokens) text) :
    ∃ blanks rest, text = blanks ++ (token.chars ++ rest) ∧ IsBlanks blanks ∧
      Spells tokens rest := by
  cases spelled with
  | cons blank _ rest => exact ⟨_, _, rfl, blank, rest⟩

theorem only {token : Token} {text : List Char} (spelled : Spells [token] text) :
    ∃ before behind, text = before ++ (token.chars ++ behind) ∧ IsBlanks before ∧
      IsBlanks behind := by
  obtain ⟨before, behind, rfl, blank, rest⟩ := spelled.first
  cases rest with
  | nil blankBehind => exact ⟨before, behind, rfl, blank, blankBehind⟩

/-- Behind the last token there are blanks only. -/
theorem last {tokens : List Token} {token : Token} {text : List Char}
    (spelled : Spells (tokens ++ [token]) text) :
    ∃ front blanks, text = front ++ (token.chars ++ blanks) ∧ Spells tokens front ∧
      IsBlanks blanks := by
  obtain ⟨front, back, rfl, spelledFront, own⟩ := spelled.split
  obtain ⟨before, behind, rfl, blank, blankBehind⟩ := own.only
  refine ⟨front ++ before, behind, (List.append_assoc ..).symm, ?_, blankBehind⟩
  simpa only [List.append_nil] using spelledFront.append (.nil blank)

end Spells

/-! ### Trimming -/

theorem trim_start_of_blanks {blanks : List Char} (blank : IsBlanks blanks) :
    Text.trimStart blanks = [] := by
  have skipped : (blanks ++ []).dropWhile Text.isBlank = [] :=
    List.dropWhile_append_of_pos blank
  rwa [List.append_nil] at skipped

theorem trim_start_before {blanks chars text : List Char} (blank : IsBlanks blanks)
    (visible : IsVisible chars) : Text.trimStart (blanks ++ (chars ++ text)) = chars ++ text := by
  obtain ⟨char, rest, rfl⟩ := List.exists_cons_of_ne_nil visible.1
  unfold Text.trimStart
  rw [List.dropWhile_append_of_pos blank, List.cons_append, List.dropWhile_cons,
    visible.2 char List.mem_cons_self]
  rfl

theorem trim_end_behind {front chars blanks : List Char} (blank : IsBlanks blanks)
    (visible : IsVisible chars) : Text.trimEnd (front ++ (chars ++ blanks)) = front ++ chars := by
  have blankReversed : IsBlanks blanks.reverse := by
    intro char member
    exact blank char (List.mem_reverse.mp member)
  have visibleReversed : IsVisible chars.reverse := by
    refine ⟨List.reverse_ne_nil_iff.mpr visible.1, ?_⟩
    intro char member
    exact visible.2 char (List.mem_reverse.mp member)
  -- The end of a text is trimmed as the start of the reversed one.
  unfold Text.trimEnd
  rw [List.reverse_append, List.reverse_append, List.append_assoc,
    trim_start_before blankReversed visibleReversed, List.reverse_append, List.reverse_reverse,
    List.reverse_reverse]

namespace Spells

theorem trim_between {first last : Token} {tokens : List Token} {text : List Char}
    (spelled : Spells (first :: (tokens ++ [last])) text) :
    ∃ middle, Text.trim text = first.chars ++ (middle ++ last.chars) ∧ Spells tokens middle := by
  obtain ⟨before, rest, rfl, blank, spelledRest⟩ := spelled.first
  obtain ⟨middle, behind, rfl, spelledMiddle, blankBehind⟩ := spelledRest.last
  refine ⟨middle, ?_, spelledMiddle⟩
  rw [Text.trim, trim_start_before blank first.visible, ← List.append_assoc,
    trim_end_behind blankBehind last.visible, List.append_assoc]

theorem trim_only {token : Token} {text : List Char} (spelled : Spells [token] text) :
    Text.trim text = token.chars := by
  obtain ⟨before, behind, rfl, blank, blankBehind⟩ := spelled.only
  rw [Text.trim, trim_start_before blank token.visible]
  exact @trim_end_behind [] _ _ blankBehind token.visible

/-- A trimmed text begins with its first token. -/
theorem trim_first {first : Token} {tokens : List Token} {text : List Char}
    (spelled : Spells (first :: tokens) text) :
    ∃ rest, Text.trim text = first.chars ++ rest ∧ Spells tokens rest := by
  rcases List.eq_nil_or_concat' tokens with rfl | ⟨middle, last, rfl⟩
  · exact ⟨[], spelled.trim_only.trans (List.append_nil _).symm, .nil .nil⟩
  · obtain ⟨between, trimmed, spelledMiddle⟩ := spelled.trim_between
    exact ⟨between ++ last.chars, trimmed, spelledMiddle.append (single last)⟩

/-- A trimmed text ends with its last token. -/
theorem trim_last {tokens : List Token} {last : Token} {text : List Char}
    (spelled : Spells (tokens ++ [last]) text) :
    ∃ front, Text.trim text = front ++ last.chars ∧ Spells tokens front := by
  cases tokens with
  | nil => exact ⟨[], spelled.trim_only, .nil .nil⟩
  | cons first middle =>
      obtain ⟨between, trimmed, spelledMiddle⟩ := spelled.trim_between
      exact ⟨first.chars ++ between, trimmed.trans (List.append_assoc ..).symm,
        .cons .nil first spelledMiddle⟩

theorem trim {tokens : List Token} {text : List Char} (spelled : Spells tokens text) :
    Spells tokens (Text.trim text) := by
  cases tokens with
  | nil =>
      cases spelled with
      | nil blank =>
          rw [Text.trim, trim_start_of_blanks blank]
          exact .nil .nil
  | cons first rest =>
      obtain ⟨behind, trimmed, spelledRest⟩ := spelled.trim_first
      rw [trimmed]
      exact .cons .nil first spelledRest

end Spells

/-! ### Checking a spelling -/

theorem spells_nil_iff (text : List Char) : Spells [] text ↔ text.all Text.isBlank = true := by
  rw [List.all_eq_true]
  constructor
  · rintro ⟨blank⟩
    exact blank
  · exact .nil

/-- The blanks before a token are all that there are. -/
theorem spells_cons_iff (token : Token) (tokens : List Token) (text : List Char) :
    Spells (token :: tokens) text ↔
      token.chars.isPrefixOf (Text.trimStart text) = true ∧
        Spells tokens ((Text.trimStart text).drop token.chars.length) := by
  constructor
  · intro spelled
    obtain ⟨blanks, rest, rfl, blank, spelledRest⟩ := spelled.first
    rw [trim_start_before blank token.visible, List.isPrefixOf_iff_prefix, List.drop_left]
    exact ⟨List.prefix_append .., spelledRest⟩
  · rintro ⟨starts, spelled⟩
    obtain ⟨rest, written⟩ := List.isPrefixOf_iff_prefix.mp starts
    rw [← written, List.drop_left] at spelled
    have whole : text = text.takeWhile Text.isBlank ++ (token.chars ++ rest) := by
      rw [written]
      exact List.takeWhile_append_dropWhile.symm
    rw [whole]
    exact .cons (fun _ => List.mem_takeWhile_imp) token spelled

instance decidableSpells : (tokens : List Token) → (text : List Char) →
    Decidable (Spells tokens text)
  | [], text => decidable_of_iff _ (spells_nil_iff text).symm
  | token :: tokens, text =>
      have := decidableSpells tokens ((Text.trimStart text).drop token.chars.length)
      decidable_of_iff _ (spells_cons_iff token tokens text).symm

/-! ### The nullability mark -/

/-- The tokens without a question mark at the end. -/
def unmarked (tokens : List Token) : List Token :=
  if tokens.getLast? = some .mark then tokens.dropLast else tokens

theorem unmarked_of_mark (tokens : List Token) : unmarked (tokens ++ [.mark]) = tokens := by
  simp [unmarked]

theorem unmarked_of_ne {token : Token} (tokens : List Token) (other : token ≠ .mark) :
    unmarked (tokens ++ [token]) = tokens ++ [token] := by
  simp [unmarked, other]

theorem unmarked_append (front : List Token) {back : List Token} (more : back ≠ []) :
    unmarked (front ++ back) = front ++ unmarked back := by
  obtain ⟨init, last, rfl⟩ := (List.eq_nil_or_concat' back).resolve_left more
  rw [← List.append_assoc]
  rcases eq_or_ne last .mark with rfl | other
  · rw [unmarked_of_mark, unmarked_of_mark]
  · rw [unmarked_of_ne _ other, unmarked_of_ne _ other, List.append_assoc]

theorem Token.ends_in_question_mark (token : Token) (ends : token.chars.getLast? = some '?') :
    token = .mark := by
  cases token with
  | mark => rfl
  | word name =>
      exact absurd rfl (name.ne_of_mark (List.mem_of_getLast? ends) (by decide))
  | _ => exact absurd ends (by decide)

/-- The core of a text is trimmed, and spells the tokens without the mark. -/
theorem core_of_spelled {tokens : List Token} {text : List Char} (some : tokens ≠ [])
    (spelled : Spells tokens text) :
    ∃ inner, core text = Text.trim inner ∧ Spells (unmarked tokens) inner := by
  obtain ⟨init, last, rfl⟩ := (List.eq_nil_or_concat' tokens).resolve_left some
  obtain ⟨front, trimmed, spelledFront⟩ := spelled.trim_last
  rcases eq_or_ne last .mark with rfl | other
  · refine ⟨front, ?_, by rwa [unmarked_of_mark]⟩
    simp [core, withoutMark, trimmed, Token.chars]
  · have kept : (Text.trim text).getLast? ≠ .some '?' := by
      intro ends
      rw [trimmed, List.getLast?_append_of_ne_nil _ last.visible.1] at ends
      exact other (last.ends_in_question_mark ends)
    refine ⟨Text.trim text, ?_, (unmarked_of_ne init other).symm ▸ spelled.trim⟩
    rw [core, withoutMark, if_neg kept]

end ShapeCompat.Erasure
