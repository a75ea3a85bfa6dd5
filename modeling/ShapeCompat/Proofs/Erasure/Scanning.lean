import ShapeCompat.Proofs.Erasure.Spelling

/-!
What the scans over a type text do with its tokens. Each scan keeps one counter of open brackets,
and the end of an arrow lowers it as a closing bracket does, so what a scan takes for outside all
brackets are the tokens that it meets with the counter at zero.
-/

namespace ShapeCompat.Erasure

/-- The counter over brackets of both kinds. -/
def Token.bracketDepth (depth : Nat) : Token → Nat
  | .opened | .less => depth + 1
  | .closed | .greater | .arrow => depth - 1
  | _ => depth

/-- The counter over angle brackets alone. -/
def Token.angleDepth (depth : Nat) : Token → Nat
  | .less => depth + 1
  | .greater | .arrow => depth - 1
  | _ => depth

/-- The tokens that are met with the counter at zero. -/
def exposed (count : Nat → Token → Nat) : Nat → List Token → List Token
  | _, [] => []
  | depth, token :: rest =>
      if depth = 0 then token :: exposed count (count depth token) rest
      else exposed count (count depth token) rest

theorem exposed_append (count : Nat → Token → Nat) (depth : Nat) (first second : List Token) :
    exposed count depth (first ++ second) =
      exposed count depth first ++ exposed count (first.foldl count depth) second := by
  induction first generalizing depth with
  | nil => rfl
  | cons token rest induction =>
      simp only [List.cons_append, exposed, List.foldl_cons, induction]
      split <;> rfl

theorem exposed_sublist (count : Nat → Token → Nat) (depth : Nat) (tokens : List Token) :
    (exposed count depth tokens).Sublist tokens := by
  induction tokens generalizing depth with
  | nil => exact List.Sublist.slnil
  | cons token rest induction =>
      rw [exposed]
      split
      · exact (induction _).cons_cons token
      · exact (induction _).cons token

/-- Where nothing opens a bracket, all is exposed. -/
theorem exposed_of_flat {count : Nat → Token → Nat} {tokens : List Token}
    (flat : ∀ token ∈ tokens, count 0 token = 0) :
    exposed count 0 tokens = tokens ∧ tokens.foldl count 0 = 0 := by
  induction tokens with
  | nil => exact ⟨rfl, rfl⟩
  | cons token rest induction =>
      rw [List.forall_mem_cons] at flat
      rw [exposed, if_pos rfl, List.foldl_cons, flat.1, (induction flat.2).1]
      exact ⟨rfl, (induction flat.2).2⟩

/-- No scan looks at such a character. -/
def IsPlain (char : Char) : Prop := char ∉ ['(', ')', '<', '>', ',']

theorem IsBlanks.plain {blanks : List Char} (blank : IsBlanks blanks) :
    ∀ char ∈ blanks, IsPlain char := by
  intro char member mark
  have visible : ∀ mark ∈ ['(', ')', '<', '>', ','], Text.isBlank mark = false := by
    simp [Text.isBlank]
  have blankChar := blank char member
  rw [visible char mark] at blankChar
  cases blankChar

theorem Word.plain_chars (name : Word) : ∀ char ∈ name.chars, IsPlain char := by
  intro char member mark
  have marks : ∀ mark ∈ ['(', ')', '<', '>', ','], isWordChar mark = false := by
    simp [isWordChar, marks]
  exact name.ne_of_mark member (marks char mark) rfl

theorem IsPlain.not_parenthesis {char : Char} (plain : IsPlain char) :
    char ≠ '(' ∧ char ≠ ')' := by
  simp only [IsPlain, List.mem_cons, not_or] at plain
  exact ⟨plain.1, plain.2.1⟩

/-! ### Commas -/

theorem listed_types_plain {char : Char} (plain : IsPlain char) (depth : Nat) (text : List Char) :
    listedTypes depth (char :: text) = listedTypes depth text := by
  simp only [IsPlain, List.mem_cons, List.not_mem_nil, or_false, not_or] at plain
  obtain ⟨opened, closed, less, greater, comma⟩ := plain
  simp only [listedTypes, opened, closed, less, greater, comma, or_self, false_and, if_false]

theorem listed_types_skip {chars : List Char} (plain : ∀ char ∈ chars, IsPlain char)
    (depth : Nat) (text : List Char) :
    listedTypes depth (chars ++ text) = listedTypes depth text := by
  induction chars with
  | nil => rfl
  | cons char chars induction =>
      rw [List.forall_mem_cons] at plain
      rw [List.cons_append, listed_types_plain plain.1, induction plain.2]

theorem listed_types_token (token : Token) (depth : Nat) (text : List Char) :
    listedTypes depth (token.chars ++ text) =
      listedTypes (token.bracketDepth depth) text +
        if depth = 0 ∧ token = .comma then 1 else 0 := by
  cases token with
  | word name => simp [listed_types_skip name.plain_chars, Token.chars, Token.bracketDepth]
  | comma =>
      by_cases outside : depth = 0 <;>
        simp [listedTypes, Token.chars, Token.bracketDepth, outside]
  | _ => simp [listedTypes, Token.chars, Token.bracketDepth]

/-- Every comma that is exposed tells two types apart. -/
theorem listed_types_of_spelled {tokens : List Token} {text : List Char}
    (spelled : Spells tokens text) (depth : Nat) :
    listedTypes depth text = (exposed Token.bracketDepth depth tokens).count .comma + 1 := by
  induction spelled generalizing depth with
  | nil blank => simpa [exposed, listedTypes] using listed_types_skip blank.plain depth []
  | cons blank token rest induction =>
      rw [listed_types_skip blank.plain, listed_types_token, induction, exposed]
      by_cases outside : depth = 0
      · simp only [outside, true_and, if_true, List.count_cons, beq_iff_eq]
        omega
      · simp [outside]

/-! ### Type arguments -/

/-- What is kept of a token outside angle brackets. -/
def Token.kept : Token → List Char
  | .less | .greater => []
  | .arrow => ['-']
  | token => token.chars

theorem without_arguments_plain {chars : List Char} (plain : ∀ char ∈ chars, IsPlain char)
    (depth : Nat) (text : List Char) :
    withoutArguments depth (chars ++ text) =
      (if depth = 0 then chars.filter (!Text.isBlank ·) else []) ++ withoutArguments depth text := by
  induction chars with
  | nil => simp
  | cons char chars induction =>
      rw [List.forall_mem_cons] at plain
      have less : char ≠ '<' := fun same => plain.1 (by simp [same])
      have greater : char ≠ '>' := fun same => plain.1 (by simp [same])
      simp only [List.cons_append, withoutArguments, if_neg less, if_neg greater,
        induction plain.2]
      by_cases outside : depth = 0
      · cases blank : Text.isBlank char <;> simp [outside, blank]
      · simp [outside]

theorem without_arguments_blanks {blanks : List Char} (blank : IsBlanks blanks) (depth : Nat)
    (text : List Char) : withoutArguments depth (blanks ++ text) = withoutArguments depth text := by
  have dropped : blanks.filter (!Text.isBlank ·) = [] := by
    rw [List.filter_eq_nil_iff]
    intro char member
    simp [blank char member]
  rw [without_arguments_plain blank.plain, dropped, ite_self, List.nil_append]

theorem without_arguments_token (token : Token) (depth : Nat) (text : List Char) :
    withoutArguments depth (token.chars ++ text) =
      (if depth = 0 then token.kept else []) ++ withoutArguments (token.angleDepth depth) text := by
  cases token with
  | word name =>
      have kept : name.chars.filter (!Text.isBlank ·) = name.chars := by
        rw [List.filter_eq_self]
        intro char member
        simp [name.not_blank member]
      simp only [Token.chars, Token.kept, Token.angleDepth,
        without_arguments_plain name.plain_chars, kept]
  | _ =>
      by_cases outside : depth = 0 <;>
        simp [withoutArguments, Token.chars, Token.kept, Token.angleDepth, outside,
          Text.isBlank]

/-- What is exposed is kept, but for the angle brackets. -/
theorem without_arguments_of_spelled {tokens : List Token} {text : List Char}
    (spelled : Spells tokens text) (depth : Nat) :
    withoutArguments depth text =
      (exposed Token.angleDepth depth tokens).flatMap Token.kept := by
  induction spelled generalizing depth with
  | nil blank => simpa [exposed, withoutArguments] using without_arguments_blanks blank depth []
  | cons blank token rest induction =>
      rw [without_arguments_blanks blank, without_arguments_token, induction, exposed]
      split <;> simp

/-! ### The closing parenthesis -/

/-- Every bracket is closed by one of its kind. -/
inductive Balanced : List Token → Prop where
  | nil : Balanced []
  | single {token : Token} (plain : token ∉ [.opened, .closed, .less, .greater]) :
      Balanced [token]
  | append {first second : List Token} (one : Balanced first) (other : Balanced second) :
      Balanced (first ++ second)
  | parenthesised {tokens : List Token} (inside : Balanced tokens) :
      Balanced (.opened :: (tokens ++ [.closed]))
  | angled {tokens : List Token} (inside : Balanced tokens) :
      Balanced (.less :: (tokens ++ [.greater]))

theorem Balanced.cons {token : Token} {tokens : List Token}
    (plain : token ∉ [.opened, .closed, .less, .greater]) (rest : Balanced tokens) :
    Balanced (token :: tokens) :=
  (Balanced.single plain).append rest

/-- No bracket is left open, and an arrow closes at most one that was open before. -/
theorem balanced_depth_le {tokens : List Token} (balanced : Balanced tokens) (depth : Nat) :
    tokens.foldl Token.bracketDepth depth ≤ depth := by
  induction balanced generalizing depth with
  | nil => exact Nat.le_refl depth
  | @single token plain =>
      -- Of the tokens that are no bracket only the arrow is counted, and it counts down.
      cases token with
      | opened | less => simp at plain
      | _ => simp [Token.bracketDepth]
  | append one other first second =>
      rw [List.foldl_append]
      exact Nat.le_trans (second _) (first depth)
  | parenthesised inside induction | angled inside induction =>
      have within := induction (depth + 1)
      simp only [List.foldl_cons, List.foldl_append, List.foldl_nil, Token.bracketDepth]
      omega

theorem closing_other {char : Char} (notOpened : char ≠ '(') (notClosed : char ≠ ')')
    (depth : Nat) (rest : List Char) :
    closing? depth (char :: rest) = (closing? depth rest).map (Prod.map (char :: ·) id) := by
  rw [closing?]
  · rfl
  all_goals
    intros
    contradiction

/-- The search for a closing parenthesis goes over the text and finds what it finds behind it. -/
def IsPassed (text : List Char) : Prop :=
  ∀ depth rest,
    closing? depth (text ++ rest) = (closing? depth rest).map (Prod.map (text ++ ·) id)

namespace IsPassed

theorem nil : IsPassed [] := by
  intro depth rest
  exact Option.map_id.symm ▸ rfl

theorem append {first second : List Char} (one : IsPassed first) (other : IsPassed second) :
    IsPassed (first ++ second) := by
  intro depth rest
  rw [List.append_assoc, one, other, Option.map_map, Prod.map_comp_map]
  simp only [Function.comp_def, List.append_assoc]
  rfl

theorem plain {chars : List Char} (other : ∀ char ∈ chars, char ≠ '(' ∧ char ≠ ')') :
    IsPassed chars := by
  induction chars with
  | nil => exact nil
  | cons char chars induction =>
      rw [List.forall_mem_cons] at other
      have head : IsPassed [char] := closing_other other.1.1 other.1.2
      exact head.append (induction other.2)

theorem parenthesised {inside : List Char} (passed : IsPassed inside) :
    IsPassed ('(' :: (inside ++ [')'])) := by
  intro depth rest
  have opened : closing? depth ('(' :: (inside ++ (')' :: rest))) =
      (closing? (depth + 1) (inside ++ (')' :: rest))).map (Prod.map ('(' :: ·) id) := by
    cases depth <;> rfl
  have closed : closing? (depth + 1) (')' :: rest) =
      (closing? depth rest).map (Prod.map (')' :: ·) id) := rfl
  rw [List.cons_append, List.append_assoc, List.singleton_append, opened, passed, closed,
    Option.map_map, Option.map_map, Prod.map_comp_map, Prod.map_comp_map]
  simp only [Function.comp_def, List.cons_append, List.append_assoc, List.nil_append]
  rfl

theorem blanks {blanks : List Char} (blank : IsBlanks blanks) : IsPassed blanks :=
  plain fun char member => (blank.plain char member).not_parenthesis

theorem token {token : Token} (other : token ∉ [.opened, .closed]) : IsPassed token.chars := by
  cases token with
  | word name => exact plain fun char member => (name.plain_chars char member).not_parenthesis
  | opened | closed => simp at other
  | _ => exact plain (by simp [Token.chars])

end IsPassed

/-- A balanced text has no part in the search for a closing parenthesis. -/
theorem balanced_is_passed {tokens : List Token} (balanced : Balanced tokens) {text : List Char}
    (spelled : Spells tokens text) : IsPassed text := by
  induction balanced generalizing text with
  | nil =>
      cases spelled with
      | nil blank => exact .blanks blank
  | @single token plain =>
      obtain ⟨before, behind, rfl, blank, blankBehind⟩ := spelled.only
      have other : token ∉ [.opened, .closed] := by
        simp only [List.mem_cons, not_or] at plain ⊢
        exact ⟨plain.1, plain.2.1, List.not_mem_nil⟩
      exact (IsPassed.blanks blank).append ((IsPassed.token other).append (.blanks blankBehind))
  | append one other first second =>
      obtain ⟨front, back, rfl, spelledFront, spelledBack⟩ := spelled.split
      exact (first spelledFront).append (second spelledBack)
  | parenthesised inside induction =>
      obtain ⟨before, rest, rfl, blank, spelledRest⟩ := spelled.first
      obtain ⟨front, behind, rfl, spelledFront, blankBehind⟩ := spelledRest.last
      have passed := (IsPassed.blanks blank).append
        ((induction spelledFront).parenthesised.append (.blanks blankBehind))
      simpa only [Token.chars, List.cons_append, List.nil_append, List.append_assoc] using passed
  | angled inside induction =>
      obtain ⟨before, rest, rfl, blank, spelledRest⟩ := spelled.first
      obtain ⟨front, behind, rfl, spelledFront, blankBehind⟩ := spelledRest.last
      exact (IsPassed.blanks blank).append ((IsPassed.token (by decide)).append
        ((induction spelledFront).append ((IsPassed.token (by decide)).append
          (.blanks blankBehind))))

end ShapeCompat.Erasure
