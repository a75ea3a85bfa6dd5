import ShapeCompat.Proofs.Erasure.Scanning

/-!
The types of the grammar, the tokens that they are written with, and what their structure says that
is left of them.
-/

namespace ShapeCompat.Erasure

structure DottedName where
  first : Word
  rest : List Word

/-- The types of the grammar. A bare function type has no mark of its own. -/
inductive WrittenType where
  | named (name : DottedName) (args : List WrittenType) (nullable : Bool)
  | parenthesised (inner : WrittenType) (nullable : Bool)
  | function (params : List WrittenType) (result : WrittenType)

def DottedName.tokens (name : DottedName) : List Token :=
  .word name.first :: name.rest.flatMap fun part => [.dot, .word part]

def DottedName.chars (name : DottedName) : List Char :=
  name.first.chars ++ name.rest.flatMap fun part => '.' :: part.chars

def markTokens (nullable : Bool) : List Token := if nullable then [.mark] else []

/-- No brackets are written around no type arguments. -/
def inAngles : List Token → List Token
  | [] => []
  | tokens => .less :: (tokens ++ [.greater])

mutual
def WrittenType.tokens : WrittenType → List Token
  | .named name args nullable =>
      name.tokens ++ inAngles (listTokens args) ++ markTokens nullable
  | .parenthesised inner nullable => .opened :: (inner.tokens ++ [.closed]) ++ markTokens nullable
  | .function params result => .opened :: (listTokens params ++ .closed :: .arrow :: result.tokens)

def listTokens : List WrittenType → List Token
  | [] => []
  | type :: rest => type.tokens ++ furtherTokens rest

/-- The types after the first, each behind a comma. -/
def furtherTokens : List WrittenType → List Token
  | [] => []
  | type :: rest => .comma :: (type.tokens ++ furtherTokens rest)
end

/-- What the structure of a type says that is left of it. -/
def WrittenType.erasure : WrittenType → List Char
  | .named name _ _ => name.chars
  | .parenthesised inner _ => inner.erasure
  | .function params _ =>
      ['F', 'u', 'n', 'c', 't', 'i', 'o', 'n'] ++ Nat.toDigits 10 params.length

theorem tokens_nonempty (type : WrittenType) : type.tokens ≠ [] := by
  cases type <;> simp [WrittenType.tokens, DottedName.tokens]

theorem DottedName.mem_tokens {name : DottedName} {token : Token} (member : token ∈ name.tokens) :
    token = .dot ∨ ∃ part, token = .word part := by
  simp only [tokens, List.mem_cons, List.mem_flatMap, List.not_mem_nil, or_false] at member
  obtain same | ⟨part, -, same | same⟩ := member
  · exact .inr ⟨_, same⟩
  · exact .inl same
  · exact .inr ⟨part, same⟩

/-! ### Brackets -/

theorem DottedName.balanced (name : DottedName) : Balanced name.tokens := by
  refine .cons (by simp) ?_
  induction name.rest with
  | nil => exact .nil
  | cons part rest induction => exact .cons (by decide) (.cons (by simp) induction)

theorem mark_tokens_balanced (nullable : Bool) : Balanced (markTokens nullable) := by
  cases nullable with
  | false => exact .nil
  | true => exact .single (by decide)

theorem Balanced.inAngles {tokens : List Token} (balanced : Balanced tokens) :
    Balanced (inAngles tokens) := by
  cases tokens with
  | nil => exact .nil
  | cons => exact balanced.angled

mutual
theorem tokens_balanced : (type : WrittenType) → Balanced type.tokens
  | .named name args nullable =>
      (name.balanced.append (list_tokens_balanced args).inAngles).append
        (mark_tokens_balanced nullable)
  | .parenthesised inner nullable =>
      (tokens_balanced inner).parenthesised.append (mark_tokens_balanced nullable)
  | .function params result => by
      have behind : Balanced (.arrow :: result.tokens) :=
        .cons (by decide) (tokens_balanced result)
      have whole := (list_tokens_balanced params).parenthesised.append behind
      rw [WrittenType.tokens]
      simpa only [List.cons_append, List.append_assoc, List.nil_append] using whole

theorem list_tokens_balanced : (types : List WrittenType) → Balanced (listTokens types)
  | [] => .nil
  | type :: rest => (tokens_balanced type).append (further_tokens_balanced rest)

theorem further_tokens_balanced : (types : List WrittenType) → Balanced (furtherTokens types)
  | [] => .nil
  | type :: rest =>
      .cons (by decide) ((tokens_balanced type).append (further_tokens_balanced rest))
end

theorem type_depth (type : WrittenType) : type.tokens.foldl Token.bracketDepth 0 = 0 :=
  Nat.le_zero.mp (balanced_depth_le (tokens_balanced type) 0)

end ShapeCompat.Erasure
