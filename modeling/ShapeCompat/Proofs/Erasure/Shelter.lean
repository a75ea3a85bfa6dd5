import ShapeCompat.Proofs.Erasure.Types

/-!
Types whose open brackets are counted far enough that no arrow in them shows a scan what it has to
pass over.
-/

namespace ShapeCompat.Erasure

/-- Although an arrow counts as a closing bracket, what is counted as open hides the type arguments
of a name but for their angle brackets, and the commas inside the parameters of a function. -/
def WrittenType.Sheltered : WrittenType → Prop
  | .named _ args _ =>
      ∀ token ∈ exposed Token.angleDepth 1 (listTokens args), token = .less ∨ token = .greater
  | .parenthesised inner _ => inner.Sheltered
  | .function params _ =>
      ∀ param ∈ params, .comma ∉ exposed Token.bracketDepth 0 param.tokens

instance decidableSheltered : (type : WrittenType) → Decidable type.Sheltered
  | .named _ args _ => inferInstanceAs (Decidable (∀ token ∈ exposed _ 1 (listTokens args), _))
  | .parenthesised inner _ => decidableSheltered inner
  | .function params _ => inferInstanceAs (Decidable (∀ param ∈ params, _ ∉ exposed _ 0 _))

/-- Without arrows the counters are right: inside brackets nothing is exposed. -/
theorem hidden_of_balanced {count : Nat → Token → Nat}
    (scan : count = Token.bracketDepth ∨ count = Token.angleDepth) {tokens : List Token}
    (balanced : Balanced tokens) (noArrow : .arrow ∉ tokens) (depth : Nat) :
    exposed count (depth + 1) tokens = [] ∧ tokens.foldl count (depth + 1) = depth + 1 := by
  induction balanced generalizing depth with
  | nil => exact ⟨rfl, rfl⟩
  | @single token plain =>
      cases token with
      | opened | closed | less | greater => simp at plain
      | arrow => simp at noArrow
      | _ => rcases scan with rfl | rfl <;> exact ⟨rfl, rfl⟩
  | append one other first second =>
      rw [List.mem_append, not_or] at noArrow
      obtain ⟨hidden, kept⟩ := first noArrow.1 depth
      obtain ⟨hiddenBehind, keptBehind⟩ := second noArrow.2 depth
      rw [exposed_append, List.foldl_append, kept, hidden, hiddenBehind]
      exact ⟨rfl, keptBehind⟩
  | parenthesised inside induction | angled inside induction =>
      simp only [List.mem_cons, List.mem_append, not_or] at noArrow
      have within := induction noArrow.2.1
      rcases scan with rfl | rfl <;>
        simp [exposed, exposed_append, Token.bracketDepth, Token.angleDepth, within]

/-! ### Types of the second order -/

/-- No type argument and no parameter of the type is written with an arrow. -/
def WrittenType.FirstOrder : WrittenType → Prop
  | .named _ args _ => .arrow ∉ listTokens args
  | .parenthesised inner _ => inner.FirstOrder
  | .function params result => .arrow ∉ listTokens params ∧ result.FirstOrder

/-- However deep it stands, no comma of the text is exposed. -/
def HidesCommas (tokens : List Token) : Prop :=
  ∀ depth, .comma ∉ exposed Token.bracketDepth depth tokens

namespace HidesCommas

theorem of_not_mem {tokens : List Token} (absent : .comma ∉ tokens) : HidesCommas tokens := by
  intro depth member
  exact absent ((exposed_sublist _ depth tokens).mem member)

theorem append {first second : List Token} (one : HidesCommas first)
    (other : HidesCommas second) : HidesCommas (first ++ second) := by
  intro depth
  rw [exposed_append, List.mem_append, not_or]
  exact ⟨one depth, other _⟩

theorem behind {opening : Token} (opens : opening = .opened ∨ opening = .less)
    {tokens : List Token} (balanced : Balanced tokens) (noArrow : .arrow ∉ tokens) :
    HidesCommas (opening :: tokens) := by
  intro depth
  have hidden := (hidden_of_balanced (.inl rfl) balanced noArrow depth).1
  rcases opens with rfl | rfl <;> simp [exposed, Token.bracketDepth, hidden]

theorem inAngles {tokens : List Token} (balanced : Balanced tokens) (noArrow : .arrow ∉ tokens) :
    HidesCommas (inAngles tokens) := by
  cases tokens with
  | nil => exact of_not_mem List.not_mem_nil
  | cons token rest => exact (behind (.inr rfl) balanced noArrow).append (of_not_mem (by decide))

end HidesCommas

theorem mark_tokens_hide (nullable : Bool) : HidesCommas (markTokens nullable) := by
  cases nullable <;> exact .of_not_mem (by decide)

theorem first_order_hides : (type : WrittenType) → type.FirstOrder → HidesCommas type.tokens
  | .named name args nullable, noArrow => by
      have names : .comma ∉ name.tokens := by
        intro member
        obtain same | ⟨part, same⟩ := DottedName.mem_tokens member <;> cases same
      exact ((HidesCommas.of_not_mem names).append
        (.inAngles (list_tokens_balanced args) noArrow)).append (mark_tokens_hide nullable)
  | .parenthesised inner nullable, order => by
      have inside := first_order_hides inner order
      have opening : HidesCommas [.opened] := .of_not_mem (by decide)
      have closing : HidesCommas [.closed] := .of_not_mem (by decide)
      exact (opening.append (inside.append closing)).append (mark_tokens_hide nullable)
  | .function params result, order => by
      -- The arrow may lower the counter, but the result hides its commas at any depth.
      have before := HidesCommas.behind (.inl rfl) (list_tokens_balanced params) order.1
      have between : HidesCommas [.closed, .arrow] := .of_not_mem (by decide)
      exact before.append (between.append (first_order_hides result order.2))

/-- No type argument is written with an arrow, and functions that are taken take none. -/
def WrittenType.SecondOrder : WrittenType → Prop
  | .named _ args _ => .arrow ∉ listTokens args
  | .parenthesised inner _ => inner.SecondOrder
  | .function params _ => ∀ param ∈ params, param.FirstOrder

theorem second_order_sheltered : (type : WrittenType) → type.SecondOrder → type.Sheltered
  | .named _ args _, noArrow => by
      intro token member
      rw [(hidden_of_balanced (.inr rfl) (list_tokens_balanced args) noArrow 0).1] at member
      cases member
  | .parenthesised inner _, order => second_order_sheltered inner order
  | .function _ _, order => fun param member => first_order_hides param (order param member) 0

end ShapeCompat.Erasure
