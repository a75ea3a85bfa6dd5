import ShapeCompat.Json.Decoding
import ShapeCompat.Proofs.Json.Reading
import Mathlib.Data.List.Basic

/-!
Values with the same canonical text. They agree up to the order of members, so whatever is looked up
by name is the same in both. An encoding whose members can all be looked up is therefore faithful:
its canonical text determines the value that was encoded.
-/

namespace ShapeCompat.Json

section Sorting

/-- A member that is put in its place is found in front of all later ones of its name. -/
theorem lookup_insert_member (member : String × Json) (members : List (String × Json))
    (name : String) :
    (insertMember member members).lookup name = (member :: members).lookup name := by
  induction members with
  | nil => rfl
  | cons head rest induction =>
      unfold insertMember
      split
      · rfl
      · rename_i later
        have different : head.1 ≠ member.1 := by
          intro same
          exact later (same ▸ String.le_refl _)
        rw [List.lookup_cons, induction, List.lookup_cons, List.lookup_cons, List.lookup_cons]
        by_cases here : name = head.1
        · rw [here, beq_self_eq_true, beq_false_of_ne different]
        · rw [beq_false_of_ne here]

theorem lookup_sorted_members (members : List (String × Json)) (name : String) :
    (sortedMembers members).lookup name = (members.lookup name).map sortMembers := by
  induction members with
  | nil => rfl
  | cons member rest induction =>
      obtain ⟨own, value⟩ := member
      rw [sortedMembers, lookup_insert_member, List.lookup_cons, List.lookup_cons, induction]
      cases name == own <;> rfl

theorem sort_items_eq (items : List Json) : sortItems items = items.map sortMembers := by
  induction items with
  | nil => rfl
  | cons item rest induction => rw [sortItems, induction, List.map_cons]

theorem insert_member_exact (member : String × Json) (members : List (String × Json)) :
    MembersExact (insertMember member members) ↔ member.2.IsExact ∧ MembersExact members := by
  induction members with
  | nil => rfl
  | cons head rest induction =>
      unfold insertMember
      split
      · rfl
      · rw [MembersExact, induction, MembersExact, and_left_comm]

mutual
theorem sort_exact : (json : Json) → json.IsExact → json.sortMembers.IsExact
  | .list items, exact => sort_items_exact items exact
  | .record members, exact => sort_members_exact members exact
  | .null, exact | .bool _, exact | .int _, exact | .text _, exact => exact

theorem sort_items_exact : (items : List Json) → ItemsExact items → ItemsExact (sortItems items)
  | [], exact => exact
  | item :: rest, exact => ⟨sort_exact item exact.1, sort_items_exact rest exact.2⟩

theorem sort_members_exact : (members : List (String × Json)) → MembersExact members →
    MembersExact (sortedMembers members)
  | [], exact => exact
  | (_, value) :: rest, exact => (insert_member_exact _ _).mpr
      ⟨sort_exact value exact.1, sort_members_exact rest exact.2⟩
end

/-- The canonical text determines a value up to the order of members. -/
theorem sorted_of_canonical {first second : Json} (firstExact : first.IsExact)
    (secondExact : second.IsExact) (same : first.canonical = second.canonical) :
    first.sortMembers = second.sortMembers :=
  compact_injective (sort_exact first firstExact) (sort_exact second secondExact) same

end Sorting

/-- The first member of a record that has the name. -/
def member? : Json → String → Option Json
  | .record members, name => members.lookup name
  | _, _ => none

theorem sorted_member (json : Json) (name : String) :
    json.sortMembers.member? name = (json.member? name).map sortMembers := by
  cases json with
  | record members => exact lookup_sorted_members members name
  | _ => rfl

/-- The values agree up to the order of members. -/
def Agree (first second : Json) : Prop := first.sortMembers = second.sortMembers

namespace Agree

theorem text {first second : String} : Agree (.text first) (.text second) ↔ first = second := by
  simp [Agree, sortMembers]

theorem bool {first second : Bool} : Agree (.bool first) (.bool second) ↔ first = second := by
  simp [Agree, sortMembers]

theorem int {first second : Int} : Agree (.int first) (.int second) ↔ first = second := by
  simp [Agree, sortMembers]

theorem list {first second : List Json} :
    Agree (.list first) (.list second) ↔ first.map sortMembers = second.map sortMembers := by
  simp [Agree, sortMembers, sort_items_eq]

/-- What is found under a name in one value agrees with what is found in the other. -/
theorem member {first second : Json} (agree : Agree first second) (name : String) :
    (first.member? name).map sortMembers = (second.member? name).map sortMembers := by
  rw [← sorted_member, ← sorted_member, agree]

end Agree

theorem list_exact {Value : Type} {encode : Value → Json}
    (exact : ∀ value, (encode value).IsExact) (values : List Value) :
    (Json.list (values.map encode)).IsExact := by
  induction values with
  | nil => exact trivial
  | cons value rest induction => exact ⟨exact value, induction⟩

/-- An encoding that determines what was encoded, in whatever order its members are. -/
structure Faithful {Value : Type} (encode : Value → Json) : Prop where
  exact : ∀ value, (encode value).IsExact
  same : ∀ first second, Agree (encode first) (encode second) → first = second

namespace Faithful

variable {Value : Type} {encode : Value → Json}

theorem text : Faithful Json.text := ⟨fun _ => trivial, fun _ _ => Agree.text.mp⟩

theorem bool : Faithful Json.bool := ⟨fun _ => trivial, fun _ _ => Agree.bool.mp⟩

theorem list (faithful : Faithful encode) :
    Faithful fun values : List Value => .list (values.map encode) where
  exact := list_exact faithful.exact
  same := by
    intro first second agree
    rw [Agree.list, List.map_map, List.map_map] at agree
    exact List.map_injective_iff.mpr faithful.same agree

theorem uint32 : Faithful fun value : UInt32 => .int value.toNat where
  exact := by
    intro value
    have bound := value.toNat_lt
    change IsWord value.toNat
    unfold IsWord UInt64.size
    omega
  same := by
    intro first second agree
    exact UInt32.toNat_inj.mp (Int.ofNat.inj (Agree.int.mp agree))

/-- An encoding by a name that the value can be read back from. -/
theorem named {name : Value → String} {ofName? : String → Option Value}
    (read : ∀ value, ofName? (name value) = some value) :
    Faithful fun value => .text (name value) where
  exact := fun _ => trivial
  same := by
    intro first second agree
    have names := congrArg ofName? (Agree.text.mp agree)
    rw [read, read] at names
    exact Option.some.inj names

/-- Encoded values that are found under the same name are the same. -/
theorem found (faithful : Faithful encode) {first second : Json} (agree : Agree first second)
    (name : String) {value other : Value} (found : first.member? name = some (encode value))
    (foundOther : second.member? name = some (encode other)) : value = other := by
  have same := agree.member name
  rw [found, foundOther, Option.map_some, Option.map_some, Option.some.injEq] at same
  exact faithful.same _ _ same

variable {Whole : Type} {toJson : Whole → Json} {first second : Whole}

/-- A part that every encoded value has under the same name. -/
theorem part (faithful : Faithful encode) (part : Whole → Value) (name : String)
    (named : ∀ whole, (toJson whole).member? name = some (encode (part whole)))
    (agree : Agree (toJson first) (toJson second)) : part first = part second :=
  faithful.found agree name (named first) (named second)

/-- A part that is left out where there is none. -/
theorem optionalPart (faithful : Faithful encode) (part : Whole → Option Value) (name : String)
    (named : ∀ whole, (toJson whole).member? name = (part whole).map encode)
    (agree : Agree (toJson first) (toJson second)) : part first = part second := by
  have same := agree.member name
  rw [named, named, Option.map_map, Option.map_map] at same
  exact Option.map_injective faithful.same same

end Faithful

section Members

@[simp] theorem lookup_member (name key : String) (value : Json) :
    (Json.member name value).lookup key = if key = name then some value else none := by
  rw [Json.member, List.lookup_cons]
  split <;> simp_all

@[simp] theorem lookup_optional_member {Value : Type} (name key : String)
    (encode : Value → Json) (value : Option Value) :
    (optionalMember name encode value).lookup key =
      if key = name then value.map encode else none := by
  cases value with
  | none => simp [optionalMember]
  | some value => exact lookup_member name key (encode value)

@[simp] theorem members_exact_append (first second : Members) :
    MembersExact (first ++ second) ↔ MembersExact first ∧ MembersExact second := by
  induction first with
  | nil => simp [MembersExact]
  | cons member rest induction =>
      rw [List.cons_append, MembersExact, induction, MembersExact, and_assoc]

@[simp] theorem member_exact (name : String) (value : Json) :
    MembersExact (Json.member name value) ↔ value.IsExact := by
  simp [Json.member, MembersExact]

theorem optional_member_exact {Value : Type} {encode : Value → Json}
    (exact : ∀ value, (encode value).IsExact) (name : String) (value : Option Value) :
    MembersExact (optionalMember name encode value) := by
  cases value with
  | none => exact trivial
  | some value => exact ⟨exact value, trivial⟩

theorem list_member_exact {Value : Type} {encode : Value → Json}
    (exact : ∀ value, (encode value).IsExact) (name : String) (values : List Value) :
    MembersExact (listMember name encode values) :=
  ⟨list_exact exact values, trivial⟩

theorem texts_exact (values : List String) : (Json.texts values).IsExact :=
  list_exact Faithful.text.exact values

theorem texts_member_exact (name : String) (values : List String) :
    MembersExact (textsMember name values) := by
  unfold textsMember
  split
  · exact trivial
  · exact ⟨texts_exact values, trivial⟩

end Members

end ShapeCompat.Json
