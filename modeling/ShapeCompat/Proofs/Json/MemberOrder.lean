import ShapeCompat.Proofs.Json.Canonical
import Mathlib.Data.List.Perm.Basic
import Mathlib.Data.List.Nodup

/-!
What the canonical text keeps of a value and what it leaves out. It leaves out the order of members,
at every depth, and nothing else: two values have one canonical text exactly when one is the other
with the members of its records moved about.
-/

namespace ShapeCompat.Json

mutual
/-- The values are equal up to the order of members, at every level. -/
inductive Rearranged : Json → Json → Prop where
  | null : Rearranged .null .null
  | bool (value : Bool) : Rearranged (.bool value) (.bool value)
  | int (value : Int) : Rearranged (.int value) (.int value)
  | text (value : String) : Rearranged (.text value) (.text value)
  | list {items others : List Json} (each : ItemsRearranged items others) :
      Rearranged (.list items) (.list others)
  | record {members moved others : List (String × Json)} (order : members.Perm moved)
      (each : MembersRearranged moved others) : Rearranged (.record members) (.record others)

/-- Item by item, in order. -/
inductive ItemsRearranged : List Json → List Json → Prop where
  | nil : ItemsRearranged [] []
  | cons {item other : Json} {items others : List Json} (head : Rearranged item other)
      (tail : ItemsRearranged items others) : ItemsRearranged (item :: items) (other :: others)

/-- Member by member, in order, under the same names. -/
inductive MembersRearranged : List (String × Json) → List (String × Json) → Prop where
  | nil : MembersRearranged [] []
  | cons {value other : Json} {members others : List (String × Json)} (name : String)
      (head : Rearranged value other) (tail : MembersRearranged members others) :
      MembersRearranged ((name, value) :: members) ((name, other) :: others)
end

mutual
/-- No record, at any level, has two members of one name. -/
def NamesDistinct : Json → Prop
  | .list items => ItemsNamesDistinct items
  | .record members => (members.map (·.1)).Nodup ∧ MembersNamesDistinct members
  | .null | .bool _ | .int _ | .decimal _ | .text _ | .unreadable => True

def ItemsNamesDistinct : List Json → Prop
  | [] => True
  | item :: rest => NamesDistinct item ∧ ItemsNamesDistinct rest

def MembersNamesDistinct : List (String × Json) → Prop
  | [] => True
  | (_, value) :: rest => NamesDistinct value ∧ MembersNamesDistinct rest
end

theorem members_names_distinct_iff {members : List (String × Json)} :
    MembersNamesDistinct members ↔ ∀ member ∈ members, member.2.NamesDistinct := by
  induction members with
  | nil => simp [MembersNamesDistinct]
  | cons member rest induction => rw [MembersNamesDistinct, induction, List.forall_mem_cons]

/-- A member with its value sorted. -/
def sortedMember (member : String × Json) : String × Json := (member.1, member.2.sortMembers)

section Insertion

theorem insert_member_behind {first second : String × Json} (behind : ¬second.1 ≤ first.1)
    (members : List (String × Json)) :
    insertMember first (insertMember second members) =
      insertMember second (insertMember first members) := by
  have before : first.1 ≤ second.1 := (String.le_total _ _).resolve_right behind
  induction members with
  | nil => simp [insertMember, before, behind]
  | cons head rest induction =>
      by_cases firstHere : first.1 ≤ head.1
      · by_cases secondHere : second.1 ≤ head.1
        · simp [insertMember, firstHere, secondHere, before, behind]
        · simp [insertMember, firstHere, secondHere, behind]
      · have secondLater : ¬second.1 ≤ head.1 :=
          fun here => firstHere (String.le_trans before here)
        simp only [insertMember, if_neg firstHere, if_neg secondLater, induction]

/-- Members of different names may be put in their places in either order. -/
theorem insert_member_comm {first second : String × Json} (different : first.1 ≠ second.1)
    (members : List (String × Json)) :
    insertMember first (insertMember second members) =
      insertMember second (insertMember first members) := by
  by_cases before : first.1 ≤ second.1
  · exact insert_member_behind (fun after => different (String.le_antisymm before after)) members
  · exact (insert_member_behind before members).symm

theorem sorted_members_eq (members : List (String × Json)) :
    sortedMembers members = (members.map sortedMember).foldr insertMember [] := by
  induction members with
  | nil => rfl
  | cons member rest induction =>
      rw [sortedMembers, induction, List.map_cons, List.foldr_cons, sortedMember]

theorem insert_member_perm (member : String × Json) (members : List (String × Json)) :
    (insertMember member members).Perm (member :: members) := by
  induction members with
  | nil => rfl
  | cons head rest induction =>
      unfold insertMember
      split
      · rfl
      · exact (induction.cons head).trans (.swap member head rest)

theorem sorted_members_perm (members : List (String × Json)) :
    (sortedMembers members).Perm (members.map sortedMember) := by
  rw [sorted_members_eq]
  induction members.map sortedMember with
  | nil => rfl
  | cons member rest induction =>
      exact (insert_member_perm member _).trans (induction.cons member)

/-- Members of distinct names are sorted the same in whatever order they come. -/
theorem sorted_members_of_perm {members moved : List (String × Json)} (order : members.Perm moved)
    (distinct : (members.map (·.1)).Nodup) : sortedMembers members = sortedMembers moved := by
  rw [sorted_members_eq, sorted_members_eq]
  apply (order.map sortedMember).foldr_eq'
  intro first firstListed second secondListed rest
  obtain ⟨own, ownMember, rfl⟩ := List.mem_map.mp firstListed
  obtain ⟨other, otherMember, rfl⟩ := List.mem_map.mp secondListed
  by_cases same : own.1 = other.1
  · rw [List.inj_on_of_nodup_map distinct ownMember otherMember same]
  · have different : (sortedMember other).1 ≠ (sortedMember own).1 := Ne.symm same
    exact insert_member_comm different rest

end Insertion

mutual
/-- Sorting brings rearranged values into one form. -/
theorem Rearranged.sorted {first second : Json} : Rearranged first second →
    first.NamesDistinct → first.sortMembers = second.sortMembers
  | .null, _ | .bool _, _ | .int _, _ | .text _, _ => rfl
  | .list each, distinct => congrArg Json.list (each.sorted distinct)
  | .record order each, distinct => by
      have inside := members_names_distinct_iff.mp distinct.2
      have movedInside : MembersNamesDistinct _ := members_names_distinct_iff.mpr
        fun member listed => inside member (order.mem_iff.mpr listed)
      rw [sortMembers, sortMembers, sorted_members_of_perm order distinct.1, sorted_members_eq,
        each.sorted movedInside, ← sorted_members_eq]

theorem ItemsRearranged.sorted {items others : List Json} : ItemsRearranged items others →
    ItemsNamesDistinct items → sortItems items = sortItems others
  | .nil, _ => rfl
  | .cons head tail, distinct => by
      rw [sortItems, sortItems, head.sorted distinct.1, tail.sorted distinct.2]

theorem MembersRearranged.sorted {members others : List (String × Json)} :
    MembersRearranged members others → MembersNamesDistinct members →
    members.map sortedMember = others.map sortedMember
  | .nil, _ => rfl
  | .cons name head tail, distinct => by
      rw [List.map_cons, List.map_cons, sortedMember, sortedMember, head.sorted distinct.1,
        tail.sorted distinct.2]
end

theorem MembersRearranged.names {members others : List (String × Json)} :
    MembersRearranged members others → members.map (·.1) = others.map (·.1)
  | .nil => rfl
  | .cons name _ tail => congrArg (name :: ·) tail.names

/-- A member counts by its name already, so one that is null is not as good as none. -/
theorem Rearranged.member_names {members others : List (String × Json)}
    (rearranged : Rearranged (.record members) (.record others)) :
    (members.map (·.1)).Perm (others.map (·.1)) := by
  cases rearranged with
  | record order each =>
      rw [← each.names]
      exact order.map _

/-- Members whose values are rearranged wherever they sort to the same, in the same order. -/
theorem members_rearranged_of_sorted {moved others : List (String × Json)}
    (inside : ∀ member ∈ moved, ∀ other, member.2.sortMembers = other.sortMembers →
      Rearranged member.2 other)
    (same : moved.map sortedMember = others.map sortedMember) : MembersRearranged moved others := by
  induction moved generalizing others with
  | nil =>
      rw [List.map_nil, eq_comm, List.map_eq_nil_iff] at same
      subst same
      exact .nil
  | cons member rest induction =>
      cases others with
      | nil => simp at same
      | cons other others =>
          obtain ⟨name, value⟩ := member
          obtain ⟨otherName, otherValue⟩ := other
          rw [List.map_cons, List.map_cons, List.cons.injEq, sortedMember, sortedMember,
            Prod.mk.injEq] at same
          obtain ⟨⟨rfl, values⟩, tail⟩ := same
          exact .cons _ (inside _ List.mem_cons_self _ values)
            (induction (fun later listed => inside later (List.mem_cons_of_mem _ listed)) tail)

mutual
/-- Values that sort to the same are rearrangements of each other. -/
theorem rearranged_of_sorted : (first second : Json) → first.IsExact →
    first.sortMembers = second.sortMembers → Rearranged first second
  | .null, second, _, same => by
      cases second with
      | null => exact .null
      | _ => cases same
  | .bool value, second, _, same => by
      cases second with
      | bool other =>
          cases same
          exact .bool value
      | _ => cases same
  | .int value, second, _, same => by
      cases second with
      | int other =>
          cases same
          exact .int value
      | _ => cases same
  | .text value, second, _, same => by
      cases second with
      | text other =>
          cases same
          exact .text value
      | _ => cases same
  | .list items, second, exact, same => by
      cases second with
      | list others => exact .list (items_rearranged_of_sorted items others exact (list.inj same))
      | _ => cases same
  | .record members, second, exact, same => by
      cases second with
      | record others =>
          have inside := inside_rearranged_of_sorted members exact
          have listed : (others.map sortedMember).Perm (members.map sortedMember) := by
            have sorted := sorted_members_perm others
            rw [← record.inj same] at sorted
            exact sorted.symm.trans (sorted_members_perm members)
          -- The members can be moved themselves, since their values need not be sorted for it.
          obtain ⟨moved, values, order⟩ :=
            (congrFun₂ (List.eq_map_comp_perm sortedMember) _ _).mpr listed
          refine .record order.symm (members_rearranged_of_sorted ?_ values.symm)
          intro member there
          exact inside member (order.mem_iff.mp there)
      | _ => cases same

theorem items_rearranged_of_sorted : (items others : List Json) → ItemsExact items →
    sortItems items = sortItems others → ItemsRearranged items others
  | [], [], _, _ => .nil
  | [], _ :: _, _, same => by cases same
  | _ :: _, [], _, same => by cases same
  | item :: items, other :: others, exact, same =>
      .cons (rearranged_of_sorted item other exact.1 (List.cons.inj same).1)
        (items_rearranged_of_sorted items others exact.2 (List.cons.inj same).2)

theorem inside_rearranged_of_sorted : (members : List (String × Json)) → MembersExact members →
    ∀ member ∈ members, ∀ other, member.2.sortMembers = other.sortMembers →
      Rearranged member.2 other
  | [], _, _, listed => by cases listed
  | (_, value) :: rest, exact, member, listed => by
      intro other same
      rcases List.mem_cons.mp listed with rfl | later
      · exact rearranged_of_sorted value other exact.1 same
      · exact inside_rearranged_of_sorted rest exact.2 member later other same
end

/-- Two values have one canonical text exactly when they are equal up to the order of members. -/
theorem canonical_text_leaves_out_member_order (first second : Json) (firstExact : first.IsExact)
    (secondExact : second.IsExact) (distinct : first.NamesDistinct) :
    first.canonical = second.canonical ↔ Rearranged first second := by
  constructor
  · intro same
    exact rearranged_of_sorted first second firstExact
      (sorted_of_canonical firstExact secondExact same)
  · intro rearranged
    exact congrArg compact (rearranged.sorted distinct)

def sentCard : Json := .record [
  ("tags", .list [.text "new\x01", .int (-3)]),
  ("name", .record [("last", .null), ("first", .text "é\n")])]

def storedCard : Json := .record [
  ("name", .record [("first", .text "é\n"), ("last", .null)]),
  ("tags", .list [.text "new\x01", .int (-3)])]

/-- The two cards differ in the order of members alone, on two levels; a name without its last part
is another one than a name whose last part is null. -/
theorem stored_card_keeps_text :
    sentCard.NamesDistinct ∧ sentCard.canonical = storedCard.canonical ∧
      (Json.record [("last", .null), ("first", .text "é\n")]).canonical ≠
        (Json.record [("first", .text "é\n")]).canonical := by
  have sentExact : sentCard.IsExact :=
    ⟨⟨trivial, by unfold IsExact IsWord; decide, trivial⟩, ⟨trivial, trivial, trivial⟩, trivial⟩
  have storedExact : storedCard.IsExact :=
    ⟨⟨trivial, trivial, trivial⟩, ⟨trivial, by unfold IsExact IsWord; decide, trivial⟩, trivial⟩
  have distinct : sentCard.NamesDistinct :=
    ⟨by decide, ⟨trivial, trivial, trivial⟩, ⟨by decide, trivial, trivial, trivial⟩, trivial⟩
  have name : Rearranged (.record [("last", .null), ("first", .text "é\n")])
      (.record [("first", .text "é\n"), ("last", .null)]) :=
    .record (.swap _ _ _) (.cons _ (.text _) (.cons _ .null .nil))
  have tags : Rearranged (.list [.text "new\x01", .int (-3)]) (.list [.text "new\x01", .int (-3)]) :=
    .list (.cons (.text _) (.cons (.int _) .nil))
  refine ⟨distinct, ?_, ?_⟩
  · apply (canonical_text_leaves_out_member_order _ _ sentExact storedExact distinct).mpr
    exact .record (.swap _ _ _) (.cons _ name (.cons _ tags .nil))
  · intro same
    have absent : (Json.record [("first", .text "é\n")]).IsExact := ⟨trivial, trivial⟩
    have present : (Json.record [("last", .null), ("first", .text "é\n")]).IsExact :=
      ⟨trivial, trivial, trivial⟩
    have apart : (Json.record [("last", .null), ("first", .text "é\n")]).NamesDistinct :=
      ⟨by decide, trivial, trivial, trivial⟩
    have rearranged :=
      (canonical_text_leaves_out_member_order _ _ present absent apart).mp same
    have lengths := rearranged.member_names.length_eq
    simp at lengths

end ShapeCompat.Json
