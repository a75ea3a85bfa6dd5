/-!
Lists as sets: strictly ascending. Imported names are kept in such a list, and so are the versions
that a shape has an overload for.
-/

namespace ShapeCompat

variable {Item : Type} [LT Item] [DecidableLT Item] [DecidableEq Item]

/-- Adds an item to a strictly ascending list, unless it is there. -/
def insertAscending (item : Item) : List Item → List Item
  | [] => [item]
  | head :: rest =>
      if item < head then item :: head :: rest
      else if item = head then head :: rest
      else head :: insertAscending item rest

/-- The items of a list in ascending order, each once. -/
def ascending (items : List Item) : List Item := items.foldr insertAscending []

theorem mem_insert_ascending {item other : Item} {items : List Item} :
    other ∈ insertAscending item items ↔ other = item ∨ other ∈ items := by
  induction items with
  | nil => simp [insertAscending]
  | cons head rest induction =>
      unfold insertAscending
      split
      · simp
      · split
        · rename_i same
          simp [same]
        · simp only [List.mem_cons, induction]
          exact or_left_comm

theorem mem_ascending {item : Item} {items : List Item} : item ∈ ascending items ↔ item ∈ items := by
  induction items with
  | nil => simp [ascending]
  | cons head rest induction =>
      simp only [ascending, List.foldr_cons, List.mem_cons] at induction ⊢
      rw [mem_insert_ascending, induction]

section Linear

variable [LE Item] [Std.IsLinearOrder Item] [Std.LawfulOrderLT Item]

theorem insert_ascending_strictly {item : Item} {items : List Item}
    (sorted : items.Pairwise (· < ·)) : (insertAscending item items).Pairwise (· < ·) := by
  induction items with
  | nil => exact List.pairwise_singleton _ _
  | cons head rest induction =>
      obtain ⟨first, later⟩ := List.pairwise_cons.mp sorted
      unfold insertAscending
      split
      · rename_i before
        refine List.pairwise_cons.mpr ⟨?_, sorted⟩
        intro other member
        rcases List.mem_cons.mp member with rfl | behind
        · exact before
        · exact Std.lt_trans before (first other behind)
      · rename_i notBefore
        split
        · exact sorted
        · rename_i different
          refine List.pairwise_cons.mpr ⟨?_, induction later⟩
          intro other member
          rcases mem_insert_ascending.mp member with rfl | behind
          · rcases Std.lt_trichotomy other head with before | same | after
            · exact (notBefore before).elim
            · exact (different same).elim
            · exact after
          · exact first other behind

theorem ascending_strictly (items : List Item) : (ascending items).Pairwise (· < ·) := by
  induction items with
  | nil => exact .nil
  | cons head rest induction => exact insert_ascending_strictly induction

end Linear

end ShapeCompat
