import Mathlib.Data.List.Nodup

/-!
Lists sorted by a text of each item, as declarations, units, children and defects are. Items of one
text keep their order, so a sorted list is known by its items of each text.
-/

namespace ShapeCompat

def keyLe {Item : Type} (key : Item → String) (first second : Item) : Bool :=
  decide (key first ≤ key second)

def sortedBy {Item : Type} (key : Item → String) (items : List Item) : List Item :=
  items.mergeSort (keyLe key)

section SortedBy

variable {Item : Type} (key : Item → String)

theorem key_le_trans (first second third : Item) (less : keyLe key first second = true)
    (greater : keyLe key second third = true) : keyLe key first third = true := by
  simp only [keyLe, decide_eq_true_eq] at less greater ⊢
  exact String.le_trans less greater

theorem key_le_total (first second : Item) :
    (keyLe key first second || keyLe key second first) = true := by
  simp only [keyLe, Bool.or_eq_true, decide_eq_true_eq]
  exact String.le_total _ _

variable (items : List Item)

theorem sorted_by_perm : (sortedBy key items).Perm items := List.mergeSort_perm _ _

theorem sorted_by_ascending :
    (sortedBy key items).Pairwise fun first second => key first ≤ key second := by
  apply (List.pairwise_mergeSort (key_le_trans key) (key_le_total key) items).imp
  intro first second less
  exact of_decide_eq_true less

/-- Items of one key keep their order. -/
theorem sorted_by_filter_key (text : String) :
    (sortedBy key items).filter (key · == text) = items.filter (key · == text) := by
  have level : (items.filter (key · == text)).Pairwise fun first second =>
      keyLe key first second = true := by
    apply List.pairwise_of_forall_mem_list
    intro first firstMember second secondMember
    have firstKey := (List.mem_filter.mp firstMember).2
    have secondKey := (List.mem_filter.mp secondMember).2
    rw [beq_iff_eq] at firstKey secondKey
    simp [keyLe, firstKey, secondKey]
  have kept := List.sublist_mergeSort (key_le_trans key) (key_le_total key) level
    List.filter_sublist
  have again := kept.filter (key · == text)
  simp only [List.filter_filter, Bool.and_self] at again
  exact (again.eq_of_length ((sorted_by_perm key items).filter _).length_eq.symm).symm

variable {key} {items}

theorem strictly_of_distinct
    (ascending : items.Pairwise fun first second => key first ≤ key second)
    (distinct : (items.map key).Nodup) :
    items.Pairwise fun first second => key first < key second := by
  rw [List.nodup_iff_pairwise_ne, List.pairwise_map] at distinct
  apply (ascending.and distinct).imp
  intro first second both
  apply String.not_le.mp
  intro greater
  exact both.2 (String.le_antisymm both.1 greater)

/-- Two ascending lists are the same when their items of each key are. -/
theorem ascending_ext {others : List Item}
    (ascending : items.Pairwise fun first second => key first ≤ key second)
    (othersAscending : others.Pairwise fun first second => key first ≤ key second)
    (same : ∀ text, items.filter (key · == text) = others.filter (key · == text)) :
    items = others := by
  induction items generalizing others with
  | nil =>
      cases others with
      | nil => rfl
      | cons other rest =>
          have absent := same (key other)
          simp at absent
  | cons item rest induction =>
      cases others with
      | nil =>
          have absent := same (key item)
          simp at absent
      | cons other others =>
          rw [List.pairwise_cons] at ascending othersAscending
          -- Each head is among the items of the other list, so neither key is before the other.
          have itemThere : item ∈ other :: others := by
            apply List.mem_of_mem_filter
            rw [← same (key item)]
            exact List.mem_filter.mpr ⟨List.mem_cons_self, beq_self_eq_true _⟩
          have otherHere : other ∈ item :: rest := by
            apply List.mem_of_mem_filter
            rw [same (key other)]
            exact List.mem_filter.mpr ⟨List.mem_cons_self, beq_self_eq_true _⟩
          have keys : key item = key other := by
            apply String.le_antisymm
            · rcases List.mem_cons.mp otherHere with rfl | later
              · exact String.le_refl _
              · exact ascending.1 other later
            · rcases List.mem_cons.mp itemThere with rfl | later
              · exact String.le_refl _
              · exact othersAscending.1 item later
          have heads := same (key item)
          simp only [List.filter_cons, beq_self_eq_true, keys, if_true, List.cons.injEq] at heads
          obtain ⟨rfl, _⟩ := heads
          congr 1
          apply induction ascending.2 othersAscending.2
          intro text
          have both := same text
          by_cases here : key item = text
          · simpa [List.filter_cons, here] using both
          · simpa [List.filter_cons, here] using both

/-- Leaving out whole keys before or after sorting is the same. -/
theorem sorted_by_filter (key : Item → String) (keep : String → Bool) :
    sortedBy key (items.filter fun item => keep (key item)) =
      (sortedBy key items).filter fun item => keep (key item) := by
  apply ascending_ext (sorted_by_ascending key _) ((sorted_by_ascending key items).filter _)
  intro text
  rw [sorted_by_filter_key, List.filter_comm, List.filter_comm _ _ (sortedBy key items),
    sorted_by_filter_key]

end SortedBy

end ShapeCompat
