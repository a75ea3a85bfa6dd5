import Mathlib.Data.List.Nodup

/-!
Lists as they are used throughout: searched by a key that no two items share, zipped to their keys,
and traversed by steps that do not fail.
-/

namespace ShapeCompat

theorem map_m_ok {Fault Item Value : Type} (evaluate : Item → Except Fault Value)
    (result : Item → Value) (items : List Item)
    (each : ∀ item ∈ items, evaluate item = .ok (result item)) :
    items.mapM evaluate = .ok (items.map result) := by
  induction items with
  | nil => rfl
  | cons item rest induction =>
      rw [List.mapM_cons, each item List.mem_cons_self,
        induction fun other member => each other (List.mem_cons_of_mem _ member)]
      rfl

/-- What returned a value did so in both of its steps. -/
theorem of_bind_ok {Fault Item Value : Type} {step : Except Fault Item}
    {next : Item → Except Fault Value} {value : Value} (returned : step.bind next = .ok value) :
    ∃ item, step = .ok item ∧ next item = .ok value := by
  cases step with
  | error fault => cases returned
  | ok item => exact ⟨item, rfl, returned⟩

/-- Of the items that are kept, the one with a given key is found by it. -/
theorem find_kept_of_distinct {Item Key : Type} [BEq Key] [LawfulBEq Key] (keep : Item → Bool)
    (key : Item → Key) (items : List Item) (distinct : (items.map key).Nodup) {item : Item}
    (member : item ∈ items) (kept : keep item = true) :
    items.find? (fun other => keep other && key other == key item) = some item := by
  cases found : items.find? fun other => keep other && key other == key item with
  | none =>
      have absent := List.find?_eq_none.mp found item member
      simp [kept] at absent
  | some other =>
      have same := List.find?_some found
      simp only [Bool.and_eq_true, beq_iff_eq] at same
      rw [List.inj_on_of_nodup_map distinct (List.mem_of_find?_eq_some found) member same.2]

theorem find_of_distinct {Item Key : Type} [BEq Key] [LawfulBEq Key] (key : Item → Key)
    (items : List Item) (distinct : (items.map key).Nodup) {item : Item} (member : item ∈ items) :
    items.find? (fun other => key other == key item) = some item := by
  simpa only [Bool.true_and] using
    find_kept_of_distinct (fun _ => true) key items distinct member rfl

theorem filter_key_length_le_one {Item Key : Type} [BEq Key] [LawfulBEq Key] (key : Item → Key)
    (items : List Item) (distinct : (items.map key).Nodup) (wanted : Key) :
    (items.filter (key · == wanted)).length ≤ 1 := by
  have once := List.nodup_iff_count_le_one.mp distinct wanted
  rw [List.count, List.countP_map, List.countP_eq_length_filter] at once
  exact once

/-- Of items with distinct keys, the one with a given key is alone with it. -/
theorem filter_key_eq_singleton {Item Key : Type} [BEq Key] [LawfulBEq Key] (key : Item → Key)
    (items : List Item) (distinct : (items.map key).Nodup) {item : Item} (member : item ∈ items) :
    items.filter (key · == key item) = [item] := by
  have listed : item ∈ items.filter (key · == key item) :=
    List.mem_filter.mpr ⟨member, beq_self_eq_true _⟩
  obtain ⟨only, single⟩ := List.length_eq_one_iff.mp (Nat.le_antisymm
    (filter_key_length_le_one key items distinct (key item)) (List.length_pos_of_mem listed))
  rw [single, List.mem_singleton] at listed
  rw [single, listed]

/-- An item shares a value with another one exactly when the value is there more than once. -/
theorem count_map_gt_one_iff {Item Key Value : Type} [BEq Value] [LawfulBEq Value]
    (key : Item → Key) (value : Item → Value) (items : List Item)
    (distinct : (items.map key).Nodup) {item : Item} (member : item ∈ items) :
    1 < (items.map value).count (value item) ↔
      ∃ other ∈ items, key other ≠ key item ∧ value other = value item := by
  obtain ⟨before, after, rfl⟩ := List.mem_iff_append.mp member
  have apart : ∀ other ∈ before ++ after, key other ≠ key item := by
    intro other listed same
    have reordered := (List.perm_middle.map key).nodup_iff.mp distinct
    rw [List.map_cons, List.nodup_cons] at reordered
    exact reordered.1 (same ▸ List.mem_map_of_mem listed)
  have counted : ((before ++ item :: after).map value).count (value item) =
      ((before ++ after).map value).count (value item) + 1 := by
    rw [(List.perm_middle.map value).count_eq, List.map_cons, List.count_cons_self]
  rw [counted, Nat.lt_add_left_iff_pos, List.count_pos_iff, List.mem_map]
  constructor
  · intro found
    obtain ⟨other, listed, same⟩ := found
    exact ⟨other, List.perm_middle.mem_iff.mpr (List.mem_cons_of_mem _ listed),
      apart other listed, same⟩
  · intro found
    obtain ⟨other, listed, different, same⟩ := found
    rcases List.mem_cons.mp (List.perm_middle.mem_iff.mp listed) with rfl | listed
    · exact (different rfl).elim
    · exact ⟨other, listed, same⟩

/-- Leaving out items before a step or their values after it is the same. -/
theorem filter_map_filter {Item Value : Type} (items : List Item) (step : Item → Option Value)
    (keep : Item → Bool) (keepValue : Value → Bool)
    (same : ∀ item value, step item = some value → keepValue value = keep item) :
    (items.filter keep).filterMap step = (items.filterMap step).filter keepValue := by
  rw [List.filter_filterMap, List.filterMap_filter]
  apply List.filterMap_congr
  intro item _
  cases made : step item with
  | none => simp
  | some value => simp [Option.filter, same item value made]

/-- Keys that a step leaves as they are, of the items that it has values for. -/
theorem map_filter_map {Item Value Key : Type} (items : List Item) (step : Item → Option Value)
    (key : Item → Key) (valueKey : Value → Key)
    (same : ∀ item ∈ items, ∀ value, step item = some value → valueKey value = key item) :
    (items.filterMap step).map valueKey =
      (items.filter fun item => (step item).isSome).map key := by
  induction items with
  | nil => rfl
  | cons item rest induction =>
      have later := induction fun other member => same other (List.mem_cons_of_mem _ member)
      cases made : step item with
      | none =>
          rw [List.filterMap_cons_none made, List.filter_cons_of_neg (by simp [made])]
          exact later
      | some value =>
          rw [List.filterMap_cons_some made, List.filter_cons_of_pos (by simp [made]),
            List.map_cons, List.map_cons, later, same item List.mem_cons_self value made]

/-- Where only kept items can match, nothing else needs to be searched. -/
theorem find_filter_of_imp {Item : Type} (items : List Item) (keep test : Item → Bool)
    (imp : ∀ item ∈ items, test item = true → keep item = true) :
    (items.filter keep).find? test = items.find? test := by
  rw [← List.head?_filter, ← List.head?_filter, List.filter_filter]
  congr 1
  apply List.filter_congr
  intro item member
  cases passed : test item with
  | false => rfl
  | true => simp [imp item member passed]

theorem lookup_of_mem {Key Value : Type} [BEq Key] [LawfulBEq Key] (pairs : List (Key × Value))
    (distinct : (pairs.map (·.1)).Nodup) {key : Key} {value : Value}
    (member : (key, value) ∈ pairs) : pairs.lookup key = some value := by
  induction pairs with
  | nil => cases member
  | cons pair rest induction =>
      obtain ⟨other, stored⟩ := pair
      rw [List.map_cons, List.nodup_cons] at distinct
      rcases List.mem_cons.mp member with here | beyond
      · cases here
        exact List.lookup_cons_self
      · have different : key ≠ other := by
          intro same
          subst same
          exact distinct.1 (List.mem_map.mpr ⟨(key, value), beyond, rfl⟩)
        rw [List.lookup_cons, beq_false_of_ne different]
        exact induction distinct.2 beyond

theorem lookup_of_not_mem {Key Value : Type} [BEq Key] [LawfulBEq Key]
    (pairs : List (Key × Value)) {key : Key} (absent : key ∉ pairs.map (·.1)) :
    pairs.lookup key = none := by
  rw [List.lookup_eq_none_iff]
  intro pair member
  apply bne_iff_ne.mpr
  intro same
  subst same
  exact absent (List.mem_map_of_mem member)

/-- Values that are listed beside distinct keys are what these keys find. -/
theorem values_of_zip {Item Key Value : Type} [BEq Key] [LawfulBEq Key] (key : Item → Key)
    (items : List Item) (distinct : (items.map key).Nodup) (values : List Value)
    (lengths : values.length = items.length) (absent : Item → Value) :
    values = items.map fun item =>
      (((items.map key).zip values).lookup (key item)).getD (absent item) := by
  apply List.ext_getElem
  · rw [List.length_map, lengths]
  · intro index valueBound itemBound
    have bound : index < items.length := by omega
    have zipped : (key items[index], values[index]) ∈ (items.map key).zip values := by
      rw [List.mem_iff_getElem]
      exact ⟨index, by simp [lengths, bound], by simp⟩
    have found : ((items.map key).zip values).lookup (key items[index]) = some values[index] := by
      apply lookup_of_mem _ _ zipped
      rw [List.map_fst_zip (by simp [lengths])]
      exact distinct
    rw [List.getElem_map, found, Option.getD_some]

end ShapeCompat
