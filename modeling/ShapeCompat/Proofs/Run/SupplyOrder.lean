import ShapeCompat.Run
import Mathlib.Data.List.Nodup

/-!
Documents in whatever order they are supplied. The order of paths is total on their components, so
documents whose paths differ in a component have one order only, and a run reads nothing but the
documents in that order.
-/

namespace ShapeCompat

namespace Path

section Parts

variable {first second third : Part}

/-- Components are ordered by rank, and names, which share one, by their text. -/
theorem part_le_iff : first.le second = true ↔
    first.rank < second.rank ∨ first.rank = second.rank ∧ first.text ≤ second.text := by
  cases first <;> cases second <;> simp [Part.le, Part.rank, Part.text]

theorem part_ext (ranks : first.rank = second.rank) (texts : first.text = second.text) :
    first = second := by
  cases first <;> cases second <;> simp_all [Part.rank, Part.text]

theorem part_le_total (first second : Part) : first.le second = true ∨ second.le first = true := by
  simp only [part_le_iff]
  rcases Nat.lt_trichotomy first.rank second.rank with less | same | greater
  · exact .inl (.inl less)
  · rcases String.le_total first.text second.text with before | after
    · exact .inl (.inr ⟨same, before⟩)
    · exact .inr (.inr ⟨same.symm, after⟩)
  · exact .inr (.inl greater)

theorem part_le_antisymm (less : first.le second = true) (greater : second.le first = true) :
    first = second := by
  rw [part_le_iff] at less greater
  rcases less with less | ⟨same, before⟩
  · rcases greater with greater | ⟨same, _⟩
    · omega
    · omega
  · rcases greater with greater | ⟨_, after⟩
    · omega
    · exact part_ext same (String.le_antisymm before after)

theorem part_le_trans (less : first.le second = true) (greater : second.le third = true) :
    first.le third = true := by
  rw [part_le_iff] at less greater ⊢
  rcases less with less | ⟨same, before⟩
  · rcases greater with greater | ⟨_, _⟩
    · exact .inl (Nat.lt_trans less greater)
    · exact .inl (by omega)
  · rcases greater with greater | ⟨sameNext, after⟩
    · exact .inl (by omega)
    · exact .inr ⟨same.trans sameNext, String.le_trans before after⟩

end Parts

section Lists

theorem le_parts_cons (first second : Part) (firsts seconds : List Part) :
    leParts (first :: firsts) (second :: seconds) =
      if first = second then leParts firsts seconds else first.le second := rfl

theorem le_parts_total (first second : List Part) :
    leParts first second = true ∨ leParts second first = true := by
  induction first generalizing second with
  | nil => exact .inl rfl
  | cons part rest induction =>
      cases second with
      | nil => exact .inr rfl
      | cons other others =>
          rw [le_parts_cons, le_parts_cons]
          by_cases same : part = other
          · rw [if_pos same, if_pos same.symm]
            exact induction others
          · rw [if_neg same, if_neg (Ne.symm same)]
            exact part_le_total part other

theorem le_parts_antisymm {first second : List Part} (less : leParts first second = true)
    (greater : leParts second first = true) : first = second := by
  induction first generalizing second with
  | nil =>
      cases second with
      | nil => rfl
      | cons other others => cases greater
  | cons part rest induction =>
      cases second with
      | nil => cases less
      | cons other others =>
          rw [le_parts_cons] at less greater
          by_cases same : part = other
          · rw [if_pos same] at less
            rw [if_pos same.symm] at greater
            rw [same, induction less greater]
          · rw [if_neg same] at less
            rw [if_neg (Ne.symm same)] at greater
            exact (same (part_le_antisymm less greater)).elim

theorem le_parts_trans {first second third : List Part} (less : leParts first second = true)
    (greater : leParts second third = true) : leParts first third = true := by
  induction first generalizing second third with
  | nil => rfl
  | cons part rest induction =>
      cases second with
      | nil => cases less
      | cons other others =>
          cases third with
          | nil => cases greater
          | cons last more =>
              rw [le_parts_cons] at less greater ⊢
              -- The first components agree all along, or some pair of them decides.
              by_cases same : part = other
              · subst same
                rw [if_pos rfl] at less
                by_cases sameNext : part = last
                · rw [if_pos sameNext] at greater ⊢
                  exact induction less greater
                · rw [if_neg sameNext] at greater ⊢
                  exact greater
              · rw [if_neg same] at less
                by_cases sameNext : other = last
                · subst sameNext
                  rw [if_neg same]
                  exact less
                · rw [if_neg sameNext] at greater
                  have different : part ≠ last := by
                    rintro rfl
                    exact same (part_le_antisymm less greater)
                  rw [if_neg different]
                  exact part_le_trans less greater

end Lists

end Path

namespace LoadedDocument

/-- The components of a document's path. -/
def place (document : LoadedDocument) : List Path.Part := Path.parts document.path

variable {documents others : List LoadedDocument}

theorem sorted_perm (documents : List LoadedDocument) : (sorted documents).Perm documents :=
  List.mergeSort_perm _ _

theorem sorted_ascending (documents : List LoadedDocument) :
    (sorted documents).Pairwise fun first second =>
      Path.leParts first.place second.place = true := by
  apply List.pairwise_mergeSort
  · intro first second third less greater
    exact Path.le_parts_trans less greater
  · intro first second
    rw [Bool.or_eq_true]
    exact Path.le_parts_total first.place second.place

/-- Documents at distinct places have one order. -/
theorem sorted_of_perm (distinct : (documents.map place).Nodup)
    (reordered : others.Perm documents) : sorted others = sorted documents := by
  have same := (sorted_perm others).trans (reordered.trans (sorted_perm documents).symm)
  apply same.eq_of_pairwise ?_ (sorted_ascending others) (sorted_ascending documents)
  intro first second member secondMember less greater
  apply List.inj_on_of_nodup_map distinct
  · exact reordered.mem_iff.mp ((sorted_perm others).mem_iff.mp member)
  · exact (sorted_perm documents).mem_iff.mp secondMember
  · exact Path.le_parts_antisymm less greater

end LoadedDocument

/-- A run over documents that are supplied in any order and taken in the order of their paths. -/
def Outcome.ofSupplied (settings : RunSettings) (tool : Tool) (times : RunTimes)
    (documents : List LoadedDocument) : Outcome :=
  Outcome.ofDocuments settings.declarationsDirectory settings.planner tool times
    (LoadedDocument.sorted documents)

/-- Documents whose paths differ in their components give one plan, with every one of them among
its inputs, and one report but for the times of the run, in whatever order they are supplied. -/
theorem supply_order_does_not_show (settings : RunSettings) (tool : Tool)
    (times otherTimes : RunTimes) (documents others : List LoadedDocument)
    (distinct : (documents.map LoadedDocument.place).Nodup)
    (reordered : others.Perm documents) :
    (Outcome.ofSupplied settings tool otherTimes others).plan =
        (Outcome.ofSupplied settings tool times documents).plan ∧
      { (Outcome.ofSupplied settings tool otherTimes others).report with run := times } =
        (Outcome.ofSupplied settings tool times documents).report ∧
      (Outcome.ofSupplied settings tool otherTimes others).plan.inputs.Perm
        (documents.map (PlanInput.ofDocument settings.declarationsDirectory)) := by
  have same := LoadedDocument.sorted_of_perm distinct reordered
  refine ⟨?_, ?_, ?_⟩
  · rw [Outcome.ofSupplied, same]
    rfl
  · rw [Outcome.ofSupplied, same]
    rfl
  · exact ((LoadedDocument.sorted_perm others).trans reordered).map _

def noteDocuments : List LoadedDocument :=
  [⟨"decls/z.json", .ok
      { shapes := [{ name := "NoteDBC", package := "com.acme", kind := .concreteClass }] }⟩,
    ⟨"decls/m/b.json", .error (.json "eof")⟩,
    ⟨"decls/a.json", .ok { shapes := [{ name := "NoteDBC", package := "com.acme" }] }⟩]

/-- One note is a class and one an interface, so it counts which of them comes first. Supplied in
either order the documents give one plan and one report. -/
theorem notes_supplied_either_way :
    (noteDocuments.map LoadedDocument.place).Nodup ∧
      noteDocuments.reverse.Perm noteDocuments ∧
      noteDocuments.reverse.flatMap (·.shapes) ≠ noteDocuments.flatMap (·.shapes) ∧
      (Outcome.ofSupplied ⟨"decls", "out", {}⟩ {} ⟨"2", none⟩ noteDocuments.reverse).plan =
        (Outcome.ofSupplied ⟨"decls", "out", {}⟩ {} ⟨"1", none⟩ noteDocuments).plan ∧
      { (Outcome.ofSupplied ⟨"decls", "out", {}⟩ {} ⟨"2", none⟩ noteDocuments.reverse).report with
          run := ⟨"1", none⟩ } =
        (Outcome.ofSupplied ⟨"decls", "out", {}⟩ {} ⟨"1", none⟩ noteDocuments).report := by
  have distinct : (noteDocuments.map LoadedDocument.place).Nodup := by decide +kernel
  have reordered := List.reverse_perm noteDocuments
  obtain ⟨plans, reports, _⟩ := supply_order_does_not_show ⟨"decls", "out", {}⟩ {} ⟨"1", none⟩
    ⟨"2", none⟩ noteDocuments noteDocuments.reverse distinct reordered
  exact ⟨distinct, reordered, by decide +kernel, plans, reports⟩

end ShapeCompat
