import ShapeCompat.Proofs.Lists
import ShapeCompat.Proofs.Schema.Soundness
import ShapeCompat.Proofs.Sorting

/-!
Repeated declarations. Declarations are taken up by name, and those of one name as they come: the
first of them is checked, every later one is only reported, and the last one's marker is what others
see of the name. The order of the input has no other part in a schema.
-/

namespace ShapeCompat

namespace ShapeDeclaration

/-- The declaration that stands for a name. -/
def first? (declarations : List ShapeDeclaration) (name : String) : Option ShapeDeclaration :=
  declarations.find? (·.qualifiedName == name)

variable {declarations : List ShapeDeclaration} {declaration : ShapeDeclaration} {name : String}

theorem first_name (found : first? declarations name = some declaration) :
    declaration.qualifiedName = name := by
  simpa using List.find?_some found

theorem first_mem (found : first? declarations name = some declaration) :
    declaration ∈ declarations := List.mem_of_find?_eq_some found

theorem first_cons (head : ShapeDeclaration) (rest : List ShapeDeclaration) (name : String) :
    first? (head :: rest) name =
      if head.qualifiedName = name then some head else first? rest name := by
  by_cases here : head.qualifiedName = name
  · simp [first?, here]
  · simp [first?, here]

theorem first_sorted (declarations : List ShapeDeclaration) (name : String) :
    first? (sorted declarations) name = first? declarations name := by
  unfold first?
  rw [← List.head?_filter, ← List.head?_filter]
  exact congrArg List.head? (sorted_by_filter_key (·.qualifiedName) declarations name)

theorem marker_sorted (declarations : List ShapeDeclaration) :
    markerIn? (sorted declarations) = markerIn? declarations := by
  funext name
  unfold markerIn?
  rw [← sorted_by_filter_key (·.qualifiedName) declarations name]
  rfl

theorem sorted_names_perm (declarations : List ShapeDeclaration) :
    ((sorted declarations).map (·.qualifiedName)).Perm (declarations.map (·.qualifiedName)) :=
  (List.mergeSort_perm _ _).map _

/-- A reordering that keeps, of the declarations of each name, the first one and the last marker. -/
structure Reorders (reordered declarations : List ShapeDeclaration) : Prop where
  order : reordered.Perm declarations
  firsts : ∀ name, first? reordered name = first? declarations name
  markers : ∀ name, markerIn? reordered name = markerIn? declarations name

/-- Where no name is repeated every reordering is one. -/
theorem Reorders.of_distinct {reordered : List ShapeDeclaration}
    (order : reordered.Perm declarations)
    (distinct : (declarations.map (·.qualifiedName)).Nodup) : Reorders reordered declarations := by
  have named (name : String) : reordered.filter (·.qualifiedName == name) =
      declarations.filter (·.qualifiedName == name) := by
    have same := order.filter (·.qualifiedName == name)
    have once := filter_key_length_le_one (·.qualifiedName) declarations distinct name
    generalize declarations.filter (·.qualifiedName == name) = few at same once
    match few with
    | [] => exact List.perm_nil.mp same
    | [_] => exact List.perm_singleton.mp same
    | _ :: _ :: _ =>
        simp only [List.length_cons] at once
        omega
  refine ⟨order, ?_, ?_⟩
  · intro name
    rw [first?, first?, ← List.head?_filter, ← List.head?_filter, named]
  · intro name
    rw [markerIn?, markerIn?, named]

/-- Where a name is repeated, its last declaration has the marker of the first one. -/
def MarkersAgree (declarations : List ShapeDeclaration) : Prop :=
  ∀ name, markerIn? declarations name = (first? declarations name).map (·.marker)

theorem MarkersAgree.of_distinct (distinct : (declarations.map (·.qualifiedName)).Nodup) :
    MarkersAgree declarations := by
  intro name
  have once := filter_key_length_le_one (·.qualifiedName) declarations distinct name
  rw [markerIn?, first?, ← List.head?_filter]
  generalize declarations.filter (·.qualifiedName == name) = few at once
  match few with
  | [] => rfl
  | [_] => rfl
  | _ :: _ :: _ =>
      simp only [List.length_cons] at once
      omega

theorem marker_of_first (found : first? declarations name = some declaration) :
    ∃ marker, markerIn? declarations name = some marker := by
  rw [first?, ← List.head?_filter] at found
  unfold markerIn?
  generalize declarations.filter (·.qualifiedName == name) = all at found
  cases all with
  | nil => cases found
  | cons head rest => exact ⟨_, by rw [List.getLast?_eq_some_getLast (List.cons_ne_nil _ _)]; rfl⟩

section CheckAll

variable (settings : Settings) (markerOf : String → Option Marker) (seen : List String)

theorem check_all_cons (declaration : ShapeDeclaration) (rest : List ShapeDeclaration) :
    checkAll settings markerOf seen (declaration :: rest) =
      (if declaration.qualifiedName ∈ seen then
        .error [.structural declaration.qualifiedName .duplicateShape]
      else declaration.check settings markerOf) ::
        checkAll settings markerOf (declaration.qualifiedName :: seen) rest := rfl

variable {settings} {markerOf} {seen}

/-- The first declaration of a name is checked. -/
theorem first_checked (found : first? declarations declaration.qualifiedName = some declaration)
    (new : declaration.qualifiedName ∉ seen) :
    declaration.check settings markerOf ∈ checkAll settings markerOf seen declarations := by
  induction declarations generalizing seen with
  | nil => cases found
  | cons head rest induction =>
      rw [first_cons] at found
      rw [check_all_cons]
      by_cases here : head.qualifiedName = declaration.qualifiedName
      · rw [if_pos here] at found
        cases found
        rw [if_neg new]
        exact List.mem_cons_self
      · rw [if_neg here] at found
        apply List.mem_cons_of_mem
        apply induction found
        intro either
        rcases List.mem_cons.mp either with same | earlier
        · exact here same.symm
        · exact new earlier

/-- Nothing else is: any other outcome is the report of a repetition. -/
theorem check_all_cases {outcome : Except (List Defect) Shape}
    (member : outcome ∈ checkAll settings markerOf seen declarations) :
    (∃ declaration, declaration.qualifiedName ∉ seen ∧
      first? declarations declaration.qualifiedName = some declaration ∧
      declaration.check settings markerOf = outcome) ∨
    ∃ name, outcome = .error [.structural name .duplicateShape] := by
  induction declarations generalizing seen with
  | nil => cases member
  | cons head rest induction =>
      rw [check_all_cons] at member
      rcases List.mem_cons.mp member with here | later
      · by_cases repeated : head.qualifiedName ∈ seen
        · rw [if_pos repeated] at here
          exact .inr ⟨_, here⟩
        · rw [if_neg repeated] at here
          refine .inl ⟨head, repeated, ?_, here.symm⟩
          rw [first_cons, if_pos rfl]
      · rcases induction later with ⟨declaration, new, found, checked⟩ | repetition
        · rw [List.mem_cons, not_or] at new
          refine .inl ⟨declaration, new.2, ?_, checked⟩
          rw [first_cons, if_neg (Ne.symm new.1)]
          exact found
        · exact .inr repetition

/-- What is found depends on the names and on the first declaration of each name only. -/
theorem check_all_same {others : List ShapeDeclaration}
    (names : declarations.map (·.qualifiedName) = others.map (·.qualifiedName))
    (firsts : ∀ name, name ∉ seen → first? declarations name = first? others name) :
    checkAll settings markerOf seen declarations = checkAll settings markerOf seen others := by
  induction declarations generalizing others seen with
  | nil =>
      rw [List.map_nil, eq_comm, List.map_eq_nil_iff] at names
      rw [names]
  | cons head rest induction =>
      cases others with
      | nil => cases names
      | cons other others =>
          rw [List.map_cons, List.map_cons, List.cons.injEq] at names
          rw [check_all_cons, check_all_cons, ← names.1]
          congr 1
          · by_cases repeated : head.qualifiedName ∈ seen
            · rw [if_pos repeated, if_pos repeated]
            · have same := firsts head.qualifiedName repeated
              rw [first_cons, first_cons, if_pos rfl, if_pos names.1.symm] at same
              cases same
              rfl
          · apply induction names.2
            intro name new
            rw [List.mem_cons, not_or] at new
            have same := firsts name new.2
            rw [first_cons, first_cons, if_neg (Ne.symm new.1),
              if_neg (fun again => new.1 (names.1.trans again).symm)] at same
            exact same

end CheckAll

end ShapeDeclaration

namespace Schema

open ShapeDeclaration

variable {declarations : List ShapeDeclaration} {settings : Settings}

/-- The outcomes of all checks, in the order of names. -/
def outcomes (declarations : List ShapeDeclaration) (settings : Settings) :
    List (Except (List Defect) Shape) :=
  checkAll settings (markerIn? declarations) [] (sorted declarations)

theorem of_declarations_eq (declarations : List ShapeDeclaration) (settings : Settings) :
    ofDeclarations declarations settings =
      ⟨(ofShapes (accepted (outcomes declarations settings))).linked,
        (rejected (outcomes declarations settings)).flatten⟩ := by
  simp only [ofDeclarations, outcomes, marker_sorted]

theorem of_declarations_defects (declarations : List ShapeDeclaration) (settings : Settings) :
    (ofDeclarations declarations settings).defects =
      (rejected (outcomes declarations settings)).flatten := by
  rw [of_declarations_eq]

/-- A shape is accepted when the first declaration of its name is sound. -/
theorem mem_accepted_outcomes {shape : Shape} :
    shape ∈ accepted (outcomes declarations settings) ↔
      ∃ declaration, first? declarations declaration.qualifiedName = some declaration ∧
        declaration.check settings (markerIn? declarations) = .ok shape := by
  rw [mem_accepted]
  constructor
  · intro member
    rcases check_all_cases member with ⟨declaration, _, found, checked⟩ | ⟨_, repetition⟩
    · rw [first_sorted] at found
      exact ⟨declaration, found, checked⟩
    · cases repetition
  · intro both
    obtain ⟨declaration, found, checked⟩ := both
    rw [← first_sorted] at found
    rw [← checked]
    exact first_checked found List.not_mem_nil

/-- What is wrong with a schema is wrong with the first declarations of names, repetitions apart. -/
theorem mem_defects {defect : Defect}
    (proper : ∀ name, defect ≠ .structural name .duplicateShape) :
    defect ∈ (ofDeclarations declarations settings).defects ↔
      ∃ declaration defects, first? declarations declaration.qualifiedName = some declaration ∧
        declaration.check settings (markerIn? declarations) = .error defects ∧
          defect ∈ defects := by
  rw [of_declarations_defects, List.mem_flatten]
  constructor
  · intro both
    obtain ⟨defects, member, listed⟩ := both
    rcases check_all_cases (mem_rejected.mp member) with
      ⟨declaration, _, found, checked⟩ | ⟨name, repetition⟩
    · rw [first_sorted] at found
      exact ⟨declaration, defects, found, checked, listed⟩
    · cases repetition
      exact (proper name (List.mem_singleton.mp listed)).elim
  · intro both
    obtain ⟨declaration, defects, found, checked, listed⟩ := both
    rw [← first_sorted] at found
    refine ⟨defects, mem_rejected.mpr ?_, listed⟩
    rw [← checked]
    exact first_checked found List.not_mem_nil

theorem of_declarations_same (settings : Settings) {reordered : List ShapeDeclaration}
    (same : Reorders reordered declarations) :
    ofDeclarations reordered settings = ofDeclarations declarations settings := by
  have names : (sorted reordered).map (·.qualifiedName) =
      (sorted declarations).map (·.qualifiedName) := by
    apply List.Perm.eq_of_pairwise (fun _ _ _ _ => String.le_antisymm)
    · exact List.pairwise_map.mpr (sorted_by_ascending _ reordered)
    · exact List.pairwise_map.mpr (sorted_by_ascending _ declarations)
    · exact ((sorted_names_perm reordered).trans (same.order.map _)).trans
        (sorted_names_perm declarations).symm
  have outcomes : outcomes reordered settings = outcomes declarations settings := by
    unfold Schema.outcomes
    rw [funext same.markers]
    apply check_all_same names
    intro name _
    rw [first_sorted, first_sorted, same.firsts]
  rw [of_declarations_eq, of_declarations_eq, outcomes]

end Schema

end ShapeCompat
