import ShapeCompat.Proofs.Assembly.Accounting
import ShapeCompat.Proofs.Lists

/-!
Leaving a name out. Where no other declaration has it as parent, and no declaration of it takes part
in a collision of output names, every stage finds for the remaining declarations what it finds for
all of them, less what is found under the name.
-/

namespace ShapeCompat

section Outcomes

variable {Item Fault Value : Type} {outcome : Item → Except Fault Value} {keep : Item → Bool}

/-- Items may be left out before they are tried, or their values afterwards. -/
theorem accepted_filter {keepValue : Value → Bool}
    (same : ∀ item value, outcome item = .ok value → keepValue value = keep item)
    (items : List Item) :
    accepted ((items.filter keep).map outcome) =
      (accepted (items.map outcome)).filter keepValue := by
  unfold accepted
  rw [List.filterMap_map, List.filterMap_map]
  apply filter_map_filter
  intro item value made
  cases tried : outcome item with
  | error fault =>
      rw [Function.comp_apply, tried] at made
      cases made
  | ok other =>
      rw [Function.comp_apply, tried] at made
      cases made
      exact same item _ tried

theorem rejected_filter {keepFault : Fault → Bool}
    (same : ∀ item fault, outcome item = .error fault → keepFault fault = keep item)
    (items : List Item) :
    rejected ((items.filter keep).map outcome) =
      (rejected (items.map outcome)).filter keepFault := by
  unfold rejected
  rw [List.filterMap_map, List.filterMap_map]
  apply filter_map_filter
  intro item fault failed
  cases tried : outcome item with
  | ok value =>
      rw [Function.comp_apply, tried] at failed
      cases failed
  | error other =>
      rw [Function.comp_apply, tried] at failed
      cases failed
      exact same item _ tried

end Outcomes

namespace ShapeDeclaration

/-- The declarations of all other names. -/
def without (name : String) (declarations : List ShapeDeclaration) : List ShapeDeclaration :=
  declarations.filter (·.qualifiedName != name)

/-- No declaration of another name is enclosed in this one. -/
def Unreferenced (name : String) (declarations : List ShapeDeclaration) : Prop :=
  ∀ declaration ∈ declarations, declaration.qualifiedName ≠ name → declaration.parent ≠ some name

variable {name : String} {declarations : List ShapeDeclaration} {declaration : ShapeDeclaration}
  {settings : Settings} {markerOf otherMarkers : String → Option Marker}

/-- Of other declarations a check sees the marker of the enclosing one only. -/
theorem check_same_markers (settings : Settings)
    (same : ∀ enclosing, declaration.parent = some enclosing →
      otherMarkers enclosing = markerOf enclosing) :
    declaration.check settings otherMarkers = declaration.check settings markerOf := by
  have faults : declaration.structuralFault? settings otherMarkers =
      declaration.structuralFault? settings markerOf := by
    unfold structuralFault?
    cases enclosed : declaration.parent with
    | none => rfl
    | some enclosing => simp only [same enclosing enclosed]
  unfold check
  rw [faults]

theorem marker_without {other : String} (different : other ≠ name) :
    markerIn? (without name declarations) other = markerIn? declarations other := by
  unfold markerIn? without
  rw [List.filter_filter]
  congr 2
  apply List.filter_congr
  intro declaration _
  by_cases here : declaration.qualifiedName = other
  · simp [here, different]
  · simp [here]

/-- An outcome that is all about one name. -/
def Owned (name : String) (outcome : Except (List Defect) Shape) : Prop :=
  (∀ shape, outcome = .ok shape → shape.declaredQualifiedName = name) ∧
    ∀ defects, outcome = .error defects → ∀ defect ∈ defects, defect.shape = name

theorem outcome_owned (declaration : ShapeDeclaration) (settings : Settings)
    (markerOf : String → Option Marker) (seen : List String) :
    Owned declaration.qualifiedName
      (if declaration.qualifiedName ∈ seen then
        .error [.structural declaration.qualifiedName .duplicateShape]
      else declaration.check settings markerOf) := by
  by_cases repeated : declaration.qualifiedName ∈ seen
  · rw [if_pos repeated]
    constructor
    · intro _ made
      cases made
    · intro _ failed defect member
      cases failed
      rw [List.mem_singleton.mp member]
      rfl
  · rw [if_neg repeated]
    exact ⟨fun _ => check_ok_name,
      fun _ failed defect member => ((check_error failed).2 defect member).1⟩

/-- The outcomes `others` are those of `outcomes` less what is found under a name. -/
structure Omits (name : String) (others outcomes : List (Except (List Defect) Shape)) : Prop where
  shapes : accepted others = (accepted outcomes).filter (·.declaredQualifiedName != name)
  defects : (rejected others).flatten = (rejected outcomes).flatten.filter (·.shape != name)

section Omits

variable {others outcomes : List (Except (List Defect) Shape)}
  {outcome : Except (List Defect) Shape}

theorem Omits.own (rest : Omits name others outcomes) (owned : Owned name outcome) :
    Omits name others (outcome :: outcomes) := by
  cases outcome with
  | ok shape =>
      have here := owned.1 shape rfl
      constructor
      · rw [accepted_cons_ok, List.filter_cons_of_neg (by simp [here])]
        exact rest.shapes
      · exact rest.defects
  | error defects =>
      have none : defects.filter (·.shape != name) = [] := by
        rw [List.filter_eq_nil_iff]
        intro defect member
        simp [owned.2 defects rfl defect member]
      constructor
      · exact rest.shapes
      · rw [rejected_cons_error, List.flatten_cons, List.filter_append, none]
        exact rest.defects

theorem Omits.other {other : String} (rest : Omits name others outcomes)
    (owned : Owned other outcome) (different : other ≠ name) :
    Omits name (outcome :: others) (outcome :: outcomes) := by
  cases outcome with
  | ok shape =>
      have there := owned.1 shape rfl
      constructor
      · rw [accepted_cons_ok, accepted_cons_ok,
          List.filter_cons_of_pos (by simp [there, different]), rest.shapes]
      · exact rest.defects
  | error defects =>
      have all : defects.filter (·.shape != name) = defects := by
        rw [List.filter_eq_self]
        intro defect member
        simp [owned.2 defects rfl defect member, different]
      constructor
      · exact rest.shapes
      · rw [rejected_cons_error, rejected_cons_error, List.flatten_cons, List.flatten_cons,
          List.filter_append, all, rest.defects]

end Omits

/-- On the way through the declarations the names seen may differ in the one that is left out. -/
theorem check_all_without {seen others : List String}
    (sameSeen : ∀ other, other ≠ name → (other ∈ others ↔ other ∈ seen))
    (sameMarkers : ∀ other, other ≠ name → otherMarkers other = markerOf other)
    (free : Unreferenced name declarations) :
    Omits name (checkAll settings otherMarkers others (without name declarations))
      (checkAll settings markerOf seen declarations) := by
  induction declarations generalizing seen others with
  | nil => exact ⟨rfl, rfl⟩
  | cons declaration rest induction =>
      have restFree : Unreferenced name rest := fun other member =>
        free other (List.mem_cons_of_mem _ member)
      have owned := outcome_owned declaration settings markerOf seen
      rw [check_all_cons settings markerOf]
      by_cases here : declaration.qualifiedName = name
      · have left : without name (declaration :: rest) = without name rest := by
          simp [without, here]
        have sameLater (other : String) (different : other ≠ name) :
            other ∈ others ↔ other ∈ declaration.qualifiedName :: seen := by
          rw [sameSeen other different, List.mem_cons, here]
          exact ⟨.inr, fun either => either.resolve_left different⟩
        rw [left]
        exact (induction sameLater restFree).own (here ▸ owned)
      · have left : without name (declaration :: rest) = declaration :: without name rest := by
          simp [without, here]
        have sameLater (other : String) (different : other ≠ name) :
            other ∈ declaration.qualifiedName :: others ↔
              other ∈ declaration.qualifiedName :: seen := by
          rw [List.mem_cons, List.mem_cons, sameSeen other different]
        have same := check_same_markers settings fun enclosing enclosed =>
          sameMarkers enclosing fun own =>
            free declaration List.mem_cons_self here (own ▸ enclosed)
        rw [left, check_all_cons, same]
        simp only [sameSeen _ here]
        exact (induction sameLater restFree).other owned here

end ShapeDeclaration

namespace Assembly

open ShapeDeclaration

section Claims

variable {name : String} {planned : List PlannedShape} {shape : PlannedShape}

theorem claimed_name_without (apart : shape.parent ≠ some name) :
    shape.claimedName (planned.filter (·.declaredName != name)) = shape.claimedName planned := by
  unfold PlannedShape.claimedName
  cases enclosed : shape.parent with
  | none => rfl
  | some parent =>
      have others : ∀ outer ∈ planned, (outer.declaredName == parent) = true →
          (outer.declaredName != name) = true := by
        intro outer _ here
        rw [beq_iff_eq] at here
        rw [bne_iff_ne, here]
        intro same
        exact apart (enclosed.trans (congrArg some same))
      simp only [find_filter_of_imp planned _ _ others]

theorem with_claims_without
    (free : ∀ shape ∈ planned, shape.declaredName ≠ name → shape.parent ≠ some name) :
    withClaims (planned.filter (·.declaredName != name)) =
      (withClaims planned).filter (·.1.declaredName != name) := by
  unfold withClaims
  rw [List.filter_map]
  apply List.map_congr_left
  intro shape member
  obtain ⟨listed, other⟩ := List.mem_filter.mp member
  rw [claimed_name_without (free shape listed (bne_iff_ne.mp other))]

theorem claims_split (claims : List (PlannedShape × String)) (keep : PlannedShape × String → Bool)
    (claimed : String) :
    (claims.map (·.2)).count claimed = ((claims.filter keep).map (·.2)).count claimed +
      ((claims.filter fun claim => !keep claim).map (·.2)).count claimed := by
  rw [← List.count_append, ← List.map_append]
  exact (((List.filter_append_perm keep claims).map _).count_eq claimed).symm

/-- A claim is contested by the others when it is contested at all, since the shapes of the name
claim nothing that is claimed twice. -/
theorem contested_without
    (alone : ∀ collision ∈ collisions planned, collision.shape ≠ name)
    {claim : PlannedShape × String} (member : claim ∈ withClaims planned)
    (other : claim.1.declaredName ≠ name) :
    isContested (((withClaims planned).filter (·.1.declaredName != name)).map (·.2)) claim.2 =
      isContested ((withClaims planned).map (·.2)) claim.2 := by
  have split := claims_split (withClaims planned) (·.1.declaredName != name) claim.2
  have here : 0 < (((withClaims planned).filter (·.1.declaredName != name)).map
      (·.2)).count claim.2 :=
    List.count_pos_iff.mpr (List.mem_map_of_mem (List.mem_filter.mpr ⟨member, by simpa⟩))
  have absent : (((withClaims planned).filter fun other =>
      !(other.1.declaredName != name)).map (·.2)).count claim.2 = 0 := by
    apply List.count_eq_zero.mpr
    intro again
    have there := List.count_pos_iff.mpr again
    obtain ⟨rival, listed, same⟩ := List.mem_map.mp again
    obtain ⟨rivalMember, rivalName⟩ := List.mem_filter.mp listed
    have contested : isContested ((withClaims planned).map (·.2)) rival.2 = true := by
      rw [isContested, decide_eq_true_eq, same]
      omega
    have collision : .structural rival.1.declaredName (.duplicateOutputName rival.2) ∈
        collisions planned :=
      List.mem_map.mpr ⟨rival, List.mem_filter.mpr ⟨rivalMember, contested⟩, rfl⟩
    exact alone _ collision (by simpa [Defect.shape] using rivalName)
  unfold isContested
  rw [split, absent, Nat.add_zero]

theorem uncontested_without
    (free : ∀ shape ∈ planned, shape.declaredName ≠ name → shape.parent ≠ some name)
    (alone : ∀ collision ∈ collisions planned, collision.shape ≠ name) :
    uncontested (planned.filter (·.declaredName != name)) =
      (uncontested planned).filter (·.declaredName != name) := by
  simp only [uncontested, with_claims_without free]
  rw [List.filter_map, List.filter_filter, List.filter_filter]
  congr 1
  apply List.filter_congr
  intro claim member
  by_cases here : claim.1.declaredName = name
  · simp [here]
  · rw [contested_without alone member here]
    exact Bool.and_comm _ _

theorem collisions_without
    (free : ∀ shape ∈ planned, shape.declaredName ≠ name → shape.parent ≠ some name)
    (alone : ∀ collision ∈ collisions planned, collision.shape ≠ name) :
    collisions (planned.filter (·.declaredName != name)) =
      (collisions planned).filter (·.shape != name) := by
  simp only [collisions, with_claims_without free]
  rw [List.filter_map, List.filter_filter, List.filter_filter]
  congr 1
  apply List.filter_congr
  intro claim member
  by_cases here : claim.1.declaredName = name
  · simp [here, Defect.shape]
  · rw [contested_without alone member here]
    exact Bool.and_comm _ _

end Claims

section Nesting

variable {name : String} {kept : List PlannedShape} {shape : PlannedShape}

theorem roots_without :
    roots (kept.filter (·.declaredName != name)) = (roots kept).filter (·.declaredName != name) :=
  List.filter_comm _ _ _

theorem parent_of_without (apart : shape.parent ≠ some name) :
    parentOf? (kept.filter (·.declaredName != name)) shape = parentOf? kept shape := by
  unfold parentOf?
  rw [roots_without]
  apply find_filter_of_imp
  intro root _ child
  rw [PlannedShape.isChildOf, beq_iff_eq] at child
  rw [bne_iff_ne]
  intro same
  exact apart (child.trans (congrArg some same))

theorem output_plan_without (apart : shape.parent ≠ some name) :
    outputPlan? (kept.filter (·.declaredName != name)) shape = outputPlan? kept shape := by
  unfold outputPlan?
  rw [parent_of_without apart]

theorem orphan_defect_without {declared others : List String}
    (same : ∀ other, other ≠ name → (other ∈ others ↔ other ∈ declared))
    (apart : shape.parent ≠ some name) :
    orphanDefect? others (kept.filter (·.declaredName != name)) shape =
      orphanDefect? declared kept shape := by
  unfold orphanDefect?
  rw [parent_of_without apart]
  cases enclosed : shape.parent with
  | none => rfl
  | some parent =>
      have different : parent ≠ name := by
        intro own
        exact apart (enclosed.trans (congrArg some own))
      cases parentOf? kept shape with
      | none => simp only [same parent different]
      | some root => rfl

/-- Shapes that are not put out leave the units as they are. -/
theorem units_without
    (absent : ∀ shape ∈ kept, shape.declaredName = name → outputPlan? kept shape = none) :
    unitsOf (kept.filter (·.declaredName != name)) = unitsOf kept := by
  have put (shape : PlannedShape) (member : shape ∈ kept)
      (out : (outputPlan? kept shape).isSome = true) : (shape.declaredName != name) = true := by
    rw [bne_iff_ne]
    intro here
    rw [absent shape member here] at out
    cases out
  have outer : roots (kept.filter (·.declaredName != name)) = roots kept := by
    rw [roots_without, List.filter_eq_self]
    intro root member
    obtain ⟨listed, free⟩ := mem_roots.mp member
    apply put root listed
    rw [output_plan_of_root free]
    rfl
  have units : ∀ root ∈ roots kept,
      root.unit (nested (kept.filter (·.declaredName != name))) = root.unit (nested kept) := by
    intro root member
    have own : (nested (kept.filter (·.declaredName != name))).filter root.isChildOf =
        (nested kept).filter root.isChildOf := by
      unfold nested
      rw [List.filter_filter, List.filter_filter, List.filter_filter]
      apply List.filter_congr
      intro child listed
      cases child' : root.isChildOf child with
      | false => rfl
      | true =>
          have found : (outputPlan? kept child).isSome = true := by
            have enclosed : child.parent.isSome = true := by
              rw [PlannedShape.isChildOf, beq_iff_eq] at child'
              rw [child']
              rfl
            rw [output_plan_of_nested enclosed, Option.isSome_map]
            exact List.find?_isSome.mpr ⟨root, member, child'⟩
          simp [put child listed found]
    simp only [PlannedShape.unit, own]
  unfold unitsOf
  rw [outer, List.map_congr_left units]

end Nesting

section Batch

variable {name : String} {declarations : List ShapeDeclaration} {settings : Settings}

theorem planned_unreferenced (free : Unreferenced name declarations) :
    ∀ shape ∈ plannedOf declarations settings,
      shape.declaredName ≠ name → shape.parent ≠ some name := by
  intro shape member other
  obtain ⟨declaration, fields, found, _, fits⟩ := mem_planned member
  rw [fits.parent, to_shape_parent]
  apply free declaration (first_mem found)
  rw [first_name found]
  exact other

theorem kept_unreferenced (free : Unreferenced name declarations) :
    ∀ shape ∈ keptOf declarations settings,
      shape.declaredName ≠ name → shape.parent ≠ some name :=
  fun shape member => planned_unreferenced free shape (kept_planned member)

theorem outcomes_without (settings : Settings) (free : Unreferenced name declarations) :
    Omits name (Schema.outcomes (without name declarations) settings)
      (Schema.outcomes declarations settings) := by
  have order : sorted (without name declarations) = without name (sorted declarations) :=
    sorted_by_filter ShapeDeclaration.qualifiedName (· != name)
  have sortedFree : Unreferenced name (sorted declarations) := by
    intro declaration member
    exact free declaration ((List.mergeSort_perm _ _).mem_iff.mp member)
  unfold Schema.outcomes
  rw [order]
  exact check_all_without (fun _ _ => Iff.rfl) (fun _ => marker_without) sortedFree

/-- Shapes are planned one by one, so what is left out of the schema is left out of the plans. -/
theorem planning_without (free : Unreferenced name declarations) :
    plannedOf (without name declarations) settings =
        (plannedOf declarations settings).filter (·.declaredName != name) ∧
      ambiguities (without name declarations) settings =
        (ambiguities declarations settings).filter (·.shape != name) := by
  have shapes := (outcomes_without settings free).shapes
  unfold plannedOf ambiguities
  rw [planning_of_outcomes, planning_of_outcomes, shapes]
  constructor
  · apply accepted_filter
    intro shape planned made
    rw [(PlannedShape.of_shape_ok made).declared]
  · apply rejected_filter
    intro shape defect failed
    obtain ⟨_, _, _, rfl⟩ := PlannedShape.of_shape_error failed
    rfl

variable (free : Unreferenced name declarations)
  (alone : ∀ collision ∈ collisions (plannedOf declarations settings), collision.shape ≠ name)

include free alone

theorem kept_without :
    keptOf (without name declarations) settings =
      (keptOf declarations settings).filter (·.declaredName != name) := by
  unfold keptOf
  rw [(planning_without free).1]
  exact uncontested_without (planned_unreferenced free) alone

theorem orphans_without :
    orphans (without name declarations) settings =
      (orphans declarations settings).filter (·.shape != name) := by
  have declared (other : String) (different : other ≠ name) :
      other ∈ (without name declarations).map (·.qualifiedName) ↔
        other ∈ declarations.map (·.qualifiedName) := by
    rw [without, List.mem_map, List.mem_map]
    constructor
    · intro both
      obtain ⟨declaration, member, same⟩ := both
      exact ⟨declaration, (List.mem_filter.mp member).1, same⟩
    · intro both
      obtain ⟨declaration, member, rfl⟩ := both
      exact ⟨declaration, List.mem_filter.mpr ⟨member, by simpa using different⟩, rfl⟩
  have children : nested ((keptOf declarations settings).filter (·.declaredName != name)) =
      (nested (keptOf declarations settings)).filter (·.declaredName != name) :=
    List.filter_comm _ _ _
  unfold orphans
  rw [kept_without free alone, children, ← filter_map_filter _ _ (·.declaredName != name)]
  · apply List.filterMap_congr
    intro child member
    obtain ⟨listed, other⟩ := List.mem_filter.mp member
    exact orphan_defect_without declared
      (kept_unreferenced free child (mem_nested.mp listed).1 (bne_iff_ne.mp other))
  · intro child defect found
    rw [(orphan_defect_some found).1]

theorem defects_without :
    ((ofDeclarations declarations settings).defects.filter (·.shape != name)).Perm
      (ofDeclarations (without name declarations) settings).defects := by
  apply ((defects_perm declarations settings).filter _).trans
  apply List.Perm.trans _ (defects_perm (without name declarations) settings).symm
  rw [List.filter_append, List.filter_append, List.filter_append,
    Schema.of_declarations_defects, Schema.of_declarations_defects,
    (outcomes_without settings free).defects, (planning_without free).2, (planning_without free).1,
    orphans_without free alone, collisions_without (planned_unreferenced free) alone]

theorem plans_without :
    ((ofDeclarations declarations settings).shapePlans.filter (·.declaredName != name)).Perm
      (ofDeclarations (without name declarations) settings).shapePlans := by
  have all := unit_plans_perm (kept_accounted declarations settings).distinct
  have others := unit_plans_perm (kept_accounted (without name declarations) settings).distinct
  apply (all.filter _).trans
  apply List.Perm.trans _ others.symm
  rw [kept_without free alone, ← filter_map_filter _ _ (·.declaredName != name)]
  · apply List.Perm.of_eq
    apply List.filterMap_congr
    intro shape member
    obtain ⟨listed, other⟩ := List.mem_filter.mp member
    exact (output_plan_without (kept_unreferenced free shape listed (bne_iff_ne.mp other))).symm
  · intro shape plan found
    rw [output_plan_declared found]

end Batch

end Assembly

end ShapeCompat
