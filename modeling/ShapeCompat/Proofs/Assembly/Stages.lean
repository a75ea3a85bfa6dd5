import ShapeCompat.Proofs.Assembly.Output
import ShapeCompat.Proofs.Assembly.Planning

/-!
The stages of assembly, by the names of the shapes that pass through them. Every stage passes a name
on or reports a defect against it, never both and never neither, and stages that do so one after the
other do so together. The only other defects are those of repeated declarations.
-/

namespace ShapeCompat

/-- The defect of a declaration whose name was declared before. -/
def Defect.isDuplicate : Defect → Bool
  | .structural _ .duplicateShape => true
  | _ => false

/-- Of the names `before` a stage, exactly those without a defect are among the names `after` it. -/
structure Accounted (before after : List String) (defects : List Defect) : Prop where
  distinct : after.Nodup
  settled : ∀ name, name ∈ after ↔ name ∈ before ∧ ∀ defect ∈ defects, defect.shape ≠ name
  reported : ∀ defect ∈ defects, defect.shape ∈ before
  proper : ∀ defect ∈ defects, defect.isDuplicate = false

namespace Accounted

variable {before between after : List String} {first second : List Defect}

theorem trans (earlier : Accounted before between first)
    (later : Accounted between after second) : Accounted before after (first ++ second) where
  distinct := later.distinct
  settled := by
    intro name
    rw [later.settled, earlier.settled, List.forall_mem_append, and_assoc]
  reported := by
    intro defect member
    rcases List.mem_append.mp member with here | there
    · exact earlier.reported defect here
    · exact ((earlier.settled _).mp (later.reported defect there)).1
  proper := by
    rw [List.forall_mem_append]
    exact ⟨earlier.proper, later.proper⟩

/-- Nothing but the members of the lists matters, as long as no name goes on twice. -/
theorem congr {otherBefore otherAfter : List String} {otherDefects : List Defect}
    (accounted : Accounted before after first)
    (sameBefore : ∀ name, name ∈ otherBefore ↔ name ∈ before) (distinct : otherAfter.Nodup)
    (sameAfter : ∀ name, name ∈ otherAfter ↔ name ∈ after)
    (sameDefects : ∀ defect, defect ∈ otherDefects ↔ defect ∈ first) :
    Accounted otherBefore otherAfter otherDefects where
  distinct := distinct
  settled := by
    intro name
    simp only [sameAfter, sameBefore, sameDefects]
    exact accounted.settled name
  reported := by
    intro defect member
    rw [sameBefore]
    exact accounted.reported defect ((sameDefects defect).mp member)
  proper := fun defect member => accounted.proper defect ((sameDefects defect).mp member)

theorem cons_passed {name : String} (rest : Accounted before after first)
    (fresh : name ∉ before) : Accounted (name :: before) (name :: after) first where
  distinct :=
    List.nodup_cons.mpr ⟨fun again => fresh ((rest.settled name).mp again).1, rest.distinct⟩
  settled := by
    intro other
    rw [List.mem_cons, List.mem_cons, rest.settled]
    constructor
    · intro either
      rcases either with rfl | ⟨member, clean⟩
      · refine ⟨.inl rfl, ?_⟩
        intro defect reported same
        exact fresh (same ▸ rest.reported defect reported)
      · exact ⟨.inr member, clean⟩
    · intro both
      rcases both with ⟨rfl | member, clean⟩
      · exact .inl rfl
      · exact .inr ⟨member, clean⟩
  reported := fun defect member => List.mem_cons_of_mem _ (rest.reported defect member)
  proper := rest.proper

theorem cons_reported {name : String} (rest : Accounted before after second)
    (fresh : name ∉ before) (some : first ≠ [])
    (own : ∀ defect ∈ first, defect.shape = name ∧ defect.isDuplicate = false) :
    Accounted (name :: before) after (first ++ second) where
  distinct := rest.distinct
  settled := by
    intro other
    rw [rest.settled, List.mem_cons, List.forall_mem_append]
    constructor
    · intro both
      rcases both with ⟨member, clean⟩
      refine ⟨.inr member, ?_, clean⟩
      intro defect reported same
      rw [(own defect reported).1] at same
      exact fresh (same ▸ member)
    · intro both
      rcases both with ⟨rfl | member, ownClean, clean⟩
      · obtain ⟨defect, reported⟩ := List.exists_mem_of_ne_nil first some
        exact (ownClean defect reported (own defect reported).1).elim
      · exact ⟨member, clean⟩
  reported := by
    intro defect member
    rcases List.mem_append.mp member with here | there
    · exact List.mem_cons.mpr (.inl (own defect here).1)
    · exact List.mem_cons_of_mem _ (rest.reported defect there)
  proper := by
    rw [List.forall_mem_append]
    exact ⟨fun defect member => (own defect member).2, rest.proper⟩

theorem nil : Accounted [] [] [] := ⟨.nil, by simp, by simp, by simp⟩

section Choices

variable {Item Value : Type} (items : List Item) (key : Item → String)

/-- A stage that passes each item on or reports it, each of its defects being against the item's
name. -/
theorem of_choices (distinct : (items.map key).Nodup) (pass : Item → Option Value)
    (refuse : Item → Option Defect) (valueKey : Value → String)
    (either : ∀ item ∈ items, (pass item).isSome = (refuse item).isNone)
    (passed : ∀ item value, pass item = some value → valueKey value = key item)
    (refused : ∀ item defect, refuse item = some defect →
      defect.shape = key item ∧ defect.isDuplicate = false) :
    Accounted (items.map key) ((items.filterMap pass).map valueKey) (items.filterMap refuse) := by
  induction items with
  | nil => exact nil
  | cons item rest induction =>
      rw [List.map_cons, List.nodup_cons] at distinct
      obtain ⟨fresh, restDistinct⟩ := distinct
      have later := induction restDistinct fun other member =>
        either other (List.mem_cons_of_mem _ member)
      have choice := either item List.mem_cons_self
      cases made : pass item with
      | some value =>
          rw [made, Option.isSome_some, eq_comm, Option.isNone_iff_eq_none] at choice
          rw [List.map_cons, List.filterMap_cons_some made, List.filterMap_cons_none choice,
            List.map_cons, passed item value made]
          exact later.cons_passed fresh
      | none =>
          cases found : refuse item with
          | none =>
              rw [made, found] at choice
              cases choice
          | some defect =>
              have own : ∀ other ∈ [defect],
                  other.shape = key item ∧ other.isDuplicate = false := by
                intro other member
                rw [List.mem_singleton.mp member]
                exact refused item defect found
              rw [List.map_cons, List.filterMap_cons_none made, List.filterMap_cons_some found]
              exact later.cons_reported fresh (List.cons_ne_nil _ _) own

theorem of_outcomes (distinct : (items.map key).Nodup) (outcome : Item → Except Defect Value)
    (valueKey : Value → String)
    (passed : ∀ item value, outcome item = .ok value → valueKey value = key item)
    (refused : ∀ item defect, outcome item = .error defect →
      defect.shape = key item ∧ defect.isDuplicate = false) :
    Accounted (items.map key) ((accepted (items.map outcome)).map valueKey)
      (rejected (items.map outcome)) := by
  unfold accepted rejected
  rw [List.filterMap_map, List.filterMap_map]
  apply of_choices items key distinct
  · intro item _
    cases made : outcome item with
    | ok value => simp [made]
    | error defect => simp [made]
  · intro item value made
    cases given : outcome item with
    | ok other =>
        rw [Function.comp_apply, given] at made
        cases made
        exact passed item _ given
    | error defect =>
        rw [Function.comp_apply, given] at made
        cases made
  · intro item defect failed
    cases given : outcome item with
    | ok value =>
        rw [Function.comp_apply, given] at failed
        cases failed
    | error other =>
        rw [Function.comp_apply, given] at failed
        cases failed
        exact refused item _ given

/-- A stage that keeps some items and reports each of the others under its own name. -/
theorem of_filter (distinct : (items.map key).Nodup) (keep : Item → Bool)
    (defectOf : Item → Defect)
    (refused : ∀ item, (defectOf item).shape = key item ∧ (defectOf item).isDuplicate = false) :
    Accounted (items.map key) ((items.filter keep).map key)
      ((items.filter fun item => !keep item).map defectOf) := by
  have reported : (items.filter fun item => !keep item).map defectOf =
      items.filterMap fun item => if keep item then none else some (defectOf item) := by
    rw [← List.filterMap_eq_map, List.filterMap_filter]
    apply List.filterMap_congr
    intro item _
    cases keep item <;> rfl
  rw [← List.filterMap_eq_filter, reported]
  apply of_choices items key distinct
  · intro item _
    cases pass : keep item with
    | true => simp [Option.guard, pass]
    | false => simp [Option.guard, pass]
  · intro item value made
    rw [(Option.guard_eq_some_iff.mp made).1]
  · intro item defect failed
    split at failed
    · cases failed
    · cases failed
      exact refused item

end Choices

end Accounted

theorem planning_accounted (style : Style) (shapes : List Shape)
    (distinct : (shapes.map (·.declaredQualifiedName)).Nodup) :
    Accounted (shapes.map (·.declaredQualifiedName))
      ((accepted (shapes.map (PlannedShape.ofShape style))).map (·.declaredName))
      (rejected (shapes.map (PlannedShape.ofShape style))) := by
  apply Accounted.of_outcomes shapes _ distinct
  · intro shape planned made
    exact (PlannedShape.of_shape_ok made).declared
  · intro shape defect failed
    obtain ⟨first, second, signature, rfl⟩ := PlannedShape.of_shape_error failed
    exact ⟨rfl, rfl⟩

namespace Assembly

theorem collisions_accounted (planned : List PlannedShape)
    (distinct : (planned.map (·.declaredName)).Nodup) :
    Accounted (planned.map (·.declaredName)) ((uncontested planned).map (·.declaredName))
      (collisions planned) := by
  have names : planned.map (·.declaredName) =
      (withClaims planned).map fun claim => claim.1.declaredName := by
    rw [withClaims, List.map_map]
    rfl
  have kept : (uncontested planned).map (·.declaredName) =
      ((withClaims planned).filter fun claim =>
        !isContested ((withClaims planned).map (·.2)) claim.2).map
          fun claim => claim.1.declaredName := by
    rw [uncontested, List.map_map]
    rfl
  have reported : collisions planned =
      ((withClaims planned).filter fun claim =>
        !!isContested ((withClaims planned).map (·.2)) claim.2).map fun claim =>
          .structural claim.1.declaredName (.duplicateOutputName claim.2) := by
    simp only [collisions, Bool.not_not]
  rw [names] at distinct
  rw [names, kept, reported]
  exact Accounted.of_filter _ _ distinct _ _ fun _ => ⟨rfl, rfl⟩

section Nesting

variable {declared : List String} {kept : List PlannedShape} {shape : PlannedShape}

/-- A kept shape is an orphan exactly when it is not put out. -/
theorem orphan_iff (declared : List String) (kept : List PlannedShape) (shape : PlannedShape) :
    (outputPlan? kept shape).isSome = (orphanDefect? declared kept shape).isNone := by
  unfold outputPlan? orphanDefect?
  cases shape.parent with
  | none => rfl
  | some parent => cases parentOf? kept shape <;> rfl

theorem orphan_defect_some {defect : Defect}
    (found : orphanDefect? declared kept shape = some defect) :
    defect.shape = shape.declaredName ∧ defect.isDuplicate = false ∧
      shape.parent.isSome = true := by
  unfold orphanDefect? at found
  split at found
  · rename_i enclosed _
    cases found
    rw [enclosed]
    exact ⟨rfl, rfl, rfl⟩
  · cases found

theorem nesting_accounted (declared : List String) (kept : List PlannedShape)
    (distinct : (kept.map (·.declaredName)).Nodup) :
    Accounted (kept.map (·.declaredName))
      (((unitsOf kept).flatMap (·.shapePlans)).map (·.declaredName))
      ((nested kept).filterMap (orphanDefect? declared kept)) := by
  have plans := (unit_plans_perm distinct).map (·.declaredName)
  have accounted := Accounted.of_choices kept (·.declaredName) distinct (outputPlan? kept)
    (orphanDefect? declared kept) (·.declaredName) (fun shape _ => orphan_iff declared kept shape)
    (fun _ _ => output_plan_declared)
    (fun _ _ found => ⟨(orphan_defect_some found).1, (orphan_defect_some found).2.1⟩)
  refine accounted.congr (fun _ => Iff.rfl) (plans.nodup_iff.mpr accounted.distinct)
    (fun _ => plans.mem_iff) ?_
  intro defect
  rw [List.mem_filterMap, List.mem_filterMap]
  constructor
  · intro both
    obtain ⟨child, member, orphan⟩ := both
    exact ⟨child, (mem_nested.mp member).1, orphan⟩
  · intro both
    obtain ⟨child, member, orphan⟩ := both
    exact ⟨child, mem_nested.mpr ⟨member, (orphan_defect_some orphan).2.2⟩, orphan⟩

end Nesting

/-- The defects of shapes whose entries cannot be told apart. -/
def ambiguities (declarations : List ShapeDeclaration) (settings : Settings) : List Defect :=
  rejected ((Schema.ofDeclarations declarations settings).schema.shapes.map
    (PlannedShape.ofShape settings.style))

/-- The defects of kept children whose parents have no unit. -/
def orphans (declarations : List ShapeDeclaration) (settings : Settings) : List Defect :=
  (nested (keptOf declarations settings)).filterMap
    (orphanDefect? (declarations.map (·.qualifiedName)) (keptOf declarations settings))

/-- Every defect is one of the checks, of planning, of colliding names or of nesting. -/
theorem defects_perm (declarations : List ShapeDeclaration) (settings : Settings) :
    (ofDeclarations declarations settings).defects.Perm
      ((Schema.ofDeclarations declarations settings).defects ++
        (ambiguities declarations settings ++
          (collisions (plannedOf declarations settings) ++
            orphans declarations settings))) := by
  rw [← List.append_assoc, ← List.append_assoc]
  exact List.mergeSort_perm _ _

theorem mem_collisions {planned : List PlannedShape} {defect : Defect}
    (member : defect ∈ collisions planned) :
    ∃ shape ∈ planned, defect =
      .structural shape.declaredName (.duplicateOutputName (shape.claimedName planned)) := by
  obtain ⟨claim, contested, rfl⟩ := List.mem_map.mp member
  obtain ⟨shape, listed, rfl⟩ := List.mem_map.mp (List.mem_filter.mp contested).1
  exact ⟨shape, listed, rfl⟩

end Assembly

end ShapeCompat
