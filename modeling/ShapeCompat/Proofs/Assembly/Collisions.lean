import ShapeCompat.Proofs.Assembly.Names

/-!
Collisions of output names, told by the names that shapes are put out under in the end. A child
whose parent is not planned has no such name; it still takes part, under the declared name of its
parent.
-/

namespace ShapeCompat

namespace PlannedShape

/-- The name that a shape is put out under when its family is: a shape without parent has its own, a
child its own behind that of its planned parent. -/
def finalName? (all : List PlannedShape) (shape : PlannedShape) : Option String :=
  match shape.parent with
  | none => some shape.plan.qualifiedName
  | some parent => (all.find? (·.declaredName == parent)).map fun outer =>
      outer.plan.qualifiedName ++ "." ++ shape.plan.name

variable {all : List PlannedShape} {shape : PlannedShape}

theorem claimed_of_final {final : String} (found : shape.finalName? all = some final) :
    shape.claimedName all = final := by
  unfold finalName? at found
  unfold claimedName
  cases enclosed : shape.parent with
  | none =>
      rw [enclosed] at found
      exact Option.some.inj found
  | some parent =>
      rw [enclosed] at found
      obtain ⟨outer, listed, rfl⟩ := Option.map_eq_some_iff.mp found
      simp only [listed]

theorem final_none_iff :
    shape.finalName? all = none ↔
      ∃ parent, shape.parent = some parent ∧ ∀ other ∈ all, other.declaredName ≠ parent := by
  unfold finalName?
  cases shape.parent with
  | none => simp
  | some parent => simp

/-- The shape and another one have the same final name. -/
def SharesFinalName (all : List PlannedShape) (shape : PlannedShape) : Prop :=
  ∃ final ∈ shape.finalName? all,
    ∃ other ∈ all, other.declaredName ≠ shape.declaredName ∧ other.finalName? all = some final

/-- The shape and another one claim the same name, and one of them only has it lent by the declared
name of a parent that is not planned. -/
def SharesLentName (all : List PlannedShape) (shape : PlannedShape) : Prop :=
  ∃ other ∈ all, other.declaredName ≠ shape.declaredName ∧
    (shape.finalName? all = none ∨ other.finalName? all = none) ∧
    other.claimedName all = shape.claimedName all

instance : Decidable (SharesFinalName all shape) :=
  inferInstanceAs (Decidable (∃ final ∈ shape.finalName? all, ∃ other ∈ all, _ ∧ _))

instance : Decidable (SharesLentName all shape) :=
  inferInstanceAs (Decidable (∃ other ∈ all, _ ∧ _ ∧ _))

theorem shares_claim_iff :
    (∃ other ∈ all, other.declaredName ≠ shape.declaredName ∧
        other.claimedName all = shape.claimedName all) ↔
      SharesFinalName all shape ∨ SharesLentName all shape := by
  constructor
  · intro shared
    obtain ⟨other, listed, different, same⟩ := shared
    cases own : shape.finalName? all with
    | none => exact .inr ⟨other, listed, different, .inl own, same⟩
    | some final =>
        cases theirs : other.finalName? all with
        | none => exact .inr ⟨other, listed, different, .inr theirs, same⟩
        | some another =>
            rw [claimed_of_final own, claimed_of_final theirs] at same
            exact .inl ⟨final, own, other, listed, different, same ▸ theirs⟩
  · intro either
    rcases either with ⟨final, own, other, listed, different, theirs⟩ |
      ⟨other, listed, different, _, same⟩
    · exact ⟨other, listed, different, (claimed_of_final theirs).trans (claimed_of_final own).symm⟩
    · exact ⟨other, listed, different, same⟩

end PlannedShape

/-- The defect of an orphan of this name. -/
def Defect.isOrphanOf (name : String) : Defect → Bool
  | .consistency _ child _ => child == name
  | _ => false

namespace Assembly

section Claims

variable {planned : List PlannedShape} {shape : PlannedShape}

theorem contested_iff (distinct : (planned.map (·.declaredName)).Nodup) (member : shape ∈ planned) :
    isContested ((withClaims planned).map (·.2)) (shape.claimedName planned) = true ↔
      shape.SharesFinalName planned ∨ shape.SharesLentName planned := by
  have names : (withClaims planned).map (·.2) = planned.map (·.claimedName planned) := by
    rw [withClaims, List.map_map]
    rfl
  rw [isContested, decide_eq_true_eq, names]
  exact (count_map_gt_one_iff (·.declaredName) _ planned distinct member).trans
    PlannedShape.shares_claim_iff

theorem mem_uncontested :
    shape ∈ uncontested planned ↔ shape ∈ planned ∧
      ¬isContested ((withClaims planned).map (·.2)) (shape.claimedName planned) = true := by
  rw [uncontested, withClaims, List.filter_map, List.map_map, List.mem_map]
  simp

theorem collision_iff {name output : String} :
    .structural name (.duplicateOutputName output) ∈ collisions planned ↔
      ∃ shape ∈ planned, shape.declaredName = name ∧ output = shape.claimedName planned ∧
        isContested ((withClaims planned).map (·.2)) (shape.claimedName planned) = true := by
  rw [collisions, withClaims, List.filter_map, List.map_map, List.mem_map]
  constructor
  · intro found
    obtain ⟨shape, listed, same⟩ := found
    obtain ⟨member, contested⟩ := List.mem_filter.mp listed
    simp only [Function.comp_apply, Defect.structural.injEq,
      StructuralFault.duplicateOutputName.injEq] at same contested
    exact ⟨shape, member, same.1, same.2.symm, contested⟩
  · intro found
    obtain ⟨shape, member, named, rfl, contested⟩ := found
    exact ⟨shape, List.mem_filter.mpr ⟨member, contested⟩, by rw [Function.comp_apply, named]⟩

end Claims

section Reports

variable {declarations : List ShapeDeclaration} {settings : Settings} {shape : PlannedShape}

/-- Before its name is compared with others, a planned shape has no defect but for repetitions. -/
theorem planned_clean (member : shape ∈ plannedOf declarations settings) {defect : Defect}
    (listed : defect ∈ (Schema.ofDeclarations declarations settings).defects ++
      ambiguities declarations settings)
    (own : defect.shape = shape.declaredName) : defect.isDuplicate = true := by
  have settled := ((planned_accounted declarations settings).settled _).mp
    (List.mem_map_of_mem (f := (·.declaredName)) member)
  have checked := ((Schema.declarations_accounted declarations settings).settled _).mp settled.1
  rcases List.mem_append.mp listed with faulty | ambiguous
  · by_contra proper
    exact checked.2 defect (List.mem_filter.mpr ⟨faulty, by simpa using proper⟩) own
  · exact (settled.2 defect ambiguous own).elim

/-- The defects of a planned shape that do not report repetitions come from the comparison of names
and from nesting. -/
theorem planned_defects (member : shape ∈ plannedOf declarations settings) (test : Defect → Bool)
    (own : ∀ defect, test defect = true →
      defect.shape = shape.declaredName ∧ defect.isDuplicate = false) :
    ((ofDeclarations declarations settings).defects.filter test).Perm
      ((collisions (plannedOf declarations settings)).filter test ++
        (orphans declarations settings).filter test) := by
  have clean : ((Schema.ofDeclarations declarations settings).defects ++
      ambiguities declarations settings).filter test = [] := by
    rw [List.filter_eq_nil_iff]
    intro defect listed passed
    obtain ⟨named, proper⟩ := own defect passed
    rw [planned_clean member listed named] at proper
    cases proper
  have all := (defects_perm declarations settings).filter test
  rwa [← List.append_assoc, List.filter_append, clean, List.nil_append, List.filter_append] at all

theorem orphan_defect_names {declared : List String} {kept : List PlannedShape} {defect : Defect}
    (found : orphanDefect? declared kept shape = some defect) :
    ∃ parent reason, defect = .consistency parent shape.declaredName reason := by
  unfold orphanDefect? at found
  split at found
  · cases found
    exact ⟨_, _, rfl⟩
  · cases found

theorem collision_reported_iff (member : shape ∈ plannedOf declarations settings)
    (output : String) :
    .structural shape.declaredName (.duplicateOutputName output) ∈
        (ofDeclarations declarations settings).defects ↔
      output = shape.claimedName (plannedOf declarations settings) ∧
        (shape.SharesFinalName (plannedOf declarations settings) ∨
          shape.SharesLentName (plannedOf declarations settings)) := by
  have distinct := (planned_accounted declarations settings).distinct
  have reported := (planned_defects member
    (· == .structural shape.declaredName (.duplicateOutputName output)) (by
      intro defect same
      rw [beq_iff_eq.mp same]
      exact ⟨rfl, rfl⟩)).mem_iff
        (a := .structural shape.declaredName (.duplicateOutputName output))
  simp only [List.mem_append, List.mem_filter, beq_self_eq_true, and_true] at reported
  have apart : .structural shape.declaredName (.duplicateOutputName output) ∉
      orphans declarations settings := by
    intro orphaned
    obtain ⟨_, _, orphan⟩ := List.mem_filterMap.mp orphaned
    obtain ⟨_, _, other⟩ := orphan_defect_names orphan
    cases other
  rw [reported, or_iff_left apart, collision_iff]
  constructor
  · intro collided
    obtain ⟨other, listed, named, claimed, contested⟩ := collided
    obtain rfl := List.inj_on_of_nodup_map distinct listed member named
    exact ⟨claimed, (contested_iff distinct listed).mp contested⟩
  · intro both
    exact ⟨shape, member, rfl, both.1, (contested_iff distinct member).mpr both.2⟩

/-- A kept child is an orphan when its parent is not planned. -/
theorem orphan_defect_of_unplanned {declared : List String} {kept : List PlannedShape}
    {parent : String} (enclosed : shape.parent = some parent)
    (absent : ∀ other ∈ kept, other.declaredName ≠ parent) :
    orphanDefect? declared kept shape = some (.consistency parent shape.declaredName
      (if parent ∈ declared then .parentNotPlanned else .parentNotDeclared)) := by
  have missing : parentOf? kept shape = none := by
    rw [parentOf?, List.find?_eq_none]
    intro root listed own
    rw [PlannedShape.isChildOf, beq_iff_eq, enclosed, Option.some.injEq] at own
    exact absent root (mem_roots.mp listed).1 own.symm
  rw [orphanDefect?, enclosed, missing]

theorem orphan_defects (member : shape ∈ plannedOf declarations settings) {parent : String}
    (enclosed : shape.parent = some parent)
    (absent : ∀ other ∈ plannedOf declarations settings, other.declaredName ≠ parent) :
    (shape.SharesLentName (plannedOf declarations settings) →
      (ofDeclarations declarations settings).defects.filter
        (Defect.isOrphanOf shape.declaredName) = []) ∧
    (¬shape.SharesLentName (plannedOf declarations settings) →
      (ofDeclarations declarations settings).defects.filter
        (Defect.isOrphanOf shape.declaredName) =
          [.consistency parent shape.declaredName
            (if parent ∈ declarations.map (·.qualifiedName) then .parentNotPlanned
              else .parentNotDeclared)]) := by
  have distinct := (planned_accounted declarations settings).distinct
  have unfinal : ¬shape.SharesFinalName (plannedOf declarations settings) := by
    intro shared
    obtain ⟨final, own, _⟩ := shared
    rw [PlannedShape.final_none_iff.mpr ⟨parent, enclosed, absent⟩] at own
    cases own
  have kept : shape ∈ keptOf declarations settings ↔
      ¬shape.SharesLentName (plannedOf declarations settings) := by
    rw [keptOf, mem_uncontested, contested_iff distinct member]
    simp [member, unfinal]
  have none_collides : (collisions (plannedOf declarations settings)).filter
      (Defect.isOrphanOf shape.declaredName) = [] := by
    rw [List.filter_eq_nil_iff]
    intro defect listed passed
    obtain ⟨_, _, rfl⟩ := mem_collisions listed
    cases passed
  have passed : (orphans declarations settings).filter (Defect.isOrphanOf shape.declaredName) =
      ((nested (keptOf declarations settings)).filter
          (·.declaredName == shape.declaredName)).filterMap
        (orphanDefect? (declarations.map (·.qualifiedName)) (keptOf declarations settings)) :=
    (filter_map_filter _ _ _ _ fun _ _ found => by
      obtain ⟨_, _, rfl⟩ := orphan_defect_names found
      rfl).symm
  have all := planned_defects member (Defect.isOrphanOf shape.declaredName) (by
    intro defect orphan
    cases defect with
    | consistency _ child _ => exact ⟨beq_iff_eq.mp orphan, rfl⟩
    | _ => cases orphan)
  rw [none_collides, List.nil_append, passed] at all
  constructor
  · intro shared
    have dropped : (nested (keptOf declarations settings)).filter
        (·.declaredName == shape.declaredName) = [] := by
      rw [List.filter_eq_nil_iff]
      intro other listed same
      have otherKept := (mem_nested.mp listed).1
      obtain rfl := List.inj_on_of_nodup_map distinct (kept_planned otherKept) member
        (beq_iff_eq.mp same)
      exact kept.mp otherKept shared
    rw [dropped, List.filterMap_nil] at all
    exact all.eq_nil
  · intro alone
    have listed : shape ∈ nested (keptOf declarations settings) :=
      mem_nested.mpr ⟨kept.mpr alone, by rw [enclosed]; rfl⟩
    rw [filter_key_eq_singleton (·.declaredName) _
        (nested_distinct (kept_accounted declarations settings).distinct) listed,
      List.filterMap_cons_some (orphan_defect_of_unplanned enclosed fun other otherKept =>
        absent other (kept_planned otherKept)), List.filterMap_nil] at all
    exact all.eq_singleton

end Reports

/-- A planned shape is reported for its output name exactly when it shares its final name, or when a
name that an unplanned parent lends is shared. A child of an unplanned parent is reported once as an
orphan, with what became of its parent, unless the name that it is lent is shared. -/
theorem final_and_lent_names_collide (declarations : List ShapeDeclaration) (settings : Settings) :
    ∀ shape ∈ plannedOf declarations settings,
      (∀ output, .structural shape.declaredName (.duplicateOutputName output) ∈
          (ofDeclarations declarations settings).defects ↔
        output = shape.claimedName (plannedOf declarations settings) ∧
          (shape.SharesFinalName (plannedOf declarations settings) ∨
            shape.SharesLentName (plannedOf declarations settings))) ∧
      ∀ parent, shape.parent = some parent →
        (∀ other ∈ plannedOf declarations settings, other.declaredName ≠ parent) →
        shape.finalName? (plannedOf declarations settings) = none ∧
        (shape.SharesLentName (plannedOf declarations settings) →
          (ofDeclarations declarations settings).defects.filter
            (Defect.isOrphanOf shape.declaredName) = []) ∧
        (¬shape.SharesLentName (plannedOf declarations settings) →
          (ofDeclarations declarations settings).defects.filter
            (Defect.isOrphanOf shape.declaredName) =
              [.consistency parent shape.declaredName
                (if parent ∈ declarations.map (·.qualifiedName) then .parentNotPlanned
                  else .parentNotDeclared)]) := by
  intro shape member
  refine ⟨collision_reported_iff member, ?_⟩
  intro parent enclosed absent
  exact ⟨PlannedShape.final_none_iff.mpr ⟨parent, enclosed, absent⟩,
    orphan_defects member enclosed absent⟩

/-- What is planned of declarations that are listed in the order of their names. -/
theorem planned_of_sorted {declarations : List ShapeDeclaration} (settings : Settings)
    (sorted : ShapeDeclaration.sorted declarations = declarations) :
    plannedOf declarations settings =
      accepted ((accepted (ShapeDeclaration.checkAll settings
        (ShapeDeclaration.markerIn? declarations) [] declarations)).map
          (PlannedShape.ofShape settings.style)) := by
  rw [plannedOf, planning_of_outcomes, Schema.outcomes, sorted]

/-- A child of a parent that is declared nowhere. -/
def lostOk : ShapeDeclaration :=
  { name := "OkDBC", package := "com.acme", parent := some "com.acme.Missing" }

/-- Alone, it collides with nothing and is reported as an orphan. -/
theorem lost_child_is_reported :
    ∃ shape ∈ plannedOf [lostOk] {}, shape.parent = some "com.acme.Missing" ∧
      (∀ other ∈ plannedOf [lostOk] {}, other.declaredName ≠ "com.acme.Missing") ∧
      ¬shape.SharesLentName (plannedOf [lostOk] {}) ∧
      (∀ output, .structural shape.declaredName (.duplicateOutputName output) ∉
        (ofDeclarations [lostOk] {}).defects) ∧
      (ofDeclarations [lostOk] {}).defects.filter (Defect.isOrphanOf shape.declaredName) =
        [.consistency "com.acme.Missing" shape.declaredName .parentNotDeclared] := by
  have planned : ∃ shape ∈ plannedOf [lostOk] {}, shape.parent = some "com.acme.Missing" ∧
      (∀ other ∈ plannedOf [lostOk] {}, other.declaredName ≠ "com.acme.Missing") ∧
      ¬shape.SharesLentName (plannedOf [lostOk] {}) ∧
      ¬shape.SharesFinalName (plannedOf [lostOk] {}) := by
    decide +kernel
  have undeclared : "com.acme.Missing" ∉ [lostOk].map (·.qualifiedName) := by decide +kernel
  obtain ⟨shape, member, enclosed, absent, alone, single⟩ := planned
  obtain ⟨collides, orphaned⟩ := final_and_lent_names_collide [lostOk] {} shape member
  obtain ⟨_, _, reported⟩ := orphaned _ enclosed absent
  refine ⟨shape, member, enclosed, absent, alone, ?_, ?_⟩
  · intro output listed
    exact ((collides output).mp listed).2.elim single alone
  · rw [reported alone, if_neg undeclared]

/-- A shape of the package that the missing parent would name. -/
def missingOk : ShapeDeclaration := { name := "OkDBC", package := "com.acme.Missing" }

/-- Beside it, both are reported for a name that is final for one of them only, and the lost child
is not reported as an orphan any more. -/
theorem lost_child_takes_a_final_name :
    (∃ shape ∈ plannedOf [missingOk, lostOk] {},
      shape.finalName? (plannedOf [missingOk, lostOk] {}) = some "com.acme.Missing.Ok" ∧
      ¬shape.SharesFinalName (plannedOf [missingOk, lostOk] {}) ∧
      .structural shape.declaredName (.duplicateOutputName "com.acme.Missing.Ok") ∈
        (ofDeclarations [missingOk, lostOk] {}).defects) ∧
    ∃ shape ∈ plannedOf [missingOk, lostOk] {}, shape.parent = some "com.acme.Missing" ∧
      (∀ other ∈ plannedOf [missingOk, lostOk] {}, other.declaredName ≠ "com.acme.Missing") ∧
      (ofDeclarations [missingOk, lostOk] {}).defects.filter
        (Defect.isOrphanOf shape.declaredName) = [] := by
  have sorted : ShapeDeclaration.sorted [missingOk, lostOk] = [missingOk, lostOk] :=
    List.mergeSort_of_pairwise (by decide +kernel)
  constructor
  · have planned : ∃ shape ∈ plannedOf [missingOk, lostOk] {},
        shape.finalName? (plannedOf [missingOk, lostOk] {}) = some "com.acme.Missing.Ok" ∧
        ¬shape.SharesFinalName (plannedOf [missingOk, lostOk] {}) ∧
        shape.SharesLentName (plannedOf [missingOk, lostOk] {}) := by
      rw [planned_of_sorted {} sorted]
      decide +kernel
    obtain ⟨shape, member, final, single, shared⟩ := planned
    exact ⟨shape, member, final, single, (collision_reported_iff member _).mpr
      ⟨(PlannedShape.claimed_of_final final).symm, .inr shared⟩⟩
  · have planned : ∃ shape ∈ plannedOf [missingOk, lostOk] {},
        shape.parent = some "com.acme.Missing" ∧
        (∀ other ∈ plannedOf [missingOk, lostOk] {}, other.declaredName ≠ "com.acme.Missing") ∧
        shape.SharesLentName (plannedOf [missingOk, lostOk] {}) := by
      rw [planned_of_sorted {} sorted]
      decide +kernel
    obtain ⟨shape, member, enclosed, absent, shared⟩ := planned
    exact ⟨shape, member, enclosed, absent, (orphan_defects member enclosed absent).1 shared⟩

end Assembly

end ShapeCompat
