import ShapeCompat.Proofs.Assembly.Faults

/-!
Families. A nested declaration passes its check unless the last declaration of its enclosing name is
that of a plain class. Where that one has the marker of the first, which is the one that is planned,
only sealed parents have children.
-/

namespace ShapeCompat

namespace ShapeDeclaration

variable {declaration : ShapeDeclaration} {settings : Settings}
  {markerOf : String → Option Marker} {enclosing : String}

/-- Behind a plain class a declaration has a fault: the one that it has anyway, or its place. -/
theorem fault_in_plain (enclosed : declaration.parent = some enclosing)
    (plain : markerOf enclosing = some .dataClass) :
    declaration.structuralFault? settings markerOf =
      some ((declaration.structuralFault? settings fun _ => none).getD
        (.nestedInPlainShape enclosing)) := by
  unfold structuralFault?
  simp only [enclosed, plain]
  split_ifs <;> simp_all

theorem plain_of_fault
    (found : declaration.structuralFault? settings markerOf =
      some (.nestedInPlainShape enclosing)) :
    markerOf enclosing = some .dataClass := by
  unfold structuralFault? at found
  repeat' split at found
  all_goals cases found
  assumption

theorem plain_marker (kind : declaration.shapeKind = .plain) : declaration.marker = .dataClass := by
  unfold shapeKind at kind
  split at kind
  · assumption
  · cases kind

theorem sealed_of_sound (enclosed : declaration.parent = some enclosing)
    (sound : declaration.structuralFault? settings markerOf = none) :
    markerOf enclosing ≠ some .dataClass := by
  intro plain
  rw [fault_in_plain enclosed plain] at sound
  cases sound

end ShapeDeclaration

/-- A shape of this name and kind is in the schema. -/
def Schema.Keeps (schema : Schema) (name : String) (kind : ShapeKind) : Prop :=
  ∃ shape ∈ schema.shapes, shape.declaredQualifiedName = name ∧ shape.kind = kind

open ShapeDeclaration

/-- The kind that is kept is that of the first declaration. -/
theorem Schema.keeps_iff {declarations : List ShapeDeclaration} {settings : Settings}
    {name : String} {kind : ShapeKind} :
    (ofDeclarations declarations settings).schema.Keeps name kind ↔
      ∃ declaration shape, first? declarations name = some declaration ∧
        declaration.check settings (markerIn? declarations) = .ok shape ∧
          declaration.shapeKind = kind := by
  constructor
  · intro kept
    obtain ⟨shape, member, named, rfl⟩ := kept
    obtain ⟨declaration, found, checked⟩ := schema_shape_iff.mp ⟨shape, member, named, rfl⟩
    have kind := congrArg Shape.kind (check_ok_fields _ _ _ _ checked).2
    exact ⟨declaration, shape.unplaced, found, checked, kind.symm⟩
  · intro both
    obtain ⟨declaration, shape, found, checked, rfl⟩ := both
    obtain ⟨placed, member, named, rfl⟩ := schema_shape_iff.mpr ⟨declaration, found, checked⟩
    have kind := congrArg Shape.kind (check_ok_fields _ _ _ _ checked).2
    exact ⟨placed, member, named, kind⟩

namespace Assembly

variable {declarations : List ShapeDeclaration} {settings : Settings}

/-- The shape of a unit with children is that of a first declaration, and the last declaration of
its name is that of a sealed parent. -/
theorem parent_declared {unit : OutputUnit}
    (member : unit ∈ (ofDeclarations declarations settings).units) (parental : unit.children ≠ []) :
    ∃ declaration name, first? declarations name = some declaration ∧
      unit.shape.kind = declaration.shapeKind ∧
      markerIn? declarations name = some .sealedParent := by
  obtain ⟨root, rootMember, rfl⟩ := mem_units.mp member
  obtain ⟨plan, listed⟩ := List.exists_mem_of_ne_nil _ parental
  obtain ⟨child, childMember, enclosed, _⟩ := mem_children.mp listed
  obtain ⟨outer, _, rootFound, _, rootFits⟩ :=
    mem_planned (kept_planned (mem_roots.mp rootMember).1)
  obtain ⟨inner, _, _, sound, childFits⟩ := mem_planned (kept_planned childMember)
  rw [childFits.parent, to_shape_parent] at enclosed
  have allowed := sealed_of_sound enclosed sound
  obtain ⟨marker, marked⟩ := marker_of_first rootFound
  refine ⟨outer, root.declaredName, rootFound, rootFits.kind, ?_⟩
  cases marker with
  | dataClass => exact (allowed marked).elim
  | sealedParent => exact marked

/-- Where the markers of each name agree, only sealed parents have children. A declaration in a kept
plain class has its own fault reported or, if it has no other, its place; none is ever reported for
its place in a kept sealed parent. -/
theorem only_sealed_parents_have_children (declarations : List ShapeDeclaration)
    (settings : Settings) (agree : MarkersAgree declarations) :
    (∀ unit ∈ (ofDeclarations declarations settings).units,
      unit.children ≠ [] → unit.shape.kind = .sealedParent) ∧
    (∀ declaration enclosing,
      first? declarations declaration.qualifiedName = some declaration →
      declaration.parent = some enclosing →
      (Schema.ofDeclarations declarations settings).schema.Keeps enclosing .plain →
      .structural declaration.qualifiedName
          ((declaration.structuralFault? settings fun _ => none).getD
            (.nestedInPlainShape enclosing)) ∈
        (ofDeclarations declarations settings).defects) ∧
    ∀ name enclosing,
      (Schema.ofDeclarations declarations settings).schema.Keeps enclosing .sealedParent →
      .structural name (.nestedInPlainShape enclosing) ∉
        (ofDeclarations declarations settings).defects := by
  refine ⟨?_, ?_, ?_⟩
  · intro unit member parental
    obtain ⟨declaration, name, found, kind, marked⟩ := parent_declared member parental
    rw [agree, found, Option.map_some, Option.some.injEq] at marked
    rw [kind, shapeKind, marked]
  · intro declaration enclosing found enclosed kept
    apply structural_defect found
    apply fault_in_plain enclosed
    obtain ⟨outer, _, outerFound, _, kind⟩ := Schema.keeps_iff.mp kept
    rw [agree, outerFound, Option.map_some, plain_marker kind]
  · intro name enclosing kept rejected
    obtain ⟨outer, _, outerFound, _, kind⟩ := Schema.keeps_iff.mp kept
    rw [mem_structural_defects (by simp) (by simp)] at rejected
    obtain ⟨_, _, fault⟩ := rejected
    have plain := plain_of_fault fault
    rw [agree, outerFound, Option.map_some, Option.some.injEq] at plain
    rw [shapeKind, plain] at kind
    cases kind

def sealedResult : ShapeDeclaration :=
  { name := "ResultDBC", package := "com.acme", marker := .sealedParent }

def plainResult : ShapeDeclaration := { sealedResult with marker := .dataClass }

def nestedOk : ShapeDeclaration :=
  { name := "OkDBC", package := "com.acme", parent := some sealedResult.qualifiedName }

theorem nested_ok_fits : nestedOk.structuralFault? {} (fun _ => none) = none := by decide +kernel

theorem plain_result_kept (rest : List ShapeDeclaration) :
    (Schema.ofDeclarations (plainResult :: rest) {}).schema.Keeps sealedResult.qualifiedName
      .plain := by
  have named : plainResult.qualifiedName = sealedResult.qualifiedName := rfl
  rw [Schema.keeps_iff]
  refine ⟨plainResult, plainResult.toShape {} [], ?_, rfl, rfl⟩
  rw [first_cons, if_pos named]

/-- A child of a plain class is reported for its place. -/
theorem child_of_plain_result_is_misplaced :
    MarkersAgree [plainResult, nestedOk] ∧
      .structural nestedOk.qualifiedName (.nestedInPlainShape sealedResult.qualifiedName) ∈
        (ofDeclarations [plainResult, nestedOk] {}).defects := by
  have distinct : ([plainResult, nestedOk].map (·.qualifiedName)).Nodup := by decide +kernel
  have agree := MarkersAgree.of_distinct distinct
  refine ⟨agree, ?_⟩
  have found : first? [plainResult, nestedOk] nestedOk.qualifiedName = some nestedOk := by
    decide +kernel
  have misplaced := (only_sealed_parents_have_children _ {} agree).2.1 nestedOk _ found rfl
    (plain_result_kept _)
  rw [nested_ok_fits] at misplaced
  exact misplaced

/-- With two markers of one name, a child of a kept plain class is let in, and one of a kept sealed
parent is reported. -/
theorem last_result_misplaces_child :
    ((Schema.ofDeclarations [plainResult, sealedResult, nestedOk] {}).schema.Keeps
        sealedResult.qualifiedName .plain ∧
      .structural nestedOk.qualifiedName (.nestedInPlainShape sealedResult.qualifiedName) ∉
        (ofDeclarations [plainResult, sealedResult, nestedOk] {}).defects) ∧
    ((Schema.ofDeclarations [sealedResult, plainResult, nestedOk] {}).schema.Keeps
        sealedResult.qualifiedName .sealedParent ∧
      .structural nestedOk.qualifiedName (.nestedInPlainShape sealedResult.qualifiedName) ∈
        (ofDeclarations [sealedResult, plainResult, nestedOk] {}).defects) := by
  refine ⟨⟨plain_result_kept _, ?_⟩, ?_, ?_⟩
  · intro rejected
    rw [mem_structural_defects (by simp) (by simp)] at rejected
    obtain ⟨_, _, fault⟩ := rejected
    have plain := plain_of_fault fault
    have marked : markerIn? [plainResult, sealedResult, nestedOk] sealedResult.qualifiedName =
        some .sealedParent := by
      decide +kernel
    rw [marked] at plain
    cases plain
  · rw [Schema.keeps_iff]
    refine ⟨sealedResult, sealedResult.toShape {} [], ?_, rfl, rfl⟩
    rw [first_cons, if_pos rfl]
  · have found : first? [sealedResult, plainResult, nestedOk] nestedOk.qualifiedName =
        some nestedOk := by
      decide +kernel
    have marked : markerIn? [sealedResult, plainResult, nestedOk] sealedResult.qualifiedName =
        some .dataClass := by
      decide +kernel
    have enclosed : nestedOk.parent = some sealedResult.qualifiedName := rfl
    apply structural_defect found
    rw [fault_in_plain enclosed marked, nested_ok_fits]
    rfl

end Assembly

end ShapeCompat
