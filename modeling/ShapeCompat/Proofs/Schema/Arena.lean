import ShapeCompat.Proofs.Assembly.Accounting

/-!
Schemas as arenas. Shapes lie in ascending order of their names, each at the position that it holds,
so a name belongs to one position at most and a parent link can be followed by either of the two.
-/

namespace ShapeCompat

/-- The shape is declared inside the one of this name. -/
def Shape.isNestedIn (shape : Shape) (name : String) : Bool :=
  shape.parent.any fun link => link.declared == name

namespace Schema

/-- Every shape holds the position at which it lies. -/
def Positioned (schema : Schema) : Prop :=
  ∀ position shape, schema.get? position = some shape → shape.position = position

/-- The position of a link is that of the shape with the declared name, and there is none only where
no shape has that name. -/
structure Resolves (schema : Schema) (link : ParentLink) : Prop where
  position : ∀ position, link.position = some position ↔
    ∃ parent, schema.get? position = some parent ∧ parent.declaredQualifiedName = link.declared
  absent : link.position = none ↔
    ∀ shape ∈ schema.shapes, shape.declaredQualifiedName ≠ link.declared

structure IsArena (schema : Schema) : Prop where
  positioned : schema.Positioned
  ascending : schema.shapes.Pairwise fun first second =>
    first.declaredQualifiedName < second.declaredQualifiedName
  resolved : ∀ shape ∈ schema.shapes, ∀ link, shape.parent = some link → schema.Resolves link
  found : ∀ shape ∈ schema.shapes,
    schema.findDeclared? shape.declaredQualifiedName = some shape
  children : ∀ position parent, schema.get? position = some parent →
    schema.childrenOf position =
      schema.shapes.filter (·.isNestedIn parent.declaredQualifiedName)
  childless : ∀ position, schema.get? position = none → schema.childrenOf position = []

variable {schema : Schema} {shape : Shape} {name : String} {position : Nat}

theorem mem_of_get (found : schema.get? position = some shape) : shape ∈ schema.shapes :=
  List.mem_of_getElem? found

theorem get_of_mem (member : shape ∈ schema.shapes) :
    ∃ position, schema.get? position = some shape :=
  List.mem_iff_getElem?.mp member

theorem of_shapes_positioned (shapes : List Shape) : (ofShapes shapes).Positioned := by
  intro position shape found
  rw [get?, of_shapes_shapes, List.getElem?_mapIdx] at found
  obtain ⟨_, _, rfl⟩ := Option.map_eq_some_iff.mp found
  rfl

theorem of_shapes_names (shapes : List Shape) :
    (ofShapes shapes).shapes.map (·.declaredQualifiedName) =
      shapes.map (·.declaredQualifiedName) := by
  have names := congrArg (List.map (·.declaredQualifiedName)) (of_shapes_unplaced shapes)
  rw [List.map_map, List.map_map] at names
  exact names

section Distinct

variable (distinct : (schema.shapes.map (·.declaredQualifiedName)).Nodup)
include distinct

theorem find_declared_of_mem (member : shape ∈ schema.shapes) :
    schema.findDeclared? shape.declaredQualifiedName = some shape :=
  find_of_distinct _ _ distinct member

theorem find_position_iff (positioned : schema.Positioned) :
    (schema.findDeclared? name).map (·.position) = some position ↔
      ∃ shape, schema.get? position = some shape ∧ shape.declaredQualifiedName = name := by
  constructor
  · intro mapped
    obtain ⟨shape, found, rfl⟩ := Option.map_eq_some_iff.mp mapped
    obtain ⟨place, listed⟩ := get_of_mem (List.mem_of_find?_eq_some found)
    have named := List.find?_some found
    rw [positioned place shape listed]
    exact ⟨shape, listed, beq_iff_eq.mp named⟩
  · intro placed
    obtain ⟨shape, listed, rfl⟩ := placed
    rw [find_declared_of_mem distinct (mem_of_get listed), Option.map_some,
      positioned position shape listed]

end Distinct

theorem find_position_none_iff :
    (schema.findDeclared? name).map (·.position) = none ↔
      ∀ shape ∈ schema.shapes, shape.declaredQualifiedName ≠ name := by
  simp only [findDeclared?, Option.map_eq_none_iff, List.find?_eq_none, beq_iff_eq, ne_eq]

/-! ### Linking -/

/-- The shape with its parent link resolved. -/
def relinked (schema : Schema) (shape : Shape) : Shape :=
  { shape with
    parent := shape.parent.map fun link =>
      { link with position := (schema.findDeclared? link.declared).map (·.position) } }

theorem linked_shapes (schema : Schema) :
    schema.linked.shapes = schema.shapes.map schema.relinked := rfl

theorem linked_get (schema : Schema) (position : Nat) :
    schema.linked.get? position = (schema.get? position).map schema.relinked := by
  rw [get?, linked_shapes, List.getElem?_map, get?]

theorem linked_names (schema : Schema) :
    schema.linked.shapes.map (·.declaredQualifiedName) =
      schema.shapes.map (·.declaredQualifiedName) := by
  rw [linked_shapes, List.map_map]
  rfl

theorem linked_positioned (positioned : schema.Positioned) : schema.linked.Positioned := by
  intro position shape found
  rw [linked_get] at found
  obtain ⟨source, listed, rfl⟩ := Option.map_eq_some_iff.mp found
  exact positioned position source listed

/-- Linking moves no shape and renames none. -/
theorem linked_find_position (schema : Schema) (name : String) :
    (schema.linked.findDeclared? name).map (·.position) =
      (schema.findDeclared? name).map (·.position) := by
  rw [findDeclared?, linked_shapes, List.find?_map, Option.map_map]
  rfl

theorem linked_resolves (positioned : schema.Positioned)
    (distinct : (schema.shapes.map (·.declaredQualifiedName)).Nodup)
    (member : shape ∈ schema.linked.shapes) {link : ParentLink} (linked : shape.parent = some link) :
    schema.linked.Resolves link := by
  obtain ⟨source, _, rfl⟩ := List.mem_map.mp member
  obtain ⟨_, _, rfl⟩ := Option.map_eq_some_iff.mp linked
  constructor
  · intro position
    dsimp only
    rw [← linked_find_position,
      find_position_iff (linked_names schema ▸ distinct) (linked_positioned positioned)]
  · dsimp only
    rw [← linked_find_position, find_position_none_iff]

/-! ### Children -/

theorem children_of_parent
    (resolved : ∀ shape ∈ schema.shapes, ∀ link, shape.parent = some link → schema.Resolves link)
    {parent : Shape} (listed : schema.get? position = some parent) :
    schema.childrenOf position =
      schema.shapes.filter (·.isNestedIn parent.declaredQualifiedName) := by
  apply List.filter_congr
  intro shape member
  unfold Shape.isNestedIn
  cases enclosed : shape.parent with
  | none => rfl
  | some link =>
      rw [Option.bind_some, Option.any_some, Bool.eq_iff_iff, beq_iff_eq, beq_iff_eq,
        (resolved shape member link enclosed).position]
      constructor
      · intro placed
        obtain ⟨other, same, named⟩ := placed
        rw [listed, Option.some.injEq] at same
        rw [same, named]
      · intro named
        exact ⟨parent, listed, named.symm⟩

theorem children_of_absent
    (resolved : ∀ shape ∈ schema.shapes, ∀ link, shape.parent = some link → schema.Resolves link)
    (absent : schema.get? position = none) : schema.childrenOf position = [] := by
  unfold childrenOf
  rw [List.filter_eq_nil_iff]
  intro shape member placed
  obtain ⟨link, enclosed, position⟩ := Option.bind_eq_some_iff.mp (beq_iff_eq.mp placed)
  obtain ⟨parent, listed, _⟩ := ((resolved shape member link enclosed).position _).mp position
  rw [absent] at listed
  cases listed

/-- Linking shapes of distinct names that lie in the order of these names makes an arena. -/
theorem linked_is_arena (positioned : schema.Positioned)
    (ascending : (schema.shapes.map (·.declaredQualifiedName)).Pairwise (· < ·)) :
    schema.linked.IsArena := by
  have distinct : (schema.shapes.map (·.declaredQualifiedName)).Nodup :=
    List.nodup_iff_pairwise_ne.mpr (ascending.imp String.ne_of_lt)
  have resolved : ∀ shape ∈ schema.linked.shapes, ∀ link, shape.parent = some link →
      schema.linked.Resolves link :=
    fun shape member link => linked_resolves positioned distinct member
  exact {
    positioned := linked_positioned positioned
    ascending := List.pairwise_map.mp (linked_names schema ▸ ascending)
    resolved
    found := fun shape => find_declared_of_mem (linked_names schema ▸ distinct)
    children := fun position parent => children_of_parent resolved
    childless := fun position => children_of_absent resolved }

end Schema

namespace ShapeDeclaration

/-- Checking drops declarations and moves none. -/
theorem check_all_names_sublist (settings : Settings) (markerOf : String → Option Marker)
    (seen : List String) (declarations : List ShapeDeclaration) :
    ((accepted (checkAll settings markerOf seen declarations)).map
      (·.declaredQualifiedName)).Sublist (declarations.map (·.qualifiedName)) := by
  induction declarations generalizing seen with
  | nil => exact List.Sublist.slnil
  | cons declaration rest induction =>
      have later := induction (declaration.qualifiedName :: seen)
      rw [check_all_cons, List.map_cons]
      by_cases repeated : declaration.qualifiedName ∈ seen
      · rw [if_pos repeated, accepted_cons_error]
        exact later.cons _
      · rw [if_neg repeated]
        cases checked : declaration.check settings markerOf with
        | error defects =>
            rw [accepted_cons_error]
            exact later.cons _
        | ok shape =>
            rw [accepted_cons_ok, List.map_cons, check_ok_name checked]
            exact later.cons_cons _

end ShapeDeclaration

namespace Schema

theorem accepted_ascending (declarations : List ShapeDeclaration) (settings : Settings) :
    ((accepted (outcomes declarations settings)).map (·.declaredQualifiedName)).Pairwise
      (· < ·) := by
  have names := ShapeDeclaration.check_all_names_sublist settings
    (ShapeDeclaration.markerIn? declarations) [] (ShapeDeclaration.sorted declarations)
  have sorted : ((ShapeDeclaration.sorted declarations).map (·.qualifiedName)).Pairwise (· ≤ ·) :=
    List.pairwise_map.mpr (sorted_by_ascending _ declarations)
  have distinct := (ShapeDeclaration.checking_accounted settings
    (ShapeDeclaration.markerIn? declarations) [] (ShapeDeclaration.sorted declarations)).distinct
  exact List.pairwise_map.mpr
    (strictly_of_distinct (List.pairwise_map.mp (sorted.sublist names)) distinct)

end Schema

/-- The schema of any declarations is an arena. A name has a shape in it exactly when the first
declaration of the name passes its check, and that shape is what the check makes of the declaration,
its place apart. -/
theorem checked_declarations_make_arena (declarations : List ShapeDeclaration)
    (settings : Settings) :
    (Schema.ofDeclarations declarations settings).schema.IsArena ∧
    ∀ name shape,
      (∃ placed ∈ (Schema.ofDeclarations declarations settings).schema.shapes,
        placed.declaredQualifiedName = name ∧ placed.unplaced = shape) ↔
      ∃ declaration, ShapeDeclaration.first? declarations name = some declaration ∧
        declaration.check settings (ShapeDeclaration.markerIn? declarations) = .ok shape := by
  refine ⟨?_, fun name shape => ShapeDeclaration.schema_shape_iff⟩
  rw [Schema.of_declarations_eq]
  apply Schema.linked_is_arena (Schema.of_shapes_positioned _)
  rw [Schema.of_shapes_names]
  exact Schema.accepted_ascending declarations settings

end ShapeCompat
