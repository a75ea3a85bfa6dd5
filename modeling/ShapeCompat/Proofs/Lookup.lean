import ShapeCompat.Explanation
import ShapeCompat.Plan.OfDocuments
import ShapeCompat.Proofs.Assembly.Collisions
import ShapeCompat.Proofs.Assembly.Names
import ShapeCompat.Proofs.Sorting
import Mathlib.Data.List.Find

/-!
Looking shapes up by the names that they are put out under. Declared names are tried in the same
pass, so a shape is hidden from its own name where one before it is declared under that name.
-/

namespace ShapeCompat

namespace Plan

/-- `other` is put out before `shape`, and declared under the name that `shape` is put out under. -/
def Hides (plan : Plan) (other shape : ShapePlan) : Prop :=
  other.declaredName = shape.qualifiedName ∧
    ∃ before after, plan.shapePlans = before ++ shape :: after ∧ other ∈ before

/-- No two shapes share a declared name, and no two share an output name. -/
structure NamesApart (plan : Plan) : Prop where
  declared : (plan.shapePlans.map (·.declaredName)).Nodup
  output : (plan.shapePlans.map (·.qualifiedName)).Nodup

theorem of_documents_names_apart (directory : String) (settings : Settings) (tool : Tool)
    (documents : List LoadedDocument) :
    (ofDocuments directory settings tool documents).NamesApart where
  declared := (Assembly.output_accounted _ settings).distinct
  output := Assembly.plan_names_distinct _ settings

variable {plan : Plan} {shape other : ShapePlan} {before after : List ShapePlan}

theorem NamesApart.before_ne (apart : plan.NamesApart)
    (split : plan.shapePlans = before ++ shape :: after) (member : other ∈ before) :
    other.qualifiedName ≠ shape.qualifiedName := by
  have distinct := apart.output
  rw [split, List.map_append, List.map_cons] at distinct
  exact (List.nodup_append.mp distinct).2.2 _ (List.mem_map_of_mem member) _ List.mem_cons_self

/-- The first of the shapes before this one that is declared under its output name, else itself. -/
theorem NamesApart.find_shape (apart : plan.NamesApart)
    (split : plan.shapePlans = before ++ shape :: after) :
    plan.findShape? shape.qualifiedName =
      some ((before.find? (·.declaredName == shape.qualifiedName)).getD shape) := by
  have declaredOnly : before.find? (fun other =>
        other.qualifiedName == shape.qualifiedName || other.declaredName == shape.qualifiedName) =
      before.find? (·.declaredName == shape.qualifiedName) := by
    apply List.find?_congr
    intro other member
    rw [beq_false_of_ne (apart.before_ne split member), Bool.false_or]
  rw [findShape?, split, List.find?_append, declaredOnly, List.find?_cons_of_pos (by simp)]
  cases before.find? (·.declaredName == shape.qualifiedName) with
  | none => rfl
  | some other => rfl

theorem NamesApart.find_hidden (apart : plan.NamesApart) (hides : plan.Hides other shape) :
    plan.findShape? shape.qualifiedName = some other := by
  obtain ⟨named, before, after, split, member⟩ := hides
  have distinct : (before.map (·.declaredName)).Nodup := by
    have all := apart.declared
    rw [split, List.map_append] at all
    exact (List.nodup_append.mp all).1
  rw [apart.find_shape split, ← named, find_of_distinct _ _ distinct member, Option.getD_some]

theorem NamesApart.find_unhidden (apart : plan.NamesApart) (member : shape ∈ plan.shapePlans)
    (free : ∀ other, ¬plan.Hides other shape) :
    plan.findShape? shape.qualifiedName = some shape := by
  obtain ⟨before, after, split⟩ := List.append_of_mem member
  have absent : before.find? (·.declaredName == shape.qualifiedName) = none := by
    rw [List.find?_eq_none]
    intro other earlier named
    exact free other ⟨beq_iff_eq.mp named, before, after, split, earlier⟩
  rw [apart.find_shape split, absent, Option.getD_none]

theorem NamesApart.hides_ne (apart : plan.NamesApart) (hides : plan.Hides other shape) :
    other ≠ shape := by
  obtain ⟨_, _, _, split, member⟩ := hides
  intro same
  exact apart.before_ne split member (congrArg ShapePlan.qualifiedName same)

theorem mem_known_shapes {name : String} :
    name ∈ plan.knownShapes ↔ ∃ shape ∈ plan.shapePlans, shape.qualifiedName = name := by
  rw [knownShapes, (List.mergeSort_perm _ _).mem_iff, List.mem_map]

theorem NamesApart.known_shapes_ascending (apart : plan.NamesApart) :
    plan.knownShapes.Pairwise (· < ·) := by
  have distinct : (plan.knownShapes.map id).Nodup := by
    rw [List.map_id]
    exact (sorted_by_perm id _).nodup_iff.mpr apart.output
  exact strictly_of_distinct (sorted_by_ascending id _) distinct

end Plan

theorem Explanation.of_name_found {plan : Plan} {name : String} {shape : ShapePlan}
    (found : plan.findShape? name = some shape) :
    Explanation.ofName plan name = .planned shape := by
  rw [Explanation.ofName, found]

/-- The known names are the output names, each once and in ascending order. Such a name is answered
with the shape that is put out under it exactly if no shape before it is declared under the name; a
shape that is so takes its place. -/
theorem output_names_lead_to_their_shapes_unless_hidden (directory : String) (settings : Settings)
    (tool : Tool) (documents : List LoadedDocument) :
    let plan := Plan.ofDocuments directory settings tool documents
    plan.knownShapes.Pairwise (· < ·) ∧
    (∀ name, name ∈ plan.knownShapes ↔ ∃ shape ∈ plan.shapePlans, shape.qualifiedName = name) ∧
    ∀ shape ∈ plan.shapePlans,
      (Explanation.ofName plan shape.qualifiedName = .planned shape ↔
        ∀ other, ¬plan.Hides other shape) ∧
      ∀ other, plan.Hides other shape →
        other ≠ shape ∧ Explanation.ofName plan shape.qualifiedName = .planned other := by
  intro plan
  have apart : plan.NamesApart := Plan.of_documents_names_apart directory settings tool documents
  refine ⟨apart.known_shapes_ascending, fun name => Plan.mem_known_shapes, ?_⟩
  intro shape member
  have hidden : ∀ other, plan.Hides other shape →
      other ≠ shape ∧ Explanation.ofName plan shape.qualifiedName = .planned other := by
    intro other hides
    exact ⟨apart.hides_ne hides, Explanation.of_name_found (apart.find_hidden hides)⟩
  refine ⟨⟨?_, ?_⟩, hidden⟩
  · intro own other hides
    obtain ⟨different, answered⟩ := hidden other hides
    rw [own, Explanation.planned.injEq] at answered
    exact different answered.symm
  · intro free
    exact Explanation.of_name_found (apart.find_unhidden member free)

/-- The first is put out as a customer, and the second under the name that the first is declared
under. -/
def namesakes : List ShapeDeclaration :=
  [{ name := "Person", package := "com.acme", generatedName := some "Customer" },
    { name := "PersonDBC", package := "com.acme" }]

def namesakesPlan : Plan :=
  Plan.ofDocuments "decls" {} {} [⟨"decls/people.json", .ok { shapes := namesakes }⟩]

theorem namesakes_planned :
    namesakesPlan.shapePlans.map (fun shape => (shape.declaredName, shape.qualifiedName)) =
      [("com.acme.Person", "com.acme.Customer"), ("com.acme.PersonDBC", "com.acme.Person")] := by
  have sorted : ShapeDeclaration.sorted namesakes = namesakes :=
    List.mergeSort_of_pairwise (by decide +kernel)
  have units : Assembly.unitsOf (Assembly.keptOf namesakes {}) =
      (Assembly.roots (Assembly.keptOf namesakes {})).map
        (PlannedShape.unit (Assembly.nested (Assembly.keptOf namesakes {}))) := by
    apply List.mergeSort_of_pairwise
    rw [Assembly.keptOf, Assembly.planned_of_sorted {} sorted]
    decide +kernel
  have planned : namesakesPlan.units = Assembly.unitsOf (Assembly.keptOf namesakes {}) := rfl
  rw [Plan.shapePlans, planned, units, Assembly.keptOf, Assembly.planned_of_sorted {} sorted]
  decide +kernel

/-- The name that a person is put out under leads to the customer. -/
theorem customer_answers_for_person :
    ∃ shape ∈ namesakesPlan.shapePlans, ∃ other ∈ namesakesPlan.shapePlans,
      shape.qualifiedName = "com.acme.Person" ∧ other.qualifiedName = "com.acme.Customer" ∧
        Explanation.ofName namesakesPlan shape.qualifiedName = .planned other := by
  obtain ⟨customer, rest, listed, renamed, others⟩ := List.map_eq_cons_iff.mp namesakes_planned
  obtain ⟨person, last, rfl, own, ended⟩ := List.map_eq_cons_iff.mp others
  obtain rfl := List.map_eq_nil_iff.mp ended
  simp only [Prod.mk.injEq] at renamed own
  have hides : namesakesPlan.Hides customer person :=
    ⟨renamed.1.trans own.2.symm, [customer], [], listed, List.mem_singleton_self _⟩
  have apart : namesakesPlan.NamesApart := Plan.of_documents_names_apart _ _ _ _
  refine ⟨person, by simp [listed], customer, by simp [listed], own.2, renamed.2, ?_⟩
  exact Explanation.of_name_found (apart.find_hidden hides)

end ShapeCompat
