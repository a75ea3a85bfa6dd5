import ShapeCompat.Proofs.Codec
import ShapeCompat.Proofs.Construction.Ambiguity
import ShapeCompat.Proofs.Json.Canonical
import ShapeCompat.Schema.Checking

/-!
What a fingerprint tells. The text that it is taken over has every part of a shape that a plan is
made from, each in a form that it can be told from. So shapes with one text have one plan, apart
from their own documentation.
-/

namespace ShapeCompat

open Json

section Encodings

theorem Mutability.faithful : Faithful Mutability.toJson := .named of_name

theorem ShapeKind.faithful : Faithful ShapeKind.toJson := .named of_name

theorem Style.faithful : Faithful Style.toJson := .named of_name

theorem Field.literal_faithful : Faithful Field.literalToJson where
  exact := fun _ => ⟨trivial, trivial⟩
  same := fun _ _ => Faithful.text.part id "literal" fun _ => rfl

theorem Requirement.faithful : Faithful Requirement.toJson where
  exact := by
    intro requirement
    exact ⟨Faithful.uint32.exact requirement.sinceVersion, trivial, trivial⟩
  same := by
    intro first second agree
    have version := Faithful.uint32.part sinceVersion "since_version" (fun _ => rfl) agree
    have optional := Faithful.bool.part previouslyOptional "previously_optional" (fun _ => rfl)
      agree
    cases first
    cases second
    congr

theorem Field.faithful : Faithful Field.toJson where
  exact := by
    intro field
    change MembersExact _
    simp [IsExact, Mutability.faithful.exact, optional_member_exact literal_faithful.exact,
      optional_member_exact Requirement.faithful.exact,
      optional_member_exact Faithful.text.exact]
  same := by
    intro first second agree
    have names := Faithful.text.part name "name" (fun _ => rfl) agree
    have types := Faithful.text.part type "ty" (fun _ => rfl) agree
    have nullables := Faithful.bool.part nullable "nullable" (fun _ => rfl) agree
    have mutabilities := Mutability.faithful.part mutability "mutability" (fun _ => rfl) agree
    have defaults := literal_faithful.optionalPart default "default"
      (fun _ => by simp [toJson, member?, List.lookup_append]) agree
    have requirements := Requirement.faithful.optionalPart requirement "requirement"
      (fun _ => by simp [toJson, member?, List.lookup_append]) agree
    have equalities := Faithful.bool.part equality "equality"
      (fun _ => by simp [toJson, member?, List.lookup_append]) agree
    have overriding := Faithful.bool.part overrides "overrides"
      (fun _ => by simp [toJson, member?, List.lookup_append]) agree
    have docs := Faithful.text.optionalPart doc "doc"
      (fun _ => by simp [toJson, member?, List.lookup_append]) agree
    cases first
    cases second
    congr

end Encodings

/-- A plan without the documentation of its shape. -/
def ShapePlan.undocumented (plan : ShapePlan) : ShapePlan := { plan with doc := none }

namespace Shape

/-- The shapes have the same in all that a plan is made from. -/
structure SameContent (first second : Shape) : Prop where
  declared : first.declaredQualifiedName = second.declaredQualifiedName
  outputName : first.outputName = second.outputName
  outputPackage : first.outputPackage = second.outputPackage
  version : first.version = second.version
  kind : first.kind = second.kind
  fields : first.fields = second.fields
  interfaces : first.interfaces = second.interfaces
  annotations : first.annotations = second.annotations

variable {first second : Shape} {style other : Style}

theorem SameContent.output_qualified (same : SameContent first second) :
    first.outputQualifiedName = second.outputQualifiedName := by
  rw [outputQualifiedName, outputQualifiedName, same.outputPackage, same.outputName]

theorem content_exact (shape : Shape) (style : Style) : (shape.content style).IsExact := by
  have parents : ((shape.parent.map fun link => Json.text link.declared).getD .null).IsExact := by
    cases shape.parent <;> exact trivial
  exact ⟨trivial, trivial, trivial, Faithful.uint32.exact shape.version,
    ShapeKind.faithful.exact shape.kind, parents, Field.faithful.list.exact shape.fields,
    texts_exact shape.interfaces, texts_exact shape.annotations, Style.faithful.exact style,
    trivial⟩

theorem same_of_content (agree : Agree (first.content style) (second.content other)) :
    SameContent first second ∧ style = other := by
  refine ⟨⟨?_, ?_, ?_, ?_, ?_, ?_, ?_, ?_⟩, ?_⟩
  · exact Faithful.text.found agree "declared" rfl rfl
  · exact Faithful.text.found agree "output_name" rfl rfl
  · exact Faithful.text.found agree "output_package" rfl rfl
  · exact Faithful.uint32.found agree "version" rfl rfl
  · exact ShapeKind.faithful.found agree "kind" rfl rfl
  · exact Field.faithful.list.found agree "fields" rfl rfl
  · exact Faithful.text.list.found agree "interfaces" rfl rfl
  · exact Faithful.text.list.found agree "annotations" rfl rfl
  · exact Style.faithful.found agree "style" rfl rfl

theorem construction_of_same (same : SameContent first second) (owner : String) (style : Style) :
    first.construction owner style = second.construction owner style := by
  have relevant : first.relevantFields = second.relevantFields :=
    congrArg (List.filter _) same.fields
  have optional : first.hasOptionalTier = second.hasOptionalTier :=
    congrArg (List.any · _) same.fields
  have attached : first.attachEntries style first.overloads =
      second.attachEntries style second.overloads := by
    rw [attachEntries, attachEntries, overloads_of_fields same.fields, relevant, optional]
  have factories : first.factory owner = second.factory owner := by
    rw [factory, factory, relevant, same.outputName]
  have copied : first.copyPlan = second.copyPlan := by
    rw [copyPlan, copyPlan, relevant, same.fields]
  unfold construction primaryConstructor
  rw [attached, factories, copied, same.declared, same.fields]

theorem builder_of_fields (same : first.fields = second.fields) :
    first.builder = second.builder := by
  unfold builder concreteBuilder optionalTier storedFields
  rw [same]

theorem plain_parts_of_same (same : SameContent first second) :
    first.plainParts? style = second.plainParts? style := by
  have identities : first.identity second.outputQualifiedName =
      second.identity second.outputQualifiedName := by
    rw [identity, identity, same.fields, same.outputName]
  unfold plainParts?
  rw [same.kind, same.output_qualified]
  dsimp only
  rw [construction_of_same same, builder_of_fields same.fields, identities]

theorem plan_of_same (same : SameContent first second)
    (text : first.contentText style = second.contentText style) :
    (first.plan style).map ShapePlan.undocumented =
      (second.plan style).map ShapePlan.undocumented := by
  unfold plan
  rw [plain_parts_of_same same, text, same.declared, same.outputName, same.output_qualified,
    same.kind, same.version, same.fields, same.interfaces, same.annotations]
  cases second.plainParts? style <;> rfl

end Shape

/-- Shapes whose fingerprints are taken over the same text have the same plan but for the
documentation of the shape, whatever styles they are planned in. -/
theorem content_text_determines_plan (first second : Shape) (style other : Style)
    (firstPlan secondPlan : ShapePlan) (planned : first.plan style = .ok firstPlan)
    (plannedOther : second.plan other = .ok secondPlan)
    (text : first.contentText style = second.contentText other) :
    firstPlan.undocumented = secondPlan.undocumented := by
  obtain ⟨same, rfl⟩ := Shape.same_of_content
    (sorted_of_canonical (first.content_exact style) (second.content_exact other) text)
  have plans := Shape.plan_of_same same text
  rw [planned, plannedOther] at plans
  exact Except.ok.inj plans

def ratingDeclaration : ShapeDeclaration :=
  { name := "RatingDBC", package := "com.acme", fields := [{ name := "stars", type := "Int" }] }

def documentedDeclaration : ShapeDeclaration := { ratingDeclaration with doc := some "Stars." }

def acceptedShape (declaration : ShapeDeclaration) : Shape :=
  declaration.toShape {} (accepted (checkFields [] declaration.fields))

theorem documentation_keeps_plan :
    acceptedShape ratingDeclaration ∈ (Schema.ofDeclarations [ratingDeclaration] {}).schema.shapes ∧
      acceptedShape documentedDeclaration ∈
        (Schema.ofDeclarations [documentedDeclaration] {}).schema.shapes ∧
      ∃ plan documented, (acceptedShape ratingDeclaration).plan .callback = .ok plan ∧
        (acceptedShape documentedDeclaration).plan .callback = .ok documented ∧
        plan.doc ≠ documented.doc ∧ plan.undocumented = documented.undocumented := by
  have distinct : (signatures ((acceptedShape ratingDeclaration).attachEntries .callback
      (acceptedShape ratingDeclaration).overloads)).Nodup := by
    decide +kernel
  have parts := Shape.plain_parts_of_construction rfl
    (Shape.construction_of_distinct distinct)
  have content : (acceptedShape ratingDeclaration).content .callback =
      (acceptedShape documentedDeclaration).content .callback := rfl
  have made : ∃ plan, (acceptedShape ratingDeclaration).plan .callback = .ok plan ∧
      plan.doc = none := by
    rw [Shape.plan, parts]
    exact ⟨_, rfl, rfl⟩
  have madeDocumented : ∃ plan, (acceptedShape documentedDeclaration).plan .callback = .ok plan ∧
      plan.doc = some "Stars." := by
    rw [Shape.plan, ← Shape.plain_parts_of_same
      (Shape.same_of_content (congrArg Json.sortMembers content)).1, parts]
    exact ⟨_, rfl, rfl⟩
  obtain ⟨plan, planned, bare⟩ := made
  obtain ⟨documented, plannedDocumented, said⟩ := madeDocumented
  refine ⟨by decide +kernel, by decide +kernel, plan, documented, planned, plannedDocumented, ?_,
    content_text_determines_plan _ _ _ _ _ _ planned plannedDocumented
      (congrArg Json.canonical content)⟩
  rw [bare, said]
  rintro ⟨⟩

end ShapeCompat
