import ShapeCompat.Document.Loading
import ShapeCompat.Proofs.Codec
import ShapeCompat.Proofs.Json.Canonical

/-!
Documents as texts. A declaration document has nothing in it that is written otherwise than it is
read, so its text gives it back.
-/

namespace ShapeCompat

open Json

theorem DeclaredDefault.exact (value : DeclaredDefault) : value.toJson.IsExact := by
  have written (name text : String) : MembersExact (textMember name text) := by
    rcases text_member_cases name text with ⟨_, absent⟩ | present
    · rw [absent]
      exact trivial
    · rw [present]
      exact ⟨trivial, trivial⟩
  change MembersExact _
  simp [written]

theorem DeclaredRequirement.exact (requirement : DeclaredRequirement) :
    requirement.toJson.IsExact := by
  have version : IsWord requirement.sinceVersion.toInt := by
    have low := requirement.sinceVersion.le_toInt
    have high := requirement.sinceVersion.toInt_lt
    unfold IsWord UInt64.size
    omega
  change MembersExact _
  simp [IsExact, version, DeclaredDefault.exact]

theorem FieldDeclaration.exact (field : FieldDeclaration) : field.toJson.IsExact := by
  change MembersExact _
  simp [IsExact, Mutability.toJson, optional_member_exact DeclaredDefault.exact,
    optional_member_exact DeclaredRequirement.exact, optional_member_exact Faithful.text.exact]

theorem ShapeDeclaration.exact (shape : ShapeDeclaration) : shape.toJson.IsExact := by
  have version : IsWord shape.version.toNat := Faithful.uint32.exact shape.version
  change MembersExact _
  simp [IsExact, DeclarationKind.toJson, Marker.toJson, version,
    optional_member_exact Faithful.text.exact, texts_member_exact,
    list_member_exact FieldDeclaration.exact]

theorem Document.exact (document : Document) : document.toJson.IsExact := by
  change MembersExact _
  simp [optional_member_exact Faithful.text.exact, list_member_exact ShapeDeclaration.exact]

/-- Plans and schemas are read back from their JSON form, declaration documents also from their text,
unless they name a schema that is not supported. -/
theorem documents_survive_round_trips :
    (∀ plan : Plan, Plan.ofJson? plan.toJson = some plan) ∧
    (∀ schema : Schema, Schema.ofJson? schema.toJson = some schema) ∧
    ∀ document : Document, Document.ofJson? document.toJson = some document ∧
      Document.parse document.toJson.compact =
        match document.schema with
        | none => .ok document
        | some name =>
            if name = Document.schemaName then .ok document else .error (.schema name) := by
  refine ⟨Plan.round_trips.recovers, Schema.round_trips.recovers, ?_⟩
  intro document
  have recovered := Document.round_trips.recovers document
  have read : (parse? document.toJson.compact).bind Document.ofJson? = some document := by
    rw [parse_compact document.exact, Option.bind_some, recovered]
  refine ⟨recovered, ?_⟩
  cases named : document.schema with
  | none => simp only [Document.parse, read, named]
  | some name => simp only [Document.parse, read, named]

end ShapeCompat
