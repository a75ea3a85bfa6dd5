import ShapeCompat.Schema.Checking

/-!
What checking guarantees of every shape in a schema: field names are distinct, and each field has
the literal that its mutability and its requirement call for. All later results on plans rest on
this alone and never look at declarations again.
-/

namespace ShapeCompat

theorem mem_accepted {Fault Value : Type} {outcomes : List (Except Fault Value)} {value : Value} :
    value ∈ accepted outcomes ↔ .ok value ∈ outcomes := by
  unfold accepted
  rw [List.mem_filterMap]
  constructor
  · intro both
    rcases both with ⟨outcome, member, found⟩
    cases outcome with
    | error fault => cases found
    | ok other =>
        cases found
        exact member
  · intro member
    exact ⟨_, member, rfl⟩

theorem mem_rejected {Fault Value : Type} {outcomes : List (Except Fault Value)} {fault : Fault} :
    fault ∈ rejected outcomes ↔ .error fault ∈ outcomes := by
  unfold rejected
  rw [List.mem_filterMap]
  constructor
  · intro both
    rcases both with ⟨outcome, member, found⟩
    cases outcome with
    | error other =>
        cases found
        exact member
    | ok value => cases found
  · intro member
    exact ⟨_, member, rfl⟩

section Outcomes

variable {Fault Value : Type} (outcomes : List (Except Fault Value)) (value : Value) (fault : Fault)

@[simp] theorem accepted_cons_ok :
    accepted (.ok value :: outcomes) = value :: accepted outcomes := rfl

@[simp] theorem accepted_cons_error :
    accepted (.error fault :: outcomes) = accepted outcomes := rfl

@[simp] theorem rejected_cons_ok : rejected (.ok value :: outcomes) = rejected outcomes := rfl

@[simp] theorem rejected_cons_error :
    rejected (.error fault :: outcomes) = fault :: rejected outcomes := rfl

end Outcomes

structure Field.IsSound (field : Field) : Prop where
  frozen_literal : field.mutability ≠ .mutable → field.default.isSome
  required_literal : field.requirement.isSome → field.default.isSome
  required_later : ∀ requirement, field.requirement = some requirement →
    1 < requirement.sinceVersion
  literal_nonempty : ∀ literal, field.default = some literal → literal ≠ ""

structure Shape.IsSound (shape : Shape) : Prop where
  names_distinct : (shape.fields.map (·.name)).Nodup
  fields_sound : ∀ field ∈ shape.fields, field.IsSound

theorem declared_default_nonempty (value : DeclaredDefault) (literal : String)
    (found : value.literal? = some literal) : literal ≠ "" := by
  unfold DeclaredDefault.literal? at found
  split at found
  · rename_i raw
    cases found
    exact raw
  · split at found
    · cases found
      simp
    · cases found

theorem requirement_version_later (declared : Int64) (version : UInt32)
    (found : requirementVersion? declared = some version) : 1 < version := by
  simp only [requirementVersion?] at found
  split at found
  · rename_i range
    cases found
    have bound : declared.toInt.toNat < UInt32.size := by omega
    rw [UInt32.lt_iff_toNat_lt, UInt32.toNat_ofNat_of_lt' bound]
    change 1 < declared.toInt.toNat
    omega
  · cases found

namespace FieldDeclaration

/-- A default that passes its check is not empty, and a requirement never comes without one. -/
theorem check_default_sound (field : FieldDeclaration) (default : Option String)
    (requirement : Option Requirement) (checked : field.checkDefault = .ok (default, requirement)) :
    (requirement.isSome → default.isSome) ∧
      (∀ found, requirement = some found → 1 < found.sinceVersion) ∧
      ∀ literal, default = some literal → literal ≠ "" := by
  unfold checkDefault at checked
  split at checked
  · split at checked
    · cases checked
    · split at checked
      · cases checked
      · cases checked
      · rename_i version literal versionFound literalFound
        cases checked
        refine ⟨fun _ => rfl, ?_, ?_⟩
        · intro found same
          cases same
          exact requirement_version_later _ _ versionFound
        · intro other same
          cases same
          exact declared_default_nonempty _ _ literalFound
  · cases checked
    refine ⟨by simp, by simp, ?_⟩
    intro literal found
    rcases Option.or_eq_some_iff.mp found with declared | ⟨_, implicit⟩
    · obtain ⟨value, _, valueLiteral⟩ := Option.bind_eq_some_iff.mp declared
      exact declared_default_nonempty _ _ valueLiteral
    · split at implicit
      · cases implicit
        decide
      · cases implicit

theorem check_sound (declaration : FieldDeclaration) (field : Field)
    (checked : declaration.check = .ok field) :
    field.IsSound ∧ field.name = declaration.name := by
  unfold check at checked
  cases outcome : declaration.checkDefault with
  | error fault =>
      rw [outcome] at checked
      cases checked
  | ok pair =>
      obtain ⟨default, requirement⟩ := pair
      rw [outcome] at checked
      obtain ⟨required, later, nonempty⟩ := check_default_sound _ _ _ outcome
      simp only [bind, Except.bind] at checked
      split at checked
      · cases checked
      · rename_i frozen
        cases checked
        refine ⟨⟨?_, required, later, nonempty⟩, rfl⟩
        intro changed
        cases default with
        | none => exact (frozen ⟨changed, rfl⟩).elim
        | some literal => rfl

end FieldDeclaration

theorem map_error_ok {Fault Other Value : Type} (change : Fault → Other) (value : Value) :
    (Except.ok value : Except Fault Value).mapError change = .ok value := rfl

theorem map_error_error {Fault Other Value : Type} (change : Fault → Other) (fault : Fault) :
    (Except.error fault : Except Fault Value).mapError change = .error (change fault) := rfl

theorem check_fields_cons (seen : List String) (declaration : FieldDeclaration)
    (rest : List FieldDeclaration) :
    checkFields seen (declaration :: rest) =
      (if declaration.name ∈ seen then .error ⟨declaration.name, .duplicateField⟩
      else declaration.check.mapError (⟨declaration.name, ·⟩)) ::
        checkFields (declaration.name :: seen) rest := rfl

/-- Where no field is rejected, every declared field is accepted under its own name, and no name
comes twice. -/
theorem check_fields_accepted (seen : List String) (declared : List FieldDeclaration)
    (clean : rejected (checkFields seen declared) = []) :
    (accepted (checkFields seen declared)).map (·.name) = declared.map (·.name) ∧
      (declared.map (·.name)).Nodup ∧ (∀ field ∈ declared, field.name ∉ seen) ∧
      ∀ field ∈ accepted (checkFields seen declared), field.IsSound := by
  induction declared generalizing seen with
  | nil => simp [checkFields, accepted]
  | cons declaration rest induction =>
      rw [check_fields_cons] at clean ⊢
      by_cases repeated : declaration.name ∈ seen
      · rw [if_pos repeated, rejected_cons_error] at clean
        cases clean
      · rw [if_neg repeated] at clean ⊢
        cases outcome : declaration.check with
        | error fault =>
            rw [outcome, map_error_error, rejected_cons_error] at clean
            cases clean
        | ok field =>
            obtain ⟨sound, name⟩ := FieldDeclaration.check_sound _ _ outcome
            rw [outcome, map_error_ok, rejected_cons_ok] at clean
            obtain ⟨names, distinct, fresh, allSound⟩ := induction _ clean
            rw [map_error_ok, accepted_cons_ok]
            refine ⟨by simp [names, name], ?_, ?_, ?_⟩
            · rw [List.map_cons, List.nodup_cons]
              refine ⟨?_, distinct⟩
              intro again
              obtain ⟨other, member, same⟩ := List.mem_map.mp again
              exact fresh other member (by simp [same])
            · intro other member
              rcases List.mem_cons.mp member with rfl | later
              · exact repeated
              · intro earlier
                exact fresh other later (List.mem_cons_of_mem _ earlier)
            · intro other member
              rcases List.mem_cons.mp member with rfl | later
              · exact sound
              · exact allSound other later

namespace ShapeDeclaration

theorem check_ok_fields (declaration : ShapeDeclaration) (settings : Settings)
    (markerOf : String → Option Marker) (shape : Shape)
    (checked : declaration.check settings markerOf = .ok shape) :
    rejected (checkFields [] declaration.fields) = [] ∧
      shape = declaration.toShape settings (accepted (checkFields [] declaration.fields)) := by
  unfold check at checked
  split at checked
  · cases checked
  · dsimp only at checked
    split at checked
    · rename_i clean
      cases checked
      exact ⟨clean, rfl⟩
    · cases checked

theorem check_ok_sound (declaration : ShapeDeclaration) (settings : Settings)
    (markerOf : String → Option Marker) (shape : Shape)
    (checked : declaration.check settings markerOf = .ok shape) : shape.IsSound := by
  obtain ⟨clean, rfl⟩ := check_ok_fields _ _ _ _ checked
  obtain ⟨names, distinct, _, allSound⟩ := check_fields_accepted _ _ clean
  refine ⟨?_, allSound⟩
  change ((accepted (checkFields [] declaration.fields)).map (·.name)).Nodup
  rw [names]
  exact distinct

end ShapeDeclaration

end ShapeCompat
