import ShapeCompat.Proofs.Assembly.Accounting
import Mathlib.Algebra.Ring.Int.Defs
import Mathlib.Data.List.ReduceOption

/-!
Which field lists are accepted, and what is reported of the others. Soundness of a declared field is
said without the order in which it is checked; of each field at most one fault is reported, and a
field whose name came before only that its name did.
-/

namespace ShapeCompat

/-- The default has an expression or a text. -/
def DeclaredDefault.Given (value : DeclaredDefault) : Prop := value.raw ≠ "" ∨ value.plain ≠ ""

theorem DeclaredDefault.literal_given {value : DeclaredDefault} :
    value.literal?.isSome = true ↔ value.Given := by
  unfold literal? Given
  split_ifs with raw plain
  · simp [raw]
  · simp [plain]
  · simp_all

/-- The versions that a requirement may begin with: 2 and later ones, of 32 bits. -/
def DeclaredRequirement.InRange (requirement : DeclaredRequirement) : Prop :=
  2 ≤ requirement.sinceVersion.toInt ∧ requirement.sinceVersion.toInt ≤ 2 ^ 32 - 1

theorem requirement_version_some {declared : Int64} {version : UInt32}
    (found : requirementVersion? declared = some version) :
    (2 ≤ declared.toInt ∧ declared.toInt ≤ 2 ^ 32 - 1) ∧
      (version.toNat : Int) = declared.toInt := by
  simp only [requirementVersion?] at found
  split at found
  · rename_i range
    cases found
    have bound : declared.toInt.toNat < UInt32.size := by omega
    rw [UInt32.toNat_ofNat_of_lt' bound]
    have size : UInt32.size = 2 ^ 32 := rfl
    omega
  · cases found

theorem requirement_version_none {declared : Int64} (absent : requirementVersion? declared = none) :
    ¬(2 ≤ declared.toInt ∧ declared.toInt ≤ 2 ^ 32 - 1) := by
  simp only [requirementVersion?] at absent
  split at absent
  · cases absent
  · rename_i range
    have size : UInt32.size = 2 ^ 32 := rfl
    omega

namespace FieldDeclaration

def HasDefault (field : FieldDeclaration) : Prop :=
  ∃ value, field.default = some value ∧ value.Given

theorem declared_literal_given {field : FieldDeclaration} :
    field.declaredLiteral?.isSome = true ↔ field.HasDefault := by
  unfold declaredLiteral? HasDefault
  cases field.default with
  | none => simp
  | some value => simp [DeclaredDefault.literal_given]

/-- One default at most, a requirement with a version in range and a default of its own, and a value
for a field that is frozen. -/
structure IsSound (field : FieldDeclaration) : Prop where
  single_default : field.requirement.isSome → ¬field.HasDefault
  requirement : ∀ requirement, field.requirement = some requirement →
    requirement.InRange ∧ requirement.default.Given
  frozen : field.mutability ≠ .mutable →
    field.requirement.isSome ∨ field.HasDefault ∨ field.nullable = true

/-- The ways in which a field is not sound. A field may have several of these faults. -/
inductive HasFault (field : FieldDeclaration) : SchemaFault → Prop where
  | conflictingDefaults (required : field.requirement.isSome) (default : field.HasDefault) :
      HasFault field .conflictingDefaults
  | invalidSinceVersion (requirement : DeclaredRequirement)
      (required : field.requirement = some requirement) (outside : ¬requirement.InRange) :
      HasFault field (.invalidSinceVersion requirement.sinceVersion)
  | emptyRequirementDefault (requirement : DeclaredRequirement)
      (required : field.requirement = some requirement) (empty : ¬requirement.default.Given) :
      HasFault field .emptyRequirementDefault
  | missingFrozenDefault (frozen : field.mutability ≠ .mutable) (free : field.requirement = none)
      (bare : ¬field.HasDefault) (strict : field.nullable = false) :
      HasFault field (.missingFrozenDefault field.mutability)

theorem HasFault.not_sound {field : FieldDeclaration} {fault : SchemaFault}
    (faulty : field.HasFault fault) : ¬field.IsSound := by
  intro sound
  cases faulty with
  | conflictingDefaults required default => exact sound.single_default required default
  | invalidSinceVersion requirement required outside =>
      exact outside (sound.requirement requirement required).1
  | emptyRequirementDefault requirement required empty =>
      exact empty (sound.requirement requirement required).2
  | missingFrozenDefault frozen free bare strict =>
      rcases sound.frozen frozen with required | default | nullable
      · simp [free] at required
      · exact bare default
      · simp [strict] at nullable

/-- The literal of a sound field: its requirement's, else its own, else the null of a nullable
one. -/
def effectiveLiteral? (field : FieldDeclaration) : Option String :=
  match field.requirement with
  | some requirement => requirement.default.literal?
  | none => field.declaredLiteral?.or (if field.nullable then some nullLiteral else none)

/-- What a checked field has of its declaration. -/
structure Yields (declaration : FieldDeclaration) (field : Field) : Prop where
  name : field.name = declaration.name
  type : field.type = declaration.type
  nullable : field.nullable = declaration.nullable
  mutability : field.mutability = declaration.mutability
  equality : field.equality = !declaration.excludedFromEquality
  overrides : field.overrides = declaration.overrides
  doc : field.doc = declaration.doc
  default : field.default = declaration.effectiveLiteral?
  requirement :
    field.requirement.map (fun own => ((own.sinceVersion.toNat : Int), own.previouslyOptional)) =
      declaration.requirement.map fun own => (own.sinceVersion.toInt, own.previouslyOptional)

/-- What checking the default of a field comes to. -/
theorem check_default_verdict (field : FieldDeclaration) :
    (∃ fault, field.checkDefault = .error fault ∧ field.HasFault fault) ∨
    ∃ requirement, field.checkDefault = .ok (field.effectiveLiteral?, requirement) ∧
      (field.requirement.isSome → ¬field.HasDefault ∧ field.effectiveLiteral?.isSome = true) ∧
      (∀ own, field.requirement = some own → own.InRange ∧ own.default.Given) ∧
      requirement.map (fun own => ((own.sinceVersion.toNat : Int), own.previouslyOptional)) =
        field.requirement.map fun own => (own.sinceVersion.toInt, own.previouslyOptional) := by
  unfold checkDefault effectiveLiteral?
  cases required : field.requirement with
  | none => exact .inr ⟨none, rfl, by simp, by simp, rfl⟩
  | some own =>
      dsimp only
      by_cases default : field.declaredLiteral?.isSome = true
      · rw [if_pos default]
        exact .inl ⟨_, rfl, .conflictingDefaults (by simp [required])
          (declared_literal_given.mp default)⟩
      · rw [if_neg default]
        cases version : requirementVersion? own.sinceVersion with
        | none =>
            exact .inl ⟨_, rfl, .invalidSinceVersion own required
              (requirement_version_none version)⟩
        | some since =>
            obtain ⟨range, same⟩ := requirement_version_some version
            cases literal : own.default.literal? with
            | none =>
                refine .inl ⟨_, rfl, .emptyRequirementDefault own required ?_⟩
                rw [← DeclaredDefault.literal_given, literal]
                simp
            | some text =>
                have given : own.default.Given := by
                  rw [← DeclaredDefault.literal_given, literal]
                  rfl
                refine .inr ⟨_, rfl, ?_, ?_, ?_⟩
                · exact fun _ => ⟨fun given => default (declared_literal_given.mpr given), rfl⟩
                · intro other found
                  cases found
                  exact ⟨range, given⟩
                · simp [same]

/-- A field has a fault and is rejected for it, or it is sound and accepted as declared. -/
theorem check_verdict (declaration : FieldDeclaration) :
    (∃ fault, declaration.check = .error fault ∧ declaration.HasFault fault) ∨
    ∃ field, declaration.check = .ok field ∧ declaration.IsSound ∧ declaration.Yields field := by
  unfold check
  rcases check_default_verdict declaration with
    ⟨fault, failed, faulty⟩ | ⟨requirement, passed, single, ranged, same⟩
  · rw [failed]
    exact .inl ⟨fault, rfl, faulty⟩
  · rw [passed]
    simp only [bind, Except.bind]
    by_cases missing : declaration.mutability ≠ .mutable ∧ declaration.effectiveLiteral? = none
    · rw [if_pos missing]
      obtain ⟨frozen, absent⟩ := missing
      have free : declaration.requirement = none := by
        cases required : declaration.requirement with
        | none => rfl
        | some own =>
            have present := (single (by simp [required])).2
            simp [absent] at present
      unfold effectiveLiteral? at absent
      simp only [free, Option.or_eq_none_iff] at absent
      refine .inl ⟨_, rfl, .missingFrozenDefault frozen free ?_ ?_⟩
      · rw [← declared_literal_given, absent.1]
        simp
      · simpa using absent.2
    · rw [if_neg missing]
      refine .inr ⟨_, rfl, ⟨fun required => (single required).1, ranged, ?_⟩, ?_⟩
      · intro frozen
        cases required : declaration.requirement with
        | some own => exact .inl rfl
        | none =>
            refine .inr ?_
            have present : declaration.effectiveLiteral? ≠ none :=
              fun absent => missing ⟨frozen, absent⟩
            unfold effectiveLiteral? at present
            rw [required] at present
            rw [← declared_literal_given]
            cases literal : declaration.declaredLiteral? with
            | some text => exact .inl rfl
            | none => simpa [literal] using present
      · exact ⟨rfl, rfl, rfl, rfl, rfl, rfl, rfl, rfl, same⟩

/-- The fault that a field is rejected for on its own. -/
def fault? (declaration : FieldDeclaration) : Option SchemaFault :=
  match declaration.check with
  | .ok _ => none
  | .error fault => some fault

theorem fault_none_iff {declaration : FieldDeclaration} :
    declaration.fault? = none ↔ declaration.IsSound := by
  unfold fault?
  rcases check_verdict declaration with ⟨fault, failed, faulty⟩ | ⟨field, passed, sound, _⟩
  · rw [failed]
    simp [faulty.not_sound]
  · rw [passed]
    simp [sound]

theorem fault_some {declaration : FieldDeclaration} {fault : SchemaFault}
    (found : declaration.fault? = some fault) : declaration.HasFault fault := by
  unfold fault? at found
  rcases check_verdict declaration with ⟨other, failed, faulty⟩ | ⟨field, passed, _⟩
  · rw [failed] at found
    cases found
    exact faulty
  · rw [passed] at found
    cases found

end FieldDeclaration

/-- Nothing is rejected exactly when names are new and distinct and all fields are sound. -/
theorem check_fields_clean_iff (seen : List String) (declared : List FieldDeclaration) :
    rejected (checkFields seen declared) = [] ↔
      (declared.map (·.name)).Nodup ∧ (∀ field ∈ declared, field.name ∉ seen) ∧
        ∀ field ∈ declared, field.IsSound := by
  induction declared generalizing seen with
  | nil => simp [checkFields, rejected]
  | cons declaration rest induction =>
      rw [check_fields_cons]
      by_cases repeated : declaration.name ∈ seen
      · simp [repeated]
      · rw [if_neg repeated]
        rcases declaration.check_verdict with ⟨fault, failed, faulty⟩ | ⟨field, passed, sound, _⟩
        · rw [failed, map_error_error, rejected_cons_error]
          simp [faulty.not_sound]
        · rw [passed, map_error_ok, rejected_cons_ok, induction]
          simp only [List.forall_mem_cons]
          simp only [List.map_cons, List.nodup_cons, List.mem_cons, not_or]
          constructor
          · intro clean
            obtain ⟨distinct, fresh, allSound⟩ := clean
            refine ⟨⟨?_, distinct⟩, ⟨repeated, fun other member => (fresh other member).2⟩, sound,
              allSound⟩
            intro again
            obtain ⟨other, member, same⟩ := List.mem_map.mp again
            exact (fresh other member).1 same
          · intro clean
            obtain ⟨⟨single, distinct⟩, ⟨_, fresh⟩, _, allSound⟩ := clean
            refine ⟨distinct, fun other member => ⟨?_, fresh other member⟩, allSound⟩
            intro same
            exact single (same ▸ List.mem_map_of_mem member)

theorem check_fields_yield (seen : List String) (declared : List FieldDeclaration)
    (clean : rejected (checkFields seen declared) = []) :
    List.Forall₂ FieldDeclaration.Yields declared (accepted (checkFields seen declared)) := by
  induction declared generalizing seen with
  | nil => exact .nil
  | cons declaration rest induction =>
      rw [check_fields_cons] at clean ⊢
      by_cases repeated : declaration.name ∈ seen
      · simp [repeated] at clean
      · rw [if_neg repeated] at clean ⊢
        rcases declaration.check_verdict with ⟨fault, failed, _⟩ | ⟨field, passed, _, yields⟩
        · rw [failed, map_error_error, rejected_cons_error] at clean
          cases clean
        · rw [passed, map_error_ok, rejected_cons_ok] at clean
          rw [passed, map_error_ok, accepted_cons_ok]
          exact .cons yields (induction _ clean)

/-- What is rejected, place by place: a field whose name came before for that alone, another for
its own fault. -/
theorem check_fields_rejected (seen : List String) (declared : List FieldDeclaration) :
    rejected (checkFields seen declared) =
      (declared.mapIdx fun place field =>
        (if field.name ∈ seen ∨ field.name ∈ (declared.take place).map (·.name) then
          some .duplicateField
        else field.fault?).map (RejectedField.mk field.name)).reduceOption := by
  induction declared generalizing seen with
  | nil => rfl
  | cons declaration rest induction =>
      have later : (rest.mapIdx fun place field =>
            (if field.name ∈ declaration.name :: seen ∨
                field.name ∈ (rest.take place).map (·.name) then some .duplicateField
            else field.fault?).map (RejectedField.mk field.name)) =
          rest.mapIdx fun place field =>
            (if field.name ∈ seen ∨
                field.name ∈ ((declaration :: rest).take (place + 1)).map (·.name) then
              some .duplicateField
            else field.fault?).map (RejectedField.mk field.name) := by
        congr 1
        funext place field
        simp only [List.take_succ_cons, List.map_cons, List.mem_cons, or_assoc, or_left_comm]
      rw [check_fields_cons, List.mapIdx_cons, ← later]
      by_cases repeated : declaration.name ∈ seen
      · rw [if_pos repeated, if_pos (.inl repeated), rejected_cons_error, Option.map_some,
          List.reduceOption_cons_of_some, induction]
      · rw [if_neg repeated, if_neg (by simp [repeated])]
        unfold FieldDeclaration.fault?
        cases declaration.check with
        | error fault =>
            rw [map_error_error, rejected_cons_error]
            dsimp only
            rw [Option.map_some, List.reduceOption_cons_of_some, induction]
            rfl
        | ok field =>
            rw [map_error_ok, rejected_cons_ok]
            dsimp only
            rw [Option.map_none, List.reduceOption_cons_of_none, induction]
            rfl

/-- A defect of the schema family against this name. -/
def Defect.isSchemaOf (name : String) (defect : Defect) : Bool :=
  defect.shape == name && defect.family == .schema

namespace ShapeDeclaration

/-- The schema defects of a declaration without structural fault: one for each field whose name came
before, and one for each other field that has a fault. -/
def fieldDefects (declaration : ShapeDeclaration) : List Defect :=
  (declaration.fields.mapIdx fun place field =>
    (if field.name ∈ (declaration.fields.take place).map (·.name) then some .duplicateField
      else field.fault?).map (.schema declaration.qualifiedName (some field.name))).reduceOption

theorem field_defects_eq (declaration : ShapeDeclaration) :
    declaration.fieldDefects = (rejected (checkFields [] declaration.fields)).map fun field =>
      .schema declaration.qualifiedName (some field.name) field.fault := by
  rw [check_fields_rejected, ← List.reduceOption_map, fieldDefects, List.mapIdx_eq_zipIdx_map,
    List.mapIdx_eq_zipIdx_map, List.map_map]
  simp only [List.not_mem_nil, false_or, Function.comp_def, Option.map_map]

variable {declaration : ShapeDeclaration} {settings : Settings}
  {markerOf : String → Option Marker}

/-- The defects that a declaration is left out for. -/
def checkDefects (declaration : ShapeDeclaration) (settings : Settings)
    (markerOf : String → Option Marker) : List Defect :=
  match declaration.check settings markerOf with
  | .ok _ => []
  | .error defects => defects

/-- A declaration without structural fault has the defects of its fields, and is accepted when it
has none. -/
theorem check_of_structure (fits : declaration.structuralFault? settings markerOf = none) :
    declaration.checkDefects settings markerOf = declaration.fieldDefects ∧
      ((∃ shape, declaration.check settings markerOf = .ok shape) ↔
        rejected (checkFields [] declaration.fields) = []) := by
  rw [field_defects_eq]
  unfold checkDefects check
  rw [fits]
  dsimp only
  cases rejected (checkFields [] declaration.fields) with
  | nil => exact ⟨rfl, fun _ => rfl, fun _ => ⟨_, rfl⟩⟩
  | cons field rest =>
      refine ⟨rfl, ?_, fun none => by cases none⟩
      intro accepted
      obtain ⟨_, made⟩ := accepted
      cases made

theorem check_defects_own {defect : Defect}
    (member : defect ∈ declaration.checkDefects settings markerOf) :
    defect.shape = declaration.qualifiedName := by
  unfold checkDefects at member
  cases checked : declaration.check settings markerOf with
  | ok shape =>
      rw [checked] at member
      cases member
  | error defects =>
      rw [checked] at member
      exact ((check_error checked).2 defect member).1

/-- Of a name, the first declaration alone has schema defects reported. -/
theorem check_all_schema_defects (name : String) (seen : List String)
    (declarations : List ShapeDeclaration) :
    (rejected (checkAll settings markerOf seen declarations)).flatten.filter
        (Defect.isSchemaOf name) =
      if name ∈ seen then []
      else ((first? declarations name).map fun first =>
        (first.checkDefects settings markerOf).filter (Defect.isSchemaOf name)).getD [] := by
  induction declarations generalizing seen with
  | nil => simp [checkAll, rejected, first?]
  | cons declaration rest induction =>
      have later := induction (declaration.qualifiedName :: seen)
      have own : (rejected (checkAll settings markerOf seen (declaration :: rest))).flatten.filter
            (Defect.isSchemaOf name) =
          (if declaration.qualifiedName ∈ seen then []
            else (declaration.checkDefects settings markerOf).filter (Defect.isSchemaOf name)) ++
          (rejected (checkAll settings markerOf (declaration.qualifiedName :: seen)
            rest)).flatten.filter (Defect.isSchemaOf name) := by
        rw [check_all_cons]
        by_cases repeated : declaration.qualifiedName ∈ seen
        · rw [if_pos repeated, if_pos repeated, rejected_cons_error, List.flatten_cons,
            List.filter_append]
          congr 1
          simp [Defect.isSchemaOf, Defect.family]
        · rw [if_neg repeated, if_neg repeated]
          unfold checkDefects
          cases declaration.check settings markerOf with
          | ok shape => rfl
          | error defects => rw [rejected_cons_error, List.flatten_cons, List.filter_append]
      rw [own, later, first_cons]
      by_cases here : declaration.qualifiedName = name
      · subst here
        by_cases repeated : declaration.qualifiedName ∈ seen
        · simp [repeated]
        · simp [repeated]
      · have others : (declaration.checkDefects settings markerOf).filter
            (Defect.isSchemaOf name) = [] := by
          rw [List.filter_eq_nil_iff]
          intro defect member
          simp [Defect.isSchemaOf, check_defects_own member, here]
        simp [others, here, Ne.symm here]

end ShapeDeclaration

namespace Schema

open ShapeDeclaration

variable {declarations : List ShapeDeclaration} {settings : Settings}
  {declaration : ShapeDeclaration}

/-- The shape of a first declaration is there when the declaration passes its check, and then it has
the accepted fields. -/
theorem mem_of_first (settings : Settings)
    (first : first? declarations declaration.qualifiedName = some declaration) :
    ((∃ shape ∈ (ofDeclarations declarations settings).schema.shapes,
        shape.declaredQualifiedName = declaration.qualifiedName) ↔
      ∃ shape, declaration.check settings (markerIn? declarations) = .ok shape) ∧
    ∀ shape ∈ (ofDeclarations declarations settings).schema.shapes,
      shape.declaredQualifiedName = declaration.qualifiedName →
        declaration.check settings (markerIn? declarations) = .ok shape.unplaced := by
  have checked : ∀ shape ∈ (ofDeclarations declarations settings).schema.shapes,
      shape.declaredQualifiedName = declaration.qualifiedName →
        declaration.check settings (markerIn? declarations) = .ok shape.unplaced := by
    intro shape member named
    obtain ⟨source, found, passed⟩ := schema_shape_iff.mp ⟨shape, member, named, rfl⟩
    rw [first] at found
    cases found
    exact passed
  refine ⟨⟨?_, ?_⟩, checked⟩
  · intro kept
    obtain ⟨shape, member, named⟩ := kept
    exact ⟨_, checked shape member named⟩
  · intro passed
    obtain ⟨shape, passed⟩ := passed
    obtain ⟨placed, member, named, _⟩ := schema_shape_iff.mpr ⟨declaration, first, passed⟩
    exact ⟨placed, member, named⟩

theorem schema_defects_of_first
    (first : first? declarations declaration.qualifiedName = some declaration) :
    (ofDeclarations declarations settings).defects.filter
        (Defect.isSchemaOf declaration.qualifiedName) =
      (declaration.checkDefects settings (markerIn? declarations)).filter
        (Defect.isSchemaOf declaration.qualifiedName) := by
  rw [of_declarations_defects, outcomes, check_all_schema_defects, if_neg List.not_mem_nil,
    first_sorted, first]
  rfl

/-- The shape of a first declaration that fits its place is in the schema exactly when its field
names are distinct and its fields are sound. It then has these fields one by one, with the literals
that plans rely on; and of the schema family it has exactly the defects of its fields reported, one
for a field whose name came before or for one that is not sound itself. -/
theorem field_lists_are_accepted_exactly (declarations : List ShapeDeclaration)
    (settings : Settings) (declaration : ShapeDeclaration)
    (first : first? declarations declaration.qualifiedName = some declaration)
    (fits : declaration.structuralFault? settings (markerIn? declarations) = none) :
    ((∃ shape ∈ (ofDeclarations declarations settings).schema.shapes,
        shape.declaredQualifiedName = declaration.qualifiedName) ↔
      (declaration.fields.map (·.name)).Nodup ∧ ∀ field ∈ declaration.fields, field.IsSound) ∧
    (∀ shape ∈ (ofDeclarations declarations settings).schema.shapes,
      shape.declaredQualifiedName = declaration.qualifiedName →
        shape.unplaced = declaration.toShape settings shape.fields ∧
        List.Forall₂ FieldDeclaration.Yields declaration.fields shape.fields ∧
        ∀ field ∈ shape.fields, field.IsSound) ∧
    (ofDeclarations declarations settings).defects.filter
        (Defect.isSchemaOf declaration.qualifiedName) = declaration.fieldDefects ∧
    ∀ field ∈ declaration.fields, (field.fault? = none ↔ field.IsSound) ∧
      ∀ fault, field.fault? = some fault → field.HasFault fault := by
  obtain ⟨kept, checked⟩ := mem_of_first settings first
  obtain ⟨defects, accepted⟩ := check_of_structure fits
  refine ⟨?_, ?_, ?_, ?_⟩
  · rw [kept, accepted, check_fields_clean_iff]
    simp
  · intro shape member named
    have passed := checked shape member named
    obtain ⟨clean, same⟩ := check_ok_fields _ _ _ _ passed
    have fields : shape.fields = ShapeCompat.accepted (checkFields [] declaration.fields) :=
      congrArg Shape.fields same
    refine ⟨?_, ?_, (of_declarations_sound declarations settings shape member).fields_sound⟩
    · rw [same, fields]
    · rw [fields]
      exact check_fields_yield _ _ clean
  · have own : declaration.fieldDefects.filter
        (Defect.isSchemaOf declaration.qualifiedName) = declaration.fieldDefects := by
      rw [List.filter_eq_self, field_defects_eq]
      intro defect member
      obtain ⟨field, _, rfl⟩ := List.mem_map.mp member
      simp [Defect.isSchemaOf, Defect.shape, Defect.family]
    rw [schema_defects_of_first first, defects, own]
  · intro field _
    exact ⟨FieldDeclaration.fault_none_iff, fun _ => FieldDeclaration.fault_some⟩

def accountDeclaration : ShapeDeclaration :=
  { name := "AccountDBC"
    package := "com.acme"
    fields := [
      { name := "id", type := "String" },
      { name := "limit", type := "Int", requirement := some ⟨1, false, { raw := "0" }⟩ },
      { name := "limit", type := "Int" },
      { name := "note", type := "String", nullable := true, mutability := .immutable }] }

/-- A field that is not sound still has its name: the second limit is reported for that alone. -/
theorem account_is_left_out :
    first? [accountDeclaration] accountDeclaration.qualifiedName = some accountDeclaration ∧
      accountDeclaration.structuralFault? {} (markerIn? [accountDeclaration]) = none ∧
      (¬∃ shape ∈ (ofDeclarations [accountDeclaration] {}).schema.shapes,
        shape.declaredQualifiedName = accountDeclaration.qualifiedName) ∧
      (ofDeclarations [accountDeclaration] {}).defects.filter
          (Defect.isSchemaOf accountDeclaration.qualifiedName) =
        [.schema "com.acme.AccountDBC" (some "limit") (.invalidSinceVersion 1),
          .schema "com.acme.AccountDBC" (some "limit") .duplicateField] := by
  have first : first? [accountDeclaration] accountDeclaration.qualifiedName =
      some accountDeclaration := by
    decide +kernel
  have fits : accountDeclaration.structuralFault? {} (markerIn? [accountDeclaration]) = none := by
    decide +kernel
  obtain ⟨kept, _, reported, _⟩ :=
    field_lists_are_accepted_exactly [accountDeclaration] {} accountDeclaration first fits
  refine ⟨first, fits, ?_, ?_⟩
  · rw [kept]
    intro accepted
    exact absurd accepted.1 (by decide +kernel)
  · rw [reported]
    decide +kernel

end Schema

end ShapeCompat
