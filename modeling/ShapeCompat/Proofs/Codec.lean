import ShapeCompat.Builder
import ShapeCompat.Declaration.Codec
import ShapeCompat.Identity
import ShapeCompat.Plan.Codec
import ShapeCompat.Proofs.Json.RoundTrip
import ShapeCompat.Schema.Codec
import ShapeCompat.Settings.Basic

/-!
Declarations, settings, schemas and plans are read back as they were written.
-/

namespace ShapeCompat

open Json

-- A reading is carried out before what follows it is looked at. Under `Option.bind` it would be the
-- other way around, once for each reading that comes before.
attribute [-simp] Option.bind_eq_bind

/-! ### Declarations and settings -/

theorem Mutability.of_name (mutability : Mutability) :
    ofName? mutability.name = some mutability := by
  cases mutability <;> rfl

theorem DeclarationKind.of_name (kind : DeclarationKind) : ofName? kind.name = some kind := by
  cases kind <;> rfl

theorem Marker.of_name (marker : Marker) : ofName? marker.name = some marker := by
  cases marker <;> rfl

theorem Style.of_name (style : Style) : ofName? style.name = some style := by
  cases style <;> rfl

theorem Mutability.round_trips : RoundTrips Mutability.toJson Mutability.ofJson? := .named of_name

theorem DeclarationKind.round_trips :
    RoundTrips DeclarationKind.toJson DeclarationKind.ofJson? := .named of_name

theorem Marker.round_trips : RoundTrips Marker.toJson Marker.ofJson? := .named of_name

theorem Style.round_trips : RoundTrips Style.toJson Style.ofJson? := .named of_name

namespace DeclaredDefault

theorem text_member_cases (name value : String) :
    value = "" ∧ textMember name value = [] ∨ textMember name value = member name (.text value) := by
  unfold textMember
  split
  · rename_i empty
    exact .inl ⟨empty, rfl⟩
  · exact .inr rfl

theorem lacks_text_member {key name : String} (value : String) (different : key ≠ name) :
    (textMember key value).Lacks name :=
  Members.lacks_written ((text_member_cases key value).imp_left And.right) different

theorem text_left_out (name value : String) :
    (textMember name value).withFallback? name "" text? = some value :=
  RoundTrips.text.leftOut (text_member_cases name value)

theorem round_trips : RoundTrips toJson ofJson? := by
  apply RoundTrips.ofMembers
  intro value
  simp [ofJson?, lacks_text_member, text_left_out]

end DeclaredDefault

theorem DeclaredRequirement.round_trips :
    RoundTrips DeclaredRequirement.toJson DeclaredRequirement.ofJson? := by
  apply RoundTrips.ofMembers
  intro requirement
  simp [ofJson?, RoundTrips.int64.required, RoundTrips.bool.withFallback,
    DeclaredDefault.round_trips.withFallback]

theorem FieldDeclaration.round_trips :
    RoundTrips FieldDeclaration.toJson FieldDeclaration.ofJson? := by
  apply RoundTrips.ofMembers
  intro field
  simp [ofJson?, RoundTrips.text.required, RoundTrips.bool.withFallback,
    Mutability.round_trips.withFallback, DeclaredDefault.round_trips.optional,
    DeclaredRequirement.round_trips.optional, RoundTrips.text.optional]

theorem ShapeDeclaration.round_trips :
    RoundTrips ShapeDeclaration.toJson ShapeDeclaration.ofJson? := by
  apply RoundTrips.ofMembers
  intro shape
  simp [ofJson?, RoundTrips.text.required, RoundTrips.text.withFallback,
    DeclarationKind.round_trips.withFallback, Marker.round_trips.withFallback,
    RoundTrips.uint32.withFallback, RoundTrips.text.optional,
    FieldDeclaration.round_trips.listWithFallback]

theorem Document.round_trips : RoundTrips Document.toJson Document.ofJson? := by
  apply RoundTrips.ofMembers
  intro document
  simp [ofJson?, RoundTrips.text.optional, ShapeDeclaration.round_trips.listWithFallback]

theorem Settings.round_trips : RoundTrips Settings.toJson Settings.ofJson? := by
  apply RoundTrips.ofMembers
  intro settings
  simp [ofJson?, ofMembers?, RoundTrips.text.required, RoundTrips.texts.withFallback,
    Style.round_trips.withFallback]

/-! ### Schemas -/

theorem ShapeKind.of_name (kind : ShapeKind) : ofName? kind.name = some kind := by
  cases kind <;> rfl

theorem ShapeKind.round_trips : RoundTrips ShapeKind.toJson ShapeKind.ofJson? := .named of_name

theorem Requirement.round_trips : RoundTrips Requirement.toJson Requirement.ofJson? := by
  apply RoundTrips.ofMembers
  intro requirement
  simp [ofJson?, RoundTrips.uint32.required, RoundTrips.bool.required]

theorem Field.literal_round_trips :
    RoundTrips Field.literalToJson Field.literalOfJson? := by
  apply RoundTrips.ofMembers
  intro literal
  simp [literalOfJson?, RoundTrips.text.required]

theorem Field.round_trips : RoundTrips Field.toJson Field.ofJson? := by
  apply RoundTrips.ofMembers
  intro field
  simp [ofJson?, RoundTrips.text.required, RoundTrips.bool.required,
    Mutability.round_trips.required, literal_round_trips.optional,
    Requirement.round_trips.optional, RoundTrips.text.optional]

theorem ParentLink.round_trips : RoundTrips ParentLink.toJson ParentLink.ofJson? := by
  apply RoundTrips.ofMembers
  intro link
  simp [ofJson?, RoundTrips.text.required, RoundTrips.nat.optional]

theorem Shape.round_trips : RoundTrips Shape.toJson Shape.ofJson? := by
  apply RoundTrips.ofMembers
  intro shape
  simp [ofJson?, RoundTrips.nat.required, ShapeKind.round_trips.required,
    RoundTrips.text.required, RoundTrips.uint32.required, ParentLink.round_trips.optional,
    Field.round_trips.requiredList, RoundTrips.text.optional]

theorem Schema.round_trips : RoundTrips Schema.toJson Schema.ofJson? := by
  apply RoundTrips.ofMembers
  intro schema
  simp [ofJson?, Shape.round_trips.requiredList]

/-! ### Construction -/

theorem Tier.of_name (tier : Tier) : ofName? tier.name = some tier := by
  cases tier <;> rfl

theorem EntryVariant.of_name (variant : EntryVariant) : ofName? variant.name = some variant := by
  cases variant <;> rfl

theorem CallbackPass.of_name (pass : CallbackPass) : ofName? pass.name = some pass := by
  cases pass <;> rfl

theorem SetterKind.of_name (setter : SetterKind) : ofName? setter.name = some setter := by
  cases setter <;> rfl

theorem Tier.round_trips : RoundTrips Tier.toJson Tier.ofJson? := .named of_name

theorem EntryVariant.round_trips : RoundTrips EntryVariant.toJson EntryVariant.ofJson? :=
  .named of_name

theorem EntryVariant.inner_round_trips : RoundTrips EntryVariant.toJson EntryVariant.ofInnerJson? :=
  ⟨of_name, nofun⟩

theorem CallbackPass.round_trips : RoundTrips CallbackPass.toJson CallbackPass.ofJson? :=
  .named of_name

theorem SetterKind.round_trips : RoundTrips SetterKind.toJson SetterKind.ofJson? := .named of_name

theorem TypedName.round_trips : RoundTrips TypedName.toJson TypedName.ofJson? := by
  apply RoundTrips.ofMembers
  intro typed
  simp [ofJson?, RoundTrips.text.required]

theorem Argument.round_trips : RoundTrips Argument.toJson Argument.ofJson? where
  recovers := by
    intro argument
    cases argument with
    | param name => simp [toJson, ofJson?, RoundTrips.text.required]
    | literal text => simp [toJson, ofJson?, RoundTrips.text.required]
  nonNull := by
    intro argument
    cases argument <;> exact Json.noConfusion

theorem Slot.tag_round_trips : RoundTrips Json.text Slot.tag? := ⟨fun _ => rfl, nofun⟩

theorem Slot.round_trips : RoundTrips Slot.toJson Slot.ofJson? := by
  apply RoundTrips.ofMembers
  intro slot
  obtain ⟨field, type, kind⟩ := slot
  cases kind with
  | param => simp [ofJson?, kindMembers, kindOfMembers?, RoundTrips.text.required,
      tag_round_trips.required]
  | deprecated literal => simp [ofJson?, kindMembers, kindOfMembers?, RoundTrips.text.required,
      tag_round_trips.required]
  | defaulted literal => simp [ofJson?, kindMembers, kindOfMembers?, RoundTrips.text.required,
      tag_round_trips.required]

theorem ResolvedArgument.round_trips :
    RoundTrips ResolvedArgument.toJson ResolvedArgument.ofJson? := by
  apply RoundTrips.ofMembers
  intro resolved
  simp [ofJson?, RoundTrips.text.required, Argument.round_trips.required]

theorem EntryParam.round_trips : RoundTrips EntryParam.toJson EntryParam.ofJson? := by
  apply RoundTrips.ofMembers
  intro param
  simp [ofJson?, RoundTrips.text.required, RoundTrips.bool.withFallback]

theorem DelegationTarget.round_trips :
    RoundTrips DelegationTarget.toJson DelegationTarget.ofJson? where
  recovers := by
    intro target
    cases target with
    | overload version variant =>
        simp [toJson, ofJson?, RoundTrips.uint32.required, EntryVariant.inner_round_trips.required]
    | concreteBuilder => simp [toJson, ofJson?]
  nonNull := by
    intro target
    cases target <;> exact Json.noConfusion

theorem Delegation.round_trips : RoundTrips Delegation.toJson Delegation.ofJson? := by
  apply RoundTrips.ofMembers
  intro delegation
  simp [ofJson?, DelegationTarget.round_trips.required, Argument.round_trips.requiredList,
    CallbackPass.round_trips.required]

theorem EntryPoint.round_trips : RoundTrips EntryPoint.toJson EntryPoint.ofJson? := by
  apply RoundTrips.ofMembers
  intro entry
  simp [ofJson?, EntryVariant.round_trips.required, EntryParam.round_trips.requiredList,
    Tier.round_trips.optional, Delegation.round_trips.required]

theorem Overload.round_trips : RoundTrips Overload.toJson Overload.ofJson? := by
  apply RoundTrips.ofMembers
  intro overload
  simp [ofJson?, RoundTrips.uint32.required, Slot.round_trips.requiredList,
    ResolvedArgument.round_trips.requiredList, EntryPoint.round_trips.requiredList]

theorem PrimaryConstructor.round_trips :
    RoundTrips PrimaryConstructor.toJson PrimaryConstructor.ofJson? := by
  apply RoundTrips.ofMembers
  intro primary
  simp [ofJson?, TypedName.round_trips.requiredList, RoundTrips.text.required]

theorem FieldSource.round_trips : RoundTrips FieldSource.toJson FieldSource.ofJson? where
  recovers := by
    intro source
    cases source with
    | storage => simp [toJson, ofJson?]
    | literal text => simp [toJson, ofJson?, RoundTrips.text.required]
  nonNull := by
    intro source
    cases source <;> exact Json.noConfusion

theorem Assignment.round_trips : RoundTrips Assignment.toJson Assignment.ofJson? := by
  apply RoundTrips.ofMembers
  intro assignment
  simp [ofJson?, RoundTrips.text.required, FieldSource.round_trips.required]

theorem CopyPlan.round_trips : RoundTrips CopyPlan.toJson CopyPlan.ofJson? := by
  apply RoundTrips.ofMembers
  intro copy
  simp [ofJson?, RoundTrips.texts.required, Tier.round_trips.required]

theorem Factory.round_trips : RoundTrips Factory.toJson Factory.ofJson? := by
  apply RoundTrips.ofMembers
  intro factory
  simp [ofJson?, RoundTrips.text.required, TypedName.round_trips.requiredList,
    Tier.round_trips.required, Delegation.round_trips.required]

theorem Construction.assignments_round_trip :
    RoundTrips Construction.assignmentsToJson Construction.assignmentsOfJson? := by
  apply RoundTrips.ofMembers
  intro assignments
  simp [assignmentsOfJson?, Assignment.round_trips.requiredList]

theorem Construction.round_trips : RoundTrips Construction.toJson Construction.ofJson? := by
  apply RoundTrips.ofMembers
  intro construction
  simp [ofJson?, Style.round_trips.required, Overload.round_trips.requiredList,
    PrimaryConstructor.round_trips.required, assignments_round_trip.required,
    CopyPlan.round_trips.required, Factory.round_trips.optional]

/-! ### Builder -/

theorem BuilderProperty.round_trips :
    RoundTrips BuilderProperty.toJson BuilderProperty.ofJson? := by
  apply RoundTrips.ofMembers
  intro property
  simp [ofJson?, RoundTrips.text.required, SetterKind.round_trips.required,
    RoundTrips.bool.withFallback, RoundTrips.text.optional]

theorem TierSpec.round_trips : RoundTrips TierSpec.toJson TierSpec.ofJson? := by
  apply RoundTrips.ofMembers
  intro spec
  simp [ofJson?, Tier.round_trips.required, Tier.round_trips.optional,
    BuilderProperty.round_trips.requiredList]

theorem StorageInit.round_trips : RoundTrips StorageInit.toJson StorageInit.ofJson? where
  recovers := by
    intro init
    cases init with
    | constructorParam => simp [toJson, ofJson?]
    | literal text => simp [toJson, ofJson?, RoundTrips.text.required]
  nonNull := by
    intro init
    cases init <;> exact Json.noConfusion

theorem StorageSlot.round_trips : RoundTrips StorageSlot.toJson StorageSlot.ofJson? := by
  apply RoundTrips.ofMembers
  intro slot
  simp [ofJson?, RoundTrips.text.required, StorageInit.round_trips.required]

theorem ConcreteBuilder.round_trips :
    RoundTrips ConcreteBuilder.toJson ConcreteBuilder.ofJson? := by
  apply RoundTrips.ofMembers
  intro concrete
  simp [ofJson?, TypedName.round_trips.requiredList, StorageSlot.round_trips.requiredList,
    RoundTrips.bool.required]

theorem Builder.round_trips : RoundTrips Builder.toJson Builder.ofJson? := by
  apply RoundTrips.ofMembers
  intro builder
  simp [ofJson?, TierSpec.round_trips.optional, TierSpec.round_trips.required,
    ConcreteBuilder.round_trips.required]

/-! ### Identity -/

theorem HashRule.round_trips : RoundTrips HashRule.toJson HashRule.ofJson? where
  recovers := by
    intro hash
    cases hash with
    | fields names => simp [toJson, ofJson?, RoundTrips.texts.required]
    | typeMarker typeName => simp [toJson, ofJson?, RoundTrips.text.required]
  nonNull := by
    intro hash
    cases hash <;> exact Json.noConfusion

theorem DisplayRule.round_trips : RoundTrips DisplayRule.toJson DisplayRule.ofJson? := by
  apply RoundTrips.ofMembers
  intro display
  simp [ofJson?, RoundTrips.text.required, RoundTrips.texts.required]

theorem Identity.round_trips : RoundTrips Identity.toJson Identity.ofJson? := by
  apply RoundTrips.ofMembers
  intro identity
  simp [ofJson?, RoundTrips.texts.required, HashRule.round_trips.required,
    DisplayRule.round_trips.required]


/-! ### Plans -/

theorem DefectFamily.of_name (family : DefectFamily) : ofName? family.name = some family := by
  cases family <;> rfl

theorem DefectFamily.round_trips : RoundTrips DefectFamily.toJson DefectFamily.ofJson? :=
  .named of_name

theorem Failure.round_trips : RoundTrips Failure.toJson Failure.ofJson? := by
  apply RoundTrips.ofMembers
  intro failure
  simp [ofJson?, RoundTrips.text.required, DefectFamily.round_trips.required,
    RoundTrips.text.optional]

theorem FieldRole.round_trips : RoundTrips FieldRole.toJson FieldRole.ofJson? where
  recovers := by
    intro role
    cases role with
    | required => simp [toJson, ofJson?]
    | requiredSince version previousDefault =>
        simp [toJson, ofJson?, RoundTrips.uint32.required, RoundTrips.text.required]
    | optional default => simp [toJson, ofJson?, RoundTrips.text.required]
    | frozen literal => simp [toJson, ofJson?, RoundTrips.text.required]
    | frozenRecently literal => simp [toJson, ofJson?, RoundTrips.text.required]
  nonNull := by
    intro role
    cases role <;> exact Json.noConfusion

theorem FieldPlan.round_trips : RoundTrips FieldPlan.toJson FieldPlan.ofJson? := by
  apply RoundTrips.ofMembers
  intro field
  simp [ofJson?, RoundTrips.text.required, Mutability.round_trips.required,
    RoundTrips.text.optional, RoundTrips.uint32.optional, FieldRole.round_trips.required,
    RoundTrips.bool.required]

theorem ShapePlan.round_trips : RoundTrips ShapePlan.toJson ShapePlan.ofJson? := by
  apply RoundTrips.ofMembers
  intro shape
  simp [ofJson?, RoundTrips.text.required, ShapeKind.round_trips.required,
    RoundTrips.uint32.required, FieldPlan.round_trips.requiredList, RoundTrips.text.optional,
    Construction.round_trips.optional, Builder.round_trips.optional,
    Identity.round_trips.optional]

namespace OutputUnit

variable {Value : Type} {encode : Value → Json} {decode : Json → Option Value}

theorem non_empty_member_cases (name : String) (values : List Value) :
    values = [] ∧ nonEmptyMember name encode values = [] ∨
      nonEmptyMember name encode values = member name (.list (values.map encode)) := by
  cases values with
  | nil => exact .inl ⟨rfl, rfl⟩
  | cons value rest => exact .inr rfl

theorem lacks_non_empty_member {key name : String} (values : List Value) (different : key ≠ name) :
    (nonEmptyMember key encode values).Lacks name :=
  Members.lacks_written ((non_empty_member_cases key values).imp_left And.right) different

theorem list_left_out (trips : RoundTrips encode decode) (name : String) (values : List Value) :
    (nonEmptyMember name encode values).withFallback? name [] (listOf? decode) = some values :=
  trips.list.leftOut (non_empty_member_cases name values)

theorem round_trips : RoundTrips OutputUnit.toJson OutputUnit.ofJson? := by
  apply RoundTrips.ofMembers
  intro unit
  simp [ofJson?, RoundTrips.text.required, ShapePlan.round_trips.required, lacks_non_empty_member,
    list_left_out ShapePlan.round_trips, list_left_out Factory.round_trips]

end OutputUnit

theorem Tool.round_trips : RoundTrips Tool.toJson Tool.ofJson? := by
  apply RoundTrips.ofMembers
  intro tool
  simp [ofJson?, RoundTrips.text.required, RoundTrips.text.optional]

theorem PlanInput.round_trips : RoundTrips PlanInput.toJson PlanInput.ofJson? := by
  apply RoundTrips.ofMembers
  intro input
  simp [ofJson?, RoundTrips.text.required, RoundTrips.nat.withFallback, RoundTrips.text.optional]

theorem PlanSummary.round_trips : RoundTrips PlanSummary.toJson PlanSummary.ofJson? := by
  apply RoundTrips.ofMembers
  intro summary
  simp [ofJson?, RoundTrips.nat.required]

theorem Plan.round_trips : RoundTrips Plan.toJson Plan.ofJson? := by
  apply RoundTrips.ofMembers
  intro plan
  simp [ofJson?, RoundTrips.text.required, Tool.round_trips.required,
    RoundTrips.text.withFallback, Settings.round_trips.required,
    PlanInput.round_trips.listWithFallback, OutputUnit.round_trips.listWithFallback,
    Failure.round_trips.listWithFallback, PlanSummary.round_trips.withFallback]

end ShapeCompat
