import ShapeCompat.Plan.Basic

/-!
Plans and shapes for human readers, in Markdown.
-/

namespace ShapeCompat.Markdown

/-- Texts as code, separated by commas. -/
def codeList (items : List String) : String :=
  String.intercalate ", " (items.map fun item => s!"`{item}`")

def orNone (items : List String) : String :=
  if items = [] then "_none_" else String.intercalate ", " items

/-- The characters that fill exactly so many bytes. -/
def takeBytes? : List Char → Nat → Option (List Char)
  | _, 0 => some []
  | [], _ + 1 => none
  | char :: rest, count + 1 =>
      if char.utf8Size ≤ count + 1 then
        (takeBytes? rest (count + 1 - char.utf8Size)).map (char :: ·)
      else none

/-- The first twelve bytes of a fingerprint, when a character ends there. -/
def shortFingerprint (fingerprint : String) : String :=
  ((takeBytes? fingerprint.toList 12).map String.ofList).getD fingerprint

def roleLabel : FieldRole → String
  | .required => "required"
  | .requiredSince version previousDefault =>
      s!"required since v{version.toNat} (was `{previousDefault}`)"
  | .optional default => s!"optional (`{default}`)"
  | .frozen literal => s!"frozen (`{literal}`)"
  | .frozenRecently literal => s!"recently frozen (`{literal}`)"

def argumentText : Argument → String
  | .param name => name
  | .literal value => value

def slotParam (slot : Slot) : String :=
  match slot.kind with
  | .deprecated _ => s!"`{slot.field}` (deprecated)"
  | _ => s!"`{slot.field}`"

def slotPassed (slot : Slot) : String := slot.kind.literal?.getD slot.field

def overloadRow (overload : Overload) : String :=
  let params := orNone (overload.params.map slotParam)
  let passed := String.intercalate ", " (overload.slots.map slotPassed)
  s!"| {overload.version.toNat} | {params} | ({passed}) |\n"

/-- The overloads of a construction as a table, oldest first. -/
def versionTable (construction : Construction) : String :=
  "| Version | Parameters | Passes |\n|---|---|---|\n" ++
    String.join (construction.overloads.map overloadRow)

def callbackParam (tier : Tier) : String := s!"init: {tier.typeName}.() -> Unit"

def entryParam (param : EntryParam) : String :=
  let mark := if param.deprecated then " (deprecated)" else ""
  s!"{param.name}: {param.type}{mark}"

def targetText : DelegationTarget → String
  | .overload version variant => s!"v{version.toNat} `{variant.name}`"
  | .concreteBuilder => "`BuilderImpl`"

def callbackText : CallbackPass → String
  | .withheld => ""
  | .forwarded => " + callback"
  | .empty => " + empty callback"

def entrySignature (entry : EntryPoint) : String :=
  let params := String.intercalate ", "
    (entry.params.map entryParam ++ (entry.callback.map callbackParam).toList)
  let args := String.intercalate ", " (entry.delegation.args.map argumentText)
  let target := targetText entry.delegation.target
  let callback := callbackText entry.delegation.callback
  s!"`{entry.variant.name}`({params}) -> {target}({args}){callback}"

def typedText (typed : TypedName) : String := s!"{typed.name}: {typed.type}"

def factorySignature (factory : Factory) : String :=
  let params := String.intercalate ", "
    (factory.params.map typedText ++ [callbackParam factory.callback])
  s!"`{factory.name}({params})` builds `{factory.owner}`"

def propertyText (property : BuilderProperty) : String :=
  let mark := match property.setter with
    | .live => ""
    | .inert => " (inert)"
    | .absent => " (read-only)"
  s!"`{property.name}`{mark}"

def tierLine (spec : TierSpec) : String :=
  let parent := (spec.parent.map fun tier => s!" extends `{tier.typeName}`").getD ""
  let properties := orNone (spec.properties.map propertyText)
  s!"- `{spec.tier.typeName}`{parent}: {properties}\n"

def builderLines (builder : Builder) : String :=
  let params := String.intercalate ", " (builder.concrete.constructorParams.map typedText)
  let noArg := if builder.concrete.publicNoArg then ", public no-arg constructor" else ""
  (builder.optional.map tierLine).getD "" ++ tierLine builder.full ++
    s!"- `BuilderImpl({params})`{noArg}\n"

def identityLines (identity : Identity) : String :=
  let equality := if identity.equality = [] then "type only" else codeList identity.equality
  let hash := match identity.hash with
    | .fields fields => codeList fields
    | .typeMarker typeName => s!"type marker `{typeName}`"
  let fields := String.intercalate ", " identity.display.fields
  s!"- equals: {equality}\n- hashCode: {hash}\n" ++
    s!"- toString: `{identity.display.typeName}({fields})`\n"

def fieldRow (field : FieldPlan) : String :=
  let equality := if field.equality then "yes" else "excluded"
  let mutability := field.mutability.name
  s!"| `{field.name}` | `{field.type}` | {mutability} | {roleLabel field.role} | {equality} |\n"

def constructionSections (heading : String) (shape : ShapePlan) (construction : Construction) :
    String :=
  let entries := construction.entryPoints.map fun (overload, entry) =>
    s!"- v{overload.version.toNat} {entrySignature entry}\n"
  let factory := construction.factory.map fun factory => s!"- factory {factorySignature factory}\n"
  s!"{heading} Fields\n\n" ++
    "| Field | Type | Mutability | Role | Equality |\n|---|---|---|---|---|\n" ++
    String.join (shape.fields.map fieldRow) ++ "\n" ++
    s!"{heading} Versions (`{construction.style.name}`)\n\n" ++ versionTable construction ++ "\n" ++
    s!"{heading} Entry points\n\n" ++ String.join entries ++ factory.getD "" ++ "\n"

/-- All that is known of a shape, with section headings of the given depth. -/
def shapeBody (heading : String) (shape : ShapePlan) : String :=
  let interfaces :=
    if shape.interfaces = [] then "" else s!"- Implements: {codeList shape.interfaces}\n"
  let doc := (shape.doc.map fun doc => s!"\n{doc}\n").getD ""
  s!"- Declared: `{shape.declaredName}`\n- Version: {shape.version.toNat}\n" ++
    s!"- Fingerprint: `{shortFingerprint shape.fingerprint}`\n" ++ interfaces ++ doc ++ "\n" ++
    match shape.construction with
    | none => "_Sealed parent: no construction of its own._\n\n"
    | some construction =>
        let builder := shape.builder.map fun builder =>
          s!"{heading} Builder\n\n" ++ builderLines builder ++ "\n"
        let identity := shape.identity.map fun identity =>
          s!"{heading} Identity\n\n" ++ identityLines identity ++ "\n"
        constructionSections heading shape construction ++ builder.getD "" ++ identity.getD ""

/-- The page of one shape. -/
def shapePage (shape : ShapePlan) : String :=
  s!"# {shape.qualifiedName}\n\n" ++ shapeBody "##" shape

def unitSection (number : Nat) (unit : OutputUnit) : String :=
  let imports := if unit.imports = [] then "" else s!"- Imports: {codeList unit.imports}\n"
  let factories := unit.sharedFactories.map fun factory => s!"  - {factorySignature factory}\n"
  let statics := if factories = [] then "" else "- Factory functions:\n" ++ String.join factories
  let children := unit.children.map fun child =>
    s!"#### {child.qualifiedName}\n\n" ++ shapeBody "#####" child
  s!"### {number}. {unit.qualifiedName}\n\n" ++ imports ++ statics ++ "\n" ++
    shapeBody "####" unit.shape ++ String.join children

def unitSections : Nat → List OutputUnit → String
  | _, [] => ""
  | number, unit :: rest => unitSection number unit ++ unitSections (number + 1) rest

def inputLine (input : PlanInput) (reason : String) : String := s!"- `{input.path}`: {reason}\n"

def failureLine (failure : Failure) : String :=
  let field := (failure.field.map ("." ++ ·)).getD ""
  s!"- `{failure.code}` `{failure.shape}{field}`: {failure.message}\n"

/-- A section under a second-level heading, left out when it has no lines. -/
def listSection (title : String) (lines : List String) : String :=
  if lines = [] then "" else s!"## {title}\n\n" ++ String.join lines ++ "\n"

/-- The page of a whole plan. -/
def planPage (plan : Plan) : String :=
  let summary := plan.summary
  let unreadable := plan.inputs.filterMap fun input => input.error.map (inputLine input)
  "# bincompat plan\n\n" ++
    s!"- Shapes: {summary.shapesPlanned} planned of {summary.shapesTotal}\n" ++
    s!"- Units: {summary.units}\n" ++
    s!"- Overloads: {summary.overloads}\n" ++
    s!"- Entry points: {summary.entryPoints}\n" ++
    s!"- Failures: {summary.failures}\n" ++
    s!"- Style: `{plan.settings.style.name}`\n" ++
    s!"- Inputs: {plan.inputs.length} ({unreadable.length} unreadable)\n\n" ++
    listSection "Unreadable inputs" unreadable ++
    listSection "Failures" (plan.failures.map failureLine) ++
    "## Units\n\n" ++
    if plan.units = [] then "_No units planned._\n" else unitSections 1 plan.units

end ShapeCompat.Markdown
