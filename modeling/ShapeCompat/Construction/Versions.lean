import ShapeCompat.Ascending
import ShapeCompat.Construction.Basic
import ShapeCompat.Schema.Basic

/-!
Which overloads a shape needs, and what each of them takes and passes on. There is one overload for
version 1 and one for each later version that made a constructor parameter mandatory; every overload
but the newest hands its slots to the next newer one.
-/

namespace ShapeCompat

/-- The versions with an overload of their own, newest first. -/
def Shape.watermarks (shape : Shape) : List UInt32 :=
  (ascending (1 :: shape.relevantFields.filterMap (·.requirement.map (·.sinceVersion)))).reverse

/-- The slot of a field in the overload of `version`, if it has one; `newer` is the adjacent newer
watermark. -/
def Field.slot? (field : Field) (version : UInt32) (newer : Option UInt32) : Option Slot :=
  let slot (kind : SlotKind) : Option Slot := some ⟨field.name, field.typeName, kind⟩
  if some field.watermark = newer then slot (.defaulted field.literal)
  else if field.watermark ≤ version then
    if field.mutability = .immutableRecently ∧ newer.isSome then
      slot (.deprecated field.literal)
    else slot .param
  else none

/-- A field is passed through where a slot makes it a live parameter; otherwise its literal is. -/
def Field.resolve (field : Field) (slots : List Slot) : ResolvedArgument :=
  let live := slots.any fun slot => slot.field == field.name && slot.kind == .param
  ⟨field.name, if live then .param field.name else .literal field.literal⟩

/-- The overload of one version, still without entry points. -/
def Shape.overloadAt (shape : Shape) (version : UInt32) (newer : Option UInt32) : Overload :=
  let slots := shape.relevantFields.filterMap (·.slot? version newer)
  ⟨version, slots, shape.relevantFields.map (·.resolve slots), []⟩

/-- The overloads of a descending list of versions, below `newer`. -/
def Shape.overloadsBelow (shape : Shape) : Option UInt32 → List UInt32 → List Overload
  | _, [] => []
  | newer, version :: older =>
      shape.overloadAt version newer :: shape.overloadsBelow (some version) older

/-- One overload for each watermark, oldest first. -/
def Shape.overloads (shape : Shape) : List Overload :=
  (shape.overloadsBelow none shape.watermarks).reverse

/-- A line such as `1.(a,c): (a,"x",c)`: the parameters of an overload and what it passes on. -/
def Overload.tableLine (overload : Overload) : String :=
  let params := String.intercalate "," (overload.params.map (·.field))
  let passed := String.intercalate ","
    (overload.slots.map fun slot => slot.kind.literal?.getD slot.field)
  s!"{overload.version.toNat}.({params}): ({passed})"

/-- A line for each overload. -/
def versionTable (overloads : List Overload) : String :=
  String.intercalate "\n" (overloads.map Overload.tableLine)

end ShapeCompat
