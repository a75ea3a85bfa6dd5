import ShapeCompat.Construction.Codec
import ShapeCompat.Construction.Versions
import ShapeCompat.Defect
import ShapeCompat.Erasure

/-!
The public entry points of each overload, the chain by which each reaches the concrete builder, and
the check that no two of them look the same to a linker.
-/

namespace ShapeCompat

/-- What a slot passes to the next newer overload. -/
def Slot.forwarded (slot : Slot) : Argument :=
  match slot.kind with
  | .param | .deprecated _ => .param slot.field
  | .defaulted literal => .literal literal

/-- An overload with a newer one forwards every slot to it; the newest hands its resolved arguments
to the concrete builder. -/
def Overload.delegation (overload : Overload) (newer : Option UInt32) (variant : EntryVariant)
    (callback : CallbackPass) : Delegation :=
  match newer with
  | some version => ⟨.overload version variant, overload.slots.map Slot.forwarded, callback⟩
  | none => ⟨.concreteBuilder, overload.resolved.map (·.value), callback⟩

def Slot.entryParam (slot : Slot) : EntryParam :=
  { name := slot.field
    type := slot.type
    deprecated := match slot.kind with
      | .deprecated _ => true
      | _ => false }

/-- The entry of an overload without slots. -/
def EntryPoint.withoutSlots (hasOptional : Bool) : EntryPoint :=
  if hasOptional then
    ⟨.callbackOnly, [], some .optional, ⟨.concreteBuilder, [], .forwarded⟩⟩
  else ⟨.mandatoryOnly, [], none, ⟨.concreteBuilder, [], .withheld⟩⟩

/-- The entry that leaves all optional properties at their literals, by way of the entry with a
callback of the same overload. -/
def Overload.defaultedEntry (overload : Overload) : EntryPoint :=
  ⟨.defaultedOptionals, overload.params.map Slot.entryParam, none,
    ⟨.overload overload.version .withOptionalCallback,
      overload.params.map fun slot => .param slot.field, .empty⟩⟩

/-- The entries of one overload, where `newer` is the version of the next newer one. -/
def Overload.entriesFor (overload : Overload) (newer : Option UInt32) (hasOptional : Bool)
    (style : Style) : List EntryPoint :=
  let params := overload.params.map Slot.entryParam
  if overload.slots = [] then [.withoutSlots hasOptional]
  else if hasOptional then
    let withCallback : EntryPoint :=
      ⟨.withOptionalCallback, params, some .optional,
        overload.delegation newer .withOptionalCallback .forwarded⟩
    match style with
    | .callback => [withCallback]
    | .overload => [overload.defaultedEntry, withCallback]
  else [⟨.mandatoryOnly, params, none, overload.delegation newer .mandatoryOnly .withheld⟩]

/-- Every overload of an oldest-first list with its own entries. -/
def attachOwnEntries (hasOptional : Bool) (style : Style) : List Overload → List Overload
  | [] => []
  | overload :: newer =>
      { overload with
        entries := overload.entriesFor (newer.head?.map (·.version)) hasOptional style } ::
        attachOwnEntries hasOptional style newer

def EntryPoint.noArg : EntryPoint :=
  ⟨.noArg, [], none, ⟨.concreteBuilder, [], .withheld⟩⟩

def EntryPoint.takesNothing (entry : EntryPoint) : Bool :=
  entry.params.isEmpty && entry.callback.isNone

/-- Replaces the entries of an oldest-first list of overloads. Where the builder takes no argument
and no entry is free of parameters and callback, the newest overload gets one more that is. -/
def Shape.attachEntries (shape : Shape) (style : Style) (overloads : List Overload) :
    List Overload :=
  let attached := attachOwnEntries shape.hasOptionalTier style overloads
  if shape.relevantFields = [] ∧ ¬attached.any (·.entries.any EntryPoint.takesNothing) then
    attached.modify (attached.length - 1) fun newest =>
      { newest with entries := newest.entries ++ [.noArg] }
  else attached

/-- The parameter types of an entry as a linker sees them; a callback is a function of its tier. -/
def EntryPoint.erasedSignature (entry : EntryPoint) : List String :=
  entry.params.map (fun param => eraseType param.type) ++
    if entry.callback.isSome then ["Function1"] else []

def entryLabel (overload : Overload) (entry : EntryPoint) : String :=
  s!"v{overload.version.toNat}/{entry.variant.name}"

/-- Erased signatures with their labels, in the order of overloads and entries. -/
def labelledSignatures (overloads : List Overload) : List (List String × String) :=
  overloads.flatMap fun overload =>
    overload.entries.map fun entry => (entry.erasedSignature, entryLabel overload entry)

/-- Two entries that erase to one signature. -/
structure Ambiguity where
  first : String
  second : String
  signature : List String
  deriving DecidableEq

/-- The first entry whose signature is among those of `seen` or of earlier entries. -/
def firstAmbiguity? (seen : List (List String × String)) :
    List (List String × String) → Option Ambiguity
  | [] => none
  | (signature, label) :: rest =>
      match seen.lookup signature with
      | some first => some ⟨first, label, signature⟩
      | none => firstAmbiguity? ((signature, label) :: seen) rest

def ambiguity? (overloads : List Overload) : Option Ambiguity :=
  firstAmbiguity? [] (labelledSignatures overloads)

def checkAmbiguity (shape : String) (overloads : List Overload) : Except Defect Unit :=
  match ambiguity? overloads with
  | some clash => .error (.schema shape none
      (.ambiguousOverloads clash.first clash.second (String.intercalate ", " clash.signature)))
  | none => .ok ()

end ShapeCompat
