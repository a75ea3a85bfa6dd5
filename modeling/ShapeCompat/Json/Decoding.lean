import ShapeCompat.Json.Basic

/-!
Reading values of a type out of JSON. A record type reads its members by name from a record, or by
position from a list that gives a leading part of them; unknown members are ignored, and a known
member that is given twice has no reading.
-/

namespace ShapeCompat.Json

abbrev Members := List (String × Json)

def text? : Json → Option String
  | .text value => some value
  | _ => none

def bool? : Json → Option Bool
  | .bool value => some value
  | _ => none

def nat? : Json → Option Nat
  | .int (.ofNat value) => some value
  | _ => none

def uint32? : Json → Option UInt32
  | .int value => if 0 ≤ value ∧ value < UInt32.size then some (.ofNat value.toNat) else none
  | _ => none

def int64? : Json → Option Int64
  | .int value =>
      if Int64.minValue.toInt ≤ value ∧ value ≤ Int64.maxValue.toInt then some (.ofInt value)
      else none
  | _ => none

def listOf? {Value : Type} (decode : Json → Option Value) : Json → Option (List Value)
  | .list items => items.mapM decode
  | _ => none

def texts? : Json → Option (List String) := listOf? text?

/-- The members of a record type with these member names, in this order. -/
def members? (names : List String) : Json → Option Members
  | .record members => some members
  | .list items => if items.length ≤ names.length then some (names.zip items) else none
  | _ => none

/-- The name that a value of an enumeration is given by: a text, or a record whose one member has
that name and no content. -/
def choice? : Json → Option String
  | .text name => some name
  | .record [(name, .null)] => some name
  | _ => none

/-- The name of a choice inside a tagged variant, where no content may also be an empty record. -/
def innerChoice? : Json → Option String
  | .record [(name, .record [])] => some name
  | json => json.choice?

/-- The tag of a tagged variant and what holds the variant's own members. -/
def tagged? (tag : String) : Json → Option (String × Json)
  | .record members =>
      match members.filter (·.1 == tag) with
      | [(_, .text name)] => some (name, .record (members.filter (·.1 != tag)))
      | _ => none
  | .list (.text name :: items) => some (name, .list items)
  | _ => none

namespace Members

/-- Gives `none` for a member that is given twice, `some none` for one that is absent. -/
def find? (members : Members) (name : String) : Option (Option Json) :=
  match members.filter (·.1 == name) with
  | [] => some none
  | [(_, value)] => some (some value)
  | _ => none

def required? {Value : Type} (members : Members) (name : String) (decode : Json → Option Value) :
    Option Value := do
  match ← members.find? name with
  | some value => decode value
  | none => none

/-- An absent member stands for `fallback`; a null does not. -/
def withFallback? {Value : Type} (members : Members) (name : String) (fallback : Value)
    (decode : Json → Option Value) : Option Value := do
  match ← members.find? name with
  | some value => decode value
  | none => return fallback

/-- Absent and null both stand for no value. -/
def optional? {Value : Type} (members : Members) (name : String) (decode : Json → Option Value) :
    Option (Option Value) := do
  match ← members.find? name with
  | some .null => return none
  | some value => (decode value).map some
  | none => return none

end Members

/-- A member that is always written. -/
def member (name : String) (value : Json) : Members := [(name, value)]

/-- A member that is left out when there is no value. -/
def optionalMember {Value : Type} (name : String) (encode : Value → Json) :
    Option Value → Members
  | some value => [(name, encode value)]
  | none => []

/-- A list of texts that is left out when it is empty. -/
def textsMember (name : String) (values : List String) : Members :=
  if values = [] then [] else [(name, .texts values)]

def listMember {Value : Type} (name : String) (encode : Value → Json) (values : List Value) :
    Members :=
  [(name, .list (values.map encode))]

end ShapeCompat.Json
