/-!
JSON values. Members of a record keep the order and the repetitions of the text they were read
from; what a repeated name means is decided where a record is read or tidied.
-/

namespace ShapeCompat

inductive Json where
  | null
  | bool (value : Bool)
  | int (value : Int)
  /-- A number that is no 64-bit integer, as written: a fraction, an exponent, a negative zero or
  a magnitude out of range. -/
  | decimal (written : String)
  | text (value : String)
  | list (items : List Json)
  | record (members : List (String × Json))
  /-- Well-formed text that denotes no value: a string with an unpaired surrogate escape, or a
  record with such a member name. It can be skipped but not read. -/
  | unreadable

namespace Json

def texts (values : List String) : Json := .list (values.map .text)

mutual
/-- Of members with one name only the last stays, at every level, in the place of the first. -/
def lastWins : Json → Json
  | .list items => .list (itemsLastWins items)
  | .record members => .record (membersLastWins members)
  | json => json

def itemsLastWins : List Json → List Json
  | [] => []
  | item :: rest => lastWins item :: itemsLastWins rest

def membersLastWins : List (String × Json) → List (String × Json)
  | [] => []
  | (name, value) :: rest =>
      let later := membersLastWins rest
      match later.lookup name with
      | some last => (name, last) :: later.filter (·.1 != name)
      | none => (name, lastWins value) :: later
end

/-- Puts a member in front of the first member whose name is not smaller. -/
def insertMember (member : String × Json) : List (String × Json) → List (String × Json)
  | [] => [member]
  | head :: rest =>
      if member.1 ≤ head.1 then member :: head :: rest else head :: insertMember member rest

mutual
/-- The same value with the members of every record in ascending order of their names. -/
def sortMembers : Json → Json
  | .list items => .list (sortItems items)
  | .record members => .record (sortedMembers members)
  | json => json

def sortItems : List Json → List Json
  | [] => []
  | item :: rest => sortMembers item :: sortItems rest

def sortedMembers : List (String × Json) → List (String × Json)
  | [] => []
  | (name, value) :: rest => insertMember (name, sortMembers value) (sortedMembers rest)
end

end Json

end ShapeCompat
