import ShapeCompat.Toml.Scalar

/-!
TOML documents as trees of tables, and the rules by which headers and keys add to them. A value
keeps no more than a reader of settings asks for: texts, lists and tables.
-/

namespace ShapeCompat.Toml

/-- How a table came about, which decides what may still be added to it. -/
inductive Origin where
  /-- Opened by a header of its own. -/
  | opened
  /-- On the way to a table with a longer header. -/
  | implied
  /-- On the way of a dotted key. -/
  | dotted
  /-- Written out between braces. -/
  | inline
  deriving DecidableEq

inductive Value where
  | text (text : String)
  | scalar (kind : Scalar)
  | list (items : List Value)
  | table (origin : Origin) (members : List (String × Value))
  /-- The tables with one header in double brackets, the newest apart from those before it, which
  are in reverse. -/
  | tables (newest : List (String × Value)) (earlier : List (List (String × Value)))

abbrev Members := List (String × Value)

mutual
/-- Whether a value can be looked at, down to the numbers in it. -/
def Value.isReadable : Value → Bool
  | .text _ => true
  | .scalar kind => kind != .hollow
  | .list items => areReadable items
  | .table _ members => membersAreReadable members
  | .tables newest earlier => membersAreReadable newest && tablesAreReadable earlier

def areReadable : List Value → Bool
  | [] => true
  | item :: rest => item.isReadable && areReadable rest

def membersAreReadable : List (String × Value) → Bool
  | [] => true
  | (_, value) :: rest => value.isReadable && membersAreReadable rest

def tablesAreReadable : List (List (String × Value)) → Bool
  | [] => true
  | members :: rest => membersAreReadable members && tablesAreReadable rest
end

def setMember (key : String) (value : Value) : Members → Members
  | [] => [(key, value)]
  | member :: rest =>
      if member.1 = key then (key, value) :: rest else member :: setMember key value rest

/-- A path of keys: those on the way and the last one. -/
structure Key where
  parents : List String
  last : String
  deriving DecidableEq

/-- Changes the table that keys lead to, making tables of the kind `made` on the way. Tables between
braces are closed, and dotted keys do not lead into an opened table. -/
def alter (made : Origin) (change : Origin → Members → Option Members) (origin : Origin) :
    List String → Members → Option Members
  | [], members => change origin members
  | key :: rest, members =>
      match members.lookup key with
      | none => do
          let inner ← alter made change made rest []
          return setMember key (.table made inner) members
      | some (.table origin inner) =>
          if origin = .inline ∨ (made = .dotted ∧ origin = .opened) then none
          else do
            let inner ← alter made change origin rest inner
            return setMember key (.table origin inner) members
      | some (.tables newest earlier) => do
          let newest ← alter made change .opened rest newest
          return setMember key (.tables newest earlier) members
      | some (.text _) | some (.scalar _) | some (.list _) => none

/-- Adds a value under a key that is not there yet. A dotted key adds only to tables that dotted
keys made. -/
def addEntry (origin : Origin) (members : Members) (entry : Key × Value) : Option Members :=
  alter .dotted
    (fun origin members =>
      if (origin = .dotted ↔ entry.1.parents ≠ []) ∧ members.lookup entry.1.last = none then
        some (setMember entry.1.last entry.2 members)
      else none)
    origin entry.1.parents members

def addEntries (origin : Origin) (members : Members) (entries : List (Key × Value)) :
    Option Members :=
  entries.foldlM (addEntry origin) members

/-- A header with the entries below it. -/
structure Section where
  /-- Whether the header is one of many, in double brackets. -/
  many : Bool
  header : Key
  entries : List (Key × Value)

/-- Opens the table of a header: a new one or one that so far was only implied, or the next one of
many. -/
def Section.addTo (part : Section) (members : Members) : Option Members := do
  let key := part.header.last
  match part.many, members.lookup key with
  | false, none =>
      return setMember key (.table .opened (← addEntries .opened [] part.entries)) members
  | false, some (.table .implied inner) =>
      return setMember key (.table .opened (← addEntries .opened inner part.entries)) members
  | true, none =>
      return setMember key (.tables (← addEntries .opened [] part.entries) []) members
  | true, some (.tables newest earlier) =>
      let next ← addEntries .opened [] part.entries
      return setMember key (.tables next (newest :: earlier)) members
  | _, _ => none

def addSection (members : Members) (part : Section) : Option Members :=
  alter .implied (fun _ => part.addTo) .opened part.header.parents members

/-- The tables of a document: the entries in front of all headers, and the sections. -/
def build (entries : List (Key × Value)) (sections : List Section) : Option Members := do
  sections.foldlM addSection (← addEntries .opened [] entries)

end ShapeCompat.Toml
