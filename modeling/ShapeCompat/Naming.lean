import ShapeCompat.Declaration.Basic
import ShapeCompat.Text.Blank
import ShapeCompat.Text.Ending

/-!
Names of the planned shapes: the simple output name, the output package, and the table from
declared to output names that families are merged by.
-/

namespace ShapeCompat

/-- The generated name if it is not blank, else the declared name without the required suffix; a
name that is nothing but the suffix has no output name. -/
def outputName? (declared : String) (generated : Option String) (requiredSuffix : String) :
    Option String :=
  match (generated.map fun name => Text.trim name.toList).filter (· ≠ []) with
  | some name => some (String.ofList name)
  | none =>
      ((Text.cutEnd? declared.toList requiredSuffix.toList).filter (· ≠ [])).map String.ofList

/-- A package suffix without the blanks around it and the dots in front. -/
def packageSuffix (written : String) : List Char :=
  (Text.trim written.toList).dropWhile (· == '.')

def byteLength (chars : List Char) : Nat := (String.ofList chars).utf8ByteSize

theorem byte_length_cons (char : Char) (chars : List Char) :
    byteLength (char :: chars) = char.utf8Size + byteLength chars := by
  rw [byteLength, String.ofList_cons, String.utf8ByteSize_append, String.utf8ByteSize_singleton]
  rfl

theorem byte_length_append (first second : List Char) :
    byteLength (first ++ second) = byteLength first + byteLength second := by
  simp [byteLength]

theorem byte_length_eq_zero {chars : List Char} (empty : byteLength chars = 0) : chars = [] := by
  simpa [byteLength] using empty

/-- The package before a suffix that takes up whole segments of it. -/
def withoutPackageSuffix? (package suffix : List Char) : Option (List Char) :=
  if package = suffix then some [] else Text.cutEnd? package ('.' :: suffix)

/-- The declared package without the longest of the given suffixes that it ends with. -/
def outputPackage (declared : String) (droppedSuffixes : List String) : String :=
  let candidates := ((droppedSuffixes.map packageSuffix).filter (· ≠ [])).mergeSort
    fun first second => decide (byteLength second ≤ byteLength first)
  match candidates.findSome? (withoutPackageSuffix? declared.toList) with
  | some stem => String.ofList stem
  | none => declared

/-- The output name of one shape; a nested shape's name carries its parent's before a dot. -/
structure OutputName where
  package : String
  nestedName : String
  deriving DecidableEq

def OutputName.qualified (name : OutputName) : String := qualify name.package name.nestedName

/-- Output names by declared qualified name. -/
structure NameTable where
  entries : List (String × OutputName) := []

namespace NameTable

/-- The name registered last is the one that counts. -/
def register (table : NameTable) (declared : String) (output : OutputName) : NameTable :=
  ⟨(declared, output) :: table.entries.filter (·.1 != declared)⟩

def resolve? (table : NameTable) (declared : String) : Option OutputName :=
  table.entries.lookup declared

def size (table : NameTable) : Nat := table.entries.length

def isEmpty (table : NameTable) : Bool := table.entries.isEmpty

theorem resolve_register (table : NameTable) (declared : String) (output : OutputName) :
    (table.register declared output).resolve? declared = some output := by
  simp [register, resolve?]

theorem lookup_filter_ne (entries : List (String × OutputName)) {declared other : String}
    (different : other ≠ declared) :
    (entries.filter (·.1 != declared)).lookup other = entries.lookup other := by
  induction entries with
  | nil => rfl
  | cons entry rest induction =>
      obtain ⟨name, output⟩ := entry
      by_cases here : name = declared
      · subst here
        rw [List.filter_cons_of_neg (by simp), induction, List.lookup_cons,
          beq_false_of_ne different]
      · rw [List.filter_cons_of_pos (by simpa using here), List.lookup_cons, List.lookup_cons,
          induction]

theorem resolve_register_ne (table : NameTable) {declared other : String} (output : OutputName)
    (different : other ≠ declared) :
    (table.register declared output).resolve? other = table.resolve? other := by
  unfold register resolve?
  rw [List.lookup_cons, beq_false_of_ne different]
  exact lookup_filter_ne table.entries different

end NameTable

end ShapeCompat
