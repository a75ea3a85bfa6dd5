import ShapeCompat.Settings.Basic
import ShapeCompat.Toml.Reader

/-!
Settings from a file in TOML, and how flags come on top of them. The file may leave out everything;
sections and keys that it has beside the known ones do not count, as long as they can be looked at.
-/

namespace ShapeCompat

structure FileSettings where
  requiredSuffix : Option String := none
  droppedPackageSuffixes : List String := []
  style : Option Style := none
  outputDirectory : Option String := none
  deriving DecidableEq

/-- Settings given by flags. -/
structure SettingFlags where
  requiredSuffix : Option String := none
  droppedPackageSuffixes : List String := []
  style : Option Style := none
  deriving DecidableEq

namespace Toml

def Value.text? : Value → Option String
  | .text content => some content
  | _ => none

def Value.texts? : Value → Option (List String)
  | .list items => items.mapM text?
  | _ => none

def Value.isEmpty : Value → Bool
  | .list [] | .table _ [] => true
  | _ => false

/-- A style by its name, or as the only key of a table, with nothing inside. -/
def Value.style? : Value → Option Style
  | .text name => Style.ofName? name
  | .table _ [(name, value)] => if value.isEmpty then Style.ofName? name else none
  | _ => none

/-- Members of which those with other names than these can all be looked at. -/
def Members.known? (members : Members) (names : List String) : Option Members :=
  if members.all fun (name, value) => names.contains name || value.isReadable then some members
  else none

/-- The members of a section: a list gives them in the order of `names`, and whatever it has beyond
them is not looked at; a date or a time counts as a section without known members. -/
def Value.members? (names : List String) : Value → Option Members
  | .table _ members => Members.known? members names
  | .list items => some (names.zip items)
  | .scalar .moment => some []
  | _ => none

/-- A section that may be left out. -/
def Members.section? (members : Members) (name : String) (names : List String) : Option Members :=
  match members.lookup name with
  | some value => value.members? names
  | none => some []

/-- A member that may be left out, but not written in another form. -/
def Members.optional? {Content : Type} (members : Members) (name : String)
    (read : Value → Option Content) : Option (Option Content) :=
  match members.lookup name with
  | some value => (read value).map some
  | none => some none

end Toml

namespace FileSettings

/-- Where a project keeps its settings. -/
def fileName : String := "bincompat.toml"

def ofMembers? (document : Toml.Members) : Option FileSettings := do
  let members ← Toml.Members.known? document ["planner", "output"]
  let planner ← members.section? "planner" Settings.memberNames
  let output ← members.section? "output" ["out_dir"]
  return {
    requiredSuffix := ← planner.optional? "required_suffix" Toml.Value.text?
    droppedPackageSuffixes :=
      (← planner.optional? "drop_package_suffixes" Toml.Value.texts?).getD []
    style := ← planner.optional? "construction_style" Toml.Value.style?
    outputDirectory := ← output.optional? "out_dir" Toml.Value.text? }

def parse? (text : String) : Option FileSettings := (Toml.parse? text).bind ofMembers?

/-- Adds the texts that are not there yet, in order. -/
def extend (present : List String) (added : List String) : List String :=
  added.foldl (fun texts text => if text ∈ texts then texts else texts ++ [text]) present

/-- The suffix and the style of the flags go first; package suffixes of both count, those of the
file in front. -/
def planner (file : FileSettings) (flags : SettingFlags) : Settings :=
  let absent : Settings := {}
  { requiredSuffix := (flags.requiredSuffix.or file.requiredSuffix).getD absent.requiredSuffix
    droppedPackageSuffixes := extend file.droppedPackageSuffixes flags.droppedPackageSuffixes
    style := (flags.style.or file.style).getD absent.style }

end FileSettings

end ShapeCompat
