import ShapeCompat.Json.Decoding
import ShapeCompat.Text.Blank

/-!
What a run is told from outside: the suffix that declared names carry, the package suffixes that
output packages drop, and the style in which constructors are laid out.
-/

namespace ShapeCompat

/-- How the public constructors of one version are laid out. -/
inductive Style where
  /-- One entry with a callback for each version, and a factory function. -/
  | callback
  /-- Two entries for each version: defaulted optionals, and an optional callback. -/
  | overload
  deriving DecidableEq

/-- A style name that is none of the accepted ones, trimmed and in lower case. -/
structure UnknownStyle where
  name : String
  deriving DecidableEq

def UnknownStyle.message (fault : UnknownStyle) : String :=
  s!"unknown construction style '{fault.name}'"

namespace Style

def name : Style → String
  | .callback => "callback"
  | .overload => "overload"

def ofName? : String → Option Style
  | "callback" => some .callback
  | "overload" => some .overload
  | _ => none

/-- Blanks around the name and the case of its ASCII letters do not count; `dsl` and `constructor`
are second names of the two styles. -/
def parse (text : String) : Except UnknownStyle Style :=
  match String.ofList ((Text.trim text.toList).map Char.toLower) with
  | "callback" | "dsl" => .ok .callback
  | "overload" | "constructor" => .ok .overload
  | other => .error ⟨other⟩

def toJson (style : Style) : Json := .text style.name

def ofJson? (json : Json) : Option Style := json.choice?.bind ofName?

end Style

structure Settings where
  requiredSuffix : String := "DBC"
  droppedPackageSuffixes : List String := []
  style : Style := .callback
  deriving DecidableEq

namespace Settings

open Json

def toJson (settings : Settings) : Json := .record (
  member "required_suffix" (.text settings.requiredSuffix) ++
  member "drop_package_suffixes" (.texts settings.droppedPackageSuffixes) ++
  member "construction_style" settings.style.toJson)

/-- Reads settings whose required suffix may be absent and then is `absentSuffix`; `none` makes the
suffix necessary. -/
def ofMembers? (members : Members) (absentSuffix : Option String) : Option Settings := do
  let requiredSuffix ← match absentSuffix with
    | some suffix => members.withFallback? "required_suffix" suffix text?
    | none => members.required? "required_suffix" text?
  return {
    requiredSuffix
    droppedPackageSuffixes := ← members.withFallback? "drop_package_suffixes" [] texts?
    style := ← members.withFallback? "construction_style" .callback Style.ofJson? }

def memberNames : List String := ["required_suffix", "drop_package_suffixes", "construction_style"]

def ofJson? (json : Json) : Option Settings := do
  ofMembers? (← members? memberNames json) none

end Settings

end ShapeCompat
