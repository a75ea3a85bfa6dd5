import ShapeCompat.Markdown

/-!
Answering a question about one shape by name: its page when it is planned, its failures when it is
not, and otherwise the names that there are.
-/

namespace ShapeCompat

inductive Explanation where
  | planned (shape : ShapePlan)
  | failed (failures : List Failure)
  | unknown
  deriving DecidableEq

namespace Explanation

/-- A failure is about a name if its shape has that name or ends with it behind a dot. -/
def isAbout (name : String) (failure : Failure) : Bool :=
  failure.shape == name || ("." ++ name).toList.isSuffixOf failure.shape.toList

def ofName (plan : Plan) (name : String) : Explanation :=
  match plan.findShape? name with
  | some shape => .planned shape
  | none =>
      match plan.failures.filter (isAbout name) with
      | [] => .unknown
      | failures => .failed failures

def failurePage (name : String) (failures : List Failure) : String :=
  s!"# {name}\n\nNot planned:\n\n" ++
    String.join (failures.map fun failure => s!"- `{failure.code}`: {failure.message}\n")

end Explanation

/-- The qualified output names of a plan, in ascending order. -/
def Plan.knownShapes (plan : Plan) : List String :=
  (plan.shapePlans.map (·.qualifiedName)).mergeSort fun first second => decide (first ≤ second)

end ShapeCompat
