import ShapeCompat.Json.Printer
import ShapeCompat.Markdown
import ShapeCompat.Report

/-!
A run over loaded documents: the plan, its report, what the run ends with, and the files that are
written for it.
-/

namespace ShapeCompat

/-- Why a run does not end well. -/
inductive RunFault where
  | defects (count : Nat)
  /-- The surroundings failed, not the declarations. -/
  | internal (text : String)
  deriving DecidableEq

namespace RunFault

def exitCode : RunFault → Nat
  | .defects _ => 2
  | .internal _ => 1

def message : RunFault → String
  | .defects count => s!"{count} planning defect(s)"
  | .internal text => text

end RunFault

/-- What a run is set up with. -/
structure RunSettings where
  declarationsDirectory : String
  outputDirectory : String
  planner : Settings

structure Outcome where
  plan : Plan
  report : Report

namespace Outcome

def defects (outcome : Outcome) : Nat := outcome.plan.failures.length

/-- An outcome with defects is one to fail with. -/
def result (outcome : Outcome) : Except RunFault Outcome :=
  if 0 < outcome.defects then .error (.defects outcome.defects) else .ok outcome

/-- Plans documents in the order given. -/
def ofDocuments (declarationsDirectory : String) (planner : Settings) (tool : Tool)
    (times : RunTimes) (documents : List LoadedDocument) : Outcome :=
  let plan := Plan.ofDocuments declarationsDirectory planner tool documents
  ⟨plan, Report.ofPlan plan times⟩

end Outcome

/-- One step of writing results. -/
inductive Write where
  | directory (path : String)
  | file (path : String) (text : String)
  deriving DecidableEq

/-- The plan, its page and the report, in the directory that is made for them. -/
def Outcome.writes (outcome : Outcome) (directory : String) : List Write :=
  [.directory directory,
    .file (Path.join directory "plan.json") outcome.plan.toJson.indented,
    .file (Path.join directory "plan.md") (Markdown.planPage outcome.plan),
    .file (Path.join directory "report.json") outcome.report.toJson.indented]

end ShapeCompat
