import ShapeCompat.Plan.OfDocuments

/-!
Reports: a verdict on a plan, with a finding for every unreadable input and every failure, and the
JSON form of reports.
-/

namespace ShapeCompat

inductive Status where
  | pass
  | warn
  | fail
  deriving DecidableEq

inductive Severity where
  | info
  | warn
  | error
  deriving DecidableEq

structure ReportTool where
  name : String
  version : String
  deriving DecidableEq

structure RunTimes where
  started : String
  ended : Option String
  deriving DecidableEq

structure FindingCounts where
  info : Nat
  warn : Nat
  error : Nat
  deriving DecidableEq

structure Verdict where
  status : Status
  counts : FindingCounts
  reasons : List String
  deriving DecidableEq

structure Location where
  path : Option String := none
  shape : Option String := none
  field : Option String := none
  deriving DecidableEq

structure Finding where
  severity : Severity
  check : Option String
  code : String
  message : String
  location : Option Location
  fingerprint : Option String
  deriving DecidableEq

structure ArtifactNames where
  plan : Option String
  summary : Option String
  deriving DecidableEq

structure Report where
  schema : String
  tool : ReportTool
  run : RunTimes
  verdict : Verdict
  findings : List Finding
  artifacts : Option ArtifactNames
  data : Option Json

namespace Finding

def ofInput (input : PlanInput) (reason : String) : Finding :=
  { severity := .warn
    check := some "inputs"
    code := "decl_load_failed"
    message := s!"Declarations failed to load: {input.path} ({reason})"
    location := some { path := some input.path }
    fingerprint := some ("inputs/decl_load_failed/" ++ input.path) }

def ofFailure (failure : Failure) : Finding :=
  { severity := .error
    check := some failure.family.name
    code := failure.code
    message := failure.message
    location := some { shape := some failure.shape, field := failure.field }
    fingerprint := some (String.intercalate "/"
      [failure.code, failure.shape, failure.field.getD "-"]) }

end Finding

/-- The findings on a plan's unreadable inputs. -/
def Finding.warnings (plan : Plan) : List Finding :=
  plan.inputs.filterMap fun input => input.error.map (Finding.ofInput input)

/-- Failures make a run fail; unreadable inputs alone only make it warn. -/
def Verdict.ofPlan (plan : Plan) : Verdict :=
  let warned := (Finding.warnings plan).length
  let failed := plan.failures.length
  { status := if 0 < failed then .fail else if 0 < warned then .warn else .pass
    counts := ⟨plan.summary.units, warned, failed⟩
    reasons :=
      (if 0 < failed then ["plan_failures"] else []) ++
        if 0 < warned then ["partial_inputs"] else [] }

namespace Report

def schemaName : String := "bincompat.report.v1"

/-- The members are in ascending order of their names. -/
def planData (plan : Plan) : Json := .record [("bincompat", .record [
  ("construction_style", .text plan.settings.style.name),
  ("entry_points", .int plan.summary.entryPoints),
  ("overloads", .int plan.summary.overloads),
  ("plan_id", .text plan.planId),
  ("shapes_planned", .int plan.summary.shapesPlanned),
  ("shapes_total", .int plan.summary.shapesTotal),
  ("units", .int plan.summary.units)])]

def ofPlan (plan : Plan) (run : RunTimes) : Report :=
  { schema := schemaName
    tool := ⟨plan.tool.name, plan.tool.version.getD "unknown"⟩
    run
    verdict := Verdict.ofPlan plan
    findings := Finding.warnings plan ++ plan.failures.map Finding.ofFailure
    artifacts := some ⟨some "plan.json", some "plan.md"⟩
    data := some (planData plan) }

end Report

open Json

namespace Status

def name : Status → String
  | .pass => "pass"
  | .warn => "warn"
  | .fail => "fail"

def ofName? : String → Option Status
  | "pass" => some .pass
  | "warn" => some .warn
  | "fail" => some .fail
  | _ => none

def ofJson? (json : Json) : Option Status := json.choice?.bind ofName?

end Status

namespace Severity

def name : Severity → String
  | .info => "info"
  | .warn => "warn"
  | .error => "error"

def ofName? : String → Option Severity
  | "info" => some .info
  | "warn" => some .warn
  | "error" => some .error
  | _ => none

def ofJson? (json : Json) : Option Severity := json.choice?.bind ofName?

end Severity

namespace ReportTool

def toJson (tool : ReportTool) : Json := .record (
  member "name" (.text tool.name) ++
  member "version" (.text tool.version))

def ofJson? (json : Json) : Option ReportTool := do
  let members ← members? ["name", "version"] json
  return {
    name := ← members.required? "name" text?
    version := ← members.required? "version" text? }

end ReportTool

namespace RunTimes

def toJson (run : RunTimes) : Json := .record (
  member "started_at" (.text run.started) ++
  optionalMember "ended_at" .text run.ended)

def ofJson? (json : Json) : Option RunTimes := do
  let members ← members? ["started_at", "ended_at"] json
  return {
    started := ← members.required? "started_at" text?
    ended := ← members.optional? "ended_at" text? }

end RunTimes

namespace FindingCounts

def toJson (counts : FindingCounts) : Json := .record (
  member "info" (.int counts.info) ++
  member "warn" (.int counts.warn) ++
  member "error" (.int counts.error))

def ofJson? (json : Json) : Option FindingCounts := do
  let members ← members? ["info", "warn", "error"] json
  return {
    info := ← members.required? "info" nat?
    warn := ← members.required? "warn" nat?
    error := ← members.required? "error" nat? }

end FindingCounts

namespace Verdict

def toJson (verdict : Verdict) : Json := .record (
  member "status" (.text verdict.status.name) ++
  member "counts" verdict.counts.toJson ++
  textsMember "reasons" verdict.reasons)

def ofJson? (json : Json) : Option Verdict := do
  let members ← members? ["status", "counts", "reasons"] json
  return {
    status := ← members.required? "status" Status.ofJson?
    counts := ← members.required? "counts" FindingCounts.ofJson?
    reasons := ← members.withFallback? "reasons" [] texts? }

end Verdict

namespace Location

def toJson (location : Location) : Json := .record (
  optionalMember "path" .text location.path ++
  optionalMember "shape" .text location.shape ++
  optionalMember "field" .text location.field)

def ofJson? (json : Json) : Option Location := do
  let members ← members? ["path", "shape", "field"] json
  return {
    path := ← members.optional? "path" text?
    shape := ← members.optional? "shape" text?
    field := ← members.optional? "field" text? }

end Location

namespace Finding

def toJson (finding : Finding) : Json := .record (
  member "severity" (.text finding.severity.name) ++
  optionalMember "check_id" .text finding.check ++
  member "code" (.text finding.code) ++
  member "message" (.text finding.message) ++
  optionalMember "location" Location.toJson finding.location ++
  optionalMember "fingerprint" .text finding.fingerprint)

def memberNames : List String :=
  ["severity", "check_id", "code", "message", "location", "fingerprint"]

def ofJson? (json : Json) : Option Finding := do
  let members ← members? memberNames json
  return {
    severity := ← members.required? "severity" Severity.ofJson?
    check := ← members.optional? "check_id" text?
    code := ← members.required? "code" text?
    message := ← members.required? "message" text?
    location := ← members.optional? "location" Location.ofJson?
    fingerprint := ← members.optional? "fingerprint" text? }

end Finding

namespace ArtifactNames

def toJson (artifacts : ArtifactNames) : Json := .record (
  optionalMember "plan" .text artifacts.plan ++
  optionalMember "summary" .text artifacts.summary)

def ofJson? (json : Json) : Option ArtifactNames := do
  let members ← members? ["plan", "summary"] json
  return {
    plan := ← members.optional? "plan" text?
    summary := ← members.optional? "summary" text? }

end ArtifactNames

namespace Report

def toJson (report : Report) : Json := .record (
  member "schema" (.text report.schema) ++
  member "tool" report.tool.toJson ++
  member "run" report.run.toJson ++
  member "verdict" report.verdict.toJson ++
  listMember "findings" Finding.toJson report.findings ++
  optionalMember "artifacts" ArtifactNames.toJson report.artifacts ++
  optionalMember "data" id report.data)

def memberNames : List String :=
  ["schema", "tool", "run", "verdict", "findings", "artifacts", "data"]

def ofJson? (json : Json) : Option Report := do
  let members ← members? memberNames json
  return {
    schema := ← members.required? "schema" text?
    tool := ← members.required? "tool" ReportTool.ofJson?
    run := ← members.required? "run" RunTimes.ofJson?
    verdict := ← members.required? "verdict" Verdict.ofJson?
    findings := ← members.withFallback? "findings" [] (listOf? Finding.ofJson?)
    artifacts := ← members.optional? "artifacts" ArtifactNames.ofJson?
    data := ← members.optional? "data" some }

end Report

end ShapeCompat
