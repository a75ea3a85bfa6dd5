import ShapeCompat.Run
import ShapeCompat.Proofs.Assembly.Totals

/-!
What a run says of itself. It fails exactly when some declaration has no plan, has one finding for
every failure and every unreadable document, and counts what is in the plan.
-/

namespace ShapeCompat

namespace LoadedDocument

/-- The finding on a document that could not be loaded. -/
def warning? (directory : String) (document : LoadedDocument) : Option Finding :=
  document.fault?.map fun fault =>
    Finding.ofInput (PlanInput.ofDocument directory document) fault.message

def isUnreadable (document : LoadedDocument) : Bool := document.fault?.isSome

theorem warning_is_some (directory : String) (document : LoadedDocument) :
    (document.warning? directory).isSome = document.isUnreadable := Option.isSome_map

/-- What is declared in documents is declared in those that were loaded. -/
theorem flat_map_shapes (documents : List LoadedDocument) :
    documents.flatMap (·.shapes) =
      (documents.filterMap (·.content.toOption)).flatMap (·.shapes) := by
  induction documents with
  | nil => rfl
  | cons document rest induction =>
      obtain ⟨path, content⟩ := document
      rw [List.flatMap_cons, induction]
      cases content with
      | ok content => rfl
      | error fault => rfl

theorem warnings_length (directory : String) (documents : List LoadedDocument) :
    (documents.filterMap (·.warning? directory)).length = documents.countP (·.isUnreadable) := by
  rw [List.length_filterMap_eq_countP]
  apply List.countP_congr
  intro document _
  rw [warning_is_some]

end LoadedDocument

namespace Plan

variable (plan : Plan)

def constructions : List Construction := plan.shapePlans.filterMap (·.construction)

def overloads : List Overload := plan.constructions.flatMap (·.overloads)

def entryPoints : List EntryPoint := plan.overloads.flatMap (·.entries)

/-- The factory functions of all units, wherever they have their place. -/
def factories : List Factory := plan.units.flatMap (·.factories)

theorem entry_points_length :
    (plan.constructions.flatMap (·.entryPoints)).length = plan.entryPoints.length := by
  have entries : (plan.constructions.flatMap (·.entryPoints)).map (·.2) = plan.entryPoints := by
    unfold entryPoints overloads Construction.entryPoints
    rw [List.map_flatMap, List.flatMap_assoc]
    apply List.flatMap_congr
    intro construction _
    rw [List.map_flatMap]
    apply List.flatMap_congr
    intro overload _
    rw [List.map_map]
    exact List.map_id _
  rw [← entries, List.length_map]

end Plan

namespace Verdict

theorem fails_iff (plan : Plan) :
    (ofPlan plan).status = .fail ↔ 0 < plan.failures.length := by
  simp only [ofPlan]
  split_ifs with failed warned
  · simp [failed]
  · simp [failed]
  · simp [failed]

theorem warns_iff {plan : Plan} (clean : plan.failures.length = 0) :
    (ofPlan plan).status = .warn ↔ 0 < (Finding.warnings plan).length := by
  simp only [ofPlan, clean, Nat.lt_irrefl, if_false]
  split_ifs with warned
  · exact iff_of_true rfl warned
  · exact iff_of_false nofun warned

theorem passes_iff {plan : Plan} (clean : plan.failures.length = 0) :
    (ofPlan plan).status = .pass ↔ (Finding.warnings plan).length = 0 := by
  simp only [ofPlan, clean, Nat.lt_irrefl, if_false]
  split_ifs with warned
  · exact iff_of_false nofun (Nat.ne_of_gt warned)
  · exact iff_of_true rfl (Nat.eq_zero_of_not_pos warned)

end Verdict

namespace Finding

/-- Findings of one severity are all or none of the wanted ones. -/
theorem filter_severity {findings : List Finding} {own : Severity}
    (each : ∀ finding ∈ findings, finding.severity = own) (wanted : Severity) :
    findings.filter (fun finding => decide (finding.severity = wanted)) =
      if own = wanted then findings else [] := by
  split_ifs with same
  · rw [List.filter_eq_self]
    intro finding member
    rw [each finding member]
    exact decide_eq_true same
  · rw [List.filter_eq_nil_iff]
    intro finding member
    rw [each finding member, decide_eq_true_eq]
    exact same

theorem warning_severity {plan : Plan} {finding : Finding} (member : finding ∈ warnings plan) :
    finding.severity = .warn := by
  obtain ⟨input, _, warned⟩ := List.mem_filterMap.mp member
  obtain ⟨reason, _, rfl⟩ := Option.map_eq_some_iff.mp warned
  rfl

theorem failure_severity {failures : List Failure} {finding : Finding}
    (member : finding ∈ failures.map ofFailure) : finding.severity = .error := by
  obtain ⟨failure, _, rfl⟩ := List.mem_map.mp member
  rfl

end Finding

namespace Report

def findingsOf (report : Report) (severity : Severity) : List Finding :=
  report.findings.filter fun finding => decide (finding.severity = severity)

theorem findings_eq (plan : Plan) (times : RunTimes) :
    (ofPlan plan times).findings =
      Finding.warnings plan ++ plan.failures.map Finding.ofFailure := rfl

theorem findings_of_severity (plan : Plan) (times : RunTimes) (severity : Severity) :
    (ofPlan plan times).findingsOf severity =
      match severity with
      | .error => plan.failures.map Finding.ofFailure
      | .warn => Finding.warnings plan
      | .info => [] := by
  rw [findingsOf, findings_eq, List.filter_append, Finding.filter_severity fun _ => Finding.warning_severity,
    Finding.filter_severity fun _ => Finding.failure_severity]
  cases severity <;> simp

theorem errors_counted (plan : Plan) (times : RunTimes) :
    (ofPlan plan times).verdict.counts.error = ((ofPlan plan times).findingsOf .error).length := by
  rw [findings_of_severity]
  exact (List.length_map _).symm

theorem warnings_counted (plan : Plan) (times : RunTimes) :
    (ofPlan plan times).verdict.counts.warn = ((ofPlan plan times).findingsOf .warn).length := by
  rw [findings_of_severity]
  rfl

end Report

namespace Outcome

theorem ends_iff (outcome : Outcome) :
    outcome.result = .error (.defects outcome.defects) ↔ 0 < outcome.defects := by
  unfold result
  split_ifs with failed
  · simp [failed]
  · simp [failed]

/-- What an outcome says of a run over documents is so. -/
structure IsTruthful (directory : String) (style : Style) (documents : List LoadedDocument)
    (outcome : Outcome) : Prop where
  fails : outcome.report.verdict.status = .fail ↔ 0 < outcome.defects
  ends : outcome.result = .error (.defects outcome.defects) ↔ 0 < outcome.defects
  incomplete :
    outcome.plan.summary.shapesPlanned < outcome.plan.summary.shapesTotal ↔ 0 < outcome.defects
  total : outcome.plan.summary.shapesTotal =
    ((documents.filterMap (·.content.toOption)).flatMap (·.shapes)).length
  planned : outcome.plan.summary.shapesPlanned = outcome.plan.shapePlans.length
  warns : outcome.defects = 0 →
    (outcome.report.verdict.status = .warn ↔ ∃ document ∈ documents, document.isUnreadable)
  passes : outcome.defects = 0 →
    (outcome.report.verdict.status = .pass ↔ ∀ document ∈ documents, ¬ document.isUnreadable)
  errors : outcome.report.findingsOf .error = outcome.plan.failures.map Finding.ofFailure
  warnings : outcome.report.findingsOf .warn = documents.filterMap (·.warning? directory)
  infos : outcome.report.findingsOf .info = []
  error_count : outcome.report.verdict.counts.error = (outcome.report.findingsOf .error).length
  warn_count : outcome.report.verdict.counts.warn = (outcome.report.findingsOf .warn).length
  unreadable : (outcome.report.findingsOf .warn).length = documents.countP (·.isUnreadable)
  overloads : outcome.plan.summary.overloads = outcome.plan.overloads.length
  entry_points : outcome.plan.summary.entryPoints =
    outcome.plan.entryPoints.length + outcome.plan.factories.length
  factories : outcome.plan.factories.map (·.owner) =
    if style = .callback then plainNames outcome.plan.shapePlans else []
  factories_once : (outcome.plan.factories.map (·.owner)).Nodup

section Run

variable (directory : String) (planner : Settings) (tool : Tool) (times : RunTimes)
  (documents : List LoadedDocument)

theorem warnings_eq :
    Finding.warnings (Plan.ofDocuments directory planner tool documents) =
      documents.filterMap (·.warning? directory) := by
  unfold Finding.warnings
  apply (List.filterMap_map ..).trans
  apply List.filterMap_congr
  intro document _
  exact Option.map_map ..

theorem unreadable_counted :
    (Finding.warnings (Plan.ofDocuments directory planner tool documents)).length =
      documents.countP (·.isUnreadable) := by
  rw [warnings_eq, LoadedDocument.warnings_length]

theorem incomplete_iff :
    (Plan.ofDocuments directory planner tool documents).summary.shapesPlanned <
        (Plan.ofDocuments directory planner tool documents).summary.shapesTotal ↔
      0 < (Plan.ofDocuments directory planner tool documents).failures.length := by
  have fewer := Assembly.planned_fewer_iff (documents.flatMap (·.shapes)) planner
  rw [Assembly.plannedNames, List.length_map, ← List.length_pos_iff] at fewer
  have failures : (Plan.ofDocuments directory planner tool documents).failures.length =
      (Assembly.ofDeclarations (documents.flatMap (·.shapes)) planner).defects.length :=
    List.length_map _
  rw [failures]
  exact fewer

theorem entry_points_counted :
    (Plan.ofDocuments directory planner tool documents).summary.entryPoints =
      (Plan.ofDocuments directory planner tool documents).entryPoints.length +
        (Plan.ofDocuments directory planner tool documents).factories.length := by
  rw [← Plan.entry_points_length, Plan.factories, factories_length, ← Nat.add_assoc]
  rfl

/-- The verdict of a run, its findings and its counts are true of its documents and its plan. -/
theorem run_is_truthful :
    IsTruthful directory planner.style documents
      (ofDocuments directory planner tool times documents) where
  fails := Verdict.fails_iff _
  ends := ends_iff _
  incomplete := incomplete_iff directory planner tool documents
  total := by
    rw [← LoadedDocument.flat_map_shapes]
    rfl
  planned := rfl
  warns := by
    intro clean
    rw [← List.countP_pos_iff, ← unreadable_counted directory planner tool documents]
    exact Verdict.warns_iff clean
  passes := by
    intro clean
    rw [← List.countP_eq_zero, ← unreadable_counted directory planner tool documents]
    exact Verdict.passes_iff clean
  errors := Report.findings_of_severity _ times .error
  warnings := by
    rw [← warnings_eq directory planner tool documents]
    exact Report.findings_of_severity _ times .warn
  infos := Report.findings_of_severity _ times .info
  error_count := Report.errors_counted _ times
  warn_count := Report.warnings_counted _ times
  unreadable := by
    rw [← unreadable_counted directory planner tool documents]
    exact congrArg List.length (Report.findings_of_severity _ times .warn)
  overloads := rfl
  entry_points := entry_points_counted directory planner tool documents
  factories := Assembly.factory_owners _ planner
  factories_once := Assembly.factory_owners_distinct _ planner

end Run

end Outcome

end ShapeCompat
