import ShapeCompat.CommandLine
import ShapeCompat.Document.Loading
import ShapeCompat.Explanation
import ShapeCompat.Run

/-!
The program over a file tree: where a command reads and writes, what it prints, and how it ends.
-/

namespace ShapeCompat

def programName : String := "bincompat"

def programVersion : String := "0.1.0"

/-- The program as plans and reports name it. -/
def Tool.program : Tool := { name := programName, version := some programVersion }

/-- The line that tells the version. -/
def versionLine : String := s!"{programName} {programVersion}\n"

/-- What a command prints, and why it does not end well. -/
structure Answer where
  output : String
  fault : Option RunFault
  deriving DecidableEq

namespace Answer

def failure (fault : RunFault) : Answer := ⟨"", some fault⟩

def exitCode (answer : Answer) : Nat := answer.fault.elim 0 RunFault.exitCode

end Answer

def Outcome.fault? (outcome : Outcome) : Option RunFault :=
  match outcome.result with
  | .ok _ => none
  | .error fault => some fault

/-- One line for a plan that was written. -/
def Outcome.planLine (outcome : Outcome) (outputDirectory : String) : String :=
  let summary := outcome.plan.summary
  s!"planned {summary.shapesPlanned} of {summary.shapesTotal} shapes into " ++
    s!"{summary.units} unit(s), {summary.failures} failure(s); wrote {outputDirectory}\n"

def PlanInput.warningLine (input : PlanInput) : String :=
  match input.error with
  | some reason => s!"warning: {input.path}: {reason}\n"
  | none => ""

def Failure.line (failure : Failure) : String :=
  let field := match failure.field with
    | some name => "." ++ name
    | none => ""
  s!"{failure.code}: {failure.shape}{field}: {failure.message}\n"

/-- Unreadable inputs, failures, and a last line when there are none of the latter. -/
def Outcome.checkLines (outcome : Outcome) : String :=
  let summary := outcome.plan.summary
  String.join (outcome.plan.inputs.map PlanInput.warningLine) ++
    String.join (outcome.plan.failures.map Failure.line) ++
    if outcome.defects = 0 then
      s!"ok: {summary.shapesPlanned} shape(s) planned into {summary.units} unit(s)\n"
    else ""

def Outcome.explain (outcome : Outcome) (name : String) : Answer :=
  match Explanation.ofName outcome.plan name with
  | .planned shape => ⟨Markdown.shapePage shape, none⟩
  | .failed failures =>
      ⟨Explanation.failurePage name failures, some (.defects failures.length)⟩
  | .unknown =>
      let known := match outcome.plan.knownShapes with
        | [] => "(none)"
        | names => String.intercalate ", " names
      .failure (.internal s!"Unknown shape: '{name}'\n\nPlanned shapes: {known}")

namespace Command

def settingsPath (command : Command) : String :=
  Path.join command.inputs.root FileSettings.fileName

/-- The settings in a file that may be missing, by its text or the reason that it has none. -/
def fileSettings (path : String) : Option (Except String String) → Except RunFault FileSettings
  | none => .ok {}
  | some (.error reason) => .error (.internal s!"read settings {path}: {reason}")
  | some (.ok text) =>
      match FileSettings.parse? text with
      | some file => .ok file
      | none => .error (.internal s!"parse settings {path}: invalid TOML")

def outputFlag (command : Command) : Option String :=
  match command.action with
  | .plan outputDirectory => outputDirectory
  | _ => none

/-- Directories that no flag names lie in the root; a flag is taken as it is. -/
def settings (command : Command) (file : FileSettings) : RunSettings :=
  let root := command.inputs.root
  let inFile := file.outputDirectory.map (Path.join root)
  { declarationsDirectory := command.inputs.declarationsDirectory.getD (Path.join root "decls")
    outputDirectory := (command.outputFlag.or inFile).getD
      (Path.join (Path.join root "artifacts") "bincompat")
    planner := file.planner command.inputs.planner }

def outcome (settings : RunSettings) (times : RunTimes) (documents : List LoadedDocument) :
    Outcome :=
  Outcome.ofDocuments settings.declarationsDirectory settings.planner .program times documents

/-- Only planning writes. -/
def writes (command : Command) (settings : RunSettings) (outcome : Outcome) : List Write :=
  match command.action with
  | .plan _ => outcome.writes settings.outputDirectory
  | _ => []

/-- The answer after everything was written. -/
def answer (command : Command) (settings : RunSettings) (outcome : Outcome) : Answer :=
  match command.action with
  | .plan _ => ⟨outcome.planLine settings.outputDirectory, outcome.fault?⟩
  | .check => ⟨outcome.checkLines, outcome.fault?⟩
  | .explain name => outcome.explain name

/-- The fault of a pattern that is not well formed. -/
def patternFault (directory : String) : RunFault :=
  .internal s!"load declarations from {directory}: glob declarations/**/*.json"

end Command

namespace FileTree

def perform (tree : FileTree) : Write → Option FileTree
  | .directory path => tree.makeDirectory path
  | .file path text => tree.writeFile path text.toUTF8

/-- Writes until one fails; the flag is whether all were done. -/
def performAll (tree : FileTree) : List Write → FileTree × Bool
  | [] => (tree, true)
  | write :: rest =>
      match tree.perform write with
      | some tree => tree.performAll rest
      | none => (tree, false)

end FileTree

namespace Command

def readSettings (tree : FileTree) (command : Command) : Except RunFault RunSettings := do
  let text := (tree.find? command.settingsPath).map fun place => place.node.text
  return command.settings (← fileSettings command.settingsPath text)

/-- Plans the documents of a tree. -/
def readOutcome (tree : FileTree) (settings : RunSettings) (times : RunTimes) :
    Except RunFault Outcome :=
  match LoadedDocument.find? tree settings.declarationsDirectory with
  | some documents => .ok (outcome settings times documents)
  | none => .error (patternFault settings.declarationsDirectory)

/-- Runs a command in a tree: the tree that it leaves behind, and its answer. What was written in
front of a failed write stays. -/
def run (tree : FileTree) (times : RunTimes) (command : Command) : FileTree × Answer :=
  let prepared : Except RunFault (RunSettings × Outcome) := do
    let settings ← command.readSettings tree
    return (settings, ← readOutcome tree settings times)
  match prepared with
  | .error fault => (tree, .failure fault)
  | .ok (settings, outcome) =>
      match tree.performAll (command.writes settings outcome) with
      | (tree, true) => (tree, command.answer settings outcome)
      | (tree, false) =>
          (tree, .failure (.internal s!"write artifacts to {settings.outputDirectory}"))

end Command

end ShapeCompat
