import ShapeCompat.Program
import Std.Time.Format

/-!
The program itself: looks at the file system, runs a command, and writes, prints and ends as its
answer says.
-/

namespace ShapeCompat.Main

open Std.Time

/-- The moment in UTC, as reports give it. -/
def now : IO String := do
  let moment := DateTime.ofTimestamp (← Timestamp.now) TimeZone.ZoneRules.UTC
  return moment.format "uuuu-MM-dd'T'HH:mm:ss.SSSSSSSSSxxx"

/-- A path as the file system takes it, from the working directory. -/
def located (path : String) : IO.FS.DirEntry := ⟨".", path⟩

/-- The names below a path without the contents of files, which are read when they are asked for. -/
partial def outline (path : String) : IO (Option FileTree) := do
  let place := (located path).path
  if ← place.isDir then
    let mut entries := []
    for entry in ← place.readDir do
      if let some node ← outline (Path.join path entry.fileName) then
        entries := entries ++ [(entry.fileName, node)]
    return some (.directory entries)
  if ← place.pathExists then return some (.file .empty)
  return none

/-- The text of a file, or the reason that it has none. -/
def textOf (path : String) : IO (Except String String) := do
  try
    return .ok (← IO.FS.readFile path)
  catch fault => return .error (toString fault)

def textIfPresent (path : String) : IO (Option (Except String String)) := do
  if ← (located path).path.pathExists then return some (← textOf path) else return none

/-- Where a pattern leads in the file system. -/
def placesOf (pattern : Glob.Pattern) : IO (List FileTree.Place) := do
  match Glob.leading pattern.start pattern.components with
  | none => return []
  | some (path, rest) =>
      match ← outline path with
      | some node => return Glob.search rest ⟨path, node, []⟩
      | none => return []

def documentsBelow (directory : String) : IO (Except RunFault (List LoadedDocument)) := do
  match Glob.parse? (LoadedDocument.filePattern directory) with
  | none => return .error (Command.patternFault directory)
  | some pattern =>
      let documents ← (← placesOf pattern).mapM fun place => do
        return LoadedDocument.ofText place.path (← textOf place.path)
      return .ok (LoadedDocument.sorted documents)

/-- Makes one directory, unless it is there. -/
def makeLast (path : String) : IO Unit := do
  try IO.FS.createDir path
  catch fault => unless ← (located path).path.isDir do throw fault

def perform : Write → IO Unit
  | .directory path => (Path.ladder path).forM makeLast
  | .file path text => IO.FS.writeFile path text

/-- Ends with what the answer prints; a fault is told on the error stream. -/
def finish (answer : Answer) : IO UInt32 := do
  IO.print answer.output
  if let some fault := answer.fault then IO.eprintln fault.message
  return answer.exitCode.toUInt32

def outcomeOf (settings : RunSettings) : IO (Except RunFault Outcome) := do
  let started ← now
  match ← documentsBelow settings.declarationsDirectory with
  | .error fault => return .error fault
  | .ok documents =>
      return .ok (Command.outcome settings ⟨started, some (← now)⟩ documents)

def run (command : Command) : IO UInt32 := do
  let path := command.settingsPath
  match Command.fileSettings path (← textIfPresent path) with
  | .error fault => finish (.failure fault)
  | .ok file =>
      let settings := command.settings file
      match ← outcomeOf settings with
      | .error fault => finish (.failure fault)
      | .ok outcome =>
          (command.writes settings outcome).forM perform
          finish (command.answer settings outcome)

end ShapeCompat.Main

open ShapeCompat

def main (arguments : List String) : IO UInt32 := do
  match CommandLine.parse arguments with
  | .error .usage =>
      IO.eprint CommandLine.usageText
      return 2
  | .error .help =>
      IO.print CommandLine.usageText
      return 0
  | .error .version =>
      IO.print versionLine
      return 0
  | .ok command =>
      try Main.run command
      catch fault =>
        IO.eprintln (toString fault)
        return 1
