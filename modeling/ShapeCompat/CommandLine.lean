import ShapeCompat.Settings.File

/-!
The command line: three commands, each with flags that take a value behind a blank or an equals
sign. Two dashes end the flags of a command.
-/

namespace ShapeCompat

/-- The flags that all commands share. -/
structure InputFlags where
  /-- The directory that holds the settings file. -/
  root : String := "."
  declarationsDirectory : Option String := none
  planner : SettingFlags := {}
  deriving DecidableEq

inductive Action where
  /-- Plan and write the results. -/
  | plan (outputDirectory : Option String)
  /-- Plan and list what is wrong. -/
  | check
  /-- Plan and show one shape. -/
  | explain (name : String)
  deriving DecidableEq

structure Command where
  action : Action
  inputs : InputFlags
  deriving DecidableEq

namespace CommandLine

/-- Why there is no command to run. -/
inductive Stop where
  | usage
  | help
  | version
  deriving DecidableEq

/-- What the words of a command said so far. -/
structure Words where
  root : Option String := none
  declarationsDirectory : Option String := none
  requiredSuffix : Option String := none
  droppedPackageSuffixes : List String := []
  style : Option Style := none
  outputDirectory : Option String := none
  positionals : List String := []
  deriving DecidableEq

/-- What may follow the name of a command. -/
structure Grammar where
  /-- The flags that it takes, each with a value. -/
  flags : List String
  /-- How many words that are no flags it takes at most. -/
  positionals : Nat
  deriving DecidableEq

/-- Whether a word is a flag; a dash alone is not. -/
def isFlag : List Char → Bool
  | '-' :: _ :: _ => true
  | _ => false

/-- A long flag at its first equals sign. -/
def splitFlag (text : List Char) : String × Option String :=
  let name := String.ofList (text.takeWhile (· != '='))
  match text.dropWhile (· != '=') with
  | [] => (name, none)
  | _ :: value => (name, some (String.ofList value))

def asksForHelp : List Char → Bool
  | '-' :: 'h' :: _ => true
  | word => word == "--help".toList

/-- A flag that may be given once. -/
def once {Content : Type} (given : Option Content) (value : Content) :
    Except Stop (Option Content) :=
  match given with
  | none => .ok (some value)
  | some _ => .error .usage

def readStyle (text : String) : Except Stop Style :=
  match Style.parse text with
  | .ok style => .ok style
  | .error _ => .error .usage

namespace Words

def withFlag (words : Words) (grammar : Grammar) (name value : String) : Except Stop Words := do
  if name ∉ grammar.flags then .error .usage
  else match name with
    | "root" => return { words with root := ← once words.root value }
    | "decls-dir" =>
        return { words with declarationsDirectory := ← once words.declarationsDirectory value }
    | "required-suffix" => return { words with requiredSuffix := ← once words.requiredSuffix value }
    | "drop-package-suffix" =>
        return { words with droppedPackageSuffixes := words.droppedPackageSuffixes ++ [value] }
    | "style" => return { words with style := ← once words.style (← readStyle value) }
    | "out-dir" => return { words with outputDirectory := ← once words.outputDirectory value }
    | _ => .error .usage

def withPositional (words : Words) (grammar : Grammar) (word : String) : Except Stop Words :=
  if words.positionals.length < grammar.positionals then
    .ok { words with positionals := words.positionals ++ [word] }
  else .error .usage

end Words

/-- Goes through the words from left to right, so that the first one that asks for help or is out of
place decides. The value of a flag is no flag itself. -/
def scan (grammar : Grammar) (words : Words) : List String → Except Stop Words
  | [] => .ok words
  | word :: rest =>
      if word = "--" then rest.foldlM (fun words word => words.withPositional grammar word) words
      else if asksForHelp word.toList then .error .help
      else match word.toList with
        | '-' :: '-' :: text =>
            let (name, value) := splitFlag text
            match value, rest with
            | some value, rest => do scan grammar (← words.withFlag grammar name value) rest
            | none, value :: rest =>
                if isFlag value.toList then .error .usage
                else do scan grammar (← words.withFlag grammar name value) rest
            | none, [] => .error .usage
        | '-' :: _ :: _ => .error .usage
        | _ => do scan grammar (← words.withPositional grammar word) rest

def sharedNames : List String :=
  ["root", "decls-dir", "required-suffix", "drop-package-suffix", "style"]

def Words.inputs (words : Words) : InputFlags :=
  let absent : InputFlags := {}
  { root := words.root.getD absent.root
    declarationsDirectory := words.declarationsDirectory
    planner := {
      requiredSuffix := words.requiredSuffix
      droppedPackageSuffixes := words.droppedPackageSuffixes
      style := words.style } }

def parsePlan (rest : List String) : Except Stop Command := do
  let words ← scan ⟨"out-dir" :: sharedNames, 0⟩ {} rest
  return ⟨.plan words.outputDirectory, words.inputs⟩

def parseCheck (rest : List String) : Except Stop Command := do
  return ⟨.check, (← scan ⟨sharedNames, 0⟩ {} rest).inputs⟩

def parseExplain (rest : List String) : Except Stop Command := do
  let words ← scan ⟨sharedNames, 1⟩ {} rest
  match words.positionals with
  | [name] => return ⟨.explain name, words.inputs⟩
  | _ => .error .usage

/-- The commands that help can be asked about, itself among them. -/
def commandNames : List String := ["plan", "check", "explain", "help"]

def helpStop : List String → Stop
  | [] => .help
  | [name] => if name ∈ commandNames then .help else .usage
  | _ => .usage

def asksForVersion : List Char → Bool
  | '-' :: 'V' :: _ => true
  | word => word == "--version".toList

def parse : List String → Except Stop Command
  | "plan" :: rest => parsePlan rest
  | "check" :: rest => parseCheck rest
  | "explain" :: rest => parseExplain rest
  | "help" :: rest => .error (helpStop rest)
  | word :: _ =>
      if asksForVersion word.toList then .error .version
      else if asksForHelp word.toList then .error .help
      else .error .usage
  | [] => .error .usage

/-- How the program is called. -/
def usageText : String :=
  "usage: bincompat plan|check|explain SHAPE [--root DIR] [--decls-dir DIR]\n" ++
  "  [--required-suffix TEXT] [--drop-package-suffix TEXT]... [--style callback|overload]\n" ++
  "  [--out-dir DIR] (plan only)\n"

end CommandLine

end ShapeCompat
