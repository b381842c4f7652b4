/-
  ObjcBindings.Command.Run
  ────────────────────────────────
  **RUNNING A COMMAND.**

  A command line becomes a dialogue with the system that ends in an outcome:
  what is printed, and the exit code.  Reports go to standard output, all else
  to standard error.

      0   the command did its work
      1   it ran into trouble
      2   the command line makes no sense
-/
import ObjcBindings.Command.Arguments
import ObjcBindings.Command.Load
import ObjcBindings.Command.Report

namespace ObjcBindings

open Text

/-! ## §1. Outcomes. -/

/-- What a run leaves on the terminal. -/
structure Outcome where
  exitCode : UInt8 := 0
  stdout : String := ""
  stderr : String := ""
  deriving DecidableEq, Repr

/-- The version of the program. -/
def versionLine : String := "objc-bindgen 0.1.0\n"

/-- How the program is called. -/
def usageText : String :=
  Report.textLines
    ["Generate Rust bindings from Objective-C headers",
     "",
     "Usage: objc-bindgen [OPTIONS] [COMMAND]",
     "",
     "Commands:",
     "  generate       Generate Rust bindings",
     "  ast summary    Count declarations by kind",
     "  ast modules    Show which module each Objective-C container is assigned to",
     "  ast search     Fuzzy search top-level declarations by name",
     "  ast reachable  List the C declarations reachable from Objective-C APIs",
     "",
     "Options:",
     "  -c, --config <CONFIG>      Path to the configuration file",
     "      --json                 Output as JSON",
     "      --verbose              Enable verbose output",
     "      --json-logs            Emit log events as JSON lines",
     "      --completions <SHELL>  Generate shell completions",
     "  -h, --help                 Print help",
     "  -V, --version              Print version"]

/-- The words that a shell completes. -/
def completionWords : String := "generate ast summary modules search reachable help"

/-- The line that teaches a shell the words of the program. -/
def Shell.completion : Shell → String
  | .bash => "complete -W \"" ++ completionWords ++ "\" objc-bindgen\n"
  | .elvish =>
      "set edit:completion:arg-completer[objc-bindgen] = \x7b|@args| put " ++ completionWords
        ++ " \x7d\n"
  | .fish => "complete -c objc-bindgen -f -a \"" ++ completionWords ++ "\"\n"
  | .powershell =>
      "Register-ArgumentCompleter -Native -CommandName objc-bindgen -ScriptBlock \x7b \""
        ++ completionWords ++ "\".Split(\" \") \x7d\n"
  | .zsh => "compdef '_arguments \"*: :(" ++ completionWords ++ ")\"' objc-bindgen\n"

/-! ## §2. Commands. -/

/-- Standard output with a JSON value. -/
def Outcome.ofJson (value : Json) : Outcome :=
  { stdout := value.pretty ++ "\n" }

/-- Standard output with lines. -/
def Outcome.ofLines (lines : List String) : Outcome :=
  { stdout := Report.textLines lines }

/-- Write the generated code to a file, with the directories above it. -/
def writeSource (path : String) (source : Source) : Job Outcome := do
  match Path.parent? path with
  | some above =>
      if !above.isEmpty then
        orTrouble (.directory above) (← Dialogue.ensureDirs above)
  | none => pure ()
  orTrouble (.output path)
    (← Dialogue.store path (Utf8.encode source.fullSource))
  return { stderr :=
    "✓ Wrote " ++ Report.plural source.modules.length "module" ++ " to " ++ path ++ "\n" }

/-- Generate bindings. -/
def runGenerate (settings : Settings) (json : Bool) (input : String) (output : Option String) :
    Job Outcome := do
  let unit ← Load.unit settings.producer input
  let rules ← orTrouble .rules settings.moduleRules
  let source ← orTrouble (.bindings input) (unit.bindings rules settings.banner)
  if json then return .ofJson (Report.sourceJson source)
  else match output with
    | some path => writeSource path source
    | none => return { stdout := source.fullSource }

/-- Run a command with its settings. -/
def runCommand (settings : Settings) (json : Bool) : Command → Job Outcome
  | .generate input output => runGenerate settings json input output
  | .summary input => do
      let unit ← Load.unit settings.producer input
      let table ← orTrouble .plain (Table.ofUnit unit)
      let summary := Report.Summary.ofUnit unit table
      return if json then .ofJson summary.json else { stdout := summary.text }
  | .modules input => do
      let unit ← Load.unit settings.producer input
      let table ← orTrouble .plain (Table.ofUnit unit)
      let rules ← orTrouble .rules settings.moduleRules
      let modules ← orTrouble .plain (Report.moduleListings table rules)
      return if json then .ofJson (.obj (modules.map Report.ModuleListing.json))
        else .ofLines (modules.flatMap Report.ModuleListing.lines)
  | .search input query => do
      let unit ← Load.unit settings.producer input
      let results := unit.search query
      return if json then .ofJson (.arr (results.map Report.resultJson))
        else .ofLines (Report.resultLines query results)
  | .reachable input => do
      let unit ← Load.unit settings.producer input
      let table ← orTrouble .plain (Table.ofUnit unit)
      let used ← orTrouble .plain table.used
      return if json then .ofJson (Report.usedJson used)
        else .ofLines (Report.usedLines table used)

/-! ## §3. Command lines. -/

/-- The line that a verbose run starts with. -/
def Invocation.opening (i : Invocation) : String :=
  match i.verbose, i.command with
  | true, .generate input _ => "→ Generating bindings for " ++ input ++ "\n"
  | _, _ => ""

/-- Run an invocation. -/
def Invocation.run (i : Invocation) : Dialogue Outcome := do
  let job : Job Outcome := do runCommand (← Load.settings i.config) i.json i.command
  match ← job.run with
  | .ok outcome => return { outcome with stderr := i.opening ++ outcome.stderr }
  | .error trouble =>
      return { exitCode := 1, stderr := i.opening ++ "Error: " ++ trouble.message ++ "\n" }

/-- Do what a command line asks for. -/
def runArgs (args : List String) : Dialogue Outcome :=
  match Request.ofArgs args with
  | none => .done { exitCode := 2, stderr := usageText }
  | some .help => .done { stdout := usageText }
  | some .version => .done { stdout := versionLine }
  | some (.completions shell) => .done { stdout := shell.completion }
  | some (.run invocation) => invocation.run

end ObjcBindings
