import Conformance.Command.Line
import Conformance.Command.Template
import Conformance.Contract.Text
import Conformance.Pattern.Standard
import Conformance.Report.Terminal

/-!
# `Command.Run`: what the commands do

A command sees the files as one value and gives back what it prints, its exit code and the files as
it leaves them. A check changes no files; its exit code is 0 if it passes, 1 if it does not, and 2
if there is nothing to check. A new contract goes to a path at which nothing stands yet. Commands work
with any engine for regular expressions; the one that comes with them is `Engine.standard`.
-/

namespace Conformance
namespace Command

/-- What comes of a command. -/
structure Response where
  exitCode : Nat
  output : String := ""
  errors : String := ""
  deriving DecidableEq, Repr, Inhabited

/-- The exit code of success. -/
def exitSuccess : Nat := 0

/-- The exit code of a check that does not pass. -/
def exitFailed : Nat := 1

/-- The exit code of a command that cannot do its work. -/
def exitError : Nat := 2

/-- The response of a command that cannot do its work. -/
def refusal (errors : String) : Response := { exitCode := exitError, errors }

/-! ## Checking -/

/-- How a report is written. -/
inductive Format where
  | terminal
  | json
  deriving DecidableEq, Repr, Inhabited

/-- The format with this name. -/
def Format.ofName? (name : String) : Option Format :=
  if name == "pretty" then some .terminal else if name == "json" then some .json else none

/-- Why nothing can be checked. -/
inductive CheckFault where
  | unknownFormat (name : String)
  | badPath (path : String) (cause : FileError)
  | noContract
  | unreadableContract (path : String) (cause : FileError)
  | notYaml (cause : Yaml.Fault)
  | invalidContract (cause : Invalid)
  | badMinimum (x : Float)
  deriving Inhabited

/-- The names under which a contract is looked for. -/
def contractNames : List String := ["archcheck.yaml", "arch.yaml", ".archcheck.yaml"]

/-- What is printed about the fault. -/
def CheckFault.message : CheckFault → String
  | unknownFormat name =>
    "Error: invalid format " ++ Text.quote name ++ ", must be 'pretty' or 'json'\n"
  | badPath path cause =>
    "Error: cannot access path " ++ Text.quotePath path ++ ": " ++ cause.message ++ "\n"
  | noContract =>
    "Error: no contract file found (looked for " ++ String.intercalate ", " contractNames ++ ")\n"
    ++ "Run 'archcheck init' to create a contract file\n"
  | unreadableContract path cause =>
    "Error parsing contract: cannot read " ++ path ++ ": " ++ cause.message ++ "\n"
  | notYaml cause => "Error parsing contract: " ++ cause.message
  | invalidContract cause => "Error: invalid contract: " ++ cause.message ++ "\n"
  | badMinimum x => "Error: " ++ percentText "--min-coverage" x ++ "\n"

/-- Where a contract for `base` is looked for: next to it, then in the working directory. -/
def contractPlaces (fs : FileSystem) (base : Path) : List Path :=
  let directory := if fs.isDirectory base then base else base.parent?.getD ⟨"."⟩
  [directory, ⟨"."⟩].flatMap fun d => contractNames.map d.join

/-- The contract to use for `base`: the one that was named, or the first one that is found. -/
def findContract (fs : FileSystem) (base : Path) (named : Option String) :
    Except CheckFault Path :=
  match named with
  | some path => .ok ⟨path⟩
  | none =>
    match (contractPlaces fs base).find? fs.has with
    | some path => .ok path
    | none => .error .noContract

/-- Reads the contract at a path, which has to be valid. -/
def readContract [Engine] (fs : FileSystem) (path : Path) : Except CheckFault Contract :=
  match fs.readText path with
  | .error cause => .error (.unreadableContract path.text cause)
  | .ok text =>
    match Contract.ofText text with
    | .error cause => .error (.notYaml cause)
    | .ok contract =>
      match contract.validate with
      | .error cause => .error (.invalidContract cause)
      | .ok () => .ok contract

/-- Everything that a check needs. -/
structure CheckPlan where
  format : Format
  base : Path
  contractPath : Path
  contract : Contract
  minimum : Option Float
  deriving Inhabited

/-- Prepares a check. The first fault is reported. -/
def planCheck [Engine] (fs : FileSystem) (args : CheckArguments) : Except CheckFault CheckPlan := do
  let format ← match Format.ofName? args.format with
    | some format => pure format
    | none => throw (.unknownFormat args.format)
  let base ← match fs.canonical ⟨args.path⟩ with
    | .ok base => pure base
    | .error cause => throw (.badPath args.path cause)
  let contractPath ← findContract fs base args.contract
  let contract ← readContract fs contractPath
  match args.minimum.filter (fun x => !isPercentage x) with
  | some x => throw (.badMinimum x)
  | none => pure ()
  let minimum := args.minimum <|> contract.coverageThreshold
  pure { format, base, contractPath, contract, minimum }

/-- What a check prints. -/
def reportText (colored : Bool) (format : Format) (context : ReportContext) (r : CheckResult) :
    String :=
  match format with
  | .terminal => Terminal.report colored context r
  | .json => (Json.ofResult context r).print 0 ++ "\n"

/-- What is printed when there are no rules. -/
def noRulesWarning : String := "Warning: contract defines no rules\n"

/-- Checks a project. -/
def runCheck [Engine] (colored : Bool) (fs : FileSystem) (args : CheckArguments) : Response :=
  match planCheck fs args with
  | .error fault => refusal fault.message
  | .ok plan =>
    match plan.contract.check fs plan.base with
    | .error cause => refusal ("Error: " ++ cause.message ++ "\n")
    | .ok result =>
      let context : ReportContext :=
        { path := args.path, contract := plan.contractPath.text, minimum := plan.minimum }
      { exitCode := if result.passed plan.minimum then exitSuccess else exitFailed
        output := reportText colored plan.format context result
        errors := if result.outcomes.isEmpty then noRulesWarning else "" }

/-! ## Writing a contract -/

/-- Why no contract is written. -/
inductive InitFault where
  | unknownTemplate (name : String)
  | taken (path : String)
  | noDirectory (path : String) (cause : FileError)
  | notWritten (path : String) (cause : FileError)
  deriving DecidableEq, Repr, Inhabited

/-- What is printed about the fault. -/
def InitFault.message : InitFault → String
  | unknownTemplate name =>
    "Error: unknown template " ++ Text.quote name ++ " (available: "
    ++ String.intercalate ", " (Template.all.map (·.name)) ++ ")\n"
  | taken path =>
    "Error: file already exists: " ++ path ++ "\n"
    ++ "Remove it or use --output to choose another path\n"
  | noDirectory path cause =>
    "Error: failed to create directory " ++ path ++ ": " ++ cause.message ++ "\n"
  | notWritten path cause =>
    "Error: failed to write contract " ++ path ++ ": " ++ cause.message ++ "\n"

/-- The line of a template in the list. -/
def templateLine (t : Template) : String :=
  let rules := match Contract.ofText t.content with
    | .ok c => c.rules.length
    | .error _ => 0
  "  " ++ (if t.name == Template.minimal.name then "*" else " ") ++ Text.padRight 14 t.name ++ " "
    ++ Text.padLeft 2 (toString rules) ++ " rules  " ++ t.description ++ "\n"

/-- The list of templates. -/
def templateList : String :=
  "Available templates:\n\n" ++ String.join (Template.all.map templateLine)
    ++ "\n  * default\nUsage: archcheck init --template <name> [--output <file>]\n"

/-- What is printed when a contract was written. -/
def createdText (path : String) (t : Template) : String :=
  "Created " ++ path ++ " from template '" ++ t.name ++ "'\n\nNext steps:\n"
    ++ "  1. Point \x60sources\x60 at your code and adjust the namespaces\n"
    ++ "  2. Run: archcheck check . --contract " ++ path ++ "\n"

/-- Creates the directory that a new file goes into. -/
def makeRoom (fs : FileSystem) (path : Path) : FileSystem × Except InitFault Unit :=
  match path.parent?.filter (fun p => !p.text.isEmpty) with
  | none => (fs, .ok ())
  | some directory =>
    let change := fs.createDirectories directory
    (change.files, match change.result with
      | .ok () => .ok ()
      | .error cause => .error (.noDirectory directory.text cause))

/-- Writes a template to a path. Directories stay if writing fails. -/
def writeTemplate (fs : FileSystem) (path : Path) (t : Template) :
    FileSystem × Except InitFault Unit :=
  match makeRoom fs path with
  | (fs, .error fault) => (fs, .error fault)
  | (fs, .ok ()) =>
    match fs.writeText path t.content with
    | .ok fs => (fs, .ok ())
    | .error cause => (fs, .error (.notWritten path.text cause))

/-- Writes a template to a path at which nothing stands. -/
def placeTemplate (fs : FileSystem) (args : InitArguments) :
    FileSystem × Except InitFault Template :=
  match Template.named? args.template with
  | none => (fs, .error (.unknownTemplate args.template))
  | some t =>
    if fs.has ⟨args.output⟩ then (fs, .error (.taken args.output))
    else
      let (fs, result) := writeTemplate fs ⟨args.output⟩ t
      (fs, result.map fun () => t)

/-- Writes a contract, or lists what there is to write. -/
def runInit (fs : FileSystem) (args : InitArguments) : FileSystem × Response :=
  if args.list then (fs, { exitCode := exitSuccess, output := templateList })
  else
    match placeTemplate fs args with
    | (fs, .error fault) => (fs, refusal fault.message)
    | (fs, .ok t) => (fs, { exitCode := exitSuccess, output := createdText args.output t })

end Command
end Conformance
