import Conformance.Command.Options
import Conformance.Decimal.Read

/-!
# `Command.Line`: the command lines of the program

There are two commands: one checks a project, the other writes a contract to start from. Options
that take a value are given once at most, and paths are never empty.
-/

namespace Conformance
namespace Command

/-- What to check, and how to report it. -/
structure CheckArguments where
  path : String := "."
  contract : Option String := none
  format : String := "pretty"
  minimum : Option Float := none
  deriving Inhabited

/-- Which contract to write, and where. -/
structure InitArguments where
  output : String := "archcheck.yaml"
  template : String := "minimal"
  /-- Lists the templates instead. -/
  list : Bool := false
  deriving Inhabited

/-- What a command line asks for. -/
inductive Request where
  | check (args : CheckArguments)
  | init (args : InitArguments)
  /-- Help, or the version of the program. -/
  | information
  /-- The line means nothing. -/
  | misuse
  deriving Inhabited

/-! ## Values that are given once -/

/-- A value for a place that is still empty. -/
def once {α : Type} (place : Option α) (a : α) : Option (Option α) :=
  if place.isSome then none else some (some a)

/-- A path for a place that is still empty. -/
def oncePath (place : Option String) (path : String) : Option (Option String) :=
  if path.isEmpty then none else once place path

/-! ## Options -/

/-- Asks for help. -/
def helpOption {σ : Type} : OptionSpec σ :=
  { long := "help", short := some 'h', effect := .information }

/-- Asks for the version. -/
def versionOption {σ : Type} : OptionSpec σ :=
  { long := "version", short := some 'V', effect := .information }

/-- Asks for more messages about the work, of which there are none here. -/
def verboseOption {σ : Type} : OptionSpec σ :=
  { long := "verbose", short := some 'v', effect := .flag some }

/-- The arguments of a check that were given so far. -/
structure GivenCheck where
  path : Option String := none
  contract : Option String := none
  format : Option String := none
  minimum : Option Float := none
  deriving Inhabited

/-- The options of a check. -/
def checkOptions : List (OptionSpec GivenCheck) := [
  helpOption, verboseOption,
  { long := "contract", short := some 'c', effect := .value fun v g =>
      (oncePath g.contract v).map fun contract => { g with contract } },
  { long := "format", short := some 'f', effect := .value fun v g =>
      (once g.format v).map fun format => { g with format } },
  { long := "min-coverage", effect := .value fun v g =>
      (Decimal.read? v).bind fun x =>
        (once g.minimum x).map fun minimum => { g with minimum } }]

/-- Reads the arguments of a check. -/
def readCheck (args : List String) : Request :=
  let operand v (g : GivenCheck) := (oncePath g.path v).map fun path => { g with path }
  match readAll checkOptions operand args.length false {} args with
  | .goesOn g _ =>
    let defaults : CheckArguments := {}
    .check {
      path := g.path.getD defaults.path
      contract := g.contract
      format := g.format.getD defaults.format
      minimum := g.minimum }
  | .information => .information
  | .misuse => .misuse

/-- The arguments for a new contract that were given so far. -/
structure GivenInit where
  output : Option String := none
  template : Option String := none
  list : Bool := false
  deriving Inhabited

/-- The options for a new contract. -/
def initOptions : List (OptionSpec GivenInit) := [
  helpOption, verboseOption,
  { long := "output", short := some 'o', effect := .value fun v g =>
      (oncePath g.output v).map fun output => { g with output } },
  { long := "template", short := some 't', effect := .value fun v g =>
      (once g.template v).map fun template => { g with template } },
  { long := "list", short := some 'l', effect := .flag fun g =>
      if g.list then none else some { g with list := true } }]

/-- Reads the arguments for a new contract. -/
def readInit (args : List String) : Request :=
  match readAll initOptions (fun _ _ => none) args.length false {} args with
  | .goesOn g _ =>
    let defaults : InitArguments := {}
    .init {
      output := g.output.getD defaults.output
      template := g.template.getD defaults.template
      list := g.list }
  | .information => .information
  | .misuse => .misuse

/-! ## Whole lines -/

/-- The names of the commands. -/
def commandNames : List String := ["check", "init", "help"]

/-- Reads what comes behind the word `help`: at most the name of a command. -/
def readHelp : List String → Request
  | [] => .information
  | [name] => if commandNames.contains name then .information else .misuse
  | _ => .misuse

/-- Reads the options in front of a command, and the command. -/
def readLine : (fuel : Nat) → List String → Request
  | _, [] => .misuse
  | 0, _ :: _ => .misuse
  | fuel + 1, arg :: rest =>
    if arg == "check" then readCheck rest
    else if arg == "init" then readInit rest
    else if arg == "help" then readHelp rest
    else if !looksLikeOption arg || arg == "--" then .misuse
    else
      match readOption [helpOption, versionOption, verboseOption] () arg rest with
      | .goesOn () rest => readLine fuel rest
      | .information => .information
      | .misuse => .misuse

/-- What the arguments of the program ask for. -/
def Request.ofArguments (args : List String) : Request := readLine args.length args

end Command
end Conformance
