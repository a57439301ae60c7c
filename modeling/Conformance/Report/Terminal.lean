import Conformance.Report.Structured

/-!
# `Report.Terminal`: the result of a check for people

The report for a terminal lists the rules with their violations, the coverage of every file with the
points of its types, and a last line with the verdict. Colours are used if they are wanted.
-/

namespace Conformance

/-! ## Colours -/

/-- The ways in which texts stand out, by the number that a terminal knows them by. -/
inductive Ink where
  | bold
  | dimmed
  | red
  | green
  | yellow
  | blue
  | cyan
  deriving DecidableEq, Repr, Inhabited

namespace Ink

/-- The number that a terminal knows an ink by. -/
def code : Ink → Nat
  | bold => 1
  | dimmed => 2
  | red => 31
  | green => 32
  | yellow => 33
  | blue => 34
  | cyan => 36

/-- Tells a terminal to go back to plain text. -/
def reset : List Char := "\x1b[0m".toList

/-- Tells a terminal to use some inks. -/
def start (inks : List Ink) : List Char :=
  ("\x1b[" ++ String.intercalate ";" (inks.map fun i => toString i.code) ++ "m").toList

/-- Starts again behind every reset within a text. The number counts characters to pass over. -/
def restart (opening : List Char) : Nat → List Char → List Char
  | _, [] => []
  | 0, c :: cs =>
    if reset.isPrefixOf (c :: cs) then c :: restart opening (reset.length - 1) cs
    else c :: restart opening 0 cs
  | 1, c :: cs => c :: opening ++ restart opening 0 cs
  | n + 2, c :: cs => c :: restart opening (n + 1) cs

/-- Writes a text in some inks, if colours are wanted. -/
def paint (colored : Bool) (inks : List Ink) (s : String) : String :=
  if colored then
    let opening := start inks
    String.ofList (opening ++ restart opening 0 s.toList ++ reset)
  else s

end Ink

namespace Terminal

open Ink (paint)

/-- A line of a report. -/
def line (s : String) : String := s ++ "\n"

/-- Blanks at the start of a line. -/
def indent (width : Nat) : String := String.ofList (List.replicate width ' ')

/-! ## Rules -/

/-- The line of a rule. -/
def ruleLine (mark name rest : String) : String :=
  line (indent 4 ++ mark ++ " " ++ name ++ rest)

/-- The lines below a rule that failed. -/
def failureLines (colored : Bool) : Failure → String
  | .noMatches => line (indent 12 ++ paint colored [.yellow] Failure.noMatches.message)
  | failure =>
    line (indent 12 ++ Text.firstLine failure.message)
    ++ String.join (failure.violations.map fun v =>
      line (indent 14 ++ paint colored [.dimmed] "-" ++ " " ++ v.message))

/-- The lines of a rule. -/
def ruleLines (colored : Bool) (o : RuleOutcome) : String :=
  let name := o.test.test
  match o.outcome with
  | .passed =>
    let selected := paint colored [.dimmed] ("  (" ++ toString o.selected ++ " types)")
    ruleLine (paint colored [.green] "PASS ") name selected
  | .failed failure =>
    ruleLine (paint colored [.red] "FAIL ") name "" ++ failureLines colored failure
  | .errored fault =>
    ruleLine (paint colored [.bold, .red] "ERROR") name "" ++ line (indent 12 ++ fault.message)

/-- The lines of all rules. -/
def rulesText (colored : Bool) (outcomes : List RuleOutcome) : String :=
  if outcomes.isEmpty then line (indent 2 ++ paint colored [.dimmed] "No rules defined")
  else
    line (indent 2 ++ paint colored [.bold] "Rules" ++ " (" ++ toString outcomes.length ++ "):")
    ++ line "" ++ String.join (outcomes.map (ruleLines colored))

/-! ## Coverage -/

/-- The inks for a percentage: the higher, the greener. -/
def percentageInks (p : Float) : List Ink :=
  if 80.0 ≤ p then [.bold, .green]
  else if 50.0 ≤ p then [.green]
  else if 25.0 ≤ p then [.yellow]
  else [.red]

/-- A percentage in five columns. -/
def percentageText (colored : Bool) (p : Float) : String :=
  paint colored (percentageInks p) (Text.padLeft 5 (Decimal.oneDecimal p) ++ "%")

/-- The line of a type. -/
def scoreLine (colored : Bool) (s : Score) : String :=
  line <| paint colored [.dimmed] <|
    indent 12 ++ Text.padRight 40 s.name ++ " " ++ toString s.earned ++ "/" ++ toString s.max
      ++ " pts"

/-- How many types a file declares. -/
def typeCountText (n : Nat) : String :=
  "  (" ++ toString n ++ " type" ++ (if n = 1 then "" else "s") ++ ")"

/-- The lines of a file. -/
def fileLines (colored : Bool) (f : FileCoverage) : String :=
  line (indent 4 ++ percentageText colored f.percentage ++ "  " ++ paint colored [.blue] f.file
    ++ paint colored [.dimmed] (typeCountText f.scores.length))
  ++ String.join (f.scores.map (scoreLine colored))

/-- The lines of all files. -/
def coverageText (colored : Bool) (files : List FileCoverage) : String :=
  if files.isEmpty then ""
  else
    line (indent 2 ++ paint colored [.bold] "Coverage:")
    ++ String.join (files.map (fileLines colored)) ++ line ""

/-! ## The report -/

/-- A line at the top, with what it is about. -/
def headLine (colored : Bool) (what value : String) : String :=
  line (indent 2 ++ paint colored [.dimmed] what ++ value)

/-- What the report starts with. -/
def headText (colored : Bool) (context : ReportContext) (r : CheckResult) : String :=
  line "" ++ line (indent 2 ++ paint colored [.bold, .cyan] "archcheck" ++ " v" ++ programVersion)
  ++ line ""
  ++ headLine colored "Checking: " context.path
  ++ headLine colored "Contract: " context.contract
  ++ headLine colored "Types:    " (toString r.registry.userTypes.length)
  ++ line ""

/-- The line with the verdict. -/
def verdictLine (colored : Bool) (minimum : Option Float) (r : CheckResult) : String :=
  let verdict :=
    if r.passed minimum then paint colored [.green] "✓ PASS" else paint colored [.red] "✗ FAIL"
  let counted (sort : Outcome → Bool) := toString (countOutcomes sort r.outcomes)
  line (indent 2 ++ verdict
    ++ "  " ++ counted Outcome.isPassed ++ " passed, " ++ counted Outcome.isFailed ++ " failed, "
    ++ counted Outcome.isErrored ++ " errored"
    ++ "  Coverage: " ++ percentageText colored r.coverage.overall
    ++ (match minimum with
      | some x => paint colored [.dimmed] (" (minimum " ++ Decimal.oneDecimal x ++ "%)")
      | none => ""))

/-- The report of a check. -/
def report (colored : Bool) (context : ReportContext) (r : CheckResult) : String :=
  headText colored context r
  ++ rulesText colored r.outcomes ++ line ""
  ++ coverageText colored r.coverage.files
  ++ verdictLine colored context.minimum r ++ line ""

end Terminal
end Conformance
