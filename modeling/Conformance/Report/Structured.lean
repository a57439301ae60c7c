import Conformance.Project.Check
import Conformance.Report.Json

/-!
# `Report.Structured`: the result of a check for programs

The report is one record. It repeats what was checked, counts rules by outcome, and lists the
outcome of every rule and the coverage of every file.
-/

namespace Conformance

/-- What a report says besides the result: what was checked, and which coverage was asked for. -/
structure ReportContext where
  path : String
  contract : String
  minimum : Option Float := none
  deriving Inhabited

/-- The version of the program. -/
def programVersion : String := "0.1.0"

namespace Json

/-! ## Rules -/

/-- A test, as reports name it. -/
def ofTest (t : TestId) : Json :=
  record [("class", text t.suite), ("method", text t.test)]

/-- A violation. -/
def ofViolation (v : Violation) : Json :=
  record [("type_name", text v.typeName), ("message", text v.message)]

/-- What an outcome says besides its name. -/
def outcomeFields : Outcome → List (String × Json)
  | .passed => []
  | .failed failure => [
    ("message", text failure.message),
    ("violations", list (failure.violations.map ofViolation)),
    ("no_matches", bool (failure == .noMatches))]
  | .errored fault => [("message", text fault.message)]

/-- The outcome of a rule. -/
def ofRuleOutcome (o : RuleOutcome) : Json :=
  record <| [
    ("test", ofTest o.test),
    ("selected", count o.selected),
    ("status", text o.outcome.status)] ++ outcomeFields o.outcome

/-- How many rules there are, by outcome. -/
def ofSummary (outcomes : List RuleOutcome) : Json := record [
  ("rules", count outcomes.length),
  ("passed", count (countOutcomes Outcome.isPassed outcomes)),
  ("failed", count (countOutcomes Outcome.isFailed outcomes)),
  ("errored", count (countOutcomes Outcome.isErrored outcomes))]

/-! ## Coverage -/

/-- The score of a type. -/
def ofScore (s : Score) : Json := record [
  ("name", text s.name),
  ("kind", text s.kind.keyword),
  ("earned", count s.earned),
  ("max", count s.max),
  ("percentage", number s.percentage)]

/-- The coverage of a file. -/
def ofFileCoverage (f : FileCoverage) : Json := record [
  ("file", text f.file),
  ("types", list (f.scores.map ofScore)),
  ("percentage", number f.percentage)]

/-- The coverage of a run. -/
def ofCoverage (c : Coverage) : Json := record [
  ("files", list (c.files.map ofFileCoverage)),
  ("overall", number c.overall)]

/-! ## The report -/

/-- The report of a check. -/
def ofResult (context : ReportContext) (r : CheckResult) : Json :=
  record <| [
    ("version", text programVersion),
    ("path", text context.path),
    ("contract", text context.contract),
    ("passed", bool (r.passed context.minimum)),
    ("types_cataloged", count r.registry.userTypes.length),
    ("summary", ofSummary r.outcomes),
    ("rules", list (r.outcomes.map ofRuleOutcome)),
    ("coverage", ofCoverage r.coverage)]
  ++ (context.minimum.map fun x => ("min_coverage", number x)).toList

end Json
end Conformance
