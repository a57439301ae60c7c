import Conformance.Contract.Compile
import Conformance.Rules.Inspection

/-!
# `Contract.Run`: applying the rules of a contract

Every rule runs as a test of its own. A rule that cannot be applied is an error, selects nothing
and records nothing. Otherwise its selection is inspected while the test is running, and the
failure of the inspection, if any, is the failure of the rule. The run of a contract starts from an
empty ledger and applies the rules in order.
-/

namespace Conformance

/-- How a rule went. -/
inductive Outcome where
  | passed
  | failed (failure : Failure)
  | errored (fault : RuleFault)
  deriving Inhabited

namespace Outcome

/-- The word that marks the outcome in reports. -/
def label : Outcome → String
  | passed => "PASS"
  | failed _ => "FAIL"
  | errored _ => "ERROR"

/-- The name of the outcome. -/
def status : Outcome → String
  | passed => "passed"
  | failed _ => "failed"
  | errored _ => "errored"

/-- Whether the rule passed. -/
def isPassed : Outcome → Bool
  | passed => true
  | _ => false

/-- Whether the rule failed. -/
def isFailed : Outcome → Bool
  | failed _ => true
  | _ => false

/-- Whether the rule could not be applied. -/
def isErrored : Outcome → Bool
  | errored _ => true
  | _ => false

/-- The outcome of an inspection. -/
def ofResult : Except Failure Unit → Outcome
  | .ok () => passed
  | .error failure => failed failure

end Outcome

/-- The outcome of one rule. -/
structure RuleOutcome where
  test : TestId
  /-- How many types the rule was about. -/
  selected : Nat
  outcome : Outcome
  deriving Inhabited

namespace Rule

/-- What a rule asks for, when all its clauses are understood. -/
def compile [Engine] (r : Rule) : Except RuleFault (Selection × List Requirement) := do
  let selection ← r.select.compile
  let requirements ← r.requirements
  pure (selection, requirements)

/-- Inspects what the rule selects. -/
def inspect (registry : Registry) (recorder : Recorder) (selection : Selection)
    (requirements : List Requirement) : Inspection :=
  (Inspection.start recorder (selection.pick registry)).requireAll requirements

/-- Applies the rule as a test of a suite. -/
def run [Engine] (r : Rule) (registry : Registry) (suite : String) (recorder : Recorder) :
    RuleOutcome × Recorder :=
  let test : TestId := { suite, test := r.name }
  match r.compile with
  | .error fault => ({ test, selected := 0, outcome := .errored fault }, recorder.leave)
  | .ok (selection, requirements) =>
    let inspection := inspect registry (recorder.enter test) selection requirements
    let outcome := Outcome.ofResult (inspection.conclude r.summary)
    ({ test, selected := inspection.types.length, outcome }, inspection.recorder.leave)

/-- Applies rules one after the other. -/
def runAll [Engine] (registry : Registry) (suite : String) :
    List Rule → Recorder → List RuleOutcome × Recorder
  | [], recorder => ([], recorder)
  | r :: rest, recorder =>
    let (outcome, recorder) := r.run registry suite recorder
    let (outcomes, recorder) := runAll registry suite rest recorder
    (outcome :: outcomes, recorder)

end Rule

namespace Contract

/-- Applies the rules of the contract, whatever was recorded before. -/
def run [Engine] (c : Contract) (registry : Registry) (recorder : Recorder) :
    List RuleOutcome × Recorder :=
  Rule.runAll registry c.suiteName c.rules recorder.clear

end Contract

/-- How many outcomes are of one sort. -/
def countOutcomes (sort : Outcome → Bool) (outcomes : List RuleOutcome) : Nat :=
  outcomes.countP (fun o => sort o.outcome)

/-- Whether all rules passed. -/
def allPassed (outcomes : List RuleOutcome) : Bool :=
  outcomes.all (fun o => o.outcome.isPassed)

end Conformance
