import Conformance.Contract.Run
import Conformance.Project.Survey

/-!
# `Project.Check`: checking a project against a contract

A check surveys the sources of a contract, applies its rules to the types found, and scores how much
of every source file the rules have covered. It passes if all rules pass and the overall coverage is
large enough.
-/

namespace Conformance

/-- Everything that a check finds out. -/
structure CheckResult where
  registry : Registry
  outcomes : List RuleOutcome
  coverage : Coverage
  deriving Inhabited

namespace CheckResult

/-- Whether the rules passed and the coverage is at least the one asked for. -/
def passed (r : CheckResult) (minimum : Option Float) : Bool :=
  allPassed r.outcomes && minimum.all (fun least => least ≤ r.coverage.overall)

end CheckResult

namespace Contract

/-- Checks what stands at `base`. -/
def check [Engine] (c : Contract) (fs : FileSystem) (base : Path) : Except Invalid CheckResult :=
  c.survey.map fun survey =>
    let roots := c.sourceRoots base (fs.isFile base)
    let registry := survey.registry fs roots
    let (outcomes, recorder) := c.run registry {}
    let coverage := Coverage.ofFiles Aspect.standard recorder.ledger (survey.files fs roots)
    { registry, outcomes, coverage }

end Contract
end Conformance
