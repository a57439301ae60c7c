import Conformance.Contract.Compile
import Conformance.Decimal.Layout
import Conformance.Pattern.Engine

/-!
# `Contract.Validity`: which contracts can be checked at all

Rules of a valid contract have different names that are not blank, each of their clauses demands one
thing, the least coverage is a percentage, and the path patterns are understood, each of them and all
of them together. Whether the patterns of a rule are understood does not matter here: such a fault
concerns that rule only.
-/

namespace Conformance

/-- Why a contract is not valid. -/
inductive Invalid where
  | blankRuleName
  | duplicateRuleName (name : String)
  /-- The clause at `place`, counted from 1, demands this many things. -/
  | notOneDemand (rule : String) (place count : Nat)
  | threshold (x : Float)
  | excludedPath (pattern : String) (cause : Glob.Fault)
  /-- The path patterns are understood, but not together. -/
  | excludedPaths (cause : Glob.SetFault)
  deriving Inhabited

/-- How a percentage out of range is reported. -/
def percentText (what : String) (x : Float) : String :=
  what ++ " must be between 0 and 100, got " ++ Decimal.Layout.plain.write x

/-- How an invalid contract is reported. -/
def Invalid.message : Invalid → String
  | blankRuleName => "rule names must not be empty"
  | duplicateRuleName name => "duplicate rule name " ++ Text.quote name
  | notOneDemand rule place count =>
    "rule " ++ Text.quote rule ++ ": assertion #" ++ toString place ++ " " ++ notOneText count
  | threshold x => percentText "coverage_threshold" x
  | excludedPath pattern cause => patternFaultText "excluded_paths" pattern cause.message
  | excludedPaths cause => cause.message

/-- Whether a number is a percentage; what is not a number is none. -/
def isPercentage (x : Float) : Bool := 0.0 ≤ x && x ≤ 100.0

namespace Contract

/-- Checks that each clause demands one thing. The first clause is at `place`. -/
def validateClauses (rule : String) : Nat → List RequireClause → Except Invalid Unit
  | _, [] => .ok ()
  | place, a :: rest =>
    if a.demandCount = 1 then validateClauses rule (place + 1) rest
    else .error (.notOneDemand rule place a.demandCount)

/-- Checks rules one after the other; the names before them are taken. -/
def validateRules (taken : List String) : List Rule → Except Invalid Unit
  | [] => .ok ()
  | r :: rest =>
    if Text.isBlankText r.name then .error .blankRuleName
    else if taken.contains r.name then .error (.duplicateRuleName r.name)
    else
      match validateClauses r.name 1 r.require with
      | .error e => .error e
      | .ok () => validateRules (r.name :: taken) rest

/-- Understands a path pattern of a contract. -/
def compileExcluded (pattern : String) : Except Invalid Glob :=
  match Glob.compile pattern with
  | .ok g => .ok g
  | .error cause => .error (.excludedPath pattern cause)

/-- Puts the path patterns of a contract together, if it has any. -/
def uniteExcluded [Engine] : List Glob → Except Invalid (List Glob)
  | [] => .ok []
  | globs =>
    match Engine.unite globs with
    | .ok () => .ok globs
    | .error cause => .error (.excludedPaths cause)

/-- The path patterns for the files to leave out. They are understood one by one, then all together. -/
def excluded [Engine] (c : Contract) : Except Invalid (List Glob) := do
  let globs ← c.excludedPaths.mapM compileExcluded
  uniteExcluded globs

/-- Checks the least coverage, if there is one. -/
def validateThreshold : Option Float → Except Invalid Unit
  | none => .ok ()
  | some x => if isPercentage x then .ok () else .error (.threshold x)

/-- Checks a whole contract. The first fault is reported, and rules come first. -/
def validate [Engine] (c : Contract) : Except Invalid Unit := do
  validateRules [] c.rules
  validateThreshold c.coverageThreshold
  let _ ← c.excluded
  pure ()

end Contract
end Conformance
