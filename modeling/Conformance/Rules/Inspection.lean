import Conformance.Rules.Requirement

/-!
# `Rules.Inspection`: holding requirements against selected types

An inspection starts with the selected types, applies one requirement after the other to all of
them, and goes on after failures, so that all violations are reported together. While a test is
running it records the test for every selected type, and for every requirement with a category
that category, whether the type meets it or not.
-/

namespace Conformance

/-- A type that does not meet a requirement. -/
structure Violation where
  typeName : String
  message : String
  deriving DecidableEq, Repr, Inhabited

/-- Why the inspection of a selection fails. -/
inductive Failure where
  /-- Nothing was selected. -/
  | noMatches
  /-- Types do not meet requirements; `summary` says what the rule is for. -/
  | violated (summary : String) (violations : List Violation)
  deriving DecidableEq, Repr, Inhabited

namespace Failure

/-- The violations, in the order in which they were found. -/
def violations : Failure → List Violation
  | noMatches => []
  | violated _ vs => vs

/-- How a failure is reported: the summary and a line for each violation. -/
def message : Failure → String
  | noMatches => "no classes matched the selector"
  | violated summary vs => summary ++ String.join (vs.map fun v => "\n - " ++ v.message)

end Failure

/-- The state of an inspection. -/
structure Inspection where
  recorder : Recorder
  types : List TypeInfo
  violations : List Violation := []
  deriving Inhabited

namespace Inspection

/-- Starts the inspection of some types. -/
def start (recorder : Recorder) (types : List TypeInfo) : Inspection :=
  { recorder := types.foldl Recorder.recordTest recorder, types }

/-- The violations of one requirement by some types. -/
def violationsOf (r : Requirement) (types : List TypeInfo) : List Violation :=
  (types.filter (fun t => !r.isMetBy t)).map fun t =>
    { typeName := t.name, message := r.complaint t }

/-- Records that a requirement was applied to some types. -/
def recordAll (r : Requirement) (types : List TypeInfo) (recorder : Recorder) : Recorder :=
  match r.category? with
  | some c => types.foldl (fun recorder t => recorder.recordCategory t c) recorder
  | none => recorder

/-- Applies a requirement to all types. -/
def require (i : Inspection) (r : Requirement) : Inspection :=
  { i with
    recorder := recordAll r i.types i.recorder
    violations := i.violations ++ violationsOf r i.types }

/-- Applies requirements one after the other. -/
def requireAll (i : Inspection) (rs : List Requirement) : Inspection :=
  rs.foldl require i

/-- The result of an inspection. An empty selection fails even without requirements. -/
def conclude (i : Inspection) (summary : String) : Except Failure Unit :=
  if i.types.isEmpty then .error .noMatches
  else if i.violations.isEmpty then .ok ()
  else .error (.violated summary i.violations)

end Inspection
end Conformance
