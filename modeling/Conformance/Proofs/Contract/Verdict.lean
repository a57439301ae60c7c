import Conformance.Proofs.Contract.Clauses

/-!
# `Proofs.Contract.Verdict`: the outcomes of a run

The verdict on a rule is given by the registry, the name of the suite and the clauses of the rule.
`Contract.run_outcomes` says that a run reports the verdict on each rule, in the order of the rules,
whatever was recorded before it and whichever rules stand around.
-/

namespace Conformance

/-! ## Inspections -/

namespace Inspection

theorem types_requireAll (rs : List Requirement) (i : Inspection) :
    (i.requireAll rs).types = i.types := by
  unfold requireAll
  induction rs generalizing i with
  | nil => rfl
  | cons r rs ih => exact ih (i.require r)

/-- Every requirement is held against every type, also behind a violation. -/
theorem violations_requireAll (rs : List Requirement) (i : Inspection) :
    (i.requireAll rs).violations
      = i.violations ++ rs.flatMap (fun r => violationsOf r i.types) := by
  unfold requireAll
  induction rs generalizing i with
  | nil => simp
  | cons r rs ih =>
    rw [List.foldl_cons, ih (i.require r), List.flatMap_cons]
    show i.violations ++ violationsOf r i.types ++ _ = _
    rw [List.append_assoc]
    rfl

/-- What is recorded does not depend on what was found. -/
theorem recorder_requireAll (rs : List Requirement) (i : Inspection) :
    (i.requireAll rs).recorder
      = rs.foldl (fun recorder r => recordAll r i.types recorder) i.recorder := by
  unfold requireAll
  induction rs generalizing i with
  | nil => rfl
  | cons r rs ih => exact ih (i.require r)

end Inspection

/-! ## Verdicts -/

/-- What is reported about a type that is not as a clause says. -/
def RequireClause.violation (a : RequireClause) (t : TypeInfo) : Violation where
  typeName := t.name
  message := t.name ++ " should " ++ a.expectation t

namespace Rule

/-- The types that a rule is about, in the order of the registry. -/
def subjects [Engine] (r : Rule) (registry : Registry) : List TypeInfo :=
  registry.types.filter r.select.accepts

/-- For one clause after the other, the types that are not as it says. -/
def violations [Engine] (r : Rule) (registry : Registry) : List Violation :=
  r.require.flatMap fun a =>
    ((r.subjects registry).filter (fun t => !a.holdsFor t)).map a.violation

/-- How a rule without a fault goes: an empty selection fails before anything is required. -/
def result [Engine] (r : Rule) (registry : Registry) : Outcome :=
  if r.subjects registry = [] then .failed .noMatches
  else if r.violations registry = [] then .passed
  else .failed (.violated r.summary (r.violations registry))

/-- **The verdict on a rule.** -/
def verdict [Engine] (registry : Registry) (suite : String) (r : Rule) : RuleOutcome :=
  match r.fault? with
  | some fault =>
    { test := { suite, test := r.name }, selected := 0, outcome := .errored fault }
  | none =>
    { test := { suite, test := r.name }
      selected := (r.subjects registry).length
      outcome := r.result registry }

/-- A selection that agrees with the select clause picks what the rule is about. -/
theorem pick_eq_subjects [Engine] {r : Rule} {registry : Registry} {selection : Selection}
    (h : ∀ t, selection.admits t = r.select.accepts t) :
    selection.pick registry = r.subjects registry := by
  unfold Selection.pick subjects
  rw [funext h]

/-- What the requirements of a rule find are its violations. -/
theorem violations_of_agrees [Engine] (types : List TypeInfo) {a : RequireClause} {q : Requirement}
    (h : RequireClause.Agrees a q) :
    Inspection.violationsOf q types
      = (types.filter (fun t => !a.holdsFor t)).map a.violation := by
  have hmet : (fun t => !q.isMetBy t) = (fun t => !a.holdsFor t) :=
    funext fun t => by rw [h.isMetBy]
  have hcomplaint : (fun t => ({ typeName := t.name, message := q.complaint t } : Violation))
      = a.violation := by
    funext t
    unfold Requirement.complaint RequireClause.violation
    rw [h.expectation]
  unfold Inspection.violationsOf
  rw [hmet, hcomplaint]

/-- **A rule runs to its verdict**, whatever was recorded before. -/
theorem run_verdict [Engine] (r : Rule) (registry : Registry) (suite : String) (recorder : Recorder) :
    (r.run registry suite recorder).1 = r.verdict registry suite := by
  unfold run verdict
  cases hfault : r.fault? with
  | some fault => rw [compile_of_fault hfault]
  | none =>
    obtain ⟨selection, rs, hcompile, haccepts, hall⟩ := compile_of_no_fault hfault
    have hpick : selection.pick registry = r.subjects registry := pick_eq_subjects haccepts
    have htypes (start : Recorder) :
        (inspect registry start selection rs).types = r.subjects registry := by
      unfold inspect
      rw [Inspection.types_requireAll]
      exact hpick
    have hviolations (start : Recorder) :
        (inspect registry start selection rs).violations = r.violations registry := by
      unfold inspect violations
      rw [Inspection.violations_requireAll]
      show [] ++ rs.flatMap (fun q => Inspection.violationsOf q (selection.pick registry)) = _
      rw [List.nil_append, hpick]
      exact hall _ _ (fun a q h => violations_of_agrees _ h)
    rw [hcompile]
    simp only
    unfold Inspection.conclude result
    rw [htypes, hviolations]
    simp only [List.isEmpty_iff]
    split
    · rfl
    · split <;> rfl

theorem runAll_verdicts [Engine] (registry : Registry) (suite : String) (rs : List Rule)
    (recorder : Recorder) :
    (runAll registry suite rs recorder).1 = rs.map (verdict registry suite) := by
  induction rs generalizing recorder with
  | nil => rfl
  | cons r rs ih =>
    show (r.run registry suite recorder).1
      :: (runAll registry suite rs (r.run registry suite recorder).2).1 = _
    rw [run_verdict, ih, List.map_cons]

end Rule

/-- **A run reports the verdict on each rule**, in the order of the rules; it depends neither on what
was recorded before nor on the other rules. A rule that cannot be applied, and no other, is an error
and selects nothing. Any other rule selects what its select clause accepts; it fails for lack of
types exactly if there are none, and else passes or fails with all its violations. -/
theorem Contract.run_outcomes [Engine] (c : Contract) (registry : Registry) (recorder : Recorder) :
    (c.run registry recorder).1 = c.rules.map (Rule.verdict registry c.suiteName)
    ∧ ∀ r : Rule,
      (r.IsFaulty ∧ ∃ fault, r.verdict registry c.suiteName =
        { test := { suite := c.suiteName, test := r.name }, selected := 0
          outcome := .errored fault })
      ∨ (¬ r.IsFaulty ∧ r.verdict registry c.suiteName =
        { test := { suite := c.suiteName, test := r.name }
          selected := (registry.types.filter r.select.accepts).length
          outcome := r.result registry }) := by
  refine ⟨Rule.runAll_verdicts registry c.suiteName c.rules recorder.clear, fun r => ?_⟩
  rw [← Rule.fault?_isSome_iff]
  unfold Rule.verdict
  cases hfault : r.fault? with
  | some fault => exact Or.inl ⟨rfl, fault, rfl⟩
  | none => exact Or.inr ⟨Bool.false_ne_true, rfl⟩

end Conformance
