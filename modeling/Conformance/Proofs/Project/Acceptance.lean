import Conformance.Pattern.Standard
import Conformance.Project.Check
import Conformance.Proofs.Contract.Passing

/-!
# `Proofs.Project.Acceptance`: what validation is good for

A check of a valid contract comes to a result, wherever it is made. Every clause of its rules has just
one field set and means the requirement of that field, so the only thing that can still go wrong is a
pattern of a rule, and then that rule is an error and no other. `Contract.validate_exact` puts this
together with what makes a contract valid.
-/

namespace Conformance

/-- What a demand means, if its pattern is one. -/
inductive Demand.Means [Engine] : Demand → Requirement → Prop where
  | ready (q : Requirement) : Means (.ready q) q
  | named {text : String} {pattern : Pattern} (h : Pattern.compile text = .ok pattern) :
    Means (.named text) (.named pattern)

theorem Demand.compile_eq_ok_iff [Engine] {d : Demand} {q : Requirement} : d.compile = .ok q ↔ d.Means q := by
  constructor
  · intro h
    cases d with
    | ready => cases h; exact .ready q
    | named text =>
      cases hp : Pattern.compile text with
      | error cause => rw [compile_named_error hp] at h; cases h
      | ok pattern => rw [compile_named_ok hp] at h; cases h; exact .named hp
  · intro h
    cases h with
    | ready => rfl
    | named hp => exact compile_named_ok hp

theorem Rule.test_verdict [Engine] (r : Rule) (registry : Registry) (suite : String) :
    (r.verdict registry suite).test = { suite, test := r.name } := by
  unfold verdict
  cases r.fault? <;> rfl

/-- The verdict on a rule is an error if something is wrong with the rule. -/
theorem Rule.isErrored_verdict_iff [Engine] (r : Rule) (registry : Registry) (suite : String) :
    (r.verdict registry suite).outcome.isErrored = true ↔ r.IsFaulty := by
  rw [← fault?_isSome_iff]
  unfold verdict
  cases r.fault? with
  | some fault => simp [Outcome.isErrored]
  | none =>
    simp only [Option.isSome_none, Bool.false_eq_true, iff_false]
    unfold result
    split
    · simp [Outcome.isErrored]
    · split <;> simp [Outcome.isErrored]

namespace Contract

/-- **A valid contract can be checked anywhere.** There is an outcome for each of its rules, and all are
passed exactly if all rules hold of the registry. -/
theorem check_of_validate [Engine] {c : Contract} (h : c.validate = .ok ()) (fs : FileSystem) (base : Path) :
    ∃ result, c.check fs base = .ok result
      ∧ (allPassed result.outcomes = true ↔ ∀ r ∈ c.rules, r.Holds result.registry)
      ∧ result.outcomes.length = c.rules.length := by
  obtain ⟨globs, hglobs⟩ := (validate_eq_ok_iff.1 h).exists_excluded
  obtain ⟨survey, hsurvey⟩ : ∃ survey, c.survey = .ok survey := by
    unfold survey
    rw [hglobs]
    exact ⟨_, rfl⟩
  unfold check
  rw [hsurvey]
  refine ⟨_, rfl, ?_, ?_⟩
  · exact allPassed_run_iff h _ {}
  · exact length_run c _ {}

/-- The outcomes of a check are those of a run on what it has found. -/
theorem outcomes_of_check [Engine] {c : Contract} {fs : FileSystem} {base : Path} {result : CheckResult}
    (h : c.check fs base = .ok result) : result.outcomes = (c.run result.registry {}).1 := by
  unfold check at h
  cases hsurvey : c.survey with
  | error cause => rw [hsurvey] at h; cases h
  | ok survey =>
    rw [hsurvey] at h
    cases h
    rfl

/-- In a run of rules with one field set in every clause, the errors are the rules with a pattern that is
not understood. -/
theorem run_errored [Engine] {c : Contract} (h : ∀ r ∈ c.rules, ∀ a ∈ r.require, a.setCount = 1)
    (registry : Registry) (recorder : Recorder) :
    List.Forall₂ (fun r o => o.test = { suite := c.suiteName, test := r.name }
      ∧ (o.outcome.isErrored = true ↔ ¬ r.PatternsCompile)) c.rules (c.run registry recorder).1 := by
  have hverdicts : (c.run registry recorder).1 = c.rules.map (Rule.verdict registry c.suiteName) :=
    Rule.runAll_verdicts registry c.suiteName c.rules recorder.clear
  rw [hverdicts, List.forall₂_map_right_iff, List.forall₂_same]
  intro r hr
  refine ⟨r.test_verdict registry c.suiteName, ?_⟩
  rw [r.isErrored_verdict_iff, ← Rule.not_isFaulty_iff (h r hr), not_not]

/-- **Validation is exact and sufficient.** A contract is valid exactly if it is acceptable as a whole. If
it is, its path patterns are understood together, every clause of its rules says one thing and means just
that, and a check comes to a result on any file system. The outcomes are those of the rules in their
order, and a rule is an error exactly if one of its patterns is not understood. -/
theorem validate_exact [Engine] (c : Contract) :
    (c.validate = .ok () ↔ c.Acceptable)
    ∧ (c.validate = .ok () →
      (∃ globs, c.excluded = .ok globs
        ∧ List.Forall₂ (fun pattern g => Glob.compile pattern = .ok g) c.excludedPaths globs
        ∧ (globs ≠ [] → Engine.unite globs = .ok ()))
      ∧ (∀ r ∈ c.rules, ∀ a ∈ r.require, ∃ d, RequireClause.Says a d
        ∧ ∀ q, a.compile = .ok q ↔ d.Means q)
      ∧ ∀ fs base, ∃ result, c.check fs base = .ok result
        ∧ List.Forall₂ (fun r o => o.test = { suite := c.suiteName, test := r.name }
          ∧ (o.outcome.isErrored = true ↔ ¬ r.PatternsCompile)) c.rules result.outcomes) := by
  refine ⟨validate_eq_ok_iff, fun hvalid => ⟨?_, ?_, ?_⟩⟩
  · obtain ⟨globs, hglobs⟩ := (validate_eq_ok_iff.1 hvalid).exists_excluded
    exact ⟨globs, hglobs, excluded_eq_ok_iff.1 hglobs⟩
  · intro r hr a ha
    obtain ⟨d, hsays, hcompile⟩ :=
      RequireClause.exists_says ((validate_eq_ok_iff.1 hvalid).single r hr a ha)
    refine ⟨d, hsays, fun q => ?_⟩
    rw [hcompile, Demand.compile_eq_ok_iff]
  · intro fs base
    obtain ⟨result, hresult, _⟩ := check_of_validate hvalid fs base
    refine ⟨result, hresult, ?_⟩
    rw [outcomes_of_check hresult]
    exact run_errored (validate_eq_ok_iff.1 hvalid).single result.registry {}

/-- A rule that asks for final classes. -/
def finality : Rule where
  name := "finality"
  require := [{ isFinal := true }]

/-- A rule with a pattern that is never closed. -/
def halfPattern : Rule where
  name := "naming"
  require := [{ named := some "(" }]

/-- A contract with both. -/
def halfPatterned : Contract where
  excludedPaths := ["vendor/**"]
  coverageThreshold := some 50
  rules := [finality, halfPattern]

/-- The contract is valid, and wherever it is checked its second rule is an error and the first is not. -/
theorem validate_exact_of_halfPatterned :
    halfPatterned.validate = .ok ()
    ∧ ∀ fs base, ∃ result, halfPatterned.check fs base = .ok result
      ∧ result.outcomes.map (fun o => o.outcome.isErrored) = [false, true] := by
  have hrules : halfPatterned.rules = [finality, halfPattern] := rfl
  have hnamed : ∀ r ∈ halfPatterned.rules, ∃ c ∈ r.name.toList, Text.isBlank c = false := by
    rw [hrules, List.forall_mem_cons, List.forall_mem_singleton]
    exact ⟨⟨'f', by decide, by decide⟩, ⟨'n', by decide, by decide⟩⟩
  have hdistinct : (halfPatterned.rules.map Rule.name).Nodup := by
    simp [hrules, finality, halfPattern]
  have hsingle : ∀ r ∈ halfPatterned.rules, ∀ a ∈ r.require, a.setCount = 1 := by decide
  have hvalid : halfPatterned.validate = .ok () := by
    refine (validate_exact halfPatterned).1.2 ⟨⟨hnamed, hdistinct, hsingle⟩, by decide, ?_, ?_⟩
    · intro pattern hpattern
      rw [List.mem_singleton.1 hpattern]
      exact ⟨_, rfl⟩
    · intro globs heach _
      obtain ⟨g, _, hg, hnil, rfl⟩ := List.forall₂_cons_left_iff.1 heach
      cases hg
      rw [List.forall₂_nil_left_iff.1 hnil]
      decide
  refine ⟨hvalid, fun fs base => ?_⟩
  obtain ⟨result, hresult, houtcomes⟩ := ((validate_exact halfPatterned).2 hvalid).2.2 fs base
  refine ⟨result, hresult, ?_⟩
  have hunderstood : finality.PatternsCompile := by decide
  have hfault : ¬ halfPattern.PatternsCompile := by decide
  rw [hrules] at houtcomes
  obtain ⟨first, _, ⟨_, hfirst⟩, hrest, houtcomes⟩ := List.forall₂_cons_left_iff.1 houtcomes
  obtain ⟨second, _, ⟨_, hsecond⟩, hnil, hrest⟩ := List.forall₂_cons_left_iff.1 hrest
  rw [houtcomes, hrest, List.forall₂_nil_left_iff.1 hnil]
  simp only [hunderstood, not_true_eq_false, iff_false, Bool.not_eq_true] at hfirst
  simp [hfirst, hsecond.2 hfault]

end Contract
end Conformance
