import Conformance.Proofs.Contract.Validity
import Conformance.Proofs.Contract.Verdict

/-!
# `Proofs.Contract.Passing`: when the rules of a valid contract pass

Outcomes are what a run reports; `Rule.Holds` says what they stand for, in terms of the registry alone.
In a valid contract every require clause has one field set, so a rule can only be at fault through its
patterns, and it passes exactly if it holds (`Contract.allPassed_run_iff`). Passed, failed and errored
rules are all the rules (`countOutcomes_partition`).
-/

namespace Conformance

/-! ## One rule -/

namespace Rule

/-- All patterns of the rule are understood. -/
def PatternsCompile [Engine] (r : Rule) : Prop :=
  (∀ text ∈ r.select.named, patternFault? text = none)
    ∧ ∀ a ∈ r.require, ∀ text ∈ a.named, patternFault? text = none

instance [Engine] (r : Rule) : Decidable r.PatternsCompile :=
  inferInstanceAs (Decidable ((∀ text ∈ r.select.named, patternFault? text = none)
    ∧ ∀ a ∈ r.require, ∀ text ∈ a.named, patternFault? text = none))

/-- **What a rule demands of a registry**: its patterns are understood, it is about some type that does
not come from the environment, and all types that it is about are as its clauses say. -/
def Holds [Engine] (r : Rule) (registry : Registry) : Prop :=
  r.PatternsCompile
    ∧ (∃ t ∈ registry.types, t.isInternal = false ∧ r.select.accepts t = true)
    ∧ ∀ t ∈ registry.types, r.select.accepts t = true → ∀ a ∈ r.require, a.holdsFor t = true

/-- With one field set in every clause, only a pattern can be at fault. -/
theorem not_isFaulty_iff [Engine] {r : Rule} (h : ∀ a ∈ r.require, a.setCount = 1) :
    ¬ r.IsFaulty ↔ r.PatternsCompile := by
  have hnone (text : String) : ¬ (patternFault? text).isSome = true ↔ patternFault? text = none := by
    rw [Option.not_isSome_iff_eq_none]
  unfold IsFaulty PatternsCompile
  simp only [not_or, not_exists, not_and, hnone, ne_eq, Decidable.not_not]
  exact and_congr_right fun _ =>
    ⟨fun hfree a ha => (hfree a ha).2, fun hfree a ha => ⟨h a ha, hfree a ha⟩⟩

theorem violations_eq_nil_iff [Engine] (r : Rule) (registry : Registry) :
    r.violations registry = [] ↔ ∀ t ∈ registry.types, r.select.accepts t = true →
      ∀ a ∈ r.require, a.holdsFor t = true := by
  unfold violations subjects
  simp only [List.flatMap_eq_nil_iff, List.map_eq_nil_iff, List.filter_eq_nil_iff, List.mem_filter,
    Bool.not_eq_true', Bool.not_eq_false, and_imp]
  exact ⟨fun h t ht haccepts a ha => h a ha t ht haccepts,
    fun h a ha t ht haccepts => h t ht haccepts a ha⟩

theorem subjects_ne_nil_iff [Engine] (r : Rule) (registry : Registry) :
    r.subjects registry ≠ [] ↔ ∃ t ∈ registry.types, t.isInternal = false ∧ r.select.accepts t = true := by
  -- what a select clause accepts does not come from the environment
  have hinternal {t : TypeInfo} (h : r.select.accepts t = true) : t.isInternal = false := by
    unfold SelectClause.accepts at h
    simp only [Bool.and_eq_true, Bool.not_eq_true'] at h
    exact h.1.1.1.1.1.1.1
  rw [List.ne_nil_iff_length_pos, List.length_pos_iff_exists_mem]
  unfold subjects
  simp only [List.mem_filter]
  constructor
  · rintro ⟨t, ht, haccepts⟩
    exact ⟨t, ht, hinternal haccepts, haccepts⟩
  · rintro ⟨t, ht, _, haccepts⟩
    exact ⟨t, ht, haccepts⟩

/-- **A rule passes exactly if it holds**, when each of its clauses has one field set. -/
theorem isPassed_verdict_iff [Engine] {r : Rule} (h : ∀ a ∈ r.require, a.setCount = 1) (registry : Registry)
    (suite : String) : (r.verdict registry suite).outcome.isPassed = true ↔ r.Holds registry := by
  unfold Holds
  rw [← not_isFaulty_iff h, ← subjects_ne_nil_iff, ← violations_eq_nil_iff, ← fault?_isSome_iff]
  unfold verdict
  cases hfault : r.fault? with
  | some fault =>
    constructor
    · exact nofun
    · exact fun hholds => absurd rfl hholds.1
  | none =>
    show (r.result registry).isPassed = true ↔ _
    unfold result
    by_cases hsubjects : r.subjects registry = []
    · rw [if_pos hsubjects]
      exact ⟨nofun, fun hholds => absurd hsubjects hholds.2.1⟩
    · rw [if_neg hsubjects]
      by_cases hviolations : r.violations registry = []
      · rw [if_pos hviolations]
        exact ⟨fun _ => ⟨Bool.false_ne_true, hsubjects, hviolations⟩, fun _ => rfl⟩
      · rw [if_neg hviolations]
        exact ⟨nofun, fun hholds => absurd hholds.2.2 hviolations⟩

end Rule

/-! ## Valid contracts -/

namespace Contract

/-- **All rules of a valid contract pass exactly if all of them hold.** -/
theorem allPassed_run_iff [Engine] {c : Contract} (h : c.validate = .ok ()) (registry : Registry)
    (recorder : Recorder) :
    allPassed (c.run registry recorder).1 = true ↔ ∀ r ∈ c.rules, r.Holds registry := by
  have hone := (validate_eq_ok_iff.1 h).single
  have hverdicts : (c.run registry recorder).1 = c.rules.map (Rule.verdict registry c.suiteName) :=
    Rule.runAll_verdicts registry c.suiteName c.rules recorder.clear
  unfold allPassed
  rw [hverdicts, List.all_map, List.all_eq_true]
  constructor
  · exact fun hpassed r hr => (Rule.isPassed_verdict_iff (hone r hr) registry c.suiteName).1 (hpassed r hr)
  · exact fun hholds r hr => (Rule.isPassed_verdict_iff (hone r hr) registry c.suiteName).2 (hholds r hr)

end Contract

/-! ## Counting -/

/-- There is one outcome for each rule. -/
theorem Contract.length_run [Engine] (c : Contract) (registry : Registry) (recorder : Recorder) :
    (c.run registry recorder).1.length = c.rules.length := by
  have hverdicts : (c.run registry recorder).1 = c.rules.map (Rule.verdict registry c.suiteName) :=
    Rule.runAll_verdicts registry c.suiteName c.rules recorder.clear
  rw [hverdicts, List.length_map]

/-- **Every rule has passed, failed or errored**, and only one of these. -/
theorem countOutcomes_partition (outcomes : List RuleOutcome) :
    countOutcomes Outcome.isPassed outcomes + countOutcomes Outcome.isFailed outcomes
      + countOutcomes Outcome.isErrored outcomes = outcomes.length := by
  unfold countOutcomes
  induction outcomes with
  | nil => rfl
  | cons o outcomes ih =>
    have hone : (if o.outcome.isPassed = true then 1 else 0)
        + (if o.outcome.isFailed = true then 1 else 0)
        + (if o.outcome.isErrored = true then 1 else 0) = 1 := by
      cases o.outcome <;> rfl
    rw [List.countP_cons, List.countP_cons, List.countP_cons, List.length_cons]
    omega

end Conformance
