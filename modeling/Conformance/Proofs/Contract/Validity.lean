import Conformance.Contract.Validity
import Conformance.Proofs.Contract.Clauses

/-!
# `Proofs.Contract.Validity`: which contracts are valid

Validation goes through a contract step by step and stops at the first fault. `Contract.Acceptable` says
what it accepts in one piece: every rule has a name and no other rule has the same, every clause has one
field set, the least coverage is a percentage, and all path patterns are understood, each of them and then
together (`Contract.validate_eq_ok_iff`).
-/

namespace Conformance

/-! ## Percentages and names -/

/-- What is not a number is not above anything. -/
theorem not_le_of_isNaN {x y : Float} (h : y.isNaN = true) : ¬ x ≤ y := by
  have hunpack : y.toModel.unpack = .notANumber := by
    have hnan : y.toModel.unpack.isNaN = true := h
    cases hy : y.toModel.unpack with
    | notANumber => rfl
    | _ => rw [hy] at hnan; cases hnan
  intro hle
  have hmodel : x.toModel.unpack.le y.toModel.unpack = true := by
    have hdecide : decide (x.toModel ≤ y.toModel) = true := hle
    exact of_decide_eq_true hdecide
  rw [hunpack] at hmodel
  cases hx : x.toModel.unpack <;> rw [hx] at hmodel <;> cases hmodel

theorem isPercentage_iff (x : Float) : isPercentage x = true ↔ 0.0 ≤ x ∧ x ≤ 100.0 := by
  unfold isPercentage
  rw [Bool.and_eq_true, decide_eq_true_iff, decide_eq_true_iff]

/-- What is not a number is no percentage. -/
theorem isNaN_of_isPercentage {x : Float} (h : isPercentage x = true) : x.isNaN = false := by
  by_cases hnan : x.isNaN = true
  · exact absurd ((isPercentage_iff x).1 h).1 (not_le_of_isNaN hnan)
  · exact Bool.eq_false_iff.2 hnan

theorem Text.isBlankText_eq_false_iff (s : String) :
    isBlankText s = false ↔ ∃ c ∈ s.toList, isBlank c = false := by
  unfold isBlankText
  simp

namespace Contract

/-! ## Rules -/

theorem validateClauses_eq_ok_iff {rule : String} {place : Nat} {as : List RequireClause} :
    validateClauses rule place as = .ok () ↔ ∀ a ∈ as, a.setCount = 1 := by
  induction as generalizing place with
  | nil => simp [validateClauses]
  | cons a as ih =>
    have hcount : a.demandCount = a.setCount := a.setCount_eq.symm
    rw [validateClauses, hcount, List.forall_mem_cons]
    by_cases hone : a.setCount = 1
    · rw [if_pos hone, ih]
      simp [hone]
    · rw [if_neg hone]
      simp [hone]

/-- **Rules that can stand in one contract.** -/
structure ValidRules (rs : List Rule) : Prop where
  named : ∀ r ∈ rs, ∃ c ∈ r.name.toList, Text.isBlank c = false
  distinct : (rs.map Rule.name).Nodup
  single : ∀ r ∈ rs, ∀ a ∈ r.require, a.setCount = 1

theorem validRules_cons_iff {r : Rule} {rs : List Rule} :
    ValidRules (r :: rs) ↔ Text.isBlankText r.name = false ∧ (∀ a ∈ r.require, a.setCount = 1)
      ∧ ValidRules rs ∧ ∀ r' ∈ rs, r'.name ≠ r.name := by
  rw [Text.isBlankText_eq_false_iff]
  constructor
  · intro h
    obtain ⟨hnamed, hdistinct, hsingle⟩ := h
    rw [List.forall_mem_cons] at hnamed hsingle
    rw [List.map_cons, List.nodup_cons, List.mem_map] at hdistinct
    refine ⟨hnamed.1, hsingle.1, ⟨hnamed.2, hdistinct.2, hsingle.2⟩, ?_⟩
    intro r' hr' hname
    exact hdistinct.1 ⟨r', hr', hname⟩
  · rintro ⟨hnamed, hsingle, hrest, hfresh⟩
    refine ⟨List.forall_mem_cons.2 ⟨hnamed, hrest.named⟩, ?_,
      List.forall_mem_cons.2 ⟨hsingle, hrest.single⟩⟩
    rw [List.map_cons, List.nodup_cons, List.mem_map]
    refine ⟨?_, hrest.distinct⟩
    rintro ⟨r', hr', hname⟩
    exact hfresh r' hr' hname

/-- **Validation of rules is exact**, whatever names are taken before. -/
theorem validateRules_eq_ok_iff {taken : List String} {rs : List Rule} :
    validateRules taken rs = .ok () ↔ ValidRules rs ∧ ∀ r ∈ rs, r.name ∉ taken := by
  induction rs generalizing taken with
  | nil =>
    have hnone : ValidRules [] := ⟨by simp, by simp, by simp⟩
    simp [validateRules, hnone]
  | cons r rs ih =>
    rw [validRules_cons_iff, List.forall_mem_cons, validateRules]
    by_cases hblank : Text.isBlankText r.name = true
    · rw [if_pos hblank]
      simp [hblank]
    rw [if_neg hblank]
    by_cases htaken : r.name ∈ taken
    · rw [if_pos (by simpa using htaken)]
      simp [htaken]
    rw [if_neg (by simpa using htaken)]
    cases hclauses : validateClauses r.name 1 r.require with
    | error e =>
      have hsingle : ¬ ∀ a ∈ r.require, a.setCount = 1 := by
        intro hsingle
        rw [validateClauses_eq_ok_iff.2 hsingle] at hclauses
        cases hclauses
      simp only [reduceCtorEq, false_iff]
      exact fun h => hsingle h.1.2.1
    | ok =>
      have hsingle : ∀ a ∈ r.require, a.setCount = 1 := validateClauses_eq_ok_iff.1 hclauses
      show validateRules (r.name :: taken) rs = .ok () ↔ _
      rw [ih]
      simp only [List.mem_cons, not_or]
      constructor
      · rintro ⟨hrest, hfresh⟩
        exact ⟨⟨by simpa using hblank, hsingle, hrest, fun r' hr' => (hfresh r' hr').1⟩, htaken,
          fun r' hr' => (hfresh r' hr').2⟩
      · rintro ⟨⟨_, _, hrest, hfresh⟩, _, hlater⟩
        exact ⟨hrest, fun r' hr' => ⟨hfresh r' hr', hlater r' hr'⟩⟩

/-! ## Path patterns and the least coverage -/

theorem compileExcluded_eq_ok_iff {pattern : String} {g : Glob} :
    compileExcluded pattern = .ok g ↔ Glob.compile pattern = .ok g := by
  unfold compileExcluded
  cases Glob.compile pattern <;> simp

/-- Path patterns are put together by the engine, and they stay what they are. -/
theorem uniteExcluded_eq_ok_iff [Engine] {globs globs' : List Glob} :
    uniteExcluded globs = .ok globs'
      ↔ globs = globs' ∧ (globs ≠ [] → Engine.unite globs = .ok ()) := by
  cases globs with
  | nil => simp [uniteExcluded]
  | cons g globs =>
    cases hunite : Engine.unite (g :: globs) <;> simp [uniteExcluded, hunite]

/-- The path patterns are understood one by one, then together. -/
theorem excluded_eq_ok_iff [Engine] {c : Contract} {globs : List Glob} :
    c.excluded = .ok globs
      ↔ List.Forall₂ (fun pattern g => Glob.compile pattern = .ok g) c.excludedPaths globs
        ∧ (globs ≠ [] → Engine.unite globs = .ok ()) := by
  simp only [← compileExcluded_eq_ok_iff, ← mapM_eq_ok_iff]
  constructor
  · intro h
    obtain ⟨_, heach, hunite⟩ := exists_of_bind_ok h
    obtain ⟨rfl, hunited⟩ := uniteExcluded_eq_ok_iff.1 hunite
    exact ⟨heach, hunited⟩
  · rintro ⟨heach, hunited⟩
    unfold excluded
    rw [heach, ok_bind]
    exact uniteExcluded_eq_ok_iff.2 ⟨rfl, hunited⟩

theorem exists_excluded_iff [Engine] {c : Contract} :
    (∃ globs, c.excluded = .ok globs)
      ↔ (∀ pattern ∈ c.excludedPaths, ∃ g, Glob.compile pattern = .ok g)
        ∧ ∀ globs, List.Forall₂ (fun pattern g => Glob.compile pattern = .ok g) c.excludedPaths globs →
          globs ≠ [] → Engine.unite globs = .ok () := by
  simp only [excluded_eq_ok_iff, ← exists_mapM_eq_ok_iff, ← mapM_eq_ok_iff]
  constructor
  · rintro ⟨globs, heach, hunited⟩
    refine ⟨⟨globs, heach⟩, fun globs' heach' => ?_⟩
    -- the patterns are understood in one way only
    rw [heach] at heach'
    cases heach'
    exact hunited
  · rintro ⟨⟨globs, heach⟩, hunited⟩
    exact ⟨globs, heach, hunited globs heach⟩

theorem validateThreshold_eq_ok_iff {threshold : Option Float} :
    validateThreshold threshold = .ok ()
      ↔ ∀ x ∈ threshold, x.isNaN = false ∧ 0.0 ≤ x ∧ x ≤ 100.0 := by
  cases threshold with
  | none => simp [validateThreshold]
  | some x =>
    simp only [validateThreshold, Option.mem_some, forall_eq']
    by_cases hx : isPercentage x = true
    · rw [if_pos hx]
      exact ⟨fun _ => ⟨isNaN_of_isPercentage hx, (isPercentage_iff x).1 hx⟩, fun _ => rfl⟩
    · rw [if_neg hx]
      simp only [reduceCtorEq, false_iff]
      exact fun h => hx ((isPercentage_iff x).2 h.2)

/-! ## Contracts -/

/-- **What a valid contract is like.** -/
structure Acceptable [Engine] (c : Contract) : Prop extends ValidRules c.rules where
  percentage : ∀ x ∈ c.coverageThreshold, x.isNaN = false ∧ 0.0 ≤ x ∧ x ≤ 100.0
  excluded : ∀ pattern ∈ c.excludedPaths, ∃ g, Glob.compile pattern = .ok g
  /-- If there are path patterns, the engine can put them together. -/
  united : ∀ globs, List.Forall₂ (fun pattern g => Glob.compile pattern = .ok g) c.excludedPaths globs →
    globs ≠ [] → Engine.unite globs = .ok ()

theorem Acceptable.exists_excluded [Engine] {c : Contract} (h : c.Acceptable) :
    ∃ globs, c.excluded = .ok globs :=
  exists_excluded_iff.2 ⟨h.excluded, h.united⟩

/-- **Validation is exact**: it succeeds for the contracts that are acceptable, and for no others. -/
theorem validate_eq_ok_iff [Engine] {c : Contract} : c.validate = .ok () ↔ c.Acceptable := by
  constructor
  · intro h
    obtain ⟨⟨⟩, hrules, h⟩ := exists_of_bind_ok h
    obtain ⟨⟨⟩, hthreshold, h⟩ := exists_of_bind_ok h
    obtain ⟨globs, hglobs, h⟩ := exists_of_bind_ok h
    obtain ⟨hexcluded, hunited⟩ := exists_excluded_iff.1 ⟨globs, hglobs⟩
    exact ⟨(validateRules_eq_ok_iff.1 hrules).1, validateThreshold_eq_ok_iff.1 hthreshold, hexcluded,
      hunited⟩
  · intro h
    have hrules : validateRules [] c.rules = .ok () :=
      validateRules_eq_ok_iff.2 ⟨h.toValidRules, by simp⟩
    have hthreshold : validateThreshold c.coverageThreshold = .ok () :=
      validateThreshold_eq_ok_iff.2 h.percentage
    obtain ⟨globs, hglobs⟩ := h.exists_excluded
    unfold validate
    rw [hrules, hthreshold, hglobs]
    rfl

end Contract
end Conformance
