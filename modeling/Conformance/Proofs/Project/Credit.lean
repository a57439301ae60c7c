import Conformance.Project.Check
import Conformance.Proofs.Contract.Records
import Conformance.Proofs.Types.FirstWins

/-!
# `Proofs.Project.Credit`: which rules a declaration owes its coverage to

Credit is recorded for types of the registry, under the path of a file and a name, and it is paid out to
the declarations of files, which are read a second time. The two meet where a registered type has the
name of a declaration and stands either for the same file or for none. `Contract.Credits` says this
without any ledger, and `Contract.coverage_check` says that every score of a check is computed from
exactly these categories.
-/

namespace Conformance

/-! ## Sets of categories -/

namespace KeySet

variable {κ : Type} [LT κ] [DecidableEq κ] [DecidableLT κ]
variable [Std.Irrefl (· < · : κ → κ → Prop)] [Trans (· < · : κ → κ → Prop) (· < ·) (· < ·)]
variable [Std.Trichotomous (· < · : κ → κ → Prop)]

theorem contains_foldl_add (ks : List κ) (s : KeySet κ) (k : κ) :
    (ks.foldl add s).contains k = true ↔ s.contains k = true ∨ k ∈ ks := by
  induction ks generalizing s with
  | nil => simp
  | cons k' ks ih =>
    rw [List.foldl_cons, ih, contains_add, List.mem_cons]
    rw [or_comm (a := k = k'), or_assoc]

/-- The union of two sets has the members of both. -/
theorem contains_union (s u : KeySet κ) (k : κ) :
    (s.union u).contains k = true ↔ s.contains k = true ∨ u.contains k = true := by
  unfold union
  rw [contains_foldl_add, Table.mem_keys_iff]

end KeySet

/-- A table without entries holds nothing under any key. -/
theorem Table.isEmpty_eq_false_iff {κ α : Type} [LT κ] [DecidableEq κ] (t : Table κ α) :
    t.isEmpty = false ↔ ∃ k, t.contains k = true := by
  simp only [← mem_keys_iff]
  unfold isEmpty keys
  cases t.entries with
  | nil => simp
  | cons e es => simp

namespace Usage

theorem has_merge (u v : Usage) (k : Category) :
    (u.merge v).has k = true ↔ u.has k = true ∨ v.has k = true :=
  KeySet.contains_union u.categories v.categories k

theorem hasCategories_iff (u : Usage) : u.hasCategories = true ↔ ∃ k, u.has k = true := by
  unfold hasCategories
  rw [Bool.not_eq_true', Table.isEmpty_eq_false_iff]
  rfl

theorem has_nothing (k : Category) : ({} : Usage).has k = false := rfl

end Usage

/-- The usage of a type counts what is recorded for its file and what is recorded for no file. -/
theorem Ledger.has_usageOf (l : Ledger) (file name : String) (k : Category) :
    (l.usageOf file name).has k = true
      ↔ ((l.get? file name).getD {}).has k = true ∨ ((l.get? "" name).getD {}).has k = true := by
  unfold usageOf
  by_cases hfile : file.isEmpty = true
  · rw [if_pos hfile, String.isEmpty_iff.1 hfile, or_self]
  · rw [if_neg hfile]
    cases l.get? "" name with
    | none =>
      rw [Option.getD_none, Usage.has_nothing, or_iff_left Bool.false_ne_true]
    | some detached => exact Usage.has_merge _ detached k

/-! ## Points -/

theorem Category.mem_all (k : Category) : k ∈ all := by
  cases k <;> decide

/-- The score of a type to which checks of some categories were applied: one point for its name, one if
it is final and one if it has supertypes. The first is earned by any check of names, the second by any
check at all, the third by any check of supertypes. -/
def Score.ofCategories (t : TypeInfo) (credited : Category → Bool) : Score where
  name := t.name
  kind := t.kind
  earned := (credited .namePrefix || credited .nameSuffix || credited .namePattern).toNat
    + (t.isFinal && Category.all.any credited).toNat
    + (t.hasSupertypes && (credited .implement || credited .extend)).toNat
  max := 1 + t.isFinal.toNat + t.hasSupertypes.toNat

namespace Score

/-- No aspect earns more than it is worth. -/
theorem earned_le_max (t : TypeInfo) (credited : Category → Bool) :
    (ofCategories t credited).earned ≤ (ofCategories t credited).max := by
  have hfinal (b : Bool) : (t.isFinal && b).toNat ≤ t.isFinal.toNat := by
    cases t.isFinal <;> simp [Bool.toNat_le]
  have hsupertypes (b : Bool) : (t.hasSupertypes && b).toNat ≤ t.hasSupertypes.toNat := by
    cases t.hasSupertypes <;> simp [Bool.toNat_le]
  exact Nat.add_le_add (Nat.add_le_add (Bool.toNat_le _) (hfinal _)) (hsupertypes _)

/-- A usage scores by its categories. -/
theorem ofUsage_standard (t : TypeInfo) (usage : Usage) :
    ofUsage Aspect.standard t usage = ofCategories t usage.has := by
  have hany : usage.hasCategories = Category.all.any usage.has := by
    rw [Bool.eq_iff_iff, Usage.hasCategories_iff, List.any_eq_true]
    exact ⟨fun ⟨k, hk⟩ => ⟨k, Category.mem_all k, hk⟩, fun ⟨k, _, hk⟩ => ⟨k, hk⟩⟩
  have hworth : worthOf Aspect.standard t = 1 + t.isFinal.toNat + t.hasSupertypes.toNat := by
    show 1 + (t.isFinal.toNat + (t.hasSupertypes.toNat + 0)) = _
    omega
  have hearned : Aspect.standard.foldr (fun a n => a.earned t usage + n) 0
      = (ofCategories t usage.has).earned := by
    show (usage.hasAny Aspect.nameCategories).toNat
      + ((t.isFinal && usage.hasCategories).toNat
        + ((t.hasSupertypes && usage.hasAny Aspect.supertypeCategories).toNat + 0)) = _
    rw [hany]
    simp [ofCategories, Usage.hasAny, Aspect.nameCategories, Aspect.supertypeCategories,
      Bool.or_assoc, Nat.add_assoc]
  unfold ofUsage earnedOf
  rw [hearned, hworth]
  exact congrArg (fun earned => ({ ofCategories t usage.has with earned } : Score))
    (Nat.min_eq_left (earned_le_max t usage.has))

/-- Where no check was applied, nothing is earned. -/
theorem earned_ofCategories_eq_zero (t : TypeInfo) {credited : Category → Bool}
    (h : ∀ k, credited k = false) : (ofCategories t credited).earned = 0 := by
  simp [ofCategories, h]

end Score

/-! ## Credit -/

namespace Registry

/-- A name stands for one type of a registry. -/
theorem eq_of_name_eq {registry : Registry} {e e' : TypeInfo} (he : e ∈ registry.types)
    (he' : e' ∈ registry.types) (hname : e.name = e'.name) : e = e' := by
  refine eq_of_same he he' ?_
  rw [hname]
  exact TypeName.same_refl e'.name

end Registry

/-- The coverage of a source is that of the declarations read from it. -/
theorem FileCoverage.of_ofSource {aspects : List Aspect} {ledger : Ledger} {file source : String}
    {fc : FileCoverage} (h : (ofSource aspects ledger file source).toOption = some fc) :
    ∃ outline, Source.Outline.ofSource file source = .ok outline
      ∧ fc = ofTypes aspects ledger file outline.types := by
  unfold ofSource at h
  cases houtline : Source.Outline.ofSource file source with
  | error cause => rw [houtline] at h; cases h
  | ok outline =>
    rw [houtline] at h
    cases h
    exact ⟨outline, rfl, rfl⟩

namespace Contract

/-- **What a declaration gets credit for.** Some rule of the contract that can be applied has a clause of
the category, and it accepts the registered type of this name that stands for the file or for none. -/
def Credits [Engine] (c : Contract) (registry : Registry) (file name : String) (k : Category) : Prop :=
  ∃ r ∈ c.rules, ¬ r.IsFaulty
    ∧ (∃ e ∈ registry.types, r.select.accepts e = true ∧ e.name = name
      ∧ (e.fileKey = file ∨ e.fileKey = ""))
    ∧ ∃ a ∈ r.require, k ∈ a.categories

instance [Engine] (c : Contract) (registry : Registry) (file name : String) (k : Category) :
    Decidable (c.Credits registry file name k) :=
  inferInstanceAs (Decidable (∃ r ∈ c.rules, _ ∧ _ ∧ _))

/-- What the ledger behind a run knows about a type of a file. -/
theorem has_run_iff [Engine] (c : Contract) (registry : Registry) (recorder : Recorder)
    (file name : String) (k : Category) :
    (((c.run registry recorder).2.ledger.get? file name).getD {}).has k = true
      ↔ ∃ r ∈ c.rules, r.Touches registry file name ∧ ∃ a ∈ r.require, k ∈ a.categories := by
  have hfold := Ledger.bears_foldl (c.rules.flatMap (Rule.events registry c.suiteName)) {} file name
    (.category k)
  have hempty : (({} : Ledger).get? file name).getD {} = {} := rfl
  rw [hempty, Usage.bears_nothing, List.mem_flatMap] at hfold
  simp only [Rule.mem_events_iff, Rule.category_mem_marks_iff, Bool.false_eq_true, false_or] at hfold
  rw [recorder_run]
  exact hfold

/-- **The usage that a declaration is scored by holds what it gets credit for.** -/
theorem has_usageOf_run [Engine] (c : Contract) (registry : Registry) (recorder : Recorder)
    (file name : String) (k : Category) :
    ((c.run registry recorder).2.ledger.usageOf file name).has k
      = decide (c.Credits registry file name k) := by
  rw [Bool.eq_iff_iff, decide_eq_true_iff, Ledger.has_usageOf, has_run_iff, has_run_iff]
  constructor
  · rintro (⟨r, hr, ⟨hsound, e, he, haccepts, hfile, hname⟩, hclause⟩
      | ⟨r, hr, ⟨hsound, e, he, haccepts, hfile, hname⟩, hclause⟩)
    · exact ⟨r, hr, hsound, ⟨e, he, haccepts, hname, Or.inl hfile⟩, hclause⟩
    · exact ⟨r, hr, hsound, ⟨e, he, haccepts, hname, Or.inr hfile⟩, hclause⟩
  · rintro ⟨r, hr, hsound, ⟨e, he, haccepts, hname, hfile | hfile⟩, hclause⟩
    · exact Or.inl ⟨r, hr, ⟨hsound, e, he, haccepts, hfile, hname⟩, hclause⟩
    · exact Or.inr ⟨r, hr, ⟨hsound, e, he, haccepts, hfile, hname⟩, hclause⟩

/-- Without a registered type of the name in the right place there is no credit. -/
theorem not_credits [Engine] {c : Contract} {registry : Registry} {file name : String}
    (h : ∀ e ∈ registry.types, e.name = name → e.fileKey ≠ file ∧ e.fileKey ≠ "") (k : Category) :
    ¬ c.Credits registry file name k := by
  rintro ⟨r, _, _, ⟨e, he, _, hname, hfile⟩, _⟩
  exact hfile.elim (h e he hname).1 (h e he hname).2

/-- **The coverage that a check reports is the credit of the rules.** Every file of the report is a
source of the survey that can be read. Its scores are those of the declarations found in it, each by
the categories that the rules give it credit for. A declaration earns nothing if no registered type
has its name in this file or without a file; in particular if the type of that name is registered
for another file. -/
theorem coverage_check [Engine] {c : Contract} {fs : FileSystem} {base : Path} {result : CheckResult}
    (h : c.check fs base = .ok result) :
    ∃ survey, c.survey = .ok survey
      ∧ ∀ fc ∈ result.coverage.files,
        ∃ f ∈ survey.files fs (c.sourceRoots base (fs.isFile base)),
        ∃ text outline, f.text? = some text
          ∧ Source.Outline.ofSource f.path.text text = .ok outline
          ∧ fc.file = f.path.text
          ∧ fc.scores = outline.types.map (fun t =>
              Score.ofCategories t fun k => decide (c.Credits result.registry fc.file t.name k))
          ∧ ∀ t ∈ outline.types,
            ((∀ e ∈ result.registry.types, e.name = t.name → e.fileKey ≠ fc.file ∧ e.fileKey ≠ "") →
              (Score.ofCategories t fun k =>
                decide (c.Credits result.registry fc.file t.name k)).earned = 0)
            ∧ ∀ e ∈ result.registry.types, e.name = t.name → e.fileKey ≠ fc.file → e.fileKey ≠ "" →
              (Score.ofCategories t fun k =>
                decide (c.Credits result.registry fc.file t.name k)).earned = 0 := by
  unfold check at h
  obtain ⟨survey, hsurvey⟩ : ∃ survey, c.survey = .ok survey := by
    cases hs : c.survey with
    | error cause => rw [hs] at h; cases h
    | ok survey => exact ⟨survey, rfl⟩
  rw [hsurvey] at h
  cases h
  refine ⟨survey, hsurvey, fun fc hfc => ?_⟩
  obtain ⟨f, hf, hcoverage⟩ := List.mem_filterMap.1 hfc
  obtain ⟨text, htext, hsource⟩ := Option.bind_eq_some_iff.1 hcoverage
  obtain ⟨outline, houtline, rfl⟩ := FileCoverage.of_ofSource hsource
  refine ⟨f, hf, text, outline, htext, houtline, rfl, ?_, fun t _ => ⟨?_, ?_⟩⟩
  · refine List.map_congr_left fun t _ => ?_
    rw [Score.ofUsage_standard]
    exact congrArg (Score.ofCategories t) (funext fun k => has_usageOf_run c _ {} f.path.text t.name k)
  · exact fun hnone => Score.earned_ofCategories_eq_zero t fun k => decide_eq_false (not_credits hnone k)
  · intro e he hname hfile hplaced
    refine Score.earned_ofCategories_eq_zero t fun k => decide_eq_false (not_credits ?_ k)
    -- no second type has the name
    intro e' he' hname'
    rw [Registry.eq_of_name_eq he' he (hname'.trans hname.symm)]
    exact ⟨hfile, hplaced⟩

/-- Two files that declare a class of the same name. -/
def copiedMailer : FileSystem where
  root := [("src", .directory [
    ("Mailer.php", .file "<?php class Mailer {}".toUTF8),
    ("Old.php", .file "<?php class Mailer {}".toUTF8)])]

/-- Both rules of the contract accept the class, and the copy of it earns nothing. -/
theorem coverage_check_of_copy :
    ∃ result, mailerContract.check copiedMailer ⟨"/src"⟩ = .ok result
      ∧ result.coverage.files.map FileCoverage.file = ["/src/Mailer.php", "/src/Old.php"]
      ∧ ∀ fc ∈ result.coverage.files, fc.file = "/src/Old.php" →
        ∀ s ∈ fc.scores, s.name = "Mailer" → s.earned = 0 := by
  obtain ⟨result, hresult, hfiles, e, he, hname, hfile⟩ :
      ∃ result, mailerContract.check copiedMailer ⟨"/src"⟩ = .ok result
        ∧ result.coverage.files.map FileCoverage.file = ["/src/Mailer.php", "/src/Old.php"]
        ∧ ∃ e ∈ result.registry.types, e.name = "Mailer" ∧ e.fileKey = "/src/Mailer.php" :=
    exists_ok_of_any (by decide +kernel)
  refine ⟨result, hresult, hfiles, ?_⟩
  intro fc hfc hold s hs hmailer
  obtain ⟨_, _, hcoverage⟩ := coverage_check hresult
  obtain ⟨_, _, _, outline, _, _, _, hscores, hearned⟩ := hcoverage fc hfc
  rw [hscores, List.mem_map] at hs
  obtain ⟨t, ht, rfl⟩ := hs
  refine (hearned t ht).2 e he (hname.trans hmailer.symm) ?_ ?_
  · rw [hfile, hold]
    decide
  · rw [hfile]
    decide

end Contract
end Conformance
