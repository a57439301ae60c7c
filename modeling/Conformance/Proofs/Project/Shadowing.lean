import Conformance.Proofs.Project.Agreement
import Conformance.Proofs.Project.Credit

/-!
# `Proofs.Project.Shadowing`: supplied types in front of declared ones

A supplied type can have the name of a type that a source file declares. Then it takes the place of the
declared type in the registry, since it is found first, and what the rules record is recorded for the
supplied type, without a file. The coverage of the file asks for what is recorded without a file under
the name of the declared type. The registry compares names without regard to ASCII case, but the ledger
compares them letter by letter: the declared type gets the credit of the supplied one if both names are
spelled alike, and otherwise it gets none (`Contract.shadowed_score`).
-/

namespace Conformance
namespace Contract

variable {c : Contract} {fs : FileSystem} {base : Path} {result : CheckResult}

theorem fileKey_info (s : SuppliedType) : s.info.fileKey = "" := by
  unfold TypeInfo.fileKey
  rw [s.file_info]
  rfl

/-- What a declaration is scored by if a supplied type stands for its name. -/
theorem has_usageOf_shadowed [Engine] {registry : Registry} {s : SuppliedType} (hs : s.info ∈ registry.types)
    {name : String} (hsame : TypeName.same s.info.name name = true) (file : String) (k : Category) :
    ((c.ledger registry).usageOf file name).has k
      = (s.info.name == name && (((c.ledger registry).get? "" s.info.name).getD {}).has k) := by
  -- whatever is recorded under the name is recorded for the supplied type
  have hsupplied {e : TypeInfo} (he : e ∈ registry.types) (hname : e.name = name) : e = s.info :=
    Registry.eq_of_same he hs (hname ▸ TypeName.same_symm hsame)
  rw [Bool.eq_iff_iff, Bool.and_eq_true, beq_iff_eq, Ledger.has_usageOf]
  unfold ledger
  rw [has_run_iff, has_run_iff, has_run_iff]
  constructor
  · rintro (⟨r, hr, ⟨hsound, e, he, haccepts, _, hname⟩, hclause⟩
      | ⟨r, hr, ⟨hsound, e, he, haccepts, _, hname⟩, hclause⟩)
    · cases hsupplied he hname
      exact ⟨hname, r, hr, ⟨hsound, s.info, he, haccepts, fileKey_info s, rfl⟩, hclause⟩
    · cases hsupplied he hname
      exact ⟨hname, r, hr, ⟨hsound, s.info, he, haccepts, fileKey_info s, rfl⟩, hclause⟩
  · rintro ⟨hname, htouches⟩
    rw [← hname]
    exact Or.inr htouches

/-- **A declaration gets the credit of a supplied type of the same spelling.** If a supplied type is
registered under the name of the first declaration of a source file, every entry of the coverage for the
file begins with the score of this declaration. Where the two names are spelled alike, all categories
that are recorded for the supplied type count in it. Where they differ in case, none do, and nothing is
earned. -/
theorem shadowed_score [Engine] (hfs : fs.Proper) (h : c.check fs base = .ok result) :
    ∃ survey, c.survey = .ok survey
      ∧ ∀ s ∈ c.suppliedTypes, s.info ∈ result.registry.types →
        ∀ f ∈ c.sourceFiles survey fs base, ∀ t, Survey.typeOf? f = some t →
          TypeName.same s.name t.name = true →
            (∃ fc ∈ result.coverage.files, fc.file = f.path.text)
            ∧ ∀ fc ∈ result.coverage.files, fc.file = f.path.text →
              (s.info.name = t.name → fc.scores.head? = some (Score.ofCategories t
                (((c.ledger result.registry).get? "" s.info.name).getD {}).has))
              ∧ (s.info.name ≠ t.name → ∃ score, fc.scores.head? = some score ∧ score.name = t.name
                ∧ score.earned = 0) := by
  obtain ⟨survey, hsurvey, _, hcoverage⟩ := of_check h
  refine ⟨survey, hsurvey, fun s _ hs f hf t htype hsame => ?_⟩
  have hsame' : TypeName.same s.info.name t.name = true := TypeName.same_trans s.same_info hsame
  obtain ⟨hlisted, hfirst⟩ :=
    Coverage.head?_scores Aspect.standard (c.ledger result.registry) hfs hf htype
  rw [hcoverage]
  refine ⟨hlisted, fun fc hfc hfile => ⟨fun hname => ?_, fun hname => ?_⟩⟩
  · rw [hfirst fc hfc hfile, Score.ofUsage_standard]
    refine congrArg (fun has => some (Score.ofCategories t has)) (funext fun k => ?_)
    rw [has_usageOf_shadowed hs hsame', beq_iff_eq.2 hname, Bool.true_and]
  · refine ⟨_, hfirst fc hfc hfile, rfl, ?_⟩
    rw [Score.ofUsage_standard]
    refine Score.earned_ofCategories_eq_zero t fun k => ?_
    rw [has_usageOf_shadowed hs hsame', beq_false_of_ne hname, Bool.false_and]

/-- A file that declares a final class. -/
def serviceFiles : FileSystem where
  root := [("src", .directory [
    ("FooService.php", .file "<?php namespace App; final class FooService {}".toUTF8)])]

/-- A contract that supplies a class and asks something of its name. -/
def serviceContract (name : String) : Contract where
  suppliedTypes := [{ name, kind := .cls }]
  rules := [{ name := "naming", require := [{ endsWith := some "Service" }] }]

theorem proper_serviceFiles : serviceFiles.Proper := Tree.proper_of_isProper _ (by decide)

/-- The declared class is scored by the check of its name, which was made of the supplied one. -/
theorem shadowed_score_of_service :
    ∃ result, (serviceContract "App\\FooService").check serviceFiles ⟨"/src"⟩ = .ok result
      ∧ ∃ recorded : Usage, recorded.has .nameSuffix = true
        ∧ ∃ fc ∈ result.coverage.files, ∃ t, t.name = "App\\FooService"
          ∧ fc.scores.head? = some (Score.ofCategories t recorded.has) := by
  obtain ⟨result, hresult, hkept, hrecorded⟩ :
      ∃ result, (serviceContract "App\\FooService").check serviceFiles ⟨"/src"⟩ = .ok result
        ∧ ({ name := "App\\FooService", kind := .cls } : SuppliedType).info ∈ result.registry.types
        ∧ ((((serviceContract "App\\FooService").ledger result.registry).get? ""
          "App\\FooService").getD {}).has .nameSuffix = true :=
    exists_ok_of_any (by decide +kernel)
  obtain ⟨survey, hsurvey, hscore⟩ := shadowed_score proper_serviceFiles hresult
  obtain ⟨f, hf, htype⟩ : ∃ f ∈ (serviceContract "App\\FooService").sourceFiles survey serviceFiles
      ⟨"/src"⟩, (Survey.typeOf? f).map TypeInfo.name = some "App\\FooService" := by
    cases hsurvey
    decide +kernel
  obtain ⟨t, ht, hname⟩ := Option.map_eq_some_iff.1 htype
  have hsame : TypeName.same "App\\FooService" t.name = true := by
    rw [hname]
    decide +kernel
  obtain ⟨⟨fc, hfc, hfile⟩, hfirst⟩ := hscore { name := "App\\FooService", kind := .cls }
    List.mem_cons_self hkept f hf t ht hsame
  exact ⟨result, hresult, _, hrecorded, fc, hfc, t, hname, (hfirst fc hfc hfile).1 hname.symm⟩

/-- Spelled in another case, the same class is supplied, registered and checked, but the declared one
earns nothing. -/
theorem shadowed_score_of_other_case :
    ∃ result, (serviceContract "APP\\FooService").check serviceFiles ⟨"/src"⟩ = .ok result
      ∧ ({ name := "APP\\FooService", kind := .cls } : SuppliedType).info ∈ result.registry.types
      ∧ TypeName.same "APP\\FooService" "App\\FooService" = true
      ∧ ((((serviceContract "APP\\FooService").ledger result.registry).get? ""
        "APP\\FooService").getD {}).has .nameSuffix = true
      ∧ result.coverage.files = [{
        file := "/src/FooService.php"
        scores := [{ name := "App\\FooService", kind := .cls, earned := 0, max := 2 }] }] :=
  exists_ok_of_any (by decide +kernel)

end Contract
end Conformance
