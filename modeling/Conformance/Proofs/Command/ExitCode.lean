import Conformance.Command.Run
import Conformance.Proofs.Project.Acceptance

/-!
# `Proofs.Command.ExitCode`: the exit code of a check is its verdict

A check ends in one of three codes. `Refused` lists why a check does not begin at all; `planCheck_cases`
says that one of these causes is there or a plan for the check is, and never both. Once there is a plan
nothing can go wrong any more: the contract is valid, so its survey exists. The main result,
`runCheck_exitCode`, puts this together with the meaning of rules: a check is refused with code 2 and
without a report exactly for these causes, and else the code is 0 exactly if every rule holds of the
registry and the coverage is large enough.
-/

namespace Conformance

/-! ## Fields of a report -/

/-- The value of a field of a record. -/
def Json.field? (name : String) : Json → Option Json
  | record fields => fields.lookup name
  | _ => none

namespace Command

/-! ## Refusals -/

/-- **Why a check does not begin.** -/
inductive Refused [Engine] (fs : FileSystem) (args : CheckArguments) : Prop where
  /-- The report is wanted in no known format. -/
  | format (hpretty : args.format ≠ "pretty") (hjson : args.format ≠ "json")
  /-- Nothing that can be reached stands at the path. -/
  | path {cause : FileError} (h : fs.canonical ⟨args.path⟩ = .error cause)
  /-- No contract was named, and none stands where contracts are looked for. -/
  | noContract {base : Path} (hbase : fs.canonical ⟨args.path⟩ = .ok base)
      (hnamed : args.contract = none) (hfound : ∀ p ∈ contractPlaces fs base, fs.has p = false)
  /-- The contract is not a file with a text in it. -/
  | unreadable {base p : Path} {cause : FileError} (hbase : fs.canonical ⟨args.path⟩ = .ok base)
      (hp : findContract fs base args.contract = .ok p) (h : fs.readText p = .error cause)
  /-- The text is no contract. -/
  | notYaml {base p : Path} {text : String} {cause : Yaml.Fault}
      (hbase : fs.canonical ⟨args.path⟩ = .ok base)
      (hp : findContract fs base args.contract = .ok p) (htext : fs.readText p = .ok text)
      (h : Contract.ofText text = .error cause)
  /-- The contract is not valid. -/
  | invalid {base p : Path} {text : String} {c : Contract} {cause : Invalid}
      (hbase : fs.canonical ⟨args.path⟩ = .ok base)
      (hp : findContract fs base args.contract = .ok p) (htext : fs.readText p = .ok text)
      (hc : Contract.ofText text = .ok c) (h : c.validate = .error cause)
  /-- The least coverage that was asked for is no percentage. -/
  | minimum {x : Float} (hx : args.minimum = some x) (h : ¬ (0.0 ≤ x ∧ x ≤ 100.0))

/-- **What a plan rests on**: each step towards the check has succeeded. -/
structure Planned [Engine] (fs : FileSystem) (args : CheckArguments) (plan : CheckPlan) (text : String) :
    Prop where
  format : Format.ofName? args.format = some plan.format
  base : fs.canonical ⟨args.path⟩ = .ok plan.base
  contractPath : findContract fs plan.base args.contract = .ok plan.contractPath
  readText : fs.readText plan.contractPath = .ok text
  contract : Contract.ofText text = .ok plan.contract
  valid : plan.contract.validate = .ok ()
  percentage : ∀ x, args.minimum = some x → 0.0 ≤ x ∧ x ≤ 100.0
  minimum : plan.minimum = (args.minimum <|> plan.contract.coverageThreshold)

variable {fs : FileSystem} {args : CheckArguments} {plan : CheckPlan} {text : String}

theorem Format.ofName?_eq_some {name : String} {format : Format} (h : ofName? name = some format) :
    name = "pretty" ∧ format = .terminal ∨ name = "json" ∧ format = .json := by
  unfold ofName? at h
  split at h
  · next hpretty => exact Or.inl ⟨beq_iff_eq.1 hpretty, (Option.some.inj h).symm⟩
  · split at h
    · next hjson => exact Or.inr ⟨beq_iff_eq.1 hjson, (Option.some.inj h).symm⟩
    · cases h

/-- A check with a plan is not refused. -/
theorem Planned.not_refused [Engine] (h : Planned fs args plan text) : ¬ Refused fs args := by
  intro hrefused
  cases hrefused with
  | format hpretty hjson =>
    rcases Format.ofName?_eq_some h.format with ⟨hname, _⟩ | ⟨hname, _⟩
    · exact hpretty hname
    · exact hjson hname
  | path hpath => rw [h.base] at hpath; cases hpath
  | noContract hbase hnamed hfound =>
    rw [h.base] at hbase
    cases hbase
    have hpath := h.contractPath
    unfold findContract at hpath
    rw [hnamed, List.find?_eq_none.2 (fun p hp => by simp [hfound p hp])] at hpath
    cases hpath
  | unreadable hbase hp hread =>
    rw [h.base] at hbase
    cases hbase
    rw [h.contractPath] at hp
    cases hp
    rw [h.readText] at hread
    cases hread
  | notYaml hbase hp htext hyaml =>
    rw [h.base] at hbase
    cases hbase
    rw [h.contractPath] at hp
    cases hp
    rw [h.readText] at htext
    cases htext
    rw [h.contract] at hyaml
    cases hyaml
  | invalid hbase hp htext hc hinvalid =>
    rw [h.base] at hbase
    cases hbase
    rw [h.contractPath] at hp
    cases hp
    rw [h.readText] at htext
    cases htext
    rw [h.contract] at hc
    cases hc
    rw [h.valid] at hinvalid
    cases hinvalid
  | minimum hx hrange => exact hrange (h.percentage _ hx)

/-- Looking for a contract fails only where none is. -/
theorem refused_of_findContract [Engine] {base : Path} {fault : CheckFault}
    (hbase : fs.canonical ⟨args.path⟩ = .ok base)
    (h : findContract fs base args.contract = .error fault) : Refused fs args := by
  unfold findContract at h
  split at h
  · cases h
  · next hnamed =>
    split at h
    · cases h
    · next hnone => exact .noContract hbase hnamed (by simpa using hnone)

/-- Reading a contract fails if it is no text, no contract or not valid. -/
theorem refused_of_readContract [Engine] {base p : Path} {fault : CheckFault}
    (hbase : fs.canonical ⟨args.path⟩ = .ok base)
    (hp : findContract fs base args.contract = .ok p) (h : readContract fs p = .error fault) :
    Refused fs args := by
  unfold readContract at h
  split at h
  · next hread => exact .unreadable hbase hp hread
  · next htext =>
    split at h
    · next hyaml => exact .notYaml hbase hp htext hyaml
    · next hc =>
      split at h
      · next hinvalid => exact .invalid hbase hp htext hc hinvalid
      · cases h

theorem exists_text_of_readContract [Engine] {p : Path} {c : Contract} (h : readContract fs p = .ok c) :
    ∃ text, fs.readText p = .ok text ∧ Contract.ofText text = .ok c ∧ c.validate = .ok () := by
  unfold readContract at h
  split at h
  · cases h
  · next text htext =>
    split at h
    · cases h
    · next hc =>
      split at h
      · cases h
      · next hvalid => cases h; exact ⟨text, htext, hc, hvalid⟩

/-- **A check is refused, or there is a plan for it**, whichever step comes first. -/
theorem planCheck_cases [Engine] (fs : FileSystem) (args : CheckArguments) :
    (Refused fs args ∧ ∃ fault, planCheck fs args = .error fault)
      ∨ ∃ plan text, planCheck fs args = .ok plan ∧ Planned fs args plan text := by
  unfold planCheck
  cases hformat : Format.ofName? args.format with
  | none =>
    refine Or.inl ⟨?_, _, rfl⟩
    unfold Format.ofName? at hformat
    refine .format (fun h => ?_) (fun h => ?_) <;> simp [h] at hformat
  | some format =>
    cases hbase : fs.canonical ⟨args.path⟩ with
    | error cause => exact Or.inl ⟨.path hbase, _, rfl⟩
    | ok base =>
      simp only [pure_bind]
      cases hp : findContract fs base args.contract with
      | error fault => exact Or.inl ⟨refused_of_findContract hbase hp, fault, rfl⟩
      | ok p =>
        rw [ok_bind]
        cases hc : readContract fs p with
        | error fault => exact Or.inl ⟨refused_of_readContract hbase hp hc, fault, rfl⟩
        | ok c =>
          rw [ok_bind]
          obtain ⟨text, htext, hcontract, hvalid⟩ := exists_text_of_readContract hc
          cases hmin : args.minimum.filter (fun x => !isPercentage x) with
          | some x =>
            obtain ⟨hx, hrange⟩ := Option.filter_eq_some_iff.1 hmin
            rw [Bool.not_eq_true', ← Bool.not_eq_true, isPercentage_iff] at hrange
            exact Or.inl ⟨.minimum hx hrange, _, rfl⟩
          | none =>
            refine Or.inr ⟨_, text, rfl, hformat, hbase, hp, htext, hcontract, hvalid, ?_, rfl⟩
            intro x hx
            rw [Option.filter_eq_none_iff] at hmin
            have := hmin x hx
            rwa [Bool.not_eq_true', Bool.not_eq_false, isPercentage_iff] at this

/-! ## The verdict -/

/-- The check begins: a valid contract was read from `p`, and checking it gives `result`. -/
structure Begun [Engine] (fs : FileSystem) (args : CheckArguments) (c : Contract) (p : Path)
    (result : CheckResult) : Prop where
  contract : ∃ base text, fs.canonical ⟨args.path⟩ = .ok base
    ∧ findContract fs base args.contract = .ok p ∧ fs.readText p = .ok text
    ∧ Contract.ofText text = .ok c ∧ c.check fs base = .ok result
  valid : c.validate = .ok ()

/-- The minimum that the coverage is held against: the one that was asked for comes first. -/
def effectiveMinimum (args : CheckArguments) (c : Contract) : Option Float :=
  args.minimum <|> c.coverageThreshold

/-- What a report is about: the path and the contract as they were given, and the minimum. -/
def contextOf (args : CheckArguments) (c : Contract) (p : Path) : ReportContext where
  path := args.path
  contract := p.text
  minimum := effectiveMinimum args c

/-- **What a JSON report says about the verdict**: whether the check passed, and how many rules there
are by outcome, together all `rules` of them. -/
def Reports (report : Json) (passes : Bool) (rules : Nat) : Prop :=
  report.field? "passed" = some (.bool passes)
    ∧ ∃ passed failed errored,
      report.field? "summary" = some (.record [("rules", .count rules), ("passed", .count passed),
        ("failed", .count failed), ("errored", .count errored)])
      ∧ passed + failed + errored = rules

theorem reports_ofResult (context : ReportContext) (result : CheckResult) :
    Reports (Json.ofResult context result) (result.passed context.minimum) result.outcomes.length :=
  ⟨rfl, _, _, _, rfl, countOutcomes_partition result.outcomes⟩

/-- The response to a check with a plan and a result. -/
theorem runCheck_of_planned [Engine] (colored : Bool) {result : CheckResult}
    (hplan : planCheck fs args = .ok plan) (h : Planned fs args plan text)
    (hresult : plan.contract.check fs plan.base = .ok result) :
    runCheck colored fs args
      = { exitCode := if result.passed plan.minimum then exitSuccess else exitFailed
          output := reportText colored plan.format (contextOf args plan.contract plan.contractPath) result
          errors := if result.outcomes.isEmpty then noRulesWarning else "" } := by
  unfold runCheck contextOf effectiveMinimum
  rw [hplan, ← h.minimum]
  dsimp only
  rw [hresult]

/-- **The exit code of a check is its verdict.** The code is 2, and no report is printed, exactly for
the listed causes. If there is none of them, the check has a result; the code is then 0 if every rule
holds of the registry and the overall coverage is at least the minimum, if there is one, and it is 1
otherwise. The report of the result is printed; in JSON it says that the check passed exactly if the
code is 0, and its counts of passed, failed and errored rules add up to the number of rules. -/
theorem runCheck_exitCode [Engine] (colored : Bool) (fs : FileSystem) (args : CheckArguments) :
    ((runCheck colored fs args).exitCode = 2 ∧ (runCheck colored fs args).output = ""
      ↔ Refused fs args)
    ∧ (Refused fs args
      ∨ ∃ c p result, Begun fs args c p result
        ∧ ((runCheck colored fs args).exitCode = 0
          ↔ (∀ r ∈ c.rules, r.Holds result.registry)
            ∧ (effectiveMinimum args c).all (· ≤ result.coverage.overall) = true)
        ∧ ((runCheck colored fs args).exitCode = 0 ∨ (runCheck colored fs args).exitCode = 1)
        ∧ (args.format = "pretty"
            ∧ (runCheck colored fs args).output = Terminal.report colored (contextOf args c p) result
          ∨ args.format = "json"
            ∧ (runCheck colored fs args).output
              = (Json.ofResult (contextOf args c p) result).print 0 ++ "\n"
            ∧ Reports (Json.ofResult (contextOf args c p) result)
              ((runCheck colored fs args).exitCode == 0) c.rules.length)) := by
  rcases planCheck_cases fs args with ⟨hrefused, fault, hplan⟩ | ⟨plan, text, hplan, hplanned⟩
  · have hrun : runCheck colored fs args = refusal fault.message := by
      unfold runCheck
      rw [hplan]
    rw [hrun]
    exact ⟨⟨fun _ => hrefused, fun _ => ⟨rfl, rfl⟩⟩, Or.inl hrefused⟩
  · -- the contract is valid, so its survey exists and the check has a result
    obtain ⟨result, hresult, hpassed, hlength⟩ := Contract.check_of_validate hplanned.valid fs plan.base
    have hrun := runCheck_of_planned colored hplan hplanned hresult
    have hcode : (runCheck colored fs args).exitCode = if result.passed plan.minimum then 0 else 1 := by
      rw [hrun]
      rfl
    have hzero : (runCheck colored fs args).exitCode = 0 ↔ result.passed plan.minimum = true := by
      rw [hcode]
      cases result.passed plan.minimum <;> simp
    have hone : (runCheck colored fs args).exitCode = 0 ∨ (runCheck colored fs args).exitCode = 1 := by
      rw [hcode]
      cases result.passed plan.minimum <;> simp
    refine ⟨⟨fun h => by omega, fun h => absurd h hplanned.not_refused⟩, Or.inr ?_⟩
    refine ⟨plan.contract, plan.contractPath, result, ⟨⟨plan.base, text, hplanned.base,
      hplanned.contractPath, hplanned.readText, hplanned.contract, hresult⟩, hplanned.valid⟩, ?_, hone,
      ?_⟩
    · rw [hzero, ← hpassed]
      unfold CheckResult.passed effectiveMinimum
      rw [Bool.and_eq_true, hplanned.minimum]
    · rcases Format.ofName?_eq_some hplanned.format with ⟨hname, hformat⟩ | ⟨hname, hformat⟩
      · refine Or.inl ⟨hname, ?_⟩
        rw [hrun, hformat]
        rfl
      · refine Or.inr ⟨hname, ?_, ?_⟩
        · rw [hrun, hformat]
          rfl
        · have hsame : ((runCheck colored fs args).exitCode == 0)
              = result.passed (contextOf args plan.contract plan.contractPath).minimum := by
            unfold contextOf effectiveMinimum
            rw [Bool.eq_iff_iff, beq_iff_eq, hzero, hplanned.minimum]
          rw [hsame, ← hlength]
          exact reports_ofResult _ result

end Command
end Conformance
