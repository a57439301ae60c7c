import Conformance.Pattern.Standard
import Conformance.Proofs.Contract.Records
import Conformance.Proofs.Types.FirstWins

/-!
# `Proofs.Contract.Respelling`: names in a contract, spelled in another way

A rule names a namespace, interfaces and parents. Each of these names is only ever compared through its
key, so a contract means the same when they are spelled with other ASCII cases or with more or fewer
separators in front. Two contracts that differ in nothing else are `Contract.Respelled`, and
`Contract.run_respelled` says what their runs have in common: everything but the texts of the
violations, which quote a name as it is written.
-/

namespace Conformance

/-! ## Comparison with a respelled name -/

namespace TypeName

variable {a b : String}

theorem Agree.key (h : Agree a b) : key a = key b :=
  same_iff.1 ((same_iff_agree a b).2 h)

/-- Names that agree are compared with others alike. -/
theorem Agree.same (h : Agree a b) (name : String) : same name a = same name b := by
  unfold TypeName.same
  rw [h.key]

/-- Names that agree are the same start of a text. -/
theorem Agree.startsFolded (h : Agree a b) (s : String) :
    Text.startsFolded (bare a) s = Text.startsFolded (bare b) s := by
  have hkey : Text.foldCase (bare a) = Text.foldCase (bare b) := h.key
  unfold Text.startsFolded
  rw [hkey]

end TypeName

namespace TypeInfo

variable {a b : String}

theorem implementsDirectly_of_agree (t : TypeInfo) (h : TypeName.Agree a b) :
    t.implementsDirectly a = t.implementsDirectly b := by
  unfold implementsDirectly
  rw [funext fun name => h.same name]

theorem extendsDirectly_of_agree (t : TypeInfo) (h : TypeName.Agree a b) :
    t.extendsDirectly a = t.extendsDirectly b := by
  unfold extendsDirectly
  rw [funext fun name => h.same name]

end TypeInfo

/-- A condition on a name that is asked for, if one is. -/
theorem all_eq_of_rel {α : Type} {R : α → α → Prop} {p : α → Bool} {o o' : Option α}
    (h : Option.Rel R o o') (hp : ∀ a b, R a b → p a = p b) : o.all p = o'.all p := by
  cases h with
  | some hab => exact hp _ _ hab
  | none => rfl

theorem isSome_eq_of_rel {α : Type} {R : α → α → Prop} {o o' : Option α} (h : Option.Rel R o o') :
    o.isSome = o'.isSome := by
  cases h <;> rfl

/-- What is computed alike from related elements, element by element. -/
theorem map_eq_of_forall₂ {α β : Type} {R : α → α → Prop} {f : α → β} {as bs : List α}
    (h : List.Forall₂ R as bs) (hf : ∀ a b, R a b → f a = f b) : as.map f = bs.map f := by
  rw [← List.forall₂_eq_eq_eq]
  exact List.rel_map hf h

/-! ## Clauses -/

/-- Two select clauses that differ at most in the spelling of their names. -/
structure SelectClause.Respelled (s s' : SelectClause) : Prop where
  within : Option.Rel TypeName.Agree s.within s'.within
  implementing : Option.Rel TypeName.Agree s.implementing s'.implementing
  extending : Option.Rel TypeName.Agree s.extending s'.extending
  rest : { s with within := none, implementing := none, extending := none }
    = { s' with within := none, implementing := none, extending := none }

namespace SelectClause.Respelled

variable {s s' : SelectClause}

/-- Respelled clauses select the same types. -/
theorem accepts [Engine] (h : s.Respelled s') (t : TypeInfo) : s.accepts t = s'.accepts t := by
  have hwithin := all_eq_of_rel h.within fun a b hab => hab.startsFolded t.namespaceName
  have himplementing := all_eq_of_rel h.implementing fun a b hab => t.implementsDirectly_of_agree hab
  have hextending := all_eq_of_rel h.extending fun a b hab => t.extendsDirectly_of_agree hab
  obtain ⟨within, notAbstract, notInterface, notTrait, named, implementing, extending⟩ := s
  obtain ⟨within', _, _, _, _, implementing', extending'⟩ := s'
  cases h.rest
  unfold SelectClause.accepts
  dsimp only at hwithin himplementing hextending ⊢
  rw [hwithin, himplementing, hextending]

/-- Respelled clauses are at fault together. -/
theorem fault? [Engine] (h : s.Respelled s') : s.fault? = s'.fault? := by
  have hnamed := congrArg SelectClause.named h.rest
  dsimp only at hnamed
  unfold SelectClause.fault?
  rw [hnamed]

end SelectClause.Respelled

/-- Two require clauses that differ at most in the spelling of their names. -/
structure RequireClause.Respelled (a a' : RequireClause) : Prop where
  implementing : Option.Rel TypeName.Agree a.implementing a'.implementing
  extending : Option.Rel TypeName.Agree a.extending a'.extending
  rest : { a with implementing := none, extending := none }
    = { a' with implementing := none, extending := none }

namespace RequireClause.Respelled

variable {a a' : RequireClause}

/-- Respelled clauses hold for the same types. -/
theorem holdsFor [Engine] (h : a.Respelled a') (t : TypeInfo) : a.holdsFor t = a'.holdsFor t := by
  have himplementing := all_eq_of_rel h.implementing fun _ _ hab => t.implementsDirectly_of_agree hab
  have hextending := all_eq_of_rel h.extending fun _ _ hab => t.extendsDirectly_of_agree hab
  obtain ⟨startsWith, endsWith, named, invokable, atMost, atLeast, exactly, implementing, extending,
    isFinal, isAbstract⟩ := a
  obtain ⟨_, _, _, _, _, _, _, implementing', extending', _, _⟩ := a'
  cases h.rest
  unfold RequireClause.holdsFor
  dsimp only at himplementing hextending ⊢
  rw [himplementing, hextending]

/-- Respelled clauses are at fault together. -/
theorem fault? [Engine] (h : a.Respelled a') : a.fault? = a'.fault? := by
  have himplementing := isSome_eq_of_rel h.implementing
  have hextending := isSome_eq_of_rel h.extending
  obtain ⟨startsWith, endsWith, named, invokable, atMost, atLeast, exactly, implementing, extending,
    isFinal, isAbstract⟩ := a
  obtain ⟨_, _, _, _, _, _, _, implementing', extending', _, _⟩ := a'
  cases h.rest
  unfold RequireClause.fault? RequireClause.setCount
  dsimp only at himplementing hextending ⊢
  rw [himplementing, hextending]

/-- Respelled clauses are recorded under the same categories. -/
theorem categories (h : a.Respelled a') : a.categories = a'.categories := by
  have himplementing := isSome_eq_of_rel h.implementing
  have hextending := isSome_eq_of_rel h.extending
  obtain ⟨startsWith, endsWith, named, invokable, atMost, atLeast, exactly, implementing, extending,
    isFinal, isAbstract⟩ := a
  obtain ⟨_, _, _, _, _, _, _, implementing', extending', _, _⟩ := a'
  cases h.rest
  unfold RequireClause.categories
  dsimp only at himplementing hextending ⊢
  rw [himplementing, hextending]

end RequireClause.Respelled

/-! ## Rules -/

/-- Two rules that differ at most in the spelling of the names in their clauses. -/
structure Rule.Respelled (r r' : Rule) : Prop where
  select : r.select.Respelled r'.select
  require : List.Forall₂ RequireClause.Respelled r.require r'.require
  rest : { r with select := {}, require := [] } = { r' with select := {}, require := [] }

namespace Outcome

/-- The types that violate what is asked of them, one violation after the other. -/
def violators : Outcome → List String
  | failed failure => failure.violations.map Violation.typeName
  | _ => []

/-- The outcome without the texts of its violations. -/
def withoutTexts : Outcome → Outcome
  | failed (.violated summary vs) =>
    failed (.violated summary (vs.map fun v => { v with message := "" }))
  | o => o

theorem status_withoutTexts (o : Outcome) : o.withoutTexts.status = o.status := by
  unfold withoutTexts
  split <;> rfl

theorem violators_withoutTexts (o : Outcome) : o.withoutTexts.violators = o.violators := by
  unfold withoutTexts
  split
  · exact List.map_map
  · rfl

end Outcome

/-- Two outcomes that differ at most in the texts of the violations. -/
structure RuleOutcome.Alike (o o' : RuleOutcome) : Prop where
  test : o.test = o'.test
  selected : o.selected = o'.selected
  status : o.outcome.status = o'.outcome.status
  violators : o.outcome.violators = o'.outcome.violators
  withoutTexts : o.outcome.withoutTexts = o'.outcome.withoutTexts

namespace Rule.Respelled

variable {r r' : Rule}

theorem name (h : r.Respelled r') : r.name = r'.name := by
  have hname := congrArg Rule.name h.rest
  exact hname

theorem fault? [Engine] (h : r.Respelled r') : r.fault? = r'.fault? := by
  have hclauses : r.require.map RequireClause.fault? = r'.require.map RequireClause.fault? :=
    map_eq_of_forall₂ h.require fun _ _ hab => hab.fault?
  have hfirst : r.require.findSome? RequireClause.fault?
      = r'.require.findSome? RequireClause.fault? := by
    have hid (as : List RequireClause) :
        as.findSome? RequireClause.fault? = (as.map RequireClause.fault?).findSome? id := by
      rw [List.findSome?_map]
      rfl
    rw [hid, hid, hclauses]
  unfold Rule.fault?
  rw [h.select.fault?, hfirst]

theorem subjects [Engine] (h : r.Respelled r') (registry : Registry) :
    r.subjects registry = r'.subjects registry := by
  unfold Rule.subjects
  rw [funext fun t => h.select.accepts t]

/-- Respelled rules are violated by the same types in the same order. -/
theorem violators [Engine] (h : r.Respelled r') (registry : Registry) :
    (r.violations registry).map Violation.typeName
      = (r'.violations registry).map Violation.typeName := by
  have hnames (r : Rule) : (r.violations registry).map Violation.typeName
      = (r.require.map fun a => ((r.subjects registry).filter fun t => !a.holdsFor t).map
          TypeInfo.name).flatten := by
    unfold Rule.violations
    rw [List.map_flatMap, List.flatMap_def]
    congr 1
    refine List.map_congr_left fun a _ => ?_
    rw [List.map_map]
    rfl
  rw [hnames, hnames, h.subjects registry]
  congr 1
  refine map_eq_of_forall₂ h.require fun a b hab => ?_
  rw [funext fun t => congrArg not (hab.holdsFor t)]

/-- Respelled rules go the same way. -/
theorem result [Engine] (h : r.Respelled r') (registry : Registry) :
    (r.result registry).withoutTexts = (r'.result registry).withoutTexts := by
  have hsummary : r.summary = r'.summary := by
    have hmessage := congrArg Rule.message h.rest
    dsimp only at hmessage
    unfold Rule.summary
    rw [hmessage, h.name]
  have hviolators := h.violators registry
  have hnone : r.violations registry = [] ↔ r'.violations registry = [] := by
    rw [← List.map_eq_nil_iff (f := Violation.typeName), hviolators, List.map_eq_nil_iff]
  -- without its text a violation is the name of a type
  have htexts (vs : List Violation) : vs.map (fun v => { v with message := "" })
      = (vs.map Violation.typeName).map fun name => { typeName := name, message := "" } := by
    rw [List.map_map]
    rfl
  unfold Rule.result
  rw [h.subjects registry]
  by_cases hsubjects : r'.subjects registry = []
  · rw [if_pos hsubjects, if_pos hsubjects]
  · rw [if_neg hsubjects, if_neg hsubjects]
    by_cases hpassed : r'.violations registry = []
    · rw [if_pos hpassed, if_pos (hnone.2 hpassed)]
    · rw [if_neg hpassed, if_neg fun h => hpassed (hnone.1 h)]
      unfold Outcome.withoutTexts
      dsimp only
      rw [hsummary, htexts, htexts, hviolators]

/-- **The verdicts on respelled rules are alike.** -/
theorem verdict [Engine] (h : r.Respelled r') (registry : Registry) (suite : String) :
    (r.verdict registry suite).Alike (r'.verdict registry suite) := by
  unfold Rule.verdict
  rw [h.fault?, h.name]
  cases r'.fault? with
  | some fault => exact ⟨rfl, rfl, rfl, rfl, rfl⟩
  | none =>
    have hresult := h.result registry
    have hstatus := congrArg Outcome.status hresult
    have hviolators := congrArg Outcome.violators hresult
    rw [Outcome.status_withoutTexts, Outcome.status_withoutTexts] at hstatus
    rw [Outcome.violators_withoutTexts, Outcome.violators_withoutTexts] at hviolators
    exact ⟨rfl, congrArg List.length (h.subjects registry), hstatus, hviolators, hresult⟩

/-- **Respelled rules enter the same into the ledger.** -/
theorem events [Engine] (h : r.Respelled r') (registry : Registry) (suite : String) :
    r.events registry suite = r'.events registry suite := by
  have hcategories : r.require.map RequireClause.categories
      = r'.require.map RequireClause.categories :=
    map_eq_of_forall₂ h.require fun _ _ hab => hab.categories
  have hmarks : r.marks suite = r'.marks suite := by
    have hflat (as : List RequireClause) : as.flatMap (fun a => a.categories.map Mark.category)
        = ((as.map RequireClause.categories).map (List.map Mark.category)).flatten := by
      rw [List.map_map, List.flatMap_def]
      rfl
    unfold Rule.marks
    rw [hflat, hflat, hcategories, h.name]
  unfold Rule.events
  rw [h.fault?, h.subjects registry, hmarks]

end Rule.Respelled

/-! ## Runs -/

/-- Two contracts that differ at most in how the names in the clauses of their rules are spelled: in the
ASCII case of letters, or in the separators in front. -/
structure Contract.Respelled (c c' : Contract) : Prop where
  rules : List.Forall₂ Rule.Respelled c.rules c'.rules
  rest : { c with rules := [] } = { c' with rules := [] }

theorem Contract.Respelled.suiteName {c c' : Contract} (h : c.Respelled c') :
    c.suiteName = c'.suiteName := by
  have hname := congrArg Contract.name h.rest
  dsimp only at hname
  unfold Contract.suiteName
  rw [hname]

/-- **The spelling of names does not matter.** Runs of two contracts that differ only in the spelling of
names report, rule by rule, the same test, the same number of selected types, the same status and the same
violating types in the same order, and otherwise differ at most in the texts of the violations. They
leave the same ledger. What was recorded before does not matter either. -/
theorem Contract.run_respelled [Engine] {c c' : Contract} (h : c.Respelled c') (registry : Registry)
    (recorder recorder' : Recorder) :
    List.Forall₂ RuleOutcome.Alike (c.run registry recorder).1 (c'.run registry recorder').1
    ∧ (c.run registry recorder).2 = (c'.run registry recorder').2 := by
  constructor
  · rw [(c.run_outcomes registry recorder).1, (c'.run_outcomes registry recorder').1, h.suiteName]
    rw [List.forall₂_map_left_iff, List.forall₂_map_right_iff]
    exact h.rules.imp fun r r' hr => hr.verdict registry c'.suiteName
  · have hevents : c.rules.map (Rule.events registry c'.suiteName)
        = c'.rules.map (Rule.events registry c'.suiteName) :=
      map_eq_of_forall₂ h.rules fun _ _ hr => hr.events registry c'.suiteName
    rw [recorder_run, recorder_run, h.suiteName, List.flatMap_def, List.flatMap_def, hevents]

/-- Entities of a namespace extend a base class. -/
def entityContract (ns interface parent : String) : Contract where
  rules := [{
    name := "entities"
    select := { within := some ns, implementing := some interface }
    require := [{ extending := some parent }] }]

/-- An entity that extends no class. -/
def orderRegistry : Registry where
  types := [{ name := "App\\Domain\\Order", kind := .cls, interfaces := ["App\\Entity"] }]

/-- The entity is reported whichever way the names are spelled. -/
theorem Contract.run_respelled_of_entities :
    List.Forall₂ RuleOutcome.Alike
      ((entityContract "App\\Domain" "App\\Entity" "App\\Base").run orderRegistry {}).1
      ((entityContract "\\APP\\domain" "\\\\app\\ENTITY" "app\\BASE").run orderRegistry {}).1
    ∧ (((entityContract "\\APP\\domain" "\\\\app\\ENTITY" "app\\BASE").run orderRegistry {}).1.map
        fun o => o.outcome.violators) = [["App\\Domain\\Order"]] := by
  have hns : TypeName.Agree "App\\Domain" "\\APP\\domain" :=
    (TypeName.same_iff_agree _ _).1 (by decide +kernel)
  have hinterface : TypeName.Agree "App\\Entity" "\\\\app\\ENTITY" :=
    (TypeName.same_iff_agree _ _).1 (by decide +kernel)
  have hparent : TypeName.Agree "App\\Base" "app\\BASE" :=
    (TypeName.same_iff_agree _ _).1 (by decide +kernel)
  have hselect : SelectClause.Respelled
      { within := some "App\\Domain", implementing := some "App\\Entity" }
      { within := some "\\APP\\domain", implementing := some "\\\\app\\ENTITY" } :=
    ⟨.some hns, .some hinterface, .none, rfl⟩
  have hrequire : RequireClause.Respelled { extending := some "App\\Base" }
      { extending := some "app\\BASE" } := ⟨.none, .some hparent, rfl⟩
  have hrespelled : (entityContract "App\\Domain" "App\\Entity" "App\\Base").Respelled
      (entityContract "\\APP\\domain" "\\\\app\\ENTITY" "app\\BASE") :=
    { rules := .cons ⟨hselect, .cons hrequire .nil, rfl⟩ .nil, rest := rfl }
  obtain ⟨houtcomes, _⟩ := run_respelled hrespelled orderRegistry {} {}
  refine ⟨houtcomes, ?_⟩
  rw [(run_outcomes _ orderRegistry {}).1]
  rfl

end Conformance
