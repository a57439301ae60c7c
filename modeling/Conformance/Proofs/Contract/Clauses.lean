import Conformance.Contract.Run
import Conformance.Proofs.Failure

/-!
# `Proofs.Contract.Clauses`: what the clauses of a rule mean

A clause means something by its fields, whatever it is compiled to: a select clause `accepts` types, a
require clause with one field set `holdsFor` types and has an expectation and a category for them, and
either may be at fault. Here the compiled selections and requirements are shown to agree with these
meanings, and compilation to fail exactly for clauses at fault. All this holds with every engine: which
patterns it understands and what they match is left to it.
-/

namespace Conformance

/-! ## Patterns in clauses -/

/-- Why a text is not understood as a pattern, if it is not. -/
def patternFault? [Engine] (text : String) : Option Pattern.Fault :=
  match Pattern.compile text with
  | .ok _ => none
  | .error cause => some cause

/-- Whether `text` is a pattern that occurs in `s`. -/
def patternOccurs [Engine] (text s : String) : Bool :=
  match Pattern.compile text with
  | .ok pattern => pattern.occursIn s
  | .error _ => false

theorem Pattern.text_of_compile [Engine] {text : String} {pattern : Pattern}
    (h : Pattern.compile text = .ok pattern) : pattern.text = text := by
  obtain ⟨occursIn, _, rfl⟩ := exists_of_map_ok h
  rfl

/-! ## Select clauses -/

namespace SelectClause

/-- Whether a type comes from no running environment and is as every field that is set says. -/
def accepts [Engine] (s : SelectClause) (t : TypeInfo) : Bool :=
  !t.isInternal
    && s.within.all (fun start => Text.startsFolded (TypeName.bare start) t.namespaceName)
    && (!s.notAbstract || !t.isAbstract)
    && (!s.notInterface || t.kind != .interface)
    && (!s.notTrait || t.kind != .trait)
    && s.named.all (fun text => patternOccurs text t.name)
    && s.implementing.all t.implementsDirectly
    && s.extending.all t.extendsDirectly

/-- What is wrong with a clause. -/
def fault? [Engine] (s : SelectClause) : Option RuleFault :=
  s.named.bind fun text => (patternFault? text).map (RuleFault.badSelectPattern text)

theorem all_toList_map {α : Type} (o : Option α) (f : α → Restriction) (t : TypeInfo) :
    (o.map f).toList.all (·.admits t) = o.all (fun a => (f a).admits t) := by
  cases o with
  | none => rfl
  | some a => simp

theorem all_whenSet (flag : Bool) (r : Restriction) (t : TypeInfo) :
    (whenSet flag r).all (·.admits t) = (!flag || r.admits t) := by
  cases flag <;> simp [whenSet]

/-- **A select clause without a fault selects the types that it accepts.** -/
theorem compile_of_no_fault [Engine] {s : SelectClause} (h : s.fault? = none) :
    ∃ selection, s.compile = .ok selection ∧ ∀ t, selection.admits t = s.accepts t := by
  have hnamed : ∃ named, namedRestriction s.named = .ok named
      ∧ ∀ t, named.all (·.admits t) = s.named.all (fun text => patternOccurs text t.name) := by
    cases hs : s.named with
    | none => exact ⟨[], rfl, fun t => rfl⟩
    | some text =>
      unfold fault? patternFault? at h
      rw [hs, Option.bind_some] at h
      cases hp : Pattern.compile text with
      | error cause => rw [hp] at h; cases h
      | ok pattern =>
        refine ⟨[.named pattern], ?_, fun t => ?_⟩
        · unfold namedRestriction
          simp only [hp]
        · simp [patternOccurs, hp, Restriction.admits]
  obtain ⟨named, hcompile, hall⟩ := hnamed
  refine ⟨_, by unfold compile; rw [hcompile]; rfl, fun t => ?_⟩
  unfold Selection.admits accepts
  simp only [List.all_append, all_toList_map, all_whenSet, hall, Bool.and_assoc]
  rfl

theorem compile_of_fault [Engine] {s : SelectClause} {f : RuleFault} (h : s.fault? = some f) :
    s.compile = .error f := by
  unfold fault? patternFault? at h
  cases hs : s.named with
  | none => rw [hs] at h; cases h
  | some text =>
    rw [hs, Option.bind_some] at h
    cases hp : Pattern.compile text with
    | ok pattern => rw [hp] at h; cases h
    | error cause =>
      rw [hp] at h
      cases h
      unfold compile namedRestriction
      rw [hs]
      simp only [hp]
      rfl

end SelectClause

/-! ## Require clauses -/

theorem Demand.compile_named_ok [Engine] {text : String} {pattern : Pattern}
    (h : Pattern.compile text = .ok pattern) :
    (Demand.named text).compile = .ok (.named pattern) := by
  simp only [compile, h]

theorem Demand.compile_named_error [Engine] {text : String} {cause : Pattern.Fault}
    (h : Pattern.compile text = .error cause) :
    (Demand.named text).compile = .error (.badNamePattern text cause) := by
  simp only [compile, h]

namespace RequireClause

/-- How many fields of a clause are set. -/
def setCount (a : RequireClause) : Nat :=
  [a.startsWith.isSome, a.endsWith.isSome, a.named.isSome, a.invokable, a.atMost.isSome,
    a.atLeast.isSome, a.exactly.isSome, a.implementing.isSome, a.extending.isSome, a.isFinal,
    a.isAbstract].countP id

/-- Whether a type is as every field that is set says. -/
def holdsFor [Engine] (a : RequireClause) (t : TypeInfo) : Bool :=
  a.startsWith.all (fun start => Text.startsWith start t.shortName)
    && a.endsWith.all (fun ending => Text.endsWith ending t.shortName)
    && a.named.all (fun text => patternOccurs text t.shortName)
    && (!a.invokable || t.hasPublicMethod "__invoke")
    && a.atMost.all (fun count => t.publicMethodCount ≤ count)
    && a.atLeast.all (fun count => count ≤ t.publicMethodCount)
    && a.exactly.all (fun count => t.publicMethodCount == count)
    && a.implementing.all t.implementsDirectly
    && a.extending.all t.extendsDirectly
    && (!a.isFinal || t.isFinal)
    && (!a.isAbstract || t.isAbstract)

/-- What a type should be like, according to the first field that is set. -/
def expectation (a : RequireClause) (t : TypeInfo) : String :=
  match a with
  | { startsWith := some start, .. } => "have name prefix \"" ++ start ++ "\""
  | { endsWith := some ending, .. } => "have name suffix \"" ++ ending ++ "\""
  | { named := some text, .. } => "have a name matching /" ++ text ++ "/"
  | { invokable := true, .. } => "be invokable (public __invoke method)"
  | { atMost := some count, .. } =>
    "have " ++ Requirement.countText "at most" count t.publicMethodCount
  | { atLeast := some count, .. } =>
    "have " ++ Requirement.countText "at least" count t.publicMethodCount
  | { exactly := some count, .. } =>
    "have " ++ Requirement.countText "exactly" count t.publicMethodCount
  | { implementing := some interface, .. } => "implement " ++ interface
  | { extending := some parent, .. } => "extend " ++ parent
  | { isFinal := true, .. } => "be final"
  | _ => "be abstract"

/-- The categories of the fields that are set. What is asked of the methods of a type has none. -/
def categories (a : RequireClause) : List Category :=
  (if a.startsWith.isSome then [.namePrefix] else [])
    ++ (if a.endsWith.isSome then [.nameSuffix] else [])
    ++ (if a.named.isSome then [.namePattern] else [])
    ++ (if a.implementing.isSome then [.implement] else [])
    ++ (if a.extending.isSome then [.extend] else [])
    ++ (if a.isFinal || a.isAbstract then [.modifier] else [])

/-- What is wrong with a clause: it says nothing or several things, or its pattern is none. -/
def fault? [Engine] (a : RequireClause) : Option RuleFault :=
  if a.setCount = 1 then
    a.named.bind fun text => (patternFault? text).map (RuleFault.badNamePattern text)
  else some (.notOneDemand a.setCount)

/-- A clause with one field set, and what it demands. -/
inductive Says : RequireClause → Demand → Prop where
  | startsWith (start : String) : Says { startsWith := some start } (.ready (.startsWith start))
  | endsWith (ending : String) : Says { endsWith := some ending } (.ready (.endsWith ending))
  | named (text : String) : Says { named := some text } (.named text)
  | invokable : Says { invokable := true } (.ready .invokable)
  | atMost (count : Nat) : Says { atMost := some count } (.ready (.atMost count))
  | atLeast (count : Nat) : Says { atLeast := some count } (.ready (.atLeast count))
  | exactly (count : Nat) : Says { exactly := some count } (.ready (.exactly count))
  | implementing (interface : String) :
    Says { implementing := some interface } (.ready (.implementing interface))
  | extending (parent : String) : Says { extending := some parent } (.ready (.extending parent))
  | isFinal : Says { isFinal := true } (.ready .isFinal)
  | isAbstract : Says { isAbstract := true } (.ready .isAbstract)

theorem ofField_eq_nil {α : Type} {o : Option α} {f : α → Requirement} :
    ofField o f = [] ↔ o = none := by
  cases o <;> simp [ofField]

theorem ofField_eq_singleton {α : Type} {o : Option α} {f : α → Requirement} {d : Demand} :
    ofField o f = [d] ↔ ∃ x, o = some x ∧ .ready (f x) = d := by
  cases o <;> simp [ofField]

theorem ofFlag_eq_nil {flag : Bool} {r : Requirement} : ofFlag flag r = [] ↔ flag = false := by
  cases flag <;> simp [ofFlag]

theorem ofFlag_eq_singleton {flag : Bool} {r : Requirement} {d : Demand} :
    ofFlag flag r = [d] ↔ flag = true ∧ .ready r = d := by
  cases flag <;> simp [ofFlag]

/-- A clause demands as many things as it has fields set. -/
theorem setCount_eq (a : RequireClause) : a.setCount = a.demands.length := by
  have hfield {α : Type} (o : Option α) (f : α → Requirement) :
      (ofField o f).length = if o.isSome then 1 else 0 := by
    cases o <;> rfl
  have hflag (b : Bool) (r : Requirement) : (ofFlag b r).length = if b then 1 else 0 := by
    cases b <;> rfl
  have hnamed (o : Option String) : (o.map Demand.named).toList.length = if o.isSome then 1 else 0 := by
    cases o <;> rfl
  unfold setCount demands
  simp only [List.length_append, hfield, hflag, hnamed, List.countP_cons, List.countP_nil, id_eq]
  omega

/-- A clause that demands one thing has just that field set. -/
theorem says_of_demands {a : RequireClause} {d : Demand} (h : a.demands = [d]) : Says a d := by
  have hnone (o : Option String) : (o.map Demand.named).toList = [] ↔ o = none := by
    cases o <;> simp
  have hsome (o : Option String) : (o.map Demand.named).toList = [d] ↔ ∃ x, o = some x ∧ .named x = d := by
    cases o <;> simp
  obtain ⟨startsWith, endsWith, named, invokable, atMost, atLeast, exactly, implementing, extending,
    isFinal, isAbstract⟩ := a
  simp only [demands, List.append_eq_singleton_iff, List.append_eq_nil_iff, ofField_eq_nil,
    ofField_eq_singleton, ofFlag_eq_nil, ofFlag_eq_singleton, hnone, hsome, and_assoc] at h
  -- the last field is set and none before it, or it is not set and one before it is
  rcases h with ⟨rfl, rfl, rfl, rfl, rfl, rfl, rfl, rfl, rfl, rfl, rfl, rfl⟩ | ⟨h, rfl⟩
  · exact .isAbstract
  rcases h with ⟨rfl, rfl, rfl, rfl, rfl, rfl, rfl, rfl, rfl, rfl, rfl⟩ | ⟨h, rfl⟩
  · exact .isFinal
  rcases h with ⟨rfl, rfl, rfl, rfl, rfl, rfl, rfl, rfl, x, rfl, rfl⟩ | ⟨h, rfl⟩
  · exact .extending x
  rcases h with ⟨rfl, rfl, rfl, rfl, rfl, rfl, rfl, x, rfl, rfl⟩ | ⟨h, rfl⟩
  · exact .implementing x
  rcases h with ⟨rfl, rfl, rfl, rfl, rfl, rfl, x, rfl, rfl⟩ | ⟨h, rfl⟩
  · exact .exactly x
  rcases h with ⟨rfl, rfl, rfl, rfl, rfl, x, rfl, rfl⟩ | ⟨h, rfl⟩
  · exact .atLeast x
  rcases h with ⟨rfl, rfl, rfl, rfl, x, rfl, rfl⟩ | ⟨h, rfl⟩
  · exact .atMost x
  rcases h with ⟨rfl, rfl, rfl, rfl, rfl⟩ | ⟨h, rfl⟩
  · exact .invokable
  rcases h with ⟨rfl, rfl, x, rfl, rfl⟩ | ⟨h, rfl⟩
  · exact .named x
  rcases h with ⟨rfl, x, rfl, rfl⟩ | ⟨⟨x, rfl, rfl⟩, rfl⟩
  · exact .endsWith x
  · exact .startsWith x

/-- A requirement asks for what a clause says. -/
structure Agrees [Engine] (a : RequireClause) (r : Requirement) : Prop where
  isMetBy : ∀ t, r.isMetBy t = a.holdsFor t
  expectation : ∀ t, r.expectation t = a.expectation t
  category : r.category?.toList = a.categories

theorem agrees_of_says [Engine] {a : RequireClause} {d : Demand} {r : Requirement} (h : Says a d)
    (hr : d.compile = .ok r) : Agrees a r := by
  cases h with
  | named text =>
    cases hp : Pattern.compile text with
    | error cause => rw [Demand.compile_named_error hp] at hr; cases hr
    | ok pattern =>
      rw [Demand.compile_named_ok hp] at hr
      cases hr
      refine ⟨fun t => ?_, fun t => ?_, rfl⟩
      · simp [holdsFor, patternOccurs, hp, Requirement.isMetBy]
      · show "have a name matching /" ++ pattern.text ++ "/" = "have a name matching /" ++ text ++ "/"
        rw [Pattern.text_of_compile hp]
  | _ =>
    -- the demand is ready: what it asks for is what the one field says
    cases hr
    exact ⟨fun t => by simp [holdsFor, Requirement.isMetBy, Requirement.invokeName], fun t => rfl, rfl⟩

/-- A clause with one field set says what that field demands. -/
theorem exists_says [Engine] {a : RequireClause} (h : a.setCount = 1) :
    ∃ d, Says a d ∧ a.compile = d.compile := by
  rw [setCount_eq] at h
  obtain ⟨d, hd⟩ := List.length_eq_one_iff.1 h
  refine ⟨d, says_of_demands hd, ?_⟩
  unfold compile
  rw [hd]

/-- **A require clause without a fault means one requirement, and that agrees with it.** -/
theorem compile_of_no_fault [Engine] {a : RequireClause} (h : a.fault? = none) :
    ∃ r, a.compile = .ok r ∧ Agrees a r := by
  unfold fault? at h
  split at h
  · next hone =>
    obtain ⟨d, hsays, hcompile⟩ := exists_says hone
    have hready : ∃ r, d.compile = .ok r := by
      cases hsays with
      | named text =>
        cases hp : Pattern.compile text with
        | error cause => simp [patternFault?, hp] at h
        | ok pattern => exact ⟨.named pattern, Demand.compile_named_ok hp⟩
      | _ => exact ⟨_, rfl⟩
    obtain ⟨r, hr⟩ := hready
    exact ⟨r, hcompile.trans hr, agrees_of_says hsays hr⟩
  · cases h

theorem compile_of_fault [Engine] {a : RequireClause} {f : RuleFault} (h : a.fault? = some f) :
    a.compile = .error f := by
  unfold fault? at h
  split at h
  · next hone =>
    obtain ⟨d, hsays, hcompile⟩ := exists_says hone
    rw [hcompile]
    cases hsays with
    | named text =>
      unfold patternFault? at h
      cases hp : Pattern.compile text with
      | error cause =>
        rw [Option.bind_some, hp] at h
        cases h
        exact Demand.compile_named_error hp
      | ok pattern => rw [Option.bind_some, hp] at h; cases h
    | _ => cases h
  · next hmany =>
    cases h
    rw [setCount_eq] at hmany ⊢
    unfold compile
    cases hd : a.demands with
    | nil => rfl
    | cons d ds =>
      cases ds with
      | nil => exact absurd (by rw [hd]; rfl) hmany
      | cons e es => rfl

end RequireClause

/-! ## Rules -/

namespace Rule

/-- What is wrong with a rule: the fault of its select clause, or else that of its first require
clause with one. -/
def fault? [Engine] (r : Rule) : Option RuleFault :=
  r.select.fault? <|> r.require.findSome? RequireClause.fault?

theorem requirements_of_fault [Engine] {as : List RequireClause} {f : RuleFault}
    (h : as.findSome? RequireClause.fault? = some f) :
    as.mapM RequireClause.compile = .error f := by
  induction as with
  | nil => cases h
  | cons a as ih =>
    rw [List.findSome?_cons] at h
    rw [List.mapM_cons]
    cases ha : a.fault? with
    | some g =>
      -- the first fault ends it
      rw [ha] at h
      cases h
      rw [RequireClause.compile_of_fault ha]
      rfl
    | none =>
      rw [ha] at h
      obtain ⟨r, hr, _⟩ := RequireClause.compile_of_no_fault ha
      rw [hr, ih h]
      rfl

/-- Clauses without a fault mean one requirement each: what is listed for every requirement is listed
for every clause. -/
theorem requirements_of_no_fault [Engine] {as : List RequireClause}
    (h : as.findSome? RequireClause.fault? = none) :
    ∃ rs, as.mapM RequireClause.compile = .ok rs
      ∧ ∀ {β : Type} (f : RequireClause → List β) (g : Requirement → List β),
        (∀ a r, RequireClause.Agrees a r → g r = f a) → rs.flatMap g = as.flatMap f := by
  induction as with
  | nil => exact ⟨[], rfl, fun f g hfg => rfl⟩
  | cons a as ih =>
    rw [List.findSome?_cons] at h
    cases ha : a.fault? with
    | some g => rw [ha] at h; cases h
    | none =>
      rw [ha] at h
      obtain ⟨r, hr, hagrees⟩ := RequireClause.compile_of_no_fault ha
      obtain ⟨rs, hrs, hall⟩ := ih h
      refine ⟨r :: rs, ?_, fun f g hfg => ?_⟩
      · rw [List.mapM_cons, hr, hrs]
        rfl
      · rw [List.flatMap_cons, List.flatMap_cons, hfg a r hagrees, hall f g hfg]

theorem compile_of_fault [Engine] {r : Rule} {f : RuleFault} (h : r.fault? = some f) :
    r.compile = .error f := by
  unfold compile
  cases hselect : r.select.fault? with
  | some g =>
    unfold fault? at h
    rw [hselect] at h
    cases h
    rw [SelectClause.compile_of_fault hselect]
    rfl
  | none =>
    unfold fault? at h
    rw [hselect] at h
    obtain ⟨selection, hselection, _⟩ := SelectClause.compile_of_no_fault hselect
    have hrequire : r.requirements = .error f := requirements_of_fault h
    rw [hselection, hrequire]
    rfl

/-- **A rule without a fault means a selection and requirements that agree with its clauses.** -/
theorem compile_of_no_fault [Engine] {r : Rule} (h : r.fault? = none) :
    ∃ selection rs, r.compile = .ok (selection, rs)
      ∧ (∀ t, selection.admits t = r.select.accepts t)
      ∧ ∀ {β : Type} (f : RequireClause → List β) (g : Requirement → List β),
        (∀ a q, RequireClause.Agrees a q → g q = f a) → rs.flatMap g = r.require.flatMap f := by
  unfold fault? at h
  cases hselect : r.select.fault? with
  | some g => rw [hselect] at h; cases h
  | none =>
    rw [hselect] at h
    obtain ⟨selection, hselection, haccepts⟩ := SelectClause.compile_of_no_fault hselect
    obtain ⟨rs, hrs, hall⟩ := requirements_of_no_fault h
    have hrequire : r.requirements = .ok rs := hrs
    refine ⟨selection, rs, ?_, haccepts, hall⟩
    unfold compile
    rw [hselection, hrequire]
    rfl

/-- A rule that cannot be applied: a pattern of its select clause is not understood, or one of its
require clauses has not one field set or a pattern that is not understood. -/
def IsFaulty [Engine] (r : Rule) : Prop :=
  (∃ text ∈ r.select.named, (patternFault? text).isSome = true)
    ∨ ∃ a ∈ r.require, a.setCount ≠ 1 ∨ ∃ text ∈ a.named, (patternFault? text).isSome = true

/-- The rules at fault are those that cannot be applied. -/
theorem fault?_isSome_iff [Engine] (r : Rule) : r.fault?.isSome = true ↔ r.IsFaulty := by
  have hpattern (o : Option String) (fault : String → Pattern.Fault → RuleFault) :
      (o.bind fun text => (patternFault? text).map (fault text)).isSome = true
        ↔ ∃ text ∈ o, (patternFault? text).isSome = true := by
    cases o <;> simp
  have hclause (a : RequireClause) :
      a.fault?.isSome = true
        ↔ a.setCount ≠ 1 ∨ ∃ text ∈ a.named, (patternFault? text).isSome = true := by
    unfold RequireClause.fault?
    by_cases hone : a.setCount = 1
    · rw [if_pos hone, hpattern]
      exact ⟨Or.inr, fun h => h.resolve_left (not_not_intro hone)⟩
    · rw [if_neg hone]
      exact ⟨fun _ => Or.inl hone, fun _ => rfl⟩
  have hselect : r.select.fault?.isSome = true
      ↔ ∃ text ∈ r.select.named, (patternFault? text).isSome = true :=
    hpattern r.select.named .badSelectPattern
  have hfirst : r.fault?.isSome = true
      ↔ r.select.fault?.isSome = true
        ∨ (r.require.findSome? RequireClause.fault?).isSome = true := by
    unfold fault?
    cases r.select.fault? <;> simp
  rw [hfirst, hselect, List.findSome?_isSome_iff]
  simp only [hclause]
  rfl

end Rule
end Conformance
