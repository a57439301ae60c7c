import Conformance.Pattern.Standard
import Conformance.Proofs.Contract.Validity
import Conformance.Proofs.Contract.Verdict
import Conformance.Proofs.Usage.Recording

/-!
# `Proofs.Contract.Records`: what a run records

A rule that can be applied enters its test and the categories of its clauses for every type that it
is about; a rule at fault enters nothing. The ledger behind a run is the record of the events of all
rules, and `Contract.run_usage` reads off from that which entries there are and what they hold.
-/

namespace Conformance

/-! ## The events of an inspection -/

/-- A mark on each of some types. -/
def Mark.on (m : Mark) (types : List TypeInfo) : List Event :=
  types.map fun t => { file := t.fileKey, name := t.name, mark := m }

theorem Mark.mem_on {m : Mark} {types : List TypeInfo} {e : Event} :
    e ∈ m.on types ↔ e.mark = m ∧ ∃ t ∈ types, t.fileKey = e.file ∧ t.name = e.name := by
  unfold on
  rw [List.mem_map]
  constructor
  · rintro ⟨t, ht, rfl⟩
    exact ⟨rfl, t, ht, rfl, rfl⟩
  · rintro ⟨rfl, t, ht, hfile, hname⟩
    exact ⟨t, ht, by rw [hfile, hname]⟩

namespace Recorder

/-- Selecting types while a test runs. -/
theorem foldl_recordTest (types : List TypeInfo) (l : Ledger) (test : TestId) :
    types.foldl recordTest { ledger := l, context := some test }
      = { ledger := ((Mark.test test).on types).foldl Ledger.record l, context := some test } := by
  induction types generalizing l with
  | nil => rfl
  | cons t types ih => exact ih (l.record { file := t.fileKey, name := t.name, mark := .test test })

/-- Applying checks of a category while a test runs. -/
theorem foldl_recordCategory (types : List TypeInfo) (l : Ledger) (test : TestId) (c : Category) :
    types.foldl (fun recorder t => recordCategory recorder t c) { ledger := l, context := some test }
      = { ledger := ((Mark.category c).on types).foldl Ledger.record l, context := some test } := by
  induction types generalizing l with
  | nil => rfl
  | cons t types ih => exact ih (l.record { file := t.fileKey, name := t.name, mark := .category c })

end Recorder

namespace Inspection

/-- The events of one requirement. -/
def eventsOf (types : List TypeInfo) (r : Requirement) : List Event :=
  r.category?.toList.flatMap fun c => (Mark.category c).on types

theorem recordAll_eq (r : Requirement) (types : List TypeInfo) (l : Ledger) (test : TestId) :
    recordAll r types { ledger := l, context := some test }
      = { ledger := (eventsOf types r).foldl Ledger.record l, context := some test } := by
  unfold recordAll eventsOf
  cases r.category? with
  | none => rfl
  | some c =>
    rw [Option.toList_some, List.flatMap_singleton]
    exact Recorder.foldl_recordCategory types l test c

/-- Requirements that are applied one after the other. -/
theorem foldl_recordAll (rs : List Requirement) (types : List TypeInfo) (l : Ledger)
    (test : TestId) :
    rs.foldl (fun recorder r => recordAll r types recorder) { ledger := l, context := some test }
      = { ledger := (rs.flatMap (eventsOf types)).foldl Ledger.record l, context := some test } := by
  induction rs generalizing l with
  | nil => rfl
  | cons r rs ih =>
    rw [List.foldl_cons, recordAll_eq, ih, List.flatMap_cons, List.foldl_append]

end Inspection

/-! ## The events of rules -/

namespace Rule

/-- What a rule marks the types with that it is about: its test and the categories of its clauses. -/
def marks (r : Rule) (suite : String) : List Mark :=
  .test { suite, test := r.name } :: r.require.flatMap fun a => a.categories.map Mark.category

/-- What a rule enters into the ledger. -/
def events [Engine] (registry : Registry) (suite : String) (r : Rule) : List Event :=
  match r.fault? with
  | some _ => []
  | none => (r.marks suite).flatMap fun m => m.on (r.subjects registry)

/-- **A rule records its events**, and behind it no test is running. -/
theorem run_recorder [Engine] (r : Rule) (registry : Registry) (suite : String) (recorder : Recorder) :
    (r.run registry suite recorder).2
      = { ledger := (r.events registry suite).foldl Ledger.record recorder.ledger } := by
  unfold run events
  cases hfault : r.fault? with
  | some fault => rw [compile_of_fault hfault]; rfl
  | none =>
    obtain ⟨selection, rs, hcompile, haccepts, hall⟩ := compile_of_no_fault hfault
    have hpick : selection.pick registry = r.subjects registry := pick_eq_subjects haccepts
    have hevents : (r.marks suite).flatMap (fun m => m.on (r.subjects registry))
        = (Mark.test { suite, test := r.name }).on (r.subjects registry)
          ++ rs.flatMap (Inspection.eventsOf (r.subjects registry)) := by
      have hclauses := hall
        (fun a => (a.categories.map Mark.category).flatMap fun m => m.on (r.subjects registry))
        (Inspection.eventsOf (r.subjects registry)) fun a q h => by
          unfold Inspection.eventsOf
          rw [h.category, List.flatMap_map]
      rw [hclauses]
      unfold marks
      rw [List.flatMap_cons, List.flatMap_assoc]
    rw [hcompile]
    -- first the test is entered for every type, then one category after the other
    show (inspect registry (recorder.enter _) selection rs).recorder.leave = _
    unfold inspect Inspection.start
    rw [Inspection.recorder_requireAll, hpick]
    show (rs.foldl _ ((r.subjects registry).foldl Recorder.recordTest
      { ledger := recorder.ledger, context := some { suite, test := r.name } })).leave = _
    rw [Recorder.foldl_recordTest]
    show (rs.foldl (fun recorder q => Inspection.recordAll q (r.subjects registry) recorder)
      { ledger := _, context := some { suite, test := r.name } }).leave = _
    rw [Inspection.foldl_recordAll, hevents, List.foldl_append]
    rfl

/-- The rules of a run record their events one after the other. -/
theorem runAll_recorder [Engine] (registry : Registry) (suite : String) (rs : List Rule) (l : Ledger) :
    (runAll registry suite rs { ledger := l }).2
      = { ledger := (rs.flatMap (events registry suite)).foldl Ledger.record l } := by
  induction rs generalizing l with
  | nil => rfl
  | cons r rs ih =>
    show (runAll registry suite rs (r.run registry suite { ledger := l }).2).2 = _
    rw [run_recorder, ih, List.flatMap_cons, List.foldl_append]

/-- The rule can be applied and is about a type with this name in this file. -/
def Touches [Engine] (r : Rule) (registry : Registry) (file name : String) : Prop :=
  ¬ r.IsFaulty ∧ ∃ t ∈ registry.types, r.select.accepts t = true ∧ t.fileKey = file ∧ t.name = name

instance [Engine] (r : Rule) : Decidable r.IsFaulty := decidable_of_iff _ (fault?_isSome_iff r)

instance [Engine] (r : Rule) (registry : Registry) (file name : String) :
    Decidable (r.Touches registry file name) :=
  inferInstanceAs (Decidable (_ ∧ _))

theorem mem_events_iff [Engine] (r : Rule) (registry : Registry) (suite : String) (e : Event) :
    e ∈ r.events registry suite
      ↔ r.Touches registry e.file e.name ∧ e.mark ∈ r.marks suite := by
  unfold events Touches
  rw [← fault?_isSome_iff]
  cases hfault : r.fault? with
  | some fault => simp
  | none =>
    simp only [List.mem_flatMap, Mark.mem_on, subjects, List.mem_filter]
    constructor
    · rintro ⟨m, hm, rfl, t, ⟨ht, haccepts⟩, hfile, hname⟩
      exact ⟨⟨Bool.false_ne_true, t, ht, haccepts, hfile, hname⟩, hm⟩
    · rintro ⟨⟨_, t, ht, haccepts, hfile, hname⟩, hm⟩
      exact ⟨e.mark, hm, rfl, t, ⟨ht, haccepts⟩, hfile, hname⟩

/-- A rule enters something for exactly the types that it touches. -/
theorem exists_mem_events_iff [Engine] (r : Rule) (registry : Registry) (suite file name : String) :
    (∃ e ∈ r.events registry suite, e.file = file ∧ e.name = name)
      ↔ r.Touches registry file name := by
  constructor
  · rintro ⟨e, he, rfl, rfl⟩
    exact ((r.mem_events_iff registry suite e).1 he).1
  · intro htouches
    -- the mark of its test, which every rule leaves
    refine ⟨{ file, name, mark := .test { suite, test := r.name } }, ?_, rfl, rfl⟩
    exact (r.mem_events_iff registry suite _).2 ⟨htouches, List.mem_cons_self⟩

theorem test_mem_marks_iff (r : Rule) (suite : String) (test : TestId) :
    .test test ∈ r.marks suite ↔ test = { suite, test := r.name } := by
  simp [marks]

theorem category_mem_marks_iff (r : Rule) (suite : String) (category : Category) :
    .category category ∈ r.marks suite ↔ ∃ a ∈ r.require, category ∈ a.categories := by
  simp [marks]

end Rule

/-! ## Runs -/

namespace Contract

/-- The tests of a valid contract's rules are as many as the rules. -/
theorem nodup_tests [Engine] {c : Contract} (h : c.validate = .ok ()) (p : Rule → Bool) :
    ((c.rules.filter p).map fun r => ({ suite := c.suiteName, test := r.name } : TestId)).Nodup := by
  have hnames := (validate_eq_ok_iff.1 h).distinct
  rw [List.Nodup, List.pairwise_map] at hnames ⊢
  refine (hnames.filter p).imp ?_
  intro r r' hne heq
  exact hne (congrArg TestId.test heq)

/-- A run leaves the record of the events of all rules, in an empty ledger. -/
theorem recorder_run [Engine] (c : Contract) (registry : Registry) (recorder : Recorder) :
    (c.run registry recorder).2
      = { ledger := (c.rules.flatMap (Rule.events registry c.suiteName)).foldl Ledger.record {} } :=
  Rule.runAll_recorder registry c.suiteName c.rules {}

/-- **The ledger behind a run is what the rules touched**, whatever it was before. No test is running
any more. There is an entry for a type of a file exactly if a rule that can be applied selected it; its
categories are those of all clauses of these rules, its tests are these rules, and in a valid contract
it has as many tests as there are such rules. -/
theorem run_usage [Engine] (c : Contract) (registry : Registry) (recorder : Recorder) :
    (c.run registry recorder).2.context = none
    ∧ ∀ file name,
      (((c.run registry recorder).2.ledger.get? file name).isSome = true
        ↔ ∃ r ∈ c.rules, r.Touches registry file name)
      ∧ ∀ usage, (c.run registry recorder).2.ledger.get? file name = some usage →
        (∀ category, usage.categories.contains category = true
          ↔ ∃ r ∈ c.rules, r.Touches registry file name
            ∧ ∃ a ∈ r.require, category ∈ a.categories)
        ∧ (∀ test, usage.tests.contains test = true
          ↔ ∃ r ∈ c.rules, r.Touches registry file name
            ∧ test = { suite := c.suiteName, test := r.name })
        ∧ (c.validate = .ok () →
          usage.tests.size = c.rules.countP (fun r => r.Touches registry file name)) := by
  have hrun : (c.run registry recorder).2
      = { ledger := (c.rules.flatMap (Rule.events registry c.suiteName)).foldl Ledger.record {} } :=
    Rule.runAll_recorder registry c.suiteName c.rules {}
  rw [hrun]
  refine ⟨rfl, fun file name => ⟨?_, fun usage husage => ?_⟩⟩
  · have hevents : (∃ e ∈ c.rules.flatMap (Rule.events registry c.suiteName),
        e.file = file ∧ e.name = name) ↔ ∃ r ∈ c.rules, r.Touches registry file name := by
      simp only [← Rule.exists_mem_events_iff _ registry c.suiteName, List.mem_flatMap]
      constructor
      · rintro ⟨e, ⟨r, hr, he⟩, hat⟩
        exact ⟨r, hr, e, he, hat⟩
      · rintro ⟨r, hr, e, he, hat⟩
        exact ⟨e, ⟨r, hr, he⟩, hat⟩
    have hempty : ({} : Ledger).get? file name = none := rfl
    rw [Ledger.isSome_get?_foldl, hempty, hevents]
    exact ⟨fun h => h.resolve_left Bool.false_ne_true, Or.inr⟩
  · have hbears (m : Mark) : usage.bears m = true
        ↔ ∃ r ∈ c.rules, r.Touches registry file name ∧ m ∈ r.marks c.suiteName := by
      have hfold := Ledger.bears_foldl (c.rules.flatMap (Rule.events registry c.suiteName)) {} file
        name m
      have hempty : (({} : Ledger).get? file name).getD {} = {} := rfl
      rw [husage, Option.getD_some, hempty, Usage.bears_nothing, List.mem_flatMap] at hfold
      simp only [Rule.mem_events_iff, Bool.false_eq_true, false_or] at hfold
      exact hfold
    have htests (test : TestId) : usage.tests.contains test = true
        ↔ ∃ r ∈ c.rules, r.Touches registry file name
          ∧ test = { suite := c.suiteName, test := r.name } := by
      have htest := hbears (.test test)
      simp only [Rule.test_mem_marks_iff] at htest
      exact htest
    refine ⟨fun category => ?_, htests, fun hvalid => ?_⟩
    · have hcategory := hbears (.category category)
      simp only [Rule.category_mem_marks_iff] at hcategory
      exact hcategory
    · -- the tests are those of the rules that touch the type, and no two rules share a test
      rw [List.countP_eq_length_filter,
        KeySet.size_eq_length (nodup_tests hvalid fun r => r.Touches registry file name),
        List.length_map]
      intro test
      rw [htests]
      simp only [List.mem_map, List.mem_filter, decide_eq_true_eq]
      constructor
      · rintro ⟨r, hr, htouches, rfl⟩
        exact ⟨r, ⟨hr, htouches⟩, rfl⟩
      · rintro ⟨r, ⟨hr, htouches⟩, rfl⟩
        exact ⟨r, hr, htouches, rfl⟩

/-- A class in a file of its own. -/
def mailerRegistry : Registry where
  types := [{ name := "App\\Mailer", kind := .cls, file := some "Mailer.php" }]

/-- A contract with a rule about names, which the class meets, and one that asks for final classes,
which it does not meet. -/
def mailerContract : Contract where
  rules := [
    { name := "naming", require := [{ endsWith := some "er" }] },
    { name := "finality", require := [{ isFinal := true }] }]

/-- The class is checked by both rules of the contract. -/
theorem run_usage_of_mailer :
    ∃ usage, (mailerContract.run mailerRegistry {}).2.ledger.get? "Mailer.php" "App\\Mailer"
        = some usage
      ∧ usage.categories.contains .modifier = true
      ∧ usage.tests.size = 2 := by
  obtain ⟨hentry, husage⟩ := (run_usage mailerContract mailerRegistry {}).2 "Mailer.php" "App\\Mailer"
  have hsome : ((mailerContract.run mailerRegistry {}).2.ledger.get? "Mailer.php"
      "App\\Mailer").isSome = true :=
    hentry.2 ⟨{ name := "naming", require := [{ endsWith := some "er" }] }, by decide, by decide⟩
  obtain ⟨usage, hget⟩ := Option.isSome_iff_exists.1 hsome
  obtain ⟨hcategories, _, hsize⟩ := husage usage hget
  have hvalid : mailerContract.validate = .ok () := rfl
  refine ⟨usage, hget, ?_, ?_⟩
  · exact (hcategories .modifier).2 ⟨{ name := "finality", require := [{ isFinal := true }] },
      by decide, by decide, { isFinal := true }, by decide, by decide⟩
  · rw [hsize hvalid]
    decide

end Contract
end Conformance
