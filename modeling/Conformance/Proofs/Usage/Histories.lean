import Mathlib.Data.List.Basic
import Mathlib.Data.List.Induction
import Conformance.Proofs.Contract.Records

/-!
# `Proofs.Usage.Histories`: a ledger over a history of operations

A recorder is entered, left and cleared, and inspections run in between, in whatever order. What holds
of the ledger behind all such histories is the invariant `Recorder.Sound`: an inspection enters its test
for every type before it enters anything else, so no entry is without a test, and the tests are those that
were running since the last time everything was forgotten. `Ledger.Bears` says what has been entered;
operations other than `clear` keep all of it, and entering it again changes nothing. The laws are put
together in `Recorder.ledger_after`.
-/

namespace Conformance

/-! ## Operations -/

/-- What can be done to a recorder. -/
inductive Operation where
  | enter (test : TestId)
  | leave
  | clear
  /-- Some types are inspected, from the start of the inspection to its end. -/
  | inspect (types : List TypeInfo) (requirements : List Requirement)

namespace Recorder

/-- Does one thing to a recorder. -/
def apply (r : Recorder) : Operation → Recorder
  | .enter test => r.enter test
  | .leave => r.leave
  | .clear => r.clear
  | .inspect types requirements => ((Inspection.start r types).requireAll requirements).recorder

/-- The recorder behind a history. -/
def after (ops : List Operation) : Recorder := ops.foldl apply {}

theorem after_append (ops later : List Operation) :
    after (ops ++ later) = later.foldl apply (after ops) := by
  unfold after
  exact List.foldl_append

end Recorder

/-- A test was named as the running one, and nothing has been forgotten since. -/
def EnteredSinceClear (ops : List Operation) (test : TestId) : Prop :=
  ∃ earlier later, ops = earlier ++ .enter test :: later ∧ .clear ∉ later

theorem EnteredSinceClear.append {ops : List Operation} {test : TestId}
    (h : EnteredSinceClear ops test) {op : Operation} (hop : op ≠ .clear) :
    EnteredSinceClear (ops ++ [op]) test := by
  obtain ⟨earlier, later, rfl, hlater⟩ := h
  refine ⟨earlier, later ++ [op], by simp, ?_⟩
  intro hmem
  rcases List.mem_append.1 hmem with hmem | hmem
  · exact hlater hmem
  · exact hop (List.mem_singleton.1 hmem).symm

/-! ## What has been entered -/

/-- A mark that was entered is not entered again. -/
theorem Mark.enter_of_bears {m : Mark} {u : Usage} (h : u.bears m = true) :
    m.enter u = u := by
  cases m with
  | test t => exact congrArg (fun tests => { u with tests }) (KeySet.add_of_contains h)
  | category c => exact congrArg (fun categories => { u with categories }) (KeySet.add_of_contains h)

namespace Ledger

/-- The type of the event has an entry, and the entry bears the mark. -/
def Bears (l : Ledger) (e : Event) : Prop :=
  ∃ usage, l.get? e.file e.name = some usage ∧ usage.bears e.mark = true

/-- Whatever one ledger bears, another one does. -/
def KeptIn (l l' : Ledger) : Prop :=
  ∀ file name usage, l.get? file name = some usage →
    ∃ usage', l'.get? file name = some usage' ∧ ∀ m, usage.bears m = true → usage'.bears m = true

theorem KeptIn.refl (l : Ledger) : l.KeptIn l :=
  fun _ _ usage h => ⟨usage, h, fun _ hm => hm⟩

theorem KeptIn.trans {l l' l'' : Ledger} (h : l.KeptIn l') (h' : l'.KeptIn l'') : l.KeptIn l'' := by
  intro file name usage hget
  obtain ⟨usage', hget', hkept⟩ := h file name usage hget
  obtain ⟨usage'', hget'', hkept'⟩ := h' file name usage' hget'
  exact ⟨usage'', hget'', fun m hm => hkept' m (hkept m hm)⟩

theorem KeptIn.bears {l l' : Ledger} (h : l.KeptIn l') {e : Event} (he : l.Bears e) : l'.Bears e := by
  obtain ⟨usage, hget, hmark⟩ := he
  obtain ⟨usage', hget', hkept⟩ := h e.file e.name usage hget
  exact ⟨usage', hget', hkept e.mark hmark⟩

/-- Events add to what is borne. -/
theorem keptIn_foldl (es : List Event) (l : Ledger) : l.KeptIn (es.foldl record l) := by
  intro file name usage hget
  have hsome : (l.get? file name).isSome = true := by rw [hget]; rfl
  have hentry := (isSome_get?_foldl es l file name).2 (Or.inl hsome)
  obtain ⟨usage', hget'⟩ := Option.isSome_iff_exists.1 hentry
  refine ⟨usage', hget', ?_⟩
  intro m hm
  have hbears := (bears_foldl es l file name m).2 (Or.inl (by rw [hget]; exact hm))
  rw [hget'] at hbears
  exact hbears

/-- Every event is borne once it has been recorded. -/
theorem bears_of_mem {es : List Event} {e : Event} (he : e ∈ es) (l : Ledger) :
    (es.foldl record l).Bears e := by
  have hentry := (isSome_get?_foldl es l e.file e.name).2 (Or.inr ⟨e, he, rfl, rfl⟩)
  obtain ⟨usage, hget⟩ := Option.isSome_iff_exists.1 hentry
  refine ⟨usage, hget, ?_⟩
  have hbears := (bears_foldl es l e.file e.name e.mark).2 (Or.inr he)
  rw [hget] at hbears
  exact hbears

/-- An event that is borne already is recorded without a change. -/
theorem record_of_bears {l : Ledger} {e : Event} (h : l.Bears e) : l.record e = l := by
  obtain ⟨usage, hget, hmark⟩ := h
  obtain ⟨types, hfile, hname⟩ := Option.bind_eq_some_iff.1 hget
  have hentry : types.alter e.name (fun u => e.mark.enter (u.getD {})) = types :=
    Table.alter_of_get? hname (Mark.enter_of_bears hmark)
  have hfiles : l.files.alter e.file (fun types =>
      (types.getD Table.empty).alter e.name fun u => e.mark.enter (u.getD {})) = l.files :=
    Table.alter_of_get? hfile hentry
  exact congrArg Ledger.mk hfiles

theorem foldl_record_of_bears {l : Ledger} {es : List Event} (h : ∀ e ∈ es, l.Bears e) :
    es.foldl record l = l := by
  induction es with
  | nil => rfl
  | cons e es ih =>
    rw [List.foldl_cons, record_of_bears (h e List.mem_cons_self)]
    exact ih fun e' he' => h e' (List.mem_cons_of_mem e he')

end Ledger

/-! ## One inspection -/

namespace Inspection

/-- What an inspection enters while a test runs: the test first, then one category after the other. -/
def events (test : TestId) (types : List TypeInfo) (rs : List Requirement) : List Event :=
  (Mark.test test).on types ++ rs.flatMap (eventsOf types)

variable {test : TestId} {types : List TypeInfo} {rs : List Requirement}

/-- Events other than those of the test enter categories. -/
theorem exists_category_of_mem_eventsOf {e : Event} (he : e ∈ rs.flatMap (eventsOf types)) :
    (∃ t ∈ types, t.fileKey = e.file ∧ t.name = e.name) ∧ ∃ c, e.mark = .category c := by
  obtain ⟨r, _, he⟩ := List.mem_flatMap.1 he
  unfold eventsOf at he
  obtain ⟨c, _, he⟩ := List.mem_flatMap.1 he
  obtain ⟨hmark, htype⟩ := Mark.mem_on.1 he
  exact ⟨htype, c, hmark⟩

/-- **No type is entered without the test.** -/
theorem test_mem_events {e : Event} (he : e ∈ events test types rs) :
    { file := e.file, name := e.name, mark := .test test } ∈ events test types rs := by
  refine List.mem_append_left _ (Mark.mem_on.2 ⟨rfl, ?_⟩)
  rcases List.mem_append.1 he with he | he
  · exact (Mark.mem_on.1 he).2
  · exact (exists_category_of_mem_eventsOf he).1

/-- No other test is entered. -/
theorem eq_of_test_mem_events {file name : String} {test' : TestId}
    (h : { file, name, mark := .test test' } ∈ events test types rs) : test' = test := by
  rcases List.mem_append.1 h with h | h
  · exact Mark.test.inj (Mark.mem_on.1 h).1
  · obtain ⟨_, c, hmark⟩ := exists_category_of_mem_eventsOf h
    cases hmark

end Inspection

namespace Recorder

variable (types : List TypeInfo) (rs : List Requirement)

/-- An inspection enters the test for every type and then applies the requirements. -/
theorem apply_inspect (r : Recorder) :
    r.apply (.inspect types rs)
      = rs.foldl (fun recorder q => Inspection.recordAll q types recorder)
          (types.foldl recordTest r) :=
  Inspection.recorder_requireAll rs (Inspection.start r types)

/-- An inspection while a test runs records its events. -/
theorem apply_inspect_of_test {r : Recorder} {test : TestId} (h : r.context = some test) :
    r.apply (.inspect types rs)
      = { r with ledger := (Inspection.events test types rs).foldl Ledger.record r.ledger } := by
  obtain ⟨l, context⟩ := r
  cases h
  rw [apply_inspect, foldl_recordTest, Inspection.foldl_recordAll]
  unfold Inspection.events
  rw [List.foldl_append]

/-- Without a running test nothing is recorded. -/
theorem apply_inspect_of_none {r : Recorder} (h : r.context = none) :
    r.apply (.inspect types rs) = r := by
  have htest (t : TypeInfo) : r.recordTest t = r := by
    unfold recordTest
    rw [h]
  have hcategory (c : Category) (t : TypeInfo) : r.recordCategory t c = r := by
    unfold recordCategory
    rw [h]
  have hall (q : Requirement) : Inspection.recordAll q types r = r := by
    unfold Inspection.recordAll
    cases q.category? with
    | none => rfl
    | some c => exact List.foldl_fixed' (hcategory c) types
  rw [apply_inspect, List.foldl_fixed' htest, List.foldl_fixed' hall]

/-- An inspection does not change which test is running. -/
theorem context_apply_inspect (r : Recorder) :
    (r.apply (.inspect types rs)).context = r.context := by
  cases h : r.context with
  | none => rw [apply_inspect_of_none types rs h, h]
  | some test => rw [apply_inspect_of_test types rs h, h]

/-- Operations other than `clear` keep what is recorded. -/
theorem keptIn_apply (r : Recorder) {op : Operation} (hop : op ≠ .clear) :
    r.ledger.KeptIn (r.apply op).ledger := by
  cases op with
  | enter test => exact Ledger.KeptIn.refl r.ledger
  | leave => exact Ledger.KeptIn.refl r.ledger
  | clear => exact absurd rfl hop
  | inspect types rs =>
    cases h : r.context with
    | none =>
      rw [apply_inspect_of_none types rs h]
      exact Ledger.KeptIn.refl r.ledger
    | some test =>
      rw [apply_inspect_of_test types rs h]
      exact Ledger.keptIn_foldl _ r.ledger

theorem keptIn_foldl_apply {ops : List Operation} (hops : .clear ∉ ops) (r : Recorder) :
    r.ledger.KeptIn (ops.foldl apply r).ledger := by
  induction ops generalizing r with
  | nil => exact Ledger.KeptIn.refl r.ledger
  | cons op ops ih =>
    have hop : op ≠ .clear := by
      rintro rfl
      exact hops List.mem_cons_self
    have hrest := ih (fun hmem => hops (List.mem_cons_of_mem op hmem)) (r.apply op)
    exact (keptIn_apply r hop).trans hrest

/-- **An inspection that was made is not made again**, as long as nothing was forgotten since and the
same test is running. -/
theorem apply_inspect_again (r : Recorder) {later : List Operation} (hlater : .clear ∉ later)
    (hcontext : (later.foldl apply (r.apply (.inspect types rs))).context = r.context) :
    (later.foldl apply (r.apply (.inspect types rs))).apply (.inspect types rs)
      = later.foldl apply (r.apply (.inspect types rs)) := by
  cases h : r.context with
  | none => exact apply_inspect_of_none types rs (hcontext.trans h)
  | some test =>
    rw [apply_inspect_of_test types rs (hcontext.trans h)]
    have hborne : ∀ e ∈ Inspection.events test types rs,
        (later.foldl apply (r.apply (.inspect types rs))).ledger.Bears e := by
      intro e he
      -- borne by the first inspection, and kept by what came in between
      have hfirst : (r.apply (.inspect types rs)).ledger.Bears e := by
        rw [apply_inspect_of_test types rs h]
        exact Ledger.bears_of_mem he r.ledger
      exact (keptIn_foldl_apply hlater _).bears hfirst
    rw [Ledger.foldl_record_of_bears hborne]

/-! ## The invariant -/

/-- What holds of a recorder behind a history. -/
structure Sound (ops : List Operation) (r : Recorder) : Prop where
  /-- The running test has been entered. -/
  running : ∀ test, r.context = some test → EnteredSinceClear ops test
  /-- An entry bears a test. -/
  tested : ∀ file name usage, r.ledger.get? file name = some usage →
    ∃ test, usage.bears (.test test) = true
  /-- The tests of an entry have been entered. -/
  entered : ∀ file name usage, r.ledger.get? file name = some usage →
    ∀ test, usage.bears (.test test) = true → EnteredSinceClear ops test
  /-- A file has a type. -/
  filled : r.ledger.Filled

/-- Of a recorder that has recorded nothing, whatever came before. -/
theorem sound_empty (ops : List Operation) : Sound ops {} where
  running := nofun
  tested := nofun
  entered := nofun
  filled := nofun

variable {types rs}

/-- An inspection keeps the invariant. -/
theorem Sound.inspect {ops : List Operation} {r : Recorder} (h : Sound ops r) {test : TestId}
    (hcontext : r.context = some test) :
    Sound ops { r with ledger := (Inspection.events test types rs).foldl Ledger.record r.ledger } where
  running := h.running
  filled := Ledger.filled_foldl h.filled _
  tested := by
    intro file name usage hget
    have hbears := Ledger.bears_foldl (Inspection.events test types rs) r.ledger file name
    rw [hget] at hbears
    have hentry := (Ledger.isSome_get?_foldl (Inspection.events test types rs) r.ledger file name).1
      (by rw [hget]; rfl)
    rcases hentry with hold | ⟨e, he, rfl, rfl⟩
    · obtain ⟨usage', hget'⟩ := Option.isSome_iff_exists.1 hold
      obtain ⟨test', htest'⟩ := h.tested file name usage' hget'
      refine ⟨test', (hbears _).2 (Or.inl ?_)⟩
      rw [hget']
      exact htest'
    · -- the entry is due to this inspection, which entered its test for the type as well
      exact ⟨test, (hbears _).2 (Or.inr (Inspection.test_mem_events he))⟩
  entered := by
    intro file name usage hget test' htest'
    have hbears := Ledger.bears_foldl (Inspection.events test types rs) r.ledger file name
      (.test test')
    rw [hget] at hbears
    rcases hbears.1 htest' with hold | hnew
    · cases hget' : r.ledger.get? file name with
      | none =>
        rw [hget', Option.getD_none, Usage.bears_nothing] at hold
        cases hold
      | some usage' =>
        rw [hget', Option.getD_some] at hold
        exact h.entered file name usage' hget' test' hold
    · rw [Inspection.eq_of_test_mem_events hnew]
      exact h.running test hcontext

/-- What was entered is entered later too. -/
theorem Sound.append {ops : List Operation} {r : Recorder} (h : Sound ops r) {op : Operation}
    (hop : op ≠ .clear) : Sound (ops ++ [op]) r where
  running := fun test htest => (h.running test htest).append hop
  tested := h.tested
  entered := fun file name usage hget test htest =>
    (h.entered file name usage hget test htest).append hop
  filled := h.filled

/-- **Every operation keeps the invariant.** -/
theorem Sound.apply {ops : List Operation} {r : Recorder} (h : Sound ops r) (op : Operation) :
    Sound (ops ++ [op]) (r.apply op) := by
  cases op with
  | enter test =>
    have hlater : Sound (ops ++ [.enter test]) r := h.append nofun
    refine { hlater with running := ?_ }
    intro test' htest'
    cases htest'
    exact ⟨ops, [], rfl, List.not_mem_nil⟩
  | leave =>
    have hlater : Sound (ops ++ [.leave]) r := h.append nofun
    exact { hlater with running := nofun }
  | clear => exact sound_empty _
  | inspect types rs =>
    have hlater : Sound (ops ++ [.inspect types rs]) r := h.append nofun
    cases hcontext : r.context with
    | none =>
      rw [apply_inspect_of_none types rs hcontext]
      exact hlater
    | some test =>
      rw [apply_inspect_of_test types rs hcontext]
      exact hlater.inspect hcontext

/-- **The invariant holds behind every history.** -/
theorem sound_after (ops : List Operation) : Sound ops (after ops) := by
  induction ops using List.reverseRecOn with
  | nil => exact sound_empty []
  | append_singleton ops op ih =>
    rw [after_append]
    exact ih.apply op

end Recorder

/-! ## The ledger behind a history -/

namespace Ledger

/-- A table in which something is recorded has an entry. -/
theorem Filled.isEmpty_eq_false {l : Ledger} (h : l.Filled) {file : String}
    {types : Table String Usage} (htypes : l.typesOf? file = some types) : types.isEmpty = false := by
  obtain ⟨name, hname⟩ := h file types htypes
  have hkey : name ∈ types.keys := (Table.mem_keys_iff types name).2 hname
  obtain ⟨e, he, _⟩ := List.mem_map.1 hkey
  unfold Table.isEmpty
  rw [List.isEmpty_eq_false_iff]
  exact List.ne_nil_of_mem he

/-- A ledger without empty tables records a type as soon as it records a file. -/
theorem Filled.isEmpty_iff {l : Ledger} (h : l.Filled) : l.isEmpty = true ↔ l.size = 0 := by
  unfold isEmpty size Table.isEmpty
  constructor
  · intro hempty
    rw [List.isEmpty_iff.1 hempty]
    rfl
  · intro hsize
    cases hentries : l.files.entries with
    | nil => rfl
    | cons e rest =>
      have hget : l.typesOf? e.1 = some e.2 := by
        refine Table.lookup_of_mem l.files.sorted ?_
        rw [hentries]
        exact List.mem_cons_self
      have hnonempty := h.isEmpty_eq_false hget
      rw [hentries, List.foldr_cons] at hsize
      -- the first file alone has a type
      have hnone : e.2.entries.length = 0 := Nat.eq_zero_of_add_eq_zero_right hsize
      unfold Table.isEmpty at hnonempty
      rw [List.length_eq_zero_iff.1 hnone] at hnonempty
      cases hnonempty

end Ledger

/-- **The ledger behind a history.** Whatever was done to a new recorder: an entry has a test, and its
tests were running at some time since everything was last forgotten; no file has an empty table, so a
ledger is empty exactly if it records no type. Whatever is done next: an inspection without a running test
leaves the ledger as it is; every operation but `clear` keeps the categories and tests of all entries; and
an inspection that is repeated while the same test is running, at once or after operations other than
`clear`, changes nothing. -/
theorem Recorder.ledger_after (ops : List Operation) :
    (∀ file name usage, (after ops).ledger.get? file name = some usage →
      (∃ test, usage.tests.contains test = true)
      ∧ ∀ test, usage.tests.contains test = true → EnteredSinceClear ops test)
    ∧ (∀ file types, (after ops).ledger.typesOf? file = some types → types.isEmpty = false)
    ∧ ((after ops).ledger.isEmpty = true ↔ (after ops).ledger.size = 0)
    ∧ (∀ types rs, (after ops).context = none →
      (after (ops ++ [.inspect types rs])).ledger = (after ops).ledger)
    ∧ (∀ op, op ≠ .clear → (after ops).ledger.KeptIn (after (ops ++ [op])).ledger)
    ∧ ∀ types rs,
      after (ops ++ [.inspect types rs, .inspect types rs]) = after (ops ++ [.inspect types rs])
      ∧ ∀ later, .clear ∉ later →
        (after (ops ++ .inspect types rs :: later)).context = (after ops).context →
        after (ops ++ .inspect types rs :: later ++ [.inspect types rs])
          = after (ops ++ .inspect types rs :: later) := by
  have hsound := sound_after ops
  refine ⟨?_, ?_, hsound.filled.isEmpty_iff, ?_, ?_, ?_⟩
  · intro file name usage hget
    exact ⟨hsound.tested file name usage hget, hsound.entered file name usage hget⟩
  · intro file types htypes
    exact hsound.filled.isEmpty_eq_false htypes
  · intro types rs hcontext
    rw [after_append]
    exact congrArg ledger (apply_inspect_of_none types rs hcontext)
  · intro op hop
    rw [after_append]
    exact keptIn_apply (after ops) hop
  · intro types rs
    constructor
    · rw [after_append, after_append]
      exact apply_inspect_again types rs (after ops) List.not_mem_nil
        (context_apply_inspect types rs (after ops))
    · intro later hlater hcontext
      rw [after_append] at hcontext
      rw [after_append, after_append]
      exact apply_inspect_again types rs (after ops) hlater hcontext

/-- A class is inspected in a test, once more in another one, and after the ledger was cleared. -/
def mailerHistory : List Operation :=
  let mailer : TypeInfo := { name := "App\\Mailer", kind := .cls, file := some "Mailer.php" }
  [.enter { suite := "Arch", test := "naming" }, .inspect [mailer] [.endsWith "er"], .leave, .clear,
    .enter { suite := "Arch", test := "finality" }, .inspect [mailer, mailer] [.isFinal]]

/-- Only the test behind the clearing is left, and the entry outlasts the end of the test. -/
theorem Recorder.ledger_after_mailerHistory :
    (∃ usage, (after mailerHistory).ledger.get? "Mailer.php" "App\\Mailer" = some usage
      ∧ ∀ test, usage.tests.contains test = true → EnteredSinceClear mailerHistory test)
    ∧ ∃ usage, (after (mailerHistory ++ [.leave])).ledger.get? "Mailer.php" "App\\Mailer" = some usage
      ∧ usage.has .modifier = true := by
  obtain ⟨hentries, _, _, _, hkept, _⟩ := ledger_after mailerHistory
  have hget : (after mailerHistory).ledger.get? "Mailer.php" "App\\Mailer"
      = some (({} : Usage).addTest { suite := "Arch", test := "finality" } |>.addCategory .modifier) := by
    decide
  refine ⟨⟨_, hget, (hentries _ _ _ hget).2⟩, ?_⟩
  obtain ⟨usage, hlater, hmarks⟩ := hkept .leave nofun _ _ _ hget
  exact ⟨usage, hlater, hmarks (.category .modifier) (by decide)⟩

end Conformance
