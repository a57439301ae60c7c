import Conformance.Proofs.Order.KeySet
import Conformance.Usage.Ledger

/-!
# `Proofs.Usage.Recording`: a ledger as the record of events

What is entered into a ledger is a sequence of events, each a mark on a type of a file. A ledger that
has recorded some events holds an entry for the types they are about, and the entry bears the marks
of the events about it and no others: neither their order nor their number matters.
-/

namespace Conformance

/-! ## Marks -/

/-- What is entered for a type. -/
inductive Mark where
  | test (t : TestId)
  | category (c : Category)
  deriving DecidableEq

/-- Enters a mark. -/
def Mark.enter : Mark → Usage → Usage
  | test t, u => u.addTest t
  | category c, u => u.addCategory c

/-- Whether a mark was entered. -/
def Usage.bears (u : Usage) : Mark → Bool
  | .test t => u.tests.contains t
  | .category c => u.categories.contains c

theorem Usage.bears_enter (u : Usage) (m m' : Mark) :
    (m.enter u).bears m' = true ↔ m' = m ∨ u.bears m' = true := by
  cases m with
  | test t =>
    cases m' with
    | test t' =>
      rw [Mark.test.injEq]
      exact KeySet.contains_add u.tests t t'
    | category c' => exact ⟨Or.inr, fun h => h.resolve_left nofun⟩
  | category c =>
    cases m' with
    | test t' => exact ⟨Or.inr, fun h => h.resolve_left nofun⟩
    | category c' =>
      rw [Mark.category.injEq]
      exact KeySet.contains_add u.categories c c'

theorem Usage.bears_nothing (m : Mark) : ({} : Usage).bears m = false := by
  cases m <;> rfl

/-! ## Events -/

/-- A mark on a type of a file. -/
structure Event where
  file : String
  name : String
  mark : Mark
  deriving DecidableEq

namespace Ledger

/-- Records one event. -/
def record (l : Ledger) (e : Event) : Ledger := l.modify e.file e.name e.mark.enter

theorem get?_modify (l : Ledger) (file name : String) (f : Usage → Usage) (file' name' : String) :
    (l.modify file name f).get? file' name'
      = if file' = file ∧ name' = name then some (f ((l.get? file name).getD {}))
        else l.get? file' name' := by
  unfold get? modify
  dsimp only
  rw [Table.get?_alter]
  by_cases hfile : file' = file
  · subst hfile
    rw [if_pos rfl, Option.bind_some, Table.get?_alter]
    cases hf : l.files.get? file' with
    | none => by_cases hname : name' = name <;> simp [hname]
    | some types => by_cases hname : name' = name <;> simp [hname]
  · simp [hfile]

theorem isSome_get?_record (l : Ledger) (e : Event) (file name : String) :
    ((l.record e).get? file name).isSome = true
      ↔ (l.get? file name).isSome = true ∨ (e.file = file ∧ e.name = name) := by
  unfold record
  rw [get?_modify]
  by_cases h : file = e.file ∧ name = e.name
  · rw [if_pos h]
    exact ⟨fun _ => Or.inr ⟨h.1.symm, h.2.symm⟩, fun _ => rfl⟩
  · rw [if_neg h]
    exact ⟨Or.inl, fun hor => hor.resolve_right fun he => h ⟨he.1.symm, he.2.symm⟩⟩

theorem bears_record (l : Ledger) (e : Event) (file name : String) (m : Mark) :
    (((l.record e).get? file name).getD {}).bears m = true
      ↔ ((l.get? file name).getD {}).bears m = true ∨ { file, name, mark := m } = e := by
  unfold record
  rw [get?_modify]
  by_cases h : file = e.file ∧ name = e.name
  · obtain ⟨rfl, rfl⟩ := h
    rw [if_pos ⟨rfl, rfl⟩, Option.getD_some, Usage.bears_enter, or_comm]
    constructor
    · exact fun hor => hor.imp id fun hm => by rw [hm]
    · exact fun hor => hor.imp id fun he => congrArg Event.mark he
  · rw [if_neg h]
    refine ⟨Or.inl, fun hor => hor.resolve_right ?_⟩
    rintro rfl
    exact h ⟨rfl, rfl⟩

/-- **An entry exists exactly for the types that the events are about.** -/
theorem isSome_get?_foldl (es : List Event) (l : Ledger) (file name : String) :
    ((es.foldl record l).get? file name).isSome = true
      ↔ (l.get? file name).isSome = true ∨ ∃ e ∈ es, e.file = file ∧ e.name = name := by
  induction es generalizing l with
  | nil => simp
  | cons e es ih =>
    have hcons : (∃ e' ∈ e :: es, e'.file = file ∧ e'.name = name)
        ↔ (e.file = file ∧ e.name = name) ∨ ∃ e' ∈ es, e'.file = file ∧ e'.name = name := by
      simp
    rw [List.foldl_cons, ih, isSome_get?_record, or_assoc, hcons]

/-- **The usage of a type bears exactly the marks of the events about it.** -/
theorem bears_foldl (es : List Event) (l : Ledger) (file name : String) (m : Mark) :
    (((es.foldl record l).get? file name).getD {}).bears m = true
      ↔ ((l.get? file name).getD {}).bears m = true ∨ { file, name, mark := m } ∈ es := by
  induction es generalizing l with
  | nil => simp
  | cons e es ih => rw [List.foldl_cons, ih, bears_record, or_assoc, List.mem_cons]

/-! ## Files -/

/-- Every file of a ledger has a type for which something is recorded. -/
def Filled (l : Ledger) : Prop :=
  ∀ file types, l.files.get? file = some types → ∃ name, types.contains name = true

theorem filled_record {l : Ledger} (h : l.Filled) (e : Event) : (l.record e).Filled := by
  intro file types htypes
  have hentry : (l.record e).files.get? file = if file = e.file
      then some (((l.files.get? e.file).getD Table.empty).alter e.name
        fun usage => e.mark.enter (usage.getD {}))
      else l.files.get? file :=
    Table.get?_alter l.files e.file _ file
  rw [hentry] at htypes
  split at htypes
  · cases htypes
    -- the type of the event is one
    refine ⟨e.name, ?_⟩
    unfold Table.contains
    rw [Table.get?_alter, if_pos rfl]
    rfl
  · exact h file types htypes

theorem filled_foldl {l : Ledger} (h : l.Filled) (es : List Event) : (es.foldl record l).Filled := by
  induction es generalizing l with
  | nil => exact h
  | cons e es ih => exact ih (filled_record h e)

/-- **A ledger that started out empty lists the files that the events are about.** -/
theorem mem_keys_foldl (es : List Event) (file : String) :
    file ∈ (es.foldl record {}).files.keys ↔ ∃ e ∈ es, e.file = file := by
  have hempty : ({} : Ledger).Filled := nofun
  have hentry (name : String) := isSome_get?_foldl es {} file name
  rw [Table.mem_keys_iff]
  constructor
  · intro hfile
    obtain ⟨types, htypes⟩ := Option.isSome_iff_exists.1 hfile
    obtain ⟨name, hname⟩ := filled_foldl hempty es file types htypes
    have hget : ((es.foldl record {}).get? file name).isSome = true := by
      unfold get?
      rw [htypes]
      exact hname
    obtain ⟨e, he, hat, _⟩ := ((hentry name).1 hget).resolve_left nofun
    exact ⟨e, he, hat⟩
  · rintro ⟨e, he, rfl⟩
    have hget := (hentry e.name).2 (Or.inr ⟨e, he, rfl, rfl⟩)
    unfold get? at hget
    obtain ⟨usage, husage⟩ := Option.isSome_iff_exists.1 hget
    obtain ⟨types, htypes, _⟩ := Option.bind_eq_some_iff.1 husage
    exact Option.isSome_iff_exists.2 ⟨types, htypes⟩

end Ledger
end Conformance
