import Conformance.Order.Table
import Conformance.Types.Info

/-!
# `Usage.Ledger`: which rules looked at which types

A `Ledger` keeps, for each source file and each type name in it, the categories of the checks that
were applied to the type and the tests that selected it. Types without a file stand under the
empty file key. A `Recorder` adds the test that is running: while there is none, nothing is
recorded.
-/

namespace Conformance

/-! ## Categories and tests -/

/-- The categories of checks that coverage distinguishes. -/
inductive Category where
  | namePrefix
  | nameSuffix
  | namePattern
  | implement
  | extend
  | modifier
  deriving DecidableEq, Repr, Inhabited

namespace Category

/-- Every category, in order. -/
def all : List Category := [namePrefix, nameSuffix, namePattern, implement, extend, modifier]

/-- The place of a category among all. -/
def rank : Category → Nat
  | namePrefix => 0
  | nameSuffix => 1
  | namePattern => 2
  | implement => 3
  | extend => 4
  | modifier => 5

/-- The word for a category in reports. -/
def word : Category → String
  | namePrefix => "name_prefix"
  | nameSuffix => "name_suffix"
  | namePattern => "name_pattern"
  | implement => "implement"
  | extend => "extend"
  | modifier => "modifier"

/-- The category with this word. -/
def ofWord? (word : String) : Option Category :=
  all.find? (fun c => c.word == word)

instance : LT Category := ⟨fun a b => a.rank < b.rank⟩
instance : DecidableLT Category := fun a b => inferInstanceAs (Decidable (a.rank < b.rank))

theorem rank_injective {a b : Category} (h : a.rank = b.rank) : a = b := by
  cases a <;> cases b <;> first | rfl | simp [rank] at h

instance : Trans (· < · : Category → Category → Prop) (· < ·) (· < ·) :=
  ⟨fun h₁ h₂ => Nat.lt_trans h₁ h₂⟩
instance : Std.Irrefl (· < · : Category → Category → Prop) := ⟨fun a => Nat.lt_irrefl a.rank⟩
instance : Std.Trichotomous (· < · : Category → Category → Prop) :=
  ⟨fun _ _ h₁ h₂ => rank_injective (Nat.le_antisymm (Nat.not_lt.1 h₂) (Nat.not_lt.1 h₁))⟩

end Category

/-- Names the test that a rule runs as. -/
structure TestId where
  suite : String
  test : String
  deriving DecidableEq, Repr, Inhabited

namespace TestId

/-- How a test is named in reports. -/
def label (t : TestId) : String := t.suite ++ "::" ++ t.test

/-- Tests are ordered by suite, those of one suite by their own name. -/
instance : LT TestId := ⟨fun a b => a.suite < b.suite ∨ (a.suite = b.suite ∧ a.test < b.test)⟩
instance : DecidableLT TestId := fun a b =>
  inferInstanceAs (Decidable (a.suite < b.suite ∨ (a.suite = b.suite ∧ a.test < b.test)))

instance : Trans (· < · : TestId → TestId → Prop) (· < ·) (· < ·) where
  trans {a b c} h₁ h₂ := by
    rcases h₁ with h₁ | ⟨e₁, h₁⟩ <;> rcases h₂ with h₂ | ⟨e₂, h₂⟩
    · exact Or.inl (String.lt_trans h₁ h₂)
    · exact Or.inl (e₂ ▸ h₁)
    · exact Or.inl (e₁ ▸ h₂)
    · exact Or.inr ⟨e₁.trans e₂, String.lt_trans h₁ h₂⟩

instance : Std.Irrefl (· < · : TestId → TestId → Prop) where
  irrefl a h := by
    rcases h with h | ⟨_, h⟩ <;> exact String.lt_irrefl _ h

instance : Std.Trichotomous (· < · : TestId → TestId → Prop) where
  trichotomous a b h₁ h₂ := by
    have hs : a.suite = b.suite :=
      Std.Trichotomous.trichotomous (r := (· < · : String → String → Prop)) _ _
        (fun h => h₁ (Or.inl h)) (fun h => h₂ (Or.inl h))
    have ht : a.test = b.test :=
      Std.Trichotomous.trichotomous (r := (· < · : String → String → Prop)) _ _
        (fun h => h₁ (Or.inr ⟨hs, h⟩)) (fun h => h₂ (Or.inr ⟨hs.symm, h⟩))
    cases a; cases b; simp_all

end TestId

/-! ## Usage of one type -/

/-- What was checked about one type, and by which tests. -/
structure Usage where
  categories : KeySet Category := Table.empty
  tests : KeySet TestId := Table.empty
  deriving DecidableEq, Inhabited

namespace Usage

/-- Whether checks of this category were applied. -/
def has (u : Usage) (c : Category) : Bool := u.categories.contains c

/-- Whether checks of one of these categories were applied. -/
def hasAny (u : Usage) (cs : List Category) : Bool := cs.any u.has

/-- Whether checks of any category were applied. -/
def hasCategories (u : Usage) : Bool := !u.categories.isEmpty

/-- Whether nothing is recorded. -/
def isEmpty (u : Usage) : Bool := u.categories.isEmpty && u.tests.isEmpty

/-- What either of two usages holds. -/
def merge (u v : Usage) : Usage where
  categories := u.categories.union v.categories
  tests := u.tests.union v.tests

/-- The same usage with one more test. -/
def addTest (u : Usage) (t : TestId) : Usage := { u with tests := u.tests.add t }

/-- The same usage with one more category. -/
def addCategory (u : Usage) (c : Category) : Usage :=
  { u with categories := u.categories.add c }

end Usage

/-! ## The ledger -/

/-- For each file and each type name in it, the usage of the type. -/
structure Ledger where
  files : Table String (Table String Usage) := Table.empty
  deriving DecidableEq, Inhabited

namespace Ledger

/-- The usage recorded for a type of a file. -/
def get? (l : Ledger) (file name : String) : Option Usage :=
  (l.files.get? file).bind (·.get? name)

/-- Changes the usage of a type of a file, which starts out empty. -/
def modify (l : Ledger) (file name : String) (f : Usage → Usage) : Ledger where
  files := l.files.alter file fun types =>
    (types.getD Table.empty).alter name fun usage => f (usage.getD {})

/-- The usage of a type of a file, together with what is recorded for its name without a file. -/
def usageOf (l : Ledger) (file name : String) : Usage :=
  let usage := (l.get? file name).getD {}
  if file.isEmpty then usage
  else
    match l.get? "" name with
    | some detached => usage.merge detached
    | none => usage

/-- What is recorded for the types of a file. -/
def typesOf? (l : Ledger) (file : String) : Option (Table String Usage) :=
  l.files.get? file

/-- Whether no file is recorded. -/
def isEmpty (l : Ledger) : Bool := l.files.isEmpty

/-- The number of recorded types over all files. -/
def size (l : Ledger) : Nat := l.files.entries.foldr (fun e n => e.2.size + n) 0

end Ledger

/-! ## Recording -/

/-- A ledger and the test that is running, if one is. -/
structure Recorder where
  ledger : Ledger := {}
  context : Option TestId := none
  deriving DecidableEq, Inhabited

namespace Recorder

/-- Names the test that runs from now on. -/
def enter (r : Recorder) (t : TestId) : Recorder := { r with context := some t }

/-- From now on no test runs. -/
def leave (r : Recorder) : Recorder := { r with context := none }

/-- Forgets everything that was recorded, and the running test. -/
def clear (_ : Recorder) : Recorder := {}

/-- Records that the running test selected a type. -/
def recordTest (r : Recorder) (t : TypeInfo) : Recorder :=
  match r.context with
  | none => r
  | some test => { r with ledger := r.ledger.modify t.fileKey t.name (·.addTest test) }

/-- Records that the running test applied a check of a category to a type. -/
def recordCategory (r : Recorder) (t : TypeInfo) (c : Category) : Recorder :=
  match r.context with
  | none => r
  | some _ => { r with ledger := r.ledger.modify t.fileKey t.name (·.addCategory c) }

end Recorder
end Conformance
