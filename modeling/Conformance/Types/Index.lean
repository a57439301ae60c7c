import Conformance.Order.Table
import Conformance.Types.Registry

/-!
# `Types.Index`: types found by the keys of their names

An index lists types in the order in which they were found, and keeps for the key of every name the
place of the type that has it. Looking a name up takes no search through the types. The places agree
with the list, which is part of the type: a place that is looked up is always one of the list, and
no two types of the list share a key. So the types of an index make a registry.
-/

namespace Conformance

/-- Types in the order in which they were found, with the place of each by the key of its name. -/
structure Index where
  types : Array TypeInfo := #[]
  places : Table String Nat := Table.empty
  places_iff : ∀ (key : String) (place : Nat), places.get? key = some place
    ↔ ∃ t, types[place]? = some t ∧ TypeName.key t.name = key := by simp

namespace Index

instance : Inhabited Index := ⟨{}⟩

/-- Whether a type has this name. -/
def contains (x : Index) (name : String) : Bool :=
  x.places.contains (TypeName.key name)

/-- A place that is kept for a key is a place of the list. -/
theorem lt_size {x : Index} {key : String} {place : Nat} (h : x.places.get? key = some place) :
    place < x.types.size := by
  obtain ⟨t, ht, _⟩ := (x.places_iff key place).1 h
  exact (Array.getElem?_eq_some_iff.1 ht).1

/-- The type that has this name. -/
def get? (x : Index) (name : String) : Option TypeInfo :=
  match h : x.places.get? (TypeName.key name) with
  | some place =>
    have := lt_size h
    some x.types[place]
  | none => none

/-- A type whose name is new can go behind the others, and its place is their number. -/
theorem places_iff_push {x : Index} {t : TypeInfo} (h : x.contains t.name = false) (key : String)
    (place : Nat) : (x.places.insert (TypeName.key t.name) x.types.size).get? key = some place
      ↔ ∃ u, (x.types.push t)[place]? = some u ∧ TypeName.key u.name = key := by
  have hnew : x.places.get? (TypeName.key t.name) = none := by
    simpa only [contains, Table.contains, Option.isSome_eq_false_iff, Option.isNone_iff_eq_none]
      using h
  unfold Table.insert
  rw [Table.get?_alter, Array.getElem?_push]
  by_cases hkey : key = TypeName.key t.name
  · subst hkey
    rw [if_pos rfl, Option.some_inj]
    by_cases hplace : place = x.types.size
    · rw [if_pos hplace]
      exact ⟨fun _ => ⟨t, rfl, rfl⟩, fun _ => hplace.symm⟩
    · -- the key was not taken, so no earlier type has it
      rw [if_neg hplace, ← x.places_iff, hnew]
      exact ⟨fun heq => absurd heq.symm hplace, nofun⟩
  · rw [if_neg hkey, x.places_iff]
    by_cases hplace : place = x.types.size
    · rw [if_pos hplace, hplace, Array.getElem?_eq_none (Nat.le_refl _)]
      constructor
      · rintro ⟨_, hnone, _⟩
        cases hnone
      · rintro ⟨u, hu, hut⟩
        rw [← Option.some_inj.1 hu] at hut
        exact absurd hut.symm hkey
    · rw [if_neg hplace]

/-- Puts a type behind the others unless its name is taken, and says whether it did. -/
def insert (x : Index) (t : TypeInfo) : Bool × Index :=
  if h : x.contains t.name then (false, x)
  else
    (true, {
      types := x.types.push t
      places := x.places.insert (TypeName.key t.name) x.types.size
      places_iff := places_iff_push (by simpa using h) })

/-- The index of some types in the order in which they were found. -/
def ofList (ts : List TypeInfo) : Index :=
  ts.foldl (fun x t => (x.insert t).2) {}

/-- No two places of the list have one key. -/
theorem distinct (x : Index) :
    x.types.toList.Pairwise (fun a b => TypeName.same a.name b.name = false) := by
  rw [List.pairwise_iff_getElem]
  intro i j hi hj hlt
  rw [Bool.eq_false_iff, Ne, TypeName.same_iff]
  intro hkeys
  -- the key leads to both places
  have hplace (k : Nat) (hk : k < x.types.toList.length)
      (heq : TypeName.key x.types.toList[k].name = TypeName.key x.types.toList[j].name) :
      x.places.get? (TypeName.key x.types.toList[j].name) = some k :=
    (x.places_iff _ k).2 ⟨x.types.toList[k],
      by rw [← Array.getElem?_toList]; exact List.getElem?_eq_getElem hk, heq⟩
  have hboth := (hplace i hi hkeys).symm.trans (hplace j hj rfl)
  exact absurd (Option.some_inj.1 hboth) (Nat.ne_of_lt hlt)

/-- The types as a registry. -/
def registry (x : Index) : Registry where
  types := x.types.toList
  distinct := x.distinct

end Index
end Conformance
