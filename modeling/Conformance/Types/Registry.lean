import Conformance.Types.Info

/-!
# `Types.Registry`: the types that rules can speak about

A registry lists types in the order in which they were found. No two of its types have names that
denote the same type: of two such types the one found first stays. That is part of the type, so
every look-up has at most one answer.
-/

namespace Conformance

/-- Types in the order in which they were found, each name once. -/
structure Registry where
  types : List TypeInfo := []
  distinct : types.Pairwise (fun a b => TypeName.same a.name b.name = false) := by simp
  deriving DecidableEq, Repr

namespace Registry

instance : Inhabited Registry := ⟨{}⟩

/-- Whether a type has this name. -/
def contains (r : Registry) (name : String) : Bool :=
  r.types.any (fun t => TypeName.same t.name name)

/-- The type that has this name. -/
def get? (r : Registry) (name : String) : Option TypeInfo :=
  r.types.find? (fun t => TypeName.same t.name name)

/-- A type whose name is new can go behind the others. -/
theorem distinct_append {r : Registry} {t : TypeInfo} (h : r.contains t.name = false) :
    (r.types ++ [t]).Pairwise (fun a b => TypeName.same a.name b.name = false) := by
  refine List.pairwise_append.2 ⟨r.distinct, List.pairwise_singleton _ _, ?_⟩
  intro a ha b hb
  rw [List.mem_singleton.1 hb]
  simp only [contains, List.any_eq_false, Bool.not_eq_true] at h
  exact h a ha

/-- Puts a type behind the others unless its name is taken, and says whether it did. -/
def insert (r : Registry) (t : TypeInfo) : Bool × Registry :=
  if h : r.contains t.name then (false, r)
  else (true, { types := r.types ++ [t], distinct := distinct_append (by simpa using h) })

/-- Puts several types into a registry, one after the other. -/
def insertAll (r : Registry) (ts : List TypeInfo) : Registry :=
  ts.foldl (fun r t => (r.insert t).2) r

/-- The registry of some types in the order in which they were found. -/
def ofList (ts : List TypeInfo) : Registry := insertAll {} ts

/-- The type that `t` names as its parent, if it is known. -/
def parentOf? (r : Registry) (t : TypeInfo) : Option TypeInfo :=
  t.parent.bind r.get?

/-- The types that do not come from the running environment. -/
def userTypes (r : Registry) : List TypeInfo :=
  r.types.filter (fun t => !t.isInternal)

/-- The number of types. -/
def size (r : Registry) : Nat := r.types.length

/-- Whether there are no types. -/
def isEmpty (r : Registry) : Bool := r.types.isEmpty

end Registry
end Conformance
