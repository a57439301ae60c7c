import Conformance.Usage.Ledger

/-!
# `Coverage.Aspect`: what there is to check about a type

An aspect of a type is worth a number of points, and the checks recorded for the type earn some of
them. The program scores three aspects: that types have names, that some of them are final, and
that some of them have supertypes. Others can be added; the points of all aspects are summed up.
-/

namespace Conformance

/-- One aspect of types that checks can cover. -/
structure Aspect where
  name : String
  /-- The categories of checks that can earn points. -/
  relevant : List Category
  /-- How many points the aspect of a type is worth. -/
  worth : TypeInfo → Nat
  /-- How many points the usage of a type earns. -/
  earned : TypeInfo → Usage → Nat

namespace Aspect

/-- The categories of checks that look at names. -/
def nameCategories : List Category := [.namePrefix, .nameSuffix, .namePattern]

/-- The categories of checks that look at supertypes. -/
def supertypeCategories : List Category := [.implement, .extend]

/-- Every type has a name that can be checked. -/
def identity : Aspect where
  name := "identity"
  relevant := nameCategories
  worth _ := 1
  earned _ usage := (usage.hasAny nameCategories).toNat

/-- A final type is covered as soon as any check has looked at it. -/
def finality : Aspect where
  name := "finality"
  relevant := Category.all
  worth t := t.isFinal.toNat
  earned t usage := (t.isFinal && usage.hasCategories).toNat

/-- The supertypes of a type, if it has any, can be checked. -/
def relationship : Aspect where
  name := "relationship"
  relevant := supertypeCategories
  worth t := t.hasSupertypes.toNat
  earned t usage := (t.hasSupertypes && usage.hasAny supertypeCategories).toNat

/-- An aspect of constant points, which no check changes. -/
def fixed (worth earned : Nat) : Aspect where
  name := "fixed"
  relevant := []
  worth _ := worth
  earned _ _ := earned

/-- The aspects that the program scores. -/
def standard : List Aspect := [identity, finality, relationship]

end Aspect
end Conformance
