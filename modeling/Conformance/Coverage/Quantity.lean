/-!
# `Coverage.Quantity`: the numbers that coverage is measured in

Percentages are quotients of counts and means of such quotients. They are computed in floating
point, and the same definitions make sense in exact arithmetic. What they need of their numbers is
counted here, together with the mean.
-/

namespace Conformance

/-- Numbers that can be added, multiplied and divided, and that counts can be turned into. -/
class Quantity (K : Type) extends Add K, Mul K, Div K where
  ofCount : Nat → K

instance : Quantity Float where
  ofCount := Float.ofNat

instance : Quantity Rat where
  ofCount n := (n : Rat)

namespace Quantity

variable {K : Type} [Quantity K]

/-- Adds numbers up, from the first to the last. -/
def sum (xs : List K) : K := xs.foldl (· + ·) (ofCount 0)

/-- The mean of some numbers, zero for none. -/
def mean (xs : List K) : K :=
  if xs.isEmpty then ofCount 0 else sum xs / ofCount xs.length

/-- How many percent of the whole a part is, zero if there is no whole. -/
def percentage (part whole : Nat) : K :=
  if whole = 0 then ofCount 0 else ofCount 100 * ofCount part / ofCount whole

end Quantity
end Conformance
