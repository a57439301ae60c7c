/-!
# `Decimal.Binary`: the exact value of a floating-point number

A double is taken apart into what it denotes: not a number, an infinity, or a sign with an exact
dyadic magnitude. All printing starts from here, in exact arithmetic on natural numbers.
-/

namespace Conformance
namespace Decimal

/-- The magnitude `mantissa * 2 ^ (exponent - 1075)` of a double, with the bits it is stored as. -/
structure Dyadic where
  mantissa : Nat
  /-- The biased exponent, at least 1. -/
  exponent : Nat
  deriving DecidableEq, Repr, Inhabited

/-- What a double denotes. -/
inductive Reading where
  | nan
  | infinite (negative : Bool)
  | finite (negative : Bool) (magnitude : Dyadic)
  deriving DecidableEq, Repr, Inhabited

/-- Takes a double apart. -/
def Reading.ofFloat (x : Float) : Reading :=
  let bits := x.toBits.toNat
  let negative := bits / Nat.pow 2 63 == 1
  let exponent := bits / Nat.pow 2 52 % Nat.pow 2 11
  let fraction := bits % Nat.pow 2 52
  if exponent == 2047 then (if fraction == 0 then .infinite negative else .nan)
  else if exponent == 0 then .finite negative { mantissa := fraction, exponent := 1 }
  else .finite negative { mantissa := fraction + Nat.pow 2 52, exponent }

namespace Dyadic

/-- The numerator of the magnitude as a fraction. -/
def num (d : Dyadic) : Nat := d.mantissa * Nat.pow 2 (d.exponent - 1075)

/-- The denominator of the magnitude as a fraction, a power of two. -/
def den (d : Dyadic) : Nat := Nat.pow 2 (1075 - d.exponent)

/-- Whether the magnitude is zero. -/
def isZero (d : Dyadic) : Bool := d.mantissa == 0

/-- The distance to the lower neighbour is half of the usual one at the lowest mantissa. -/
def hasCloseLower (d : Dyadic) : Bool := d.mantissa == Nat.pow 2 52 && 1 < d.exponent

end Dyadic
end Decimal
end Conformance
