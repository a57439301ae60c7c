import Conformance.Decimal.Binary

/-!
# `Decimal.Shortest`: the fewest digits that read back

The decimals that read back as a given double form an interval around its exact value. Among all
decimals in it, the one with the fewest digits is wanted, and of two with equally many the one
nearer to the exact value. For each number of digits only two decimals can qualify: the neighbours
of the value on the grid with that many digits. Where both are equally near, the writer of the
number settles which one is taken.
-/

namespace Conformance
namespace Decimal

/-- The decimal `digits * 10 ^ exponent`. -/
structure Digits where
  digits : Nat
  exponent : Int
  deriving DecidableEq, Repr, Inhabited

/-- Which of two equally near decimals is taken. -/
inductive Tie where
  /-- The larger one. -/
  | up
  /-- The one whose last digit is even. -/
  | even
  deriving DecidableEq, Repr, Inhabited

/-- Whether the larger of the two neighbours `q` and `q + 1` is taken in a tie. -/
def Tie.takesLarger : Tie → Nat → Bool
  | up, _ => true
  | even, q => q % 2 == 1

/-- How many decimal digits a number has; zero has one. -/
def digitCount (n : Nat) : Nat := (Nat.toDigits 10 n).length

/-- For `num / den < 1`: how many places the point has to move for the first digit to stand
before it. -/
def leadingZeros (num den : Nat) : Nat → Nat
  | 0 => 0
  | fuel + 1 => if den ≤ num then 0 else leadingZeros (num * 10) den fuel + 1

/-- The power of ten of the first digit of `num / den`, for a value that is not zero. -/
def leadingPower (num den : Nat) : Int :=
  if den ≤ num then (digitCount (num / den) : Int) - 1
  else - (leadingZeros num den 400 : Int)

/-- The numerator of `num / den` scaled by `10 ^ (-power)`. -/
def scaleNum (num : Nat) (power : Int) : Nat := num * Nat.pow 10 (-power).toNat

/-- The denominator of `num / den` scaled by `10 ^ (-power)`. -/
def scaleDen (den : Nat) (power : Int) : Nat := den * Nat.pow 10 power.toNat

/-- Whether `q * 10 ^ power` reads back as the double of magnitude `d`: it lies in the interval
around the exact value, and on its ends only if the mantissa is even. -/
def readsBack (d : Dyadic) (power : Int) (q : Nat) : Bool :=
  -- all in units of a quarter of the last place of the mantissa
  let unit := Nat.pow 2 (d.exponent - 1075)
  let low := (4 * d.mantissa - (if d.hasCloseLower then 1 else 2)) * unit
  let high := (4 * d.mantissa + 2) * unit
  let value := 4 * q * Nat.pow 10 power.toNat * d.den
  let low := low * Nat.pow 10 (-power).toNat
  let high := high * Nat.pow 10 (-power).toNat
  if d.mantissa % 2 == 0 then low ≤ value && value ≤ high else low < value && value < high

/-- Whether `q + 1` is taken rather than `q`, when the value is `q + r / den`. -/
def roundsUp (tie : Tie) (q r den : Nat) : Bool :=
  den < 2 * r || (2 * r == den && tie.takesLarger q)

/-- The neighbour of `d` on the grid of `10 ^ power` that reads back, the nearer one if both do. -/
def onGrid? (tie : Tie) (d : Dyadic) (power : Int) : Option Nat :=
  let num := scaleNum d.num power
  let den := scaleDen d.den power
  let q := num / den
  let r := num % den
  match readsBack d power q, readsBack d power (q + 1) with
  | true, true => some (if roundsUp tie q r den then q + 1 else q)
  | true, false => some q
  | false, true => some (q + 1)
  | false, false => none

/-- Removes zeros at the end of the digits. -/
def Digits.trimmed (fuel : Nat) (d : Digits) : Digits :=
  match fuel with
  | 0 => d
  | fuel + 1 =>
    if d.digits % 10 == 0 && d.digits != 0 then
      Digits.trimmed fuel { digits := d.digits / 10, exponent := d.exponent + 1 }
    else d

/-- The shortest decimal of a magnitude that is not zero. -/
def shortest (tie : Tie) (d : Dyadic) : Digits :=
  let lead := leadingPower d.num d.den
  let found := (List.range 17).findSome? fun (n : Nat) =>
    let power := lead - (n : Int)
    (onGrid? tie d power).map fun q => { digits := q, exponent := power : Digits }
  (found.getD { digits := 0, exponent := 0 }).trimmed 20

end Decimal
end Conformance
