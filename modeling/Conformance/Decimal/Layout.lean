import Conformance.Decimal.Shortest

/-!
# `Decimal.Layout`: the text of a number

A `Layout` settles what the value leaves open: which of two equally near decimals is taken, which
magnitudes are written with an exponent, and whether a whole number keeps its `.0`. The program
writes numbers in three layouts, and in messages about percentages with a fixed number of places.
-/

namespace Conformance
namespace Decimal

/-- How a number is laid out. Its size is the power of ten just above its first digit: the size
of 0.5 is 0, the size of 7 is 1. -/
structure Layout where
  /-- Sizes up to this one are written without an exponent, however large if absent. -/
  largest : Option Int := none
  /-- Sizes from this one on are written without an exponent, however small if absent. -/
  smallest : Option Int := none
  /-- Whether a whole number without an exponent ends in `.0`. -/
  marksWhole : Bool
  tie : Tie := .up
  deriving DecidableEq, Repr

/-- All digits are written out, and whole numbers have no point. -/
def Layout.plain : Layout := { marksWhole := false }

/-- From 10000000000000000 up and below 0.0001 an exponent is used; whole numbers end in `.0`. -/
def Layout.exact : Layout := { largest := some 16, smallest := some (-3), marksWhole := true }

/-- As `exact`, but exponents start below 0.00001, and ties go to the even digit. Numbers in
reports are written so. -/
def Layout.report : Layout :=
  { largest := some 16, smallest := some (-4), marksWhole := true, tie := .even }

/-- The sign in front of a number. -/
def signText (negative : Bool) : String := if negative then "-" else ""

/-- A run of zeros. -/
def zeros (n : Nat) : String := String.ofList (List.replicate n '0')

/-- A text of digits with the point after the first `size` of them. -/
def positional (marksWhole : Bool) (digits : List Char) (size : Int) : String :=
  let count : Int := digits.length
  if size ≤ 0 then "0." ++ zeros (-size).toNat ++ String.ofList digits
  else if count ≤ size then
    String.ofList digits ++ zeros (size - count).toNat ++ (if marksWhole then ".0" else "")
  else
    String.ofList (digits.take size.toNat) ++ "." ++ String.ofList (digits.drop size.toNat)

/-- A text of digits with the point after the first and an exponent. -/
def scientific (digits : List Char) (size : Int) : String :=
  let fraction := digits.drop 1
  String.ofList (digits.take 1) ++ (if fraction.isEmpty then "" else "." ++ String.ofList fraction)
    ++ "e" ++ toString (size - 1)

/-- Writes a magnitude. -/
def Layout.magnitude (layout : Layout) (d : Dyadic) : String :=
  if d.isZero then (if layout.marksWhole then "0.0" else "0")
  else
    let s := shortest layout.tie d
    let digits := Nat.toDigits 10 s.digits
    let size : Int := s.exponent + digits.length
    if layout.largest.all (size ≤ ·) && layout.smallest.all (· ≤ size) then
      positional layout.marksWhole digits size
    else scientific digits size

/-- Writes a number. -/
def Layout.write (layout : Layout) (x : Float) : String :=
  match Reading.ofFloat x with
  | .nan => "NaN"
  | .infinite negative => signText negative ++ "inf"
  | .finite negative d => signText negative ++ layout.magnitude d

/-! ## A fixed number of places -/

/-- The integer nearest to `num / den`; a half goes to the even neighbour. -/
def roundHalfEven (num den : Nat) : Nat :=
  let q := num / den
  if roundsUp .even q (num % den) den then q + 1 else q

/-- Writes a number with one digit after the point. -/
def oneDecimal (x : Float) : String :=
  match Reading.ofFloat x with
  | .nan => "NaN"
  | .infinite negative => signText negative ++ "inf"
  | .finite negative d =>
    let tenths := roundHalfEven (d.num * 10) d.den
    signText negative ++ toString (tenths / 10) ++ "." ++ toString (tenths % 10)

end Decimal
end Conformance
