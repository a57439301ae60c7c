/-!
# `Unicode.Spans`: sets of characters written as text

Properties of characters come as long lists of numbers. They are written in a compact text: words
`A`, `A-B` and `A-B/2` in hexadecimal, which stand for a character, a run of characters and every
second character of a run.
-/

namespace Conformance
namespace Unicode

/-- Every `step`-th number from `first` to `last`. -/
structure Span where
  first : Nat
  last : Nat
  step : Nat := 1
  deriving DecidableEq, Repr, Inhabited

/-- Whether a number lies in the span. -/
def Span.contains (s : Span) (n : Nat) : Bool :=
  s.first ≤ n && n ≤ s.last && (n - s.first) % s.step == 0

/-- The value of a hexadecimal digit in capitals. -/
def hexDigitValue (c : Char) : Nat :=
  if c.isDigit then c.toNat - '0'.toNat else c.toNat - 'A'.toNat + 10

/-- The value of a hexadecimal number in capitals. -/
def hexValue (cs : List Char) : Nat :=
  cs.foldl (fun n c => 16 * n + hexDigitValue c) 0

/-- What sets words apart: blanks and line breaks. -/
def isGap (c : Char) : Bool := c == ' ' || c == '\n'

/-- The words of a text. -/
def words (text : String) : List (List Char) :=
  (text.toList.splitBy fun a b => isGap a == isGap b).filter fun w => !w.all isGap

/-- Reads one word of a list of spans. -/
def Span.ofText (word : List Char) : Span :=
  let first := word.takeWhile Char.isAlphanum
  let rest := word.drop first.length
  match rest with
  | '-' :: rest =>
    let last := rest.takeWhile Char.isAlphanum
    { first := hexValue first, last := hexValue last
      step := if rest.length == last.length then 1 else 2 }
  | _ => { first := hexValue first, last := hexValue first }

/-- Reads a list of spans. -/
def Span.listOfText (text : String) : List Span :=
  (words text).map Span.ofText

end Unicode
end Conformance
