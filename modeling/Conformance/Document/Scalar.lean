import Conformance.Decimal.Read

/-!
# `Document.Scalar`: scalars whose type is not settled yet

In a document written by hand most scalars carry no type: `5` may be a number or a name. A scalar
is kept as it was written, and whoever reads it says what it should be. A scalar in quotes is never
a number, a truth value or nothing.
-/

namespace Conformance
namespace Document

/-- How a scalar was written. -/
inductive Style where
  | plain
  /-- A block whose lines are kept. -/
  | literal
  /-- In quotes, or a block whose lines are joined. -/
  | quoted
  deriving DecidableEq, Repr, Inhabited

/-- A scalar as it was written. -/
structure Scalar where
  text : String
  style : Style := .plain
  tag : Option String := none
  deriving DecidableEq, Repr, Inhabited

namespace Scalar

/-- The tag of a type that every document knows. -/
def coreTag (name : String) : String := "tag:yaml.org,2002:" ++ name

/-- The words for nothing. -/
def nullWords : List String := ["null", "Null", "NULL", "~"]

/-- The words for the true value. -/
def trueWords : List String := ["true", "True", "TRUE"]

/-- The words for the false value. -/
def falseWords : List String := ["false", "False", "FALSE"]

/-- Whether the scalar stands for nothing. A plain scalar does if it is empty or one of the words,
and one that is tagged so has to be one of the words. -/
def isNull? (s : Scalar) : Option Bool :=
  if s.style ≠ .plain then some false
  else
    match s.tag with
    | none => some (s.text.isEmpty || nullWords.contains s.text)
    | some tag =>
      if tag ≠ coreTag "null" then some false
      else if nullWords.contains s.text then some true
      else none

/-- Whether nothing at all was written. -/
def isBlank (s : Scalar) : Bool :=
  s.style == .plain && s.text.isEmpty

/-- Whether the scalar may be of a core type: it is plain, or a literal block with the tag. -/
def mayBe (s : Scalar) (type : String) : Bool :=
  s.style == .plain || (s.style == .literal && s.tag == some (coreTag type))

/-- The truth value that is written. -/
def flag? (s : Scalar) : Option Bool :=
  if !s.mayBe "bool" then none
  else if trueWords.contains s.text then some true
  else if falseWords.contains s.text then some false
  else none

/-! ## Numbers -/

/-- The value of a digit to a base. -/
def digitValue? (base : Nat) (c : Char) : Option Nat :=
  let n :=
    if c.isDigit then c.toNat - '0'.toNat
    else if c.isAlpha then c.toLower.toNat - 'a'.toNat + 10
    else base
  if n < base then some n else none

/-- The value of digits to a base, of which there has to be at least one. -/
def natural? (base : Nat) (digits : List Char) : Option Nat :=
  if digits.isEmpty then none
  else digits.foldlM (fun n c => (digitValue? base c).map (base * n + ·)) 0

/-- Counts are smaller than this. -/
def countLimit : Nat := Nat.pow 2 64

/-- A number below the limit. -/
def limited (n : Option Nat) : Option Nat := n.filter (· < countLimit)

/-- Whether a sign stands in front. -/
def isSigned (cs : List Char) : Bool :=
  cs.head? == some '+' || cs.head? == some '-'

/-- A zero with more digits behind it, which makes no number. -/
def isPadded (cs : List Char) : Bool :=
  1 < cs.length && cs.head? == some '0' && cs.all Char.isDigit

/-- The count behind a mark for its base. -/
def based? (mark : String) (base : Nat) (cs : List Char) : Option Nat :=
  if mark.toList.isPrefixOf cs && !isSigned (cs.drop 2) then
    limited (natural? base (cs.drop 2))
  else none

/-- The count that a text is written for: decimal, or to the base 16, 8 or 2 behind a mark. One
plus may stand in front. -/
def countOf? (text : String) : Option Nat :=
  let cs := match text.toList with
    | '+' :: rest => rest
    | cs => cs
  based? "0x" 16 cs <|> based? "0o" 8 cs <|> based? "0b" 2 cs <|>
    (if isSigned cs || isPadded cs then none else limited (natural? 10 cs))

/-- The count that is written. -/
def count? (s : Scalar) : Option Nat :=
  if s.mayBe "int" then countOf? s.text else none

/-- The words for infinity, which may stand behind a sign. -/
def infinityWords : List String := [".inf", ".Inf", ".INF"]

/-- The words for what is not a number. -/
def nanWords : List String := [".nan", ".NaN", ".NAN"]

/-- The number that a text is written for. Numbers too large to be finite do not count. -/
def numberOf? (text : String) : Option Float :=
  let bare := match text.toList with
    | '+' :: rest => String.ofList rest
    | cs => String.ofList cs
  if text.toList.head? == some '+' && isSigned bare.toList then none
  else if infinityWords.contains bare then some (1.0 / 0.0)
  else if (infinityWords.map ("-" ++ ·)).contains text then some (-1.0 / 0.0)
  else if nanWords.contains text then some (0.0 / 0.0)
  else (Decimal.read? bare).filter Float.isFinite

/-- The number that is written. -/
def number? (s : Scalar) : Option Float :=
  if s.mayBe "float" then numberOf? s.text else none

end Scalar
end Document
end Conformance
