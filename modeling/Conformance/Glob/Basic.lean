import Conformance.Glob.Piece
import Conformance.Regular.Expr

/-!
# `Glob.Basic`: which paths a path pattern fits

A pattern is compared with the bytes of a path as a whole. A question mark therefore takes one
byte, and a class takes one byte out of those that its members are written with.
-/

namespace Conformance
namespace Glob

open Regular (Expr)

/-- The bytes that a text is stored as. -/
def bytes (s : String) : List UInt8 := s.toUTF8.toList

/-- The bytes of a character. -/
def charBytes (c : Char) : List UInt8 := bytes (String.singleton c)

/-- One byte, the separator. -/
def slash : Expr UInt8 := .symbol (· == separator.toNat.toUInt8)

/-- The ranges of bytes that a range of characters is written with: the bytes of its two ends in a
row, with the range between the last byte of the first and the first byte of the last. -/
def byteRanges (first last : Char) : List (UInt8 × UInt8) :=
  let a := charBytes first
  if first == last then a.map fun b => (b, b)
  else
    let z := charBytes last
    a.dropLast.map (fun b => (b, b)) ++ [(a.getLastD 0, z.headD 0)]
      ++ (z.drop 1).map (fun b => (b, b))

/-- Whether a class takes a byte. -/
def takesByte (negated : Bool) (ranges : List (UInt8 × UInt8)) (b : UInt8) : Bool :=
  ranges.any (fun (first, last) => first ≤ b && b ≤ last) != negated

/-- The expressions of a piece, to be taken one after the other. Empty alternatives do not count,
and braces without any other alternative stand for nothing. -/
def Piece.exprs : Piece → List (Expr UInt8)
  | literal c => (charBytes c).map fun b => .symbol (· == b)
  | any => [.symbol fun _ => true]
  | star => [.anything]
  | leading => [.either (.times slash 0 (some 1)) (.append .anything slash)]
  | trailing => [slash, .anything]
  | between => [.either slash (.appendAll [slash, .anything, slash])]
  | set negated ranges =>
    [.symbol (takesByte negated (ranges.flatMap fun (first, last) => byteRanges first last))]
  | alternatives branches =>
    match branchExprs branches with
    | [] => []
    | es => [.anyOf es]
where
  /-- The expressions of the alternatives that are not empty. -/
  branchExprs : List (List Piece) → List (Expr UInt8)
    | [] => []
    | branch :: rest =>
      match exprsOfAll branch with
      | [] => branchExprs rest
      | es => .appendAll es :: branchExprs rest
  /-- The expressions of all pieces of an alternative. -/
  exprsOfAll : List Piece → List (Expr UInt8)
    | [] => []
    | p :: rest => p.exprs ++ exprsOfAll rest

/-- The expression of a whole pattern. Two stars alone take everything. -/
def exprOf (pieces : List Piece) : Expr UInt8 :=
  match pieces with
  | [.leading] => .anything
  | pieces => .appendAll (Piece.exprs.exprsOfAll pieces)

/-! ## Depth -/

/-- How deeply the expression of a piece is nested. Alternatives are a group, with a choice in it if they
are several, and an alternative of several expressions is nested in itself. -/
def Piece.depth : Piece → Nat
  | literal _ | any => 0
  | star | trailing => 1
  | leading | between => 4
  | set _ ranges =>
    if (ranges.flatMap fun (first, last) => byteRanges first last).length ≤ 1 then 1 else 2
  | alternatives branches =>
    match branchDepths branches with
    | [] => 0
    | [depth] => depth + 1
    | depths => depths.foldr max 0 + 2
where
  /-- The depths of the alternatives that are not empty. -/
  branchDepths : List (List Piece) → List Nat
    | [] => []
    | branch :: rest =>
      match Piece.exprs.exprsOfAll branch with
      | [] => branchDepths rest
      | [_] => depthOfAll branch :: branchDepths rest
      | _ => (depthOfAll branch + 1) :: branchDepths rest
  /-- The depth of the deepest piece in a list. -/
  depthOfAll : List Piece → Nat
    | [] => 0
    | p :: rest => max p.depth (depthOfAll rest)

/-- Why path patterns that are understood cannot be put together. -/
inductive SetFault where
  | nestedTooDeeply
  | tooLarge
  deriving DecidableEq, Repr, Inhabited

/-- All reasons are reported alike. -/
def SetFault.message (_ : SetFault) : String := "glob error"

end Glob

/-- A path pattern that was understood: its text and its pieces. -/
structure Glob where
  text : String
  parts : List Glob.Piece
  deriving Inhabited

namespace Glob

/-- Reads a path pattern. -/
def compile (text : String) : Except Fault Glob :=
  (pieces text).map fun parts => { text, parts }

/-- Whether the pattern fits a path as a whole. -/
def fits (g : Glob) (path : String) : Bool :=
  (exprOf g.parts).fits (bytes path)

/-- How deeply the expression of a pattern is nested. The pattern stands between the two ends of a path,
so there is always a sequence around its pieces. -/
def depth (g : Glob) : Nat :=
  match g.parts with
  | [.leading] => 2
  | parts => Piece.depth.depthOfAll parts + 1

end Glob
end Conformance
