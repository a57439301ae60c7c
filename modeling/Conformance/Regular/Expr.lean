/-!
# `Regular.Expr`: regular expressions over any alphabet

An `Expr` describes texts over an alphabet `α`, and may look at the symbols to both sides of a
position without taking them. Matching follows all ways through the expression at once: a set of
positions in the text is a natural number whose bits are the positions, and `ends` maps the
positions where an expression may start to those where it may end. Every operation is one
operation on such numbers, and repetition adds positions until none is new.
-/

namespace Conformance
namespace Regular

/-- Regular expressions with tests on the neighbours of a position. -/
inductive Expr (α : Type) where
  /-- The empty text. -/
  | empty
  /-- One symbol that passes a test. -/
  | symbol (accepts : α → Bool)
  /-- The empty text between neighbours that pass a test. -/
  | between (holds : Option α → Option α → Bool)
  /-- One expression after the other. -/
  | append (first second : Expr α)
  /-- Either of two expressions. -/
  | either (left right : Expr α)
  /-- At least `least` and, if given, at most `most` times the same expression. -/
  | times (body : Expr α) (least : Nat) (most : Option Nat)

namespace Expr

variable {α : Type}

instance : Inhabited (Expr α) := ⟨empty⟩

/-- All expressions of a list, one after the other. -/
def appendAll : List (Expr α) → Expr α
  | [] => empty
  | [e] => e
  | e :: es => append e (appendAll es)

/-- No text at all. -/
def nothing : Expr α := symbol fun _ => false

/-- Any of the expressions in a list. -/
def anyOf : List (Expr α) → Expr α
  | [] => nothing
  | [e] => e
  | e :: es => either e (anyOf es)

/-- Any number of symbols. -/
def anything : Expr α := times (symbol fun _ => true) 0 none

/-! ## Sets of positions -/

/-- The set of the places at which a list holds `true`. -/
def positions : List Bool → Nat
  | [] => 0
  | b :: bs => 2 * positions bs + b.toNat

/-- For each position of a text, whether its neighbours pass a test. -/
def gaps (holds : Option α → Option α → Bool) : Option α → List α → List Bool
  | before, [] => [holds before none]
  | before, a :: as => holds before (some a) :: gaps holds (some a) as

/-- Applies `f` a number of times. A set that `f` keeps is the answer at once. -/
def iterate (f : Nat → Nat) : Nat → Nat → Nat
  | 0, s => s
  | n + 1, s => let t := f s; if t == s then s else iterate f n t

/-- Adds to a set what `f` makes of it, a number of times or until nothing is new. -/
def saturate (f : Nat → Nat) : Nat → Nat → Nat
  | 0, s => s
  | n + 1, s => let t := s ||| f s; if t == s then s else saturate f n t

/-- The positions where a match may end that starts at one of the positions in `starts`. -/
def ends (text : List α) : Expr α → Nat → Nat
  | empty, starts => starts
  | symbol accepts, starts => (starts &&& positions (text.map accepts)) <<< 1
  | between holds, starts => starts &&& positions (gaps holds none text)
  | append first second, starts => second.ends text (first.ends text starts)
  | either left right, starts => left.ends text starts ||| right.ends text starts
  | times body least most, starts =>
    let start := iterate (body.ends text) least starts
    let more := match most with
      | some n => n - least
      | none => text.length + 1
    saturate (body.ends text) more start

/-! ## Matching -/

/-- Whether some part of the text matches. -/
def occursIn (e : Expr α) (text : List α) : Bool :=
  e.ends text (Nat.pow 2 (text.length + 1) - 1) != 0

/-- Whether the text as a whole matches. -/
def fits (e : Expr α) (text : List α) : Bool :=
  (e.ends text 1).testBit text.length

end Expr
end Regular
end Conformance
