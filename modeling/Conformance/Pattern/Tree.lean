/-!
# `Pattern.Tree`: the grammar of search patterns

The tree of a pattern as it is written, before flags and properties of characters are given their
meaning, and the reasons why a text is no pattern.
-/

namespace Conformance
namespace Pattern

/-- Why a text is no pattern. -/
inductive Fault where
  | nothingToRepeat
  | unclosedCount
  | emptyCount
  | countTooLarge
  | countOutOfOrder
  | unclosedGroup
  | unopenedGroup
  | lookAround
  | badGroupName
  | repeatedGroupName
  | badFlags
  | unclosedClass
  | classRangeOutOfOrder
  | badClassItem
  | unfinishedEscape
  | unknownEscape
  | backReference
  | badCharacterNumber
  | badWordBoundary
  | unknownProperty
  | needsUnicode
  | needsBytes
  | nestedTooDeeply
  /-- What the pattern is compiled to would take more bytes than this. -/
  | tooLarge (limit : Nat)
  deriving DecidableEq, Repr, Inhabited

/-- How a reason is reported. All that is wrong with the text itself is reported alike. -/
def Fault.message : Fault → String
  | tooLarge limit => "Compiled regex exceeds size limit of " ++ toString limit ++ " bytes."
  | _ => "regex parse error"

/-- A setting that changes the meaning of what follows it. -/
inductive Flag where
  | ignoreCase
  | multiLine
  | dotTakesBreaks
  | swapGreed
  | unicode
  | carriageReturns
  | verbose
  deriving DecidableEq, Repr, Inhabited

/-- Flags with what they are set to, in order. -/
abbrev FlagChanges := List (Flag × Bool)

/-- The classes of characters that a letter behind a backslash stands for. -/
inductive Shorthand where
  | digit
  | space
  | word
  deriving DecidableEq, Repr, Inhabited

/-- The named classes of ASCII characters. -/
inductive AsciiClass where
  | alnum
  | alpha
  | ascii
  | blank
  | cntrl
  | digit
  | graph
  | lower
  | print
  | punct
  | space
  | upper
  | word
  | xdigit
  deriving DecidableEq, Repr, Inhabited

/-- The ways to combine two classes, besides listing them together. -/
inductive SetOperation where
  | intersection
  | difference
  | symmetricDifference
  deriving DecidableEq, Repr, Inhabited

/-- A class of characters as it is written. -/
inductive CharSet where
  | single (c : Char)
  | range (first last : Char)
  | shorthand (kind : Shorthand) (negated : Bool)
  | ascii (kind : AsciiClass) (negated : Bool)
  /-- A property of characters, with the value that is asked for, if one is written. -/
  | property (name : String) (value : Option String) (negated : Bool)
  | union (items : List CharSet)
  | bracket (negated : Bool) (inner : CharSet)
  | combined (operation : SetOperation) (left right : CharSet)
  deriving Repr, Inhabited

/-- Conditions on a position between two characters. -/
inductive Assertion where
  | startLine
  | endLine
  | startText
  | endText
  | wordBoundary
  | notWordBoundary
  | wordStart
  | wordEnd
  | wordStartHalf
  | wordEndHalf
  deriving DecidableEq, Repr, Inhabited

/-- A pattern as it is written. -/
inductive Tree where
  | empty
  /-- A single character; `isByte` if it was written as two hexadecimal digits. -/
  | literal (c : Char) (isByte : Bool)
  | dot
  | assertion (kind : Assertion)
  | set (chars : CharSet)
  | flags (changes : FlagChanges)
  | group (changes : FlagChanges) (body : Tree)
  | repeated (body : Tree) (least : Nat) (most : Option Nat)
  | concat (parts : List Tree)
  | alternation (branches : List Tree)
  deriving Repr, Inhabited

/-! ## Depth -/

/-- How deeply the parts of a class are nested. A side of a set operation that was left empty adds nothing. -/
def CharSet.depth : CharSet → Nat
  | single _ | range _ _ | shorthand _ _ | ascii _ _ | property _ _ _ | union [] => 0
  | union items => depthOfAll items + 1
  | bracket _ inner => inner.depth + 1
  | combined _ left right => max left.depth right.depth + 1
where
  /-- The depth of the deepest class in a list. -/
  depthOfAll : List CharSet → Nat
    | [] => 0
    | s :: rest => max s.depth (depthOfAll rest)

/-- How deeply the parts of a pattern are nested. -/
def Tree.depth : Tree → Nat
  | empty | literal _ _ | dot | assertion _ | flags _ => 0
  | set chars => chars.depth
  | group _ body => body.depth + 1
  | repeated body _ _ => body.depth + 1
  | concat parts => depthOfAll parts + 1
  | alternation branches => depthOfAll branches + 1
where
  /-- The depth of the deepest pattern in a list. -/
  depthOfAll : List Tree → Nat
    | [] => 0
    | t :: rest => max t.depth (depthOfAll rest)

/-- Patterns may not be nested more deeply than this. -/
def maxDepth : Nat := 250

end Pattern
end Conformance
