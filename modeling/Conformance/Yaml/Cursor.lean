/-!
# `Yaml.Cursor`: a place in a text

A cursor is the rest of a text together with the place where that rest begins. Columns matter in
YAML, because indentation is syntax; lines and the distance from the start matter, because a key
has to be short and on one line.
-/

namespace Conformance
namespace Yaml

/-- Why a text is no YAML document. -/
inductive Fault where
  | badCharacter
  | badDirective
  | badTag
  | badAnchor
  | badBlockHeader
  | badEscape
  | tabAsIndentation
  | unclosedQuote
  | unexpectedColon
  /-- A key without the colon that has to follow. -/
  | missingColon
  /-- An indicator stands where it means nothing. -/
  | misplaced
  | unexpectedToken
  | unknownTagHandle
  | unknownReference
  | severalDocuments
  /-- The document is not of the expected shape. -/
  | wrongShape
  deriving DecidableEq, Repr, Inhabited

/-- All reasons are reported alike. -/
def Fault.message (_ : Fault) : String := "yaml error\n"

/-! ## Classes of characters -/

/-- Characters that a document may hold. -/
def isAllowed (c : Char) : Bool :=
  let n := c.toNat
  n == 0x9 || n == 0xA || n == 0xD || (0x20 ≤ n && n ≤ 0x7E) || n == 0x85
    || (0xA0 ≤ n && n ≤ 0xD7FF) || (0xE000 ≤ n && n ≤ 0xFFFD) || 0x10000 ≤ n

/-- Characters that end a line. -/
def isBreak (c : Char) : Bool :=
  c == '\n' || c == '\r' || c == '\x85' || c == '\u2028' || c == '\u2029'

/-- Blanks within a line. -/
def isBlank (c : Char) : Bool := c == ' ' || c == '\t'

/-- Characters of anchors and handles. -/
def isWordChar (c : Char) : Bool := c.isAlphanum || c == '_' || c == '-'

/-- The mark that may stand at the start of a text and means nothing. -/
def byteOrderMark : Char := '\ufeff'

/-- The rest of a text, and where it begins. -/
structure Cursor where
  rest : List Char
  index : Nat := 0
  line : Nat := 0
  column : Nat := 0
  deriving Inhabited

namespace Cursor

/-! ## Looking ahead -/

/-- The next character. -/
def peek? (c : Cursor) : Option Char := c.rest.head?

/-- The character after `n` others. -/
def peekAt? (c : Cursor) (n : Nat) : Option Char := (c.rest.drop n).head?

/-- Whether nothing is left. -/
def atEnd (c : Cursor) : Bool := c.rest.isEmpty

/-- Whether the next character is `x`. -/
def sees (c : Cursor) (x : Char) : Bool := c.peek? == some x

/-- Whether the next character is one of a class. -/
def seesOne (c : Cursor) (p : Char → Bool) : Bool := c.peek?.any p

/-- Whether a line ends after `n` characters, or the text does. -/
def lineEndsAt (c : Cursor) (n : Nat) : Bool := (c.peekAt? n).all isBreak

/-- Whether a word ends after `n` characters: with a blank, a line or the text. -/
def wordEndsAt (c : Cursor) (n : Nat) : Bool := (c.peekAt? n).all fun x => isBlank x || isBreak x

/-- Whether the line starts with three times `x` as a word of its own. -/
def seesMark (c : Cursor) (x : Char) : Bool :=
  c.column == 0 && [x, x, x].isPrefixOf c.rest && c.wordEndsAt 3

/-- Whether the line starts with a mark between documents. -/
def seesDocumentMark (c : Cursor) : Bool := c.seesMark '-' || c.seesMark '.'

/-! ## Going on -/

/-- The place `n` characters further on the same line. -/
def advance (c : Cursor) (n : Nat) : Cursor :=
  { c with rest := c.rest.drop n, index := c.index + n, column := c.column + n }

/-- The next place on the same line. -/
def next (c : Cursor) : Cursor := c.advance 1

/-- Takes the characters of a class on the same line. -/
def takeWhile (p : Char → Bool) (c : Cursor) : List Char × Cursor :=
  let cs := c.rest.takeWhile p
  (cs, c.advance cs.length)

/-- Passes over the characters of a class on the same line. -/
def skipWhile (p : Char → Bool) (c : Cursor) : Cursor := (c.takeWhile p).2

/-- The start of the next line. -/
def nextLine (c : Cursor) : Cursor :=
  let n := if ['\r', '\n'].isPrefixOf c.rest then 2 else 1
  { rest := c.rest.drop n, index := c.index + n, line := c.line + 1, column := 0 }

/-- Takes a line break, if one is next. All but the two separators of Unicode count as the same. -/
def takeBreak (c : Cursor) : List Char × Cursor :=
  match c.peek? with
  | some x =>
    if isBreak x then ([if x == '\u2028' || x == '\u2029' then x else '\n'], c.nextLine)
    else ([], c)
  | none => ([], c)

/-- Passes over a comment, if one begins here. -/
def skipComment (c : Cursor) : Cursor :=
  if c.sees '#' then c.skipWhile (fun x => !isBreak x) else c

end Cursor
end Yaml
end Conformance
