import Conformance.Text.Ascii

/-!
# `Source.Token`: the tokens of a source text

A token is a kind, the characters it covers and the line on which it starts. The kinds tell apart
just what reading declarations needs: text that can be skipped, literals, words, variables,
namespace separators and single marks.
-/

namespace Conformance
namespace Source

/-- What a token is. -/
inductive TokenKind where
  /-- Text outside of code. -/
  | html
  | openTag
  | closeTag
  | blank
  | comment
  | docComment
  /-- An attribute `#[...]` with balanced brackets. -/
  | attr
  /-- A literal in single quotes, double quotes or grave accents. -/
  | quoted
  /-- A literal that a line with its label closes. -/
  | heredoc
  | variable
  /-- A keyword or an identifier. -/
  | word
  /-- The separator between the segments of a name. -/
  | separator
  | number
  /-- Any other single character. -/
  | mark
  deriving DecidableEq, Repr, Inhabited

/-- A piece of source text with its kind and the number of its first line, counted from 1. -/
structure Token where
  kind : TokenKind
  text : String
  line : Nat
  deriving DecidableEq, Repr, Inhabited

namespace Token

/-- Tokens that never matter for declarations. -/
def isTrivia (t : Token) : Bool :=
  match t.kind with
  | .blank | .comment | .docComment | .attr | .html | .openTag => true
  | _ => false

/-- Whether the token is the word `keyword`, in any ASCII case. -/
def isWord (t : Token) (keyword : String) : Bool :=
  t.kind == .word && Text.sameFolded t.text keyword

/-- Whether the token is the single mark `c`. -/
def isMark (t : Token) (c : Char) : Bool :=
  t.kind == .mark && t.text == String.singleton c

/-- A semicolon or a closing tag: both end a statement. -/
def endsStatement (t : Token) : Bool :=
  t.isMark ';' || t.kind == .closeTag

/-- A word or a separator: the pieces of a qualified name. -/
def isNamePart (t : Token) : Bool :=
  t.kind == .word || t.kind == .separator

end Token
end Source
end Conformance
