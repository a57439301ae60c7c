import Conformance.Source.Token
import Conformance.Text.Blank

/-!
# `Source.Lexeme`: cutting a source text into tokens

At each point the text in front decides two things: the kind of the next token, and how many
characters the token takes *besides* its first one. A token is therefore never empty, the text is
cut by `take` and `drop` alone, and nothing of it is lost. Only four forms can fail, each because
the text ends before its closing mark: comments, quoted literals, attributes and heredocs.
-/

namespace Conformance
namespace Source

/-- The forms that have to be closed. -/
inductive Literal where
  | comment
  | string
  | attr
  | heredoc
  deriving DecidableEq, Repr, Inhabited

/-- The word for the form in messages. -/
def Literal.word : Literal → String
  | comment => "comment"
  | string => "string"
  | attr => "attribute"
  | heredoc => "heredoc"

/-- A form is still open at the end of the text; `line` is the line on which its token starts. -/
structure Unterminated where
  what : Literal
  line : Nat
  deriving DecidableEq, Repr, Inhabited

/-- How an unterminated form is reported. -/
def Unterminated.message (e : Unterminated) : String :=
  "unterminated " ++ e.what.word ++ " starting at line " ++ toString e.line

/-! ## Classes of characters -/

/-- Characters that start a word: ASCII letters, the underscore and everything beyond ASCII. -/
def isNameStart (c : Char) : Bool :=
  c.isAlpha || c == '_' || 0x80 ≤ c.toNat

/-- Characters that continue a word. -/
def isNameChar (c : Char) : Bool :=
  isNameStart c || c.isDigit

/-- Characters that continue a number. -/
def isNumberChar (c : Char) : Bool :=
  c.isAlphanum || c == '_' || c == '.'

/-- The blanks that may stand before a heredoc label. -/
def isIndent (c : Char) : Bool :=
  c == ' ' || c == '\t'

/-! ## Lengths of the parts of a token -/

/-- How many characters stand before the first place where `stop` holds. -/
def lengthBefore (stop : List Char → Bool) : List Char → Nat
  | [] => 0
  | c :: cs => if stop (c :: cs) then 0 else lengthBefore stop cs + 1

/-- How many characters it takes to get past the first occurrence of `closing`. -/
def lengthThrough (closing : List Char) : List Char → Option Nat
  | [] => none
  | c :: cs =>
    if closing.isPrefixOf (c :: cs) then some closing.length
    else (lengthThrough closing cs).map (· + 1)

/-- The length of a literal after its opening quote; a backslash protects the next character. -/
def quotedLength (quote : Char) : List Char → Option Nat
  | [] => none
  | '\\' :: _ :: cs => (quotedLength quote cs).map (· + 2)
  | c :: cs => if c = quote then some 1 else (quotedLength quote cs).map (· + 1)

/-- The length of an attribute after its opening `#[`. The state holds the number of inner
brackets that are open and the quote of the literal that is open, if one is. -/
def attributeLength : Nat → Option Char → List Char → Except Literal Nat
  | _, none, [] => .error .attr
  | _, some _, [] => .error .string
  | depth, some quote, '\\' :: _ :: cs => (attributeLength depth (some quote) cs).map (· + 2)
  | depth, some quote, c :: cs =>
    (attributeLength depth (if c = quote then none else some quote) cs).map (· + 1)
  | depth, none, c :: cs =>
    if c = '[' then (attributeLength (depth + 1) none cs).map (· + 1)
    else if c = ']' then
      match depth with
      | 0 => .ok 1
      | depth + 1 => (attributeLength depth none cs).map (· + 1)
    else if c = '\'' ∨ c = '"' then (attributeLength depth (some c) cs).map (· + 1)
    else (attributeLength depth none cs).map (· + 1)

/-! ## Heredocs -/

/-- The optional quote around a heredoc label. -/
def labelQuote? : List Char → Option Char
  | '\'' :: _ => some '\''
  | '"' :: _ => some '"'
  | _ => none

/-- Takes a quote that has to stand in front. -/
def dropQuote? (quote : Option Char) (cs : List Char) : Option (List Char) :=
  match quote with
  | none => some cs
  | some q => if cs.head? = some q then some (cs.drop 1) else none

/-- Takes a line break that has to stand in front. -/
def dropLineBreak? : List Char → Option (List Char)
  | '\r' :: '\n' :: cs => some cs
  | '\n' :: cs => some cs
  | _ => none

/-- Reads what follows `<<<` in a heredoc: blanks, a label, which may stand in quotes, and a line
break. Gives the label and the text from the next line on. -/
def heredocHeader? (cs : List Char) : Option (List Char × List Char) := do
  let cs := cs.dropWhile isIndent
  let quote := labelQuote? cs
  let cs ← dropQuote? quote cs
  if cs.head?.any isNameStart then
    let rest ← dropQuote? quote (cs.dropWhile isNameChar)
    let body ← dropLineBreak? rest
    pure (cs.takeWhile isNameChar, body)
  else none

/-- At the start of a line: the length of its indentation and the label, if the label stands there
as a whole word. -/
def closingLength? (label line : List Char) : Option Nat :=
  let rest := line.dropWhile isIndent
  if label.isPrefixOf rest && !(rest.drop label.length).head?.any isNameChar then
    some ((line.takeWhile isIndent).length + label.length)
  else none

/-- The length of a heredoc body through its closing label. -/
def heredocBodyLength (label : List Char) (atLineStart : Bool) : List Char → Option Nat
  | [] => none
  | c :: cs =>
    match if atLineStart then closingLength? label (c :: cs) else none with
    | some n => some n
    | none => (heredocBodyLength label (c == '\n') cs).map (· + 1)

/-- The length of a heredoc after `<<<`: `none` when no header follows, an error when no line
closes the body. -/
def heredocLength (cs : List Char) : Except Literal (Option Nat) :=
  match heredocHeader? cs with
  | none => .ok none
  | some (label, body) =>
    match heredocBodyLength label true body with
    | some n => .ok (some (cs.length - body.length + n))
    | none => .error .heredoc

/-! ## One token -/

/-- Whether the next character belongs to code or to the text around it. -/
inductive Mode where
  | html
  | code
  deriving DecidableEq, Repr, Inhabited

/-- The mode behind a token. -/
def TokenKind.modeAfter (mode : Mode) : TokenKind → Mode
  | .openTag => .code
  | .closeTag => .html
  | _ => mode

/-- The two characters that begin an opening tag. -/
def startsTag (cs : List Char) : Bool :=
  ['<', '?'].isPrefixOf cs

/-- The next token outside of code: its kind and its length after the first character. -/
def htmlLexeme (c : Char) (cs : List Char) : TokenKind × Nat :=
  if startsTag (c :: cs) then
    if ((cs.drop 1).take 3).map Char.toLower = ['p', 'h', 'p'] then (.openTag, 4)
    else if (cs.drop 1).head? = some '=' then (.openTag, 2)
    else (.openTag, 1)
  else (.html, lengthBefore startsTag cs)

/-- Where a line comment ends: before a line break or a closing tag. -/
def endsLineComment (cs : List Char) : Bool :=
  cs.head? == some '\n' || ['?', '>'].isPrefixOf cs

/-- A literal that has to be closed, with its length after the first character. -/
def closed (kind : TokenKind) (what : Literal) : Option Nat → Except Literal (TokenKind × Nat)
  | some n => .ok (kind, n)
  | none => .error what

/-- The next token in code: its kind and its length after the first character. -/
def codeLexeme (c : Char) (cs : List Char) : Except Literal (TokenKind × Nat) :=
  if Text.isAsciiBlank c then .ok (.blank, (cs.takeWhile Text.isAsciiBlank).length)
  else if c = '?' ∧ cs.head? = some '>' then .ok (.closeTag, 1)
  else if c = '#' ∧ cs.head? = some '[' then
    (attributeLength 0 none (cs.drop 1)).map (fun n => (.attr, n + 1))
  else if c = '#' ∨ (c = '/' ∧ cs.head? = some '/') then
    .ok (.comment, lengthBefore endsLineComment cs)
  else if c = '/' ∧ cs.head? = some '*' then
    let isDoc := ['*', '*'].isPrefixOf cs && !(['*', '*', '/'].isPrefixOf cs)
    closed (if isDoc then .docComment else .comment) .comment
      ((lengthThrough ['*', '/'] (cs.drop 1)).map (· + 1))
  else if c = '\'' ∨ c = '"' ∨ c = '\x60' then
    closed .quoted .string (quotedLength c cs)
  else if c = '<' ∧ ['<', '<'].isPrefixOf cs then
    (heredocLength (cs.drop 2)).map fun
      | some n => (.heredoc, n + 2)
      | none => (.mark, 0)
  else if c = '$' ∧ cs.head?.any isNameStart then
    .ok (.variable, (cs.takeWhile isNameChar).length)
  else if isNameStart c then .ok (.word, (cs.takeWhile isNameChar).length)
  else if c.isDigit then .ok (.number, (cs.takeWhile isNumberChar).length)
  else if c = '\\' then .ok (.separator, 0)
  else .ok (.mark, 0)

/-- The next token in the given mode. -/
def lexeme (mode : Mode) (c : Char) (cs : List Char) : Except Literal (TokenKind × Nat) :=
  match mode with
  | .html => .ok (htmlLexeme c cs)
  | .code => codeLexeme c cs

/-! ## All tokens -/

/-- The tokens of the text in front, which starts in `mode` on line `line`. -/
def tokensFrom (mode : Mode) (line : Nat) : List Char → Except Unterminated (List Token)
  | [] => .ok []
  | c :: cs =>
    match lexeme mode c cs with
    | .error what => .error { what, line }
    | .ok (kind, extra) =>
      let text := c :: cs.take extra
      match tokensFrom (kind.modeAfter mode) (line + text.count '\n') (cs.drop extra) with
      | .error e => .error e
      | .ok rest => .ok ({ kind, text := String.ofList text, line } :: rest)
termination_by cs => cs.length
decreasing_by simp only [List.length_cons, List.length_drop]; omega

/-- A text without any opening tag is code from its first character on. -/
def initialMode (cs : List Char) : Mode :=
  if lengthBefore startsTag cs < cs.length then .html else .code

/-- Cuts a source text into its tokens. -/
def tokens (source : String) : Except Unterminated (List Token) :=
  tokensFrom (initialMode source.toList) 1 source.toList

end Source
end Conformance
