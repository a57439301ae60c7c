import Conformance.Source.Lexeme

/-!
# `Source.Bytes`: cutting a source text at byte positions

The same tokens as in `Source.Lexeme`, found by moving a position over the UTF-8 bytes of the text. Bytes
beyond ASCII belong to words and to whatever they stand in, so no character is ever decoded. Whether a
position is still inside the text, whether a cut falls between two characters and whether a token takes
anything at all is up to the movements: each access that no comparison guards can fail, and so can each cut.
-/

namespace Conformance
namespace Source
namespace Bytes

/-- Why no tokens are found. -/
inductive Fault where
  /-- A form is still open at the end of the text. -/
  | unterminated (e : Unterminated)
  /-- A byte or a part outside of the text was asked for, a cut lies inside a character, or a count
  went below zero. -/
  | outside
  /-- A movement did not get on. -/
  | stuck
  deriving DecidableEq, Repr, Inhabited

/-! ## Access -/

/-- The bytes of a text. -/
def ofText (source : String) : List UInt8 := source.toByteArray.data.toList

/-- The byte of an ASCII character. -/
def byte (c : Char) : UInt8 := UInt8.ofNat c.toNat

/-- Whether some bytes begin with these ASCII characters. -/
def startsWith (cs : List Char) (bs : List UInt8) : Bool := (cs.map byte).isPrefixOf bs

/-- The byte at a position. -/
def byteAt (bs : List UInt8) (i : Nat) : Except Fault UInt8 :=
  match bs[i]? with
  | some b => .ok b
  | none => .error .outside

/-- The bytes from a position on. -/
def bytesFrom (bs : List UInt8) (i : Nat) : Except Fault (List UInt8) :=
  if i ≤ bs.length then .ok (bs.drop i) else .error .outside

/-- The bytes between two positions. -/
def bytesBetween (bs : List UInt8) (i j : Nat) : Except Fault (List UInt8) :=
  if i ≤ j ∧ j ≤ bs.length then .ok ((bs.drop i).take (j - i)) else .error .outside

/-- The part of a text between two positions, neither of which lies inside a character. -/
def textBetween (source : String) (i j : Nat) : Except Fault String :=
  if h : (String.Pos.Raw.mk i).IsValid source ∧ (String.Pos.Raw.mk j).IsValid source ∧ i ≤ j then
    .ok (source.extract ⟨⟨i⟩, h.1⟩ ⟨⟨j⟩, h.2.1⟩)
  else .error .outside

/-- Where some bytes first stand in others. -/
def find (needle : List UInt8) : List UInt8 → Option Nat
  | [] => none
  | b :: bs => if needle.isPrefixOf (b :: bs) then some 0 else (find needle bs).map (· + 1)

/-! ## Classes of bytes -/

/-- The five blanks of ASCII. -/
def isBlank (b : UInt8) : Bool :=
  b == byte ' ' || b == byte '\t' || b == byte '\n' || b == byte '\x0c' || b == byte '\r'

/-- The letters of ASCII. -/
def isLetter (b : UInt8) : Bool :=
  byte 'a' ≤ b && b ≤ byte 'z' || byte 'A' ≤ b && b ≤ byte 'Z'

/-- The digits of ASCII. -/
def isDigit (b : UInt8) : Bool := byte '0' ≤ b && b ≤ byte '9'

/-- Bytes that start a word. -/
def isNameStart (b : UInt8) : Bool := isLetter b || b == byte '_' || 0x80 ≤ b

/-- Bytes that continue a word. -/
def isNameByte (b : UInt8) : Bool := isNameStart b || isDigit b

/-- Bytes that continue a number. -/
def isNumberByte (b : UInt8) : Bool := isLetter b || isDigit b || b == byte '_' || b == byte '.'

/-- The blanks that may stand before a heredoc label. -/
def isIndent (b : UInt8) : Bool := b == byte ' ' || b == byte '\t'

/-- The two quotes that may stand around a heredoc label, and around a literal in an attribute. -/
def isQuote (b : UInt8) : Bool := b == byte '\'' || b == byte '"'

/-- The byte with letters of ASCII folded. -/
def foldByte (b : UInt8) : UInt8 := if byte 'A' ≤ b && b ≤ byte 'Z' then b + 32 else b

/-! ## Movements -/

/-- Moves on until `stop` holds of the bytes in front, or to the end. -/
def advance (stop : List UInt8 → Bool) (bs : List UInt8) (pos : Nat) : Nat :=
  if pos < bs.length then
    if stop (bs.drop pos) then pos else advance stop bs (pos + 1)
  else pos
termination_by bs.length - pos

/-- Moves over the bytes of a class. -/
def eatWhile (p : UInt8 → Bool) (bs : List UInt8) (pos : Nat) : Nat :=
  advance (fun rest => !rest.head?.any p) bs pos

/-- Moves to the end of a line comment. -/
def lineCommentEnd (bs : List UInt8) (pos : Nat) : Nat :=
  advance (fun rest => rest.head? == some (byte '\n') || startsWith ['?', '>'] rest) bs pos

/-- Moves behind a block comment. -/
def blockCommentEnd (bs : List UInt8) (line pos : Nat) : Except Fault (TokenKind × Nat) := do
  let rest ← bytesFrom bs pos
  let isDoc := startsWith ['/', '*', '*'] rest && !startsWith ['/', '*', '*', '/'] rest
  let body ← bytesFrom rest 2
  match find (['*', '/'].map byte) body with
  | some offset => .ok (if isDoc then .docComment else .comment, pos + 2 + offset + 2)
  | none => .error (.unterminated { what := .comment, line })

/-- Moves behind the quote that closes a literal. What stands behind a backslash is passed over, be it a
character, a part of one or nothing. -/
def quotedEnd (bs : List UInt8) (line : Nat) (quote : UInt8) (pos : Nat) : Except Fault Nat :=
  if h : pos < bs.length then
    if bs[pos] = byte '\\' then quotedEnd bs line quote (pos + 2)
    else if bs[pos] = quote then .ok (pos + 1)
    else quotedEnd bs line quote (pos + 1)
  else .error (.unterminated { what := .string, line })
termination_by bs.length - pos

/-- Moves behind the bracket that closes an attribute in which `depth` brackets are open. -/
def attributeEnd (bs : List UInt8) (line depth pos : Nat) : Except Fault Nat :=
  if h : pos < bs.length then
    if bs[pos] = byte '[' then attributeEnd bs line (depth + 1) (pos + 1)
    else if bs[pos] = byte ']' then
      if depth = 0 then .error .outside
      else if depth = 1 then .ok (pos + 1)
      else attributeEnd bs line (depth - 1) (pos + 1)
    else if isQuote bs[pos] then
      match quotedEnd bs line bs[pos] (pos + 1) with
      | .ok pos' => if pos < pos' then attributeEnd bs line depth pos' else .error .stuck
      | .error f => .error f
    else attributeEnd bs line depth (pos + 1)
  else .error (.unterminated { what := .attr, line })
termination_by bs.length - pos

/-- Moves behind the label that closes a heredoc, from the start of a line. -/
def closingEnd (bs label : List UInt8) (line pos : Nat) : Except Fault Nat :=
  if pos < bs.length then do
    let start := eatWhile isIndent bs pos
    let rest ← bytesFrom bs start
    if label.isPrefixOf rest && !bs[start + label.length]?.any isNameByte then
      .ok (start + label.length)
    else
      let rest ← bytesFrom bs pos
      match find [byte '\n'] rest with
      | some offset => closingEnd bs label line (pos + offset + 1)
      | none => .error (.unterminated { what := .heredoc, line })
  else .error (.unterminated { what := .heredoc, line })
termination_by bs.length - pos

/-- Moves over a byte, if one is given, that has to stand in front. -/
def over? (bs : List UInt8) (b : Option UInt8) (pos : Nat) : Option Nat :=
  match b with
  | none => some pos
  | some b => if bs[pos]? = some b then some (pos + 1) else none

/-- Moves over a line break that has to stand in front. -/
def overLineBreak? (bs : List UInt8) (pos : Nat) : Option Nat :=
  over? bs (some (byte '\n')) (if bs[pos]? = some (byte '\r') then pos + 1 else pos)

/-- Moves behind a heredoc from its `<<<`, if a header follows. -/
def heredocEnd (bs : List UInt8) (line pos : Nat) : Except Fault (Option Nat) := do
  let i := eatWhile isIndent bs (pos + 3)
  let quote := bs[i]?.filter isQuote
  let start := if quote.isSome then i + 1 else i
  if bs[start]?.any isNameStart then
    let stop := eatWhile isNameByte bs start
    let label ← bytesBetween bs start stop
    match (over? bs quote stop).bind (overLineBreak? bs) with
    | some body => (closingEnd bs label line body).map some
    | none => .ok none
  else .ok none

/-! ## One token -/

/-- The length of the opening tag in front. -/
def openTagLength? (rest : List UInt8) : Option Nat :=
  if 5 ≤ rest.length ∧ (rest.take 5).map foldByte = ['<', '?', 'p', 'h', 'p'].map byte then some 5
  else if startsWith ['<', '?', '='] rest then some 3
  else if startsWith ['<', '?'] rest then some 2
  else none

/-- The next token outside of code: its kind and where it ends. -/
def htmlToken (bs : List UInt8) (pos : Nat) : Except Fault (TokenKind × Nat) := do
  let rest ← bytesFrom bs pos
  match openTagLength? rest with
  | some n => .ok (.openTag, pos + n)
  | none =>
    match find (['<', '?'].map byte) rest with
    | some offset => .ok (.html, pos + offset)
    | none => .ok (.html, bs.length)

/-- The next token in code: its kind and where it ends. -/
def codeToken (bs : List UInt8) (line pos : Nat) : Except Fault (TokenKind × Nat) := do
  let rest ← bytesFrom bs pos
  let b ← byteAt rest 0
  if isBlank b then .ok (.blank, eatWhile isBlank bs pos)
  else if startsWith ['?', '>'] rest then .ok (.closeTag, pos + 2)
  else if startsWith ['#', '['] rest then
    (attributeEnd bs line 1 (pos + 2)).map fun i => (.attr, i)
  else if b = byte '#' ∨ startsWith ['/', '/'] rest then .ok (.comment, lineCommentEnd bs pos)
  else if startsWith ['/', '*'] rest then blockCommentEnd bs line pos
  else if b = byte '\'' ∨ b = byte '"' ∨ b = byte '\x60' then
    (quotedEnd bs line b (pos + 1)).map fun i => (.quoted, i)
  else if startsWith ['<', '<', '<'] rest then
    (heredocEnd bs line pos).map fun
      | some i => (.heredoc, i)
      | none => (.mark, pos + 1)
  else if b = byte '$' ∧ rest[1]?.any isNameStart then
    .ok (.variable, eatWhile isNameByte bs (pos + 1))
  else if isNameStart b then .ok (.word, eatWhile isNameByte bs pos)
  else if isDigit b then .ok (.number, eatWhile isNumberByte bs pos)
  else if b = byte '\\' then .ok (.separator, pos + 1)
  else .ok (.mark, pos + 1)

/-- The next token in the given mode. -/
def token (mode : Mode) (bs : List UInt8) (line pos : Nat) : Except Fault (TokenKind × Nat) :=
  match mode with
  | .html => htmlToken bs pos
  | .code => codeToken bs line pos

/-! ## All tokens -/

/-- The tokens of a text from a position on, where the line is `line`. -/
def tokensFrom (source : String) (mode : Mode) (line pos : Nat) : Except Fault (List Token) :=
  if pos < (ofText source).length then
    match token mode (ofText source) line pos with
    | .error f => .error f
    | .ok (kind, pos') =>
      match textBetween source pos pos' with
      | .error f => .error f
      | .ok text =>
        if pos < pos' then
          let line' := line + (ofText text).count (byte '\n')
          match tokensFrom source (kind.modeAfter mode) line' pos' with
          | .error f => .error f
          | .ok rest => .ok ({ kind, text, line } :: rest)
        else .error .stuck
  else .ok []
termination_by (ofText source).length - pos

/-- Cuts a source text into its tokens. -/
def tokens (source : String) : Except Fault (List Token) :=
  tokensFrom source (if (find (['<', '?'].map byte) (ofText source)).isSome then .html else .code) 1 0

end Bytes
end Source
end Conformance
