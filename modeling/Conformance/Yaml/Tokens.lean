import Conformance.Yaml.Token

/-!
# `Yaml.Tokens`: the tokens of a whole text

Two things about a token are not decided where it stands. Whether it begins a key is seen only at
the colon behind the key, and then the token for the key goes in front of it. Whether a list or a
record begins or ends is decided by columns. The state of the walk therefore holds the columns of
the lists and records that are open, and for each level of brackets the place at which a key may
have begun.
-/

namespace Conformance
namespace Yaml

/-- A place at which a key may have begun. -/
structure KeyPlace where
  /-- How many tokens come before it. -/
  place : Nat
  index : Nat
  line : Nat
  column : Nat
  /-- The block around is a record, so that nothing but a key can stand there. -/
  required : Bool
  deriving DecidableEq, Repr, Inhabited

/-- The state of a walk over a text. -/
structure TokenState where
  cursor : Cursor
  /-- The tokens so far, the last one first. -/
  tokens : List Token := []
  /-- The columns of the open blocks, the innermost one first. -/
  blocks : List Nat := []
  /-- Where a key may have begun at the current level of brackets. -/
  key : Option KeyPlace := none
  /-- The same for the levels around, the innermost one first. -/
  outerKeys : List (Option KeyPlace) := []
  /-- Whether a key may begin at the next token. -/
  keyAllowed : Bool := true
  deriving Inhabited

namespace TokenState

/-- Whether brackets are open. -/
def inFlow (s : TokenState) : Bool := !s.outerKeys.isEmpty

/-- Puts a token behind the others. -/
def push (s : TokenState) (t : Token) : TokenState := { s with tokens := t :: s.tokens }

/-- Puts tokens in front of those that come after the first `place`. -/
def insertAt (s : TokenState) (place : Nat) (ts : List Token) : TokenState :=
  let behind := s.tokens.length - place
  { s with tokens := s.tokens.take behind ++ ts.reverse ++ s.tokens.drop behind }

/-! ## Keys -/

/-- No key has begun at this level. It is a fault if one had to. -/
def dropKey (s : TokenState) : Except Fault TokenState :=
  if s.key.any (·.required) then .error .missingColon else .ok { s with key := none }

/-- Notes that a key may begin here, if it may. -/
def noteKey (s : TokenState) : Except Fault TokenState :=
  if !s.keyAllowed then .ok s
  else
    s.dropKey.map fun s =>
      let c := s.cursor
      { s with key := some {
          place := s.tokens.length, index := c.index, line := c.line, column := c.column
          required := !s.inFlow && s.blocks.head? == some c.column } }

/-- Keys have at most this many characters. -/
def maxKey : Nat := 1024

/-- Whether a key that began at a place would be too long or on several lines by now. -/
def isStale (c : Cursor) (k : KeyPlace) : Bool := k.line < c.line || k.index + maxKey < c.index

/-- Forgets places of keys that can be none any more. -/
def dropStale (s : TokenState) : Except Fault TokenState :=
  let stale := isStale s.cursor
  if (s.key :: s.outerKeys).any fun k => k.any fun k => stale k && k.required then
    .error .missingColon
  else
    .ok { s with
      key := s.key.filter (!stale ·)
      outerKeys := s.outerKeys.map (·.filter (!stale ·)) }

/-! ## Blocks -/

/-- Whether a column is to the right of all open blocks. -/
def isDeeper (s : TokenState) (column : Nat) : Bool := s.blocks.head?.all (· < column)

/-- Opens a block at a column if it is to the right of the others. Within brackets there are no
blocks. -/
def openBlock (s : TokenState) (column place : Nat) (t : Token) : TokenState :=
  if s.inFlow || !s.isDeeper column then s
  else { s.insertAt place [t] with blocks := column :: s.blocks }

/-- Closes the blocks to the right of a column. -/
def closeBlocks (s : TokenState) (column : Nat) : TokenState :=
  if s.inFlow then s
  else
    let closing := s.blocks.takeWhile (column < ·)
    { s with
      tokens := List.replicate closing.length .blockEnd ++ s.tokens
      blocks := s.blocks.drop closing.length }

/-- Closes all blocks. -/
def closeAll (s : TokenState) : TokenState :=
  if s.inFlow then s
  else
    { s with
      tokens := List.replicate s.blocks.length .blockEnd ++ s.tokens
      blocks := [] }

/-! ## Passing over what is between tokens -/

/-- Passes over blanks, comments and line breaks. Where a key may begin, tabs are no blanks. -/
def skipGap (s : TokenState) : Nat → TokenState
  | 0 => s
  | fuel + 1 =>
    let c := s.cursor
    let c := if c.index == 0 && c.sees byteOrderMark then c.next else c
    let c := c.skipWhile fun x => x == ' ' || ((s.inFlow || !s.keyAllowed) && x == '\t')
    let c := c.skipComment
    if c.seesOne isBreak then
      skipGap { s with cursor := c.nextLine, keyAllowed := s.keyAllowed || !s.inFlow } fuel
    else { s with cursor := c }

/-! ## Single tokens -/

/-- Passes over an indicator of `n` characters and puts its token behind the others. -/
def indicator (s : TokenState) (n : Nat) (t : Token) : TokenState :=
  { s.push t with cursor := s.cursor.advance n }

/-- What closes everything: a directive, or a mark between documents. -/
def endDocument (s : TokenState) : Except Fault TokenState :=
  s.closeAll.dropKey.map fun s => { s with keyAllowed := false }

/-- An opening bracket. What is in brackets may be a key. -/
def openFlow (s : TokenState) (t : Token) : Except Fault TokenState :=
  s.noteKey.map fun s =>
    { s.indicator 1 t with key := none, outerKeys := s.key :: s.outerKeys, keyAllowed := true }

/-- A closing bracket. -/
def closeFlow (s : TokenState) (t : Token) : Except Fault TokenState :=
  s.dropKey.map fun s =>
    let s := match s.outerKeys with
      | [] => s
      | key :: outerKeys => { s with key, outerKeys }
    { s.indicator 1 t with keyAllowed := false }

/-- A comma between brackets. -/
def flowEntry (s : TokenState) : Except Fault TokenState :=
  s.dropKey.map fun s => { s.indicator 1 .flowEntry with keyAllowed := true }

/-- Opens a block for an indicator that can begin one. -/
def openForIndicator (s : TokenState) (t : Token) : Except Fault TokenState :=
  if s.inFlow then .ok s
  else if !s.keyAllowed then .error .misplaced
  else .ok (s.openBlock s.cursor.column s.tokens.length t)

/-- A dash in front of an item of a list. -/
def blockEntry (s : TokenState) : Except Fault TokenState := do
  let s ← s.openForIndicator .blockListStart
  let s ← s.dropKey
  pure { s.indicator 1 .blockEntry with keyAllowed := true }

/-- A question mark in front of a key. -/
def explicitKey (s : TokenState) : Except Fault TokenState := do
  let s ← s.openForIndicator .blockRecordStart
  let s ← s.dropKey
  pure { s.indicator 1 .key with keyAllowed := !s.inFlow }

/-- A colon. If a key may have begun, it has. -/
def colon (s : TokenState) : Except Fault TokenState :=
  match s.key with
  | some k =>
    let s := (s.insertAt k.place [.key]).openBlock k.column k.place .blockRecordStart
    .ok { s.indicator 1 .value with key := none, keyAllowed := false }
  | none =>
    (s.openForIndicator .blockRecordStart).map fun s =>
      { s.indicator 1 .value with keyAllowed := !s.inFlow }

/-- Takes a token that may begin a key, by a reader of its own. -/
def content (s : TokenState) (read : Cursor → Except Fault (Token × Cursor)) :
    Except Fault TokenState := do
  let s ← s.noteKey
  let (t, cursor) ← read s.cursor
  pure { s.push t with cursor, keyAllowed := false }

/-- A block scalar. It is never a key. -/
def blockScalar (s : TokenState) (literal : Bool) : Except Fault TokenState := do
  let s ← s.dropKey
  let (text, cursor) ← blockText literal s.blocks.head? s.cursor.next
  let style : Document.Style := if literal then .literal else .quoted
  pure { s.push (.scalar (String.ofList text) style) with cursor, keyAllowed := true }

/-- A scalar in quotes. -/
def quotedScalar (s : TokenState) (quote : Char) : Except Fault TokenState :=
  s.content fun c => do
    let (text, c) ← quotedText quote (c.rest.length + 1) c.next
    pure (.scalar (String.ofList text) .quoted, c)

/-- A plain scalar. If it ends with its line, a key may begin behind it. -/
def plainScalar (s : TokenState) : Except Fault TokenState := do
  let s ← s.noteKey
  let indent := match s.blocks with
    | [] => 0
    | n :: _ => n + 1
  let (text, broken, cursor) ← plainText s.inFlow indent (s.cursor.rest.length + 1) {} s.cursor
  pure { s.push (.scalar (String.ofList text) .plain) with cursor, keyAllowed := broken }

/-- Characters that do not begin a plain scalar, unless what follows makes them. -/
def isIndicator (c : Char) : Bool :=
  "-?:,[]\x7b\x7d#&*!|>'\"%@\x60".toList.contains c

/-- Whether a plain scalar begins here. -/
def beginsPlain (s : TokenState) (x : Char) : Bool :=
  !(isBlank x || isBreak x || isIndicator x)
    || (x == '-' && !s.cursor.next.seesOne isBlank)
    || (!s.inFlow && (x == '?' || x == ':') && !s.cursor.wordEndsAt 1)

/-- Takes the token that begins with the next character `x`. -/
def takeToken (s : TokenState) (x : Char) : Except Fault TokenState :=
  let c := s.cursor
  if c.column == 0 && x == '%' then do
    let s ← s.endDocument
    let (t, cursor) ← directive s.cursor
    pure { s.push t with cursor }
  else if c.seesMark '-' then s.endDocument.map (·.indicator 3 .documentStart)
  else if c.seesMark '.' then s.endDocument.map (·.indicator 3 .documentEnd)
  else if x == '[' then s.openFlow .flowListStart
  else if x == '\x7b' then s.openFlow .flowRecordStart
  else if x == ']' then s.closeFlow .flowListEnd
  else if x == '\x7d' then s.closeFlow .flowRecordEnd
  else if x == ',' then s.flowEntry
  else if x == '-' && c.wordEndsAt 1 then s.blockEntry
  else if x == '?' && (s.inFlow || c.wordEndsAt 1) then s.explicitKey
  else if x == ':' && (s.inFlow || c.wordEndsAt 1) then s.colon
  else if x == '*' then s.content fun c => (nodeName c).map fun (n, c) => (.reference n, c)
  else if x == '&' then s.content fun c => (nodeName c).map fun (n, c) => (.anchor n, c)
  else if x == '!' then s.content (tagToken s.inFlow)
  else if x == '|' && !s.inFlow then s.blockScalar true
  else if x == '>' && !s.inFlow then s.blockScalar false
  else if x == '\'' || x == '"' then s.quotedScalar x
  else if s.beginsPlain x then s.plainScalar
  else .error .misplaced

/-- Takes all tokens to the end of the text. -/
def takeAll : Nat → TokenState → Except Fault (List Token)
  | 0, _ => .error .misplaced
  | fuel + 1, s => do
    let s ← (s.skipGap (s.cursor.rest.length + 1)).dropStale
    match s.cursor.peek? with
    | some x =>
      let s ← (s.closeBlocks s.cursor.column).takeToken x
      takeAll fuel s
    | none =>
      let s ← s.closeAll.dropKey
      pure s.tokens.reverse

end TokenState

/-- The tokens of a text. A byte order mark in front does not count. -/
def tokens (text : String) : Except Fault (List Token) :=
  if !text.toList.all isAllowed then .error .badCharacter
  else
    let rest := match text.toList with
      | [] => []
      | c :: cs => if c == byteOrderMark then cs else c :: cs
    TokenState.takeAll (rest.length + 2) { cursor := { rest } }

end Yaml
end Conformance
