import Conformance.Yaml.Cursor

/-!
# `Yaml.ScalarText`: the text that a scalar stands for

Scalars may go over several lines. In plain and quoted scalars a single line break counts as a
space, and of several breaks the first one does not count. Blanks around breaks never count. Blocks
keep their line breaks or join lines in the same way, and their header says what happens to the
breaks at the end.
-/

namespace Conformance
namespace Yaml

/-! ## Gaps between words -/

/-- What stands between two words: blanks on one line, or line breaks. -/
structure Gap where
  blanks : List Char := []
  /-- The first line break. -/
  first : List Char := []
  /-- The line breaks behind the first. -/
  others : List Char := []
  broken : Bool := false
  deriving Inhabited

/-- The text of line breaks: a single one is a space, and of several the first does not count. -/
def foldBreaks (first others : List Char) : List Char :=
  if first.head? == some '\n' then (if others.isEmpty then [' '] else others)
  else first ++ others

namespace Gap

/-- The text that a gap stands for. -/
def text (g : Gap) : List Char :=
  if g.broken then foldBreaks g.first g.others else g.blanks

/-- Takes a gap. On a new line no tab may stand before the column `indent`. -/
def take (indent : Nat) : Nat → Gap → Cursor → Except Fault (Gap × Cursor)
  | 0, g, c => .ok (g, c)
  | fuel + 1, g, c =>
    match c.peek? with
    | none => .ok (g, c)
    | some x =>
      if isBlank x then
        if g.broken && c.column < indent && x == '\t' then .error .tabAsIndentation
        else if g.broken then take indent fuel g c.next
        else take indent fuel { g with blanks := g.blanks ++ [x] } c.next
      else if isBreak x then
        let (b, c) := c.takeBreak
        if g.broken then take indent fuel { g with others := g.others ++ b } c
        else take indent fuel { g with blanks := [], first := b, broken := true } c
      else .ok (g, c)

end Gap

/-! ## Plain scalars -/

/-- Characters that structure lists and records in brackets. -/
def isFlowMark (c : Char) : Bool :=
  c == ',' || c == '[' || c == ']' || c == '\x7b' || c == '\x7d'

/-- Whether a plain scalar ends before the next character. -/
def endsPlain (inFlow : Bool) (c : Cursor) : Bool :=
  (c.sees ':' && c.wordEndsAt 1) || (inFlow && c.seesOne isFlowMark)

/-- Takes a word of a plain scalar. -/
def plainWord (inFlow : Bool) : Nat → Cursor → Except Fault (List Char × Cursor)
  | 0, c => .ok ([], c)
  | fuel + 1, c =>
    match c.peek? with
    | none => .ok ([], c)
    | some x =>
      if isBlank x || isBreak x then .ok ([], c)
      else if inFlow && x == ':' && (c.peekAt? 1).any (fun y => isFlowMark y || y == '?') then
        .error .unexpectedColon
      else if endsPlain inFlow c then .ok ([], c)
      else (plainWord inFlow fuel c.next).map fun (w, c) => (x :: w, c)

/-- Takes the words of a plain scalar behind a gap. Lines behind the first have to be indented
beyond the block around. The flag says whether the scalar ends with its line. -/
def plainText (inFlow : Bool) (indent : Nat) :
    Nat → Gap → Cursor → Except Fault (List Char × Bool × Cursor)
  | 0, _, c => .ok ([], false, c)
  | fuel + 1, before, c =>
    if c.seesDocumentMark || c.sees '#' then .ok ([], before.broken, c)
    else do
      let (w, c) ← plainWord inFlow c.rest.length c
      let text := if w.isEmpty then [] else before.text ++ w
      if !c.seesOne (fun x => isBlank x || isBreak x) then
        pure (text, w.isEmpty && before.broken, c)
      else
        let (gap, c) ← Gap.take indent c.rest.length {} c
        if !inFlow && c.column < indent then pure (text, gap.broken, c)
        else
          let (more, broken, c) ← plainText inFlow indent fuel gap c
          pure (text ++ more, broken, c)

/-! ## Quoted scalars -/

/-- What a letter behind a backslash stands for. -/
def simpleEscape? (c : Char) : Option Char :=
  [('0', '\x00'), ('a', '\x07'), ('b', '\x08'), ('t', '\t'), ('\t', '\t'), ('n', '\n'),
    ('v', '\x0b'), ('f', '\x0c'), ('r', '\r'), ('e', '\x1b'), (' ', ' '), ('"', '"'), ('/', '/'),
    ('\\', '\\'), ('N', '\x85'), ('_', '\xa0'), ('L', '\u2028'), ('P', '\u2029')].lookup c

/-- How many hexadecimal digits follow a letter behind a backslash. -/
def escapeLength? (c : Char) : Option Nat :=
  [('x', 2), ('u', 4), ('U', 8)].lookup c

/-- The value of a hexadecimal digit. -/
def hexValue? (c : Char) : Option Nat :=
  if c.isDigit then some (c.toNat - '0'.toNat)
  else
    let l := c.toLower
    if 'a' ≤ l && l ≤ 'f' then some (l.toNat - 'a'.toNat + 10) else none

/-- The character that an escape behind a backslash stands for, and how many characters it takes. -/
def escape? : List Char → Option (Char × Nat)
  | [] => none
  | c :: cs =>
    match simpleEscape? c with
    | some x => some (x, 1)
    | none => do
      let n ← escapeLength? c
      let digits := cs.take n
      if digits.length < n then none
      else
        let code ← digits.foldlM (fun v d => (hexValue? d).map (16 * v + ·)) 0
        if h : code.isValidChar then some (Char.ofNatAux code h, n + 1) else none

/-- Takes a word of a quoted scalar. The flag says that a backslash at the end of a line ends it. -/
def quotedWord (quote : Char) : Nat → Cursor → Except Fault (List Char × Bool × Cursor)
  | 0, c => .ok ([], false, c)
  | fuel + 1, c =>
    match c.rest with
    | [] => .ok ([], false, c)
    | x :: rest =>
      if isBlank x || isBreak x then .ok ([], false, c)
      else if x == quote then
        if quote == '\'' && rest.head? == some quote then
          (quotedWord quote fuel (c.advance 2)).map fun (w, b, c) => (quote :: w, b, c)
        else .ok ([], false, c)
      else if quote == '"' && x == '\\' then
        if rest.head?.any isBreak then .ok ([], true, c.next.nextLine)
        else
          match escape? rest with
          | none => .error .badEscape
          | some (y, n) =>
            (quotedWord quote fuel (c.advance (n + 1))).map fun (w, b, c) => (y :: w, b, c)
      else (quotedWord quote fuel c.next).map fun (w, b, c) => (x :: w, b, c)

/-- Takes a quoted scalar behind its opening quote. -/
def quotedText (quote : Char) : Nat → Cursor → Except Fault (List Char × Cursor)
  | 0, _ => .error .unclosedQuote
  | fuel + 1, c =>
    if c.seesDocumentMark || c.atEnd then .error .unclosedQuote
    else do
      let (w, broken, c) ← quotedWord quote c.rest.length c
      if c.sees quote then pure (w, c.next)
      else
        let (gap, c) ← Gap.take 0 c.rest.length { broken } c
        let (more, c) ← quotedText quote fuel c
        pure (w ++ gap.text ++ more, c)

/-! ## Blocks -/

/-- What happens to the line breaks at the end of a block. -/
inductive Chomping where
  /-- One is kept. -/
  | clip
  /-- None is kept. -/
  | strip
  /-- All are kept. -/
  | keep
  deriving DecidableEq, Repr, Inhabited

/-- The sign for what happens to line breaks at the end. -/
def chomping? : Option Char → Option Chomping
  | some '+' => some .keep
  | some '-' => some .strip
  | _ => none

/-- A digit for the indentation; zero is refused. -/
def indentation? (c : Option Char) : Except Fault (Option Nat) :=
  match c with
  | some x =>
    if x == '0' then .error .badBlockHeader
    else .ok (if x.isDigit then some (x.toNat - '0'.toNat) else none)
  | none => .ok none

/-- Takes the signs in the header of a block, which come in any order. -/
def blockSigns (c : Cursor) : Except Fault (Chomping × Option Nat × Cursor) :=
  match chomping? c.peek? with
  | some chomping => do
    let n ← indentation? (c.peekAt? 1)
    pure (chomping, n, c.advance (if n.isSome then 2 else 1))
  | none => do
    match ← indentation? c.peek? with
    | none => pure (.clip, none, c)
    | some n =>
      match chomping? (c.peekAt? 1) with
      | some chomping => pure (chomping, some n, c.advance 2)
      | none => pure (.clip, some n, c.advance 1)

/-- Takes indentation and empty lines. Without a known indentation, gives the deepest one seen. -/
def blockGap (indent : Option Nat) :
    Nat → Nat → List Char → Cursor → Except Fault (Nat × List Char × Cursor)
  | 0, deepest, breaks, c => .ok (deepest, breaks, c)
  | fuel + 1, deepest, breaks, c =>
    let room := match indent with
      | some n => n - c.column
      | none => c.rest.length
    let spaces := (c.rest.take room).takeWhile (· == ' ')
    let c := c.advance spaces.length
    let deepest := max deepest c.column
    if indent.all (c.column < ·) && c.sees '\t' then .error .tabAsIndentation
    else if c.seesOne isBreak then
      let (b, c) := c.takeBreak
      blockGap indent fuel deepest (breaks ++ b) c
    else .ok (deepest, breaks, c)

/-- Takes the lines of a block. `first` is the break that ends the line before, `others` are the
breaks of empty lines behind it, and `blankBefore` says that the line before starts with a blank.
Gives the text and the breaks at the end. -/
def blockLines (literal : Bool) (indent : Nat) :
    Nat → (first others : List Char) → (blankBefore : Bool) → Cursor →
      Except Fault (List Char × List Char × List Char × Cursor)
  | 0, first, others, _, c => .ok ([], first, others, c)
  | fuel + 1, first, others, blankBefore, c =>
    if c.column != indent || c.atEnd then .ok ([], first, others, c)
    else do
      let blank := c.seesOne isBlank
      let joint :=
        if !literal && first.head? == some '\n' && !blankBefore && !blank then
          if others.isEmpty then [' '] else others
        else first ++ others
      let (line, c) := c.takeWhile (fun x => !isBreak x)
      let (first, c) := c.takeBreak
      let (_, others, c) ← blockGap (some indent) (c.rest.length + 1) 0 [] c
      let (more, first, others, c) ← blockLines literal indent fuel first others blank c
      pure (joint ++ line ++ more, first, others, c)

/-- Takes a block behind its first sign. `parent` is the column of the block around, if any. -/
def blockText (literal : Bool) (parent : Option Nat) (c : Cursor) :
    Except Fault (List Char × Cursor) := do
  let (chomping, increment, c) ← blockSigns c
  let c := (c.skipWhile isBlank).skipComment
  if !c.lineEndsAt 0 then throw .badBlockHeader
  let (_, c) := c.takeBreak
  let given := increment.map fun n => parent.getD 0 + n
  let (deepest, others, c) ← blockGap given (c.rest.length + 1) 0 [] c
  let least := match parent with
    | some n => n + 1
    | none => 1
  let indent := given.getD (max deepest least)
  let (text, first, others, c) ← blockLines literal indent (c.rest.length + 1) [] others false c
  let ending := match chomping with
    | .clip => first
    | .strip => []
    | .keep => first ++ others
  pure (text ++ ending, c)

end Yaml
end Conformance
