import Conformance.Pattern.Tree
import Conformance.Text.Blank
import Conformance.Unicode.GeneralCategory

/-!
# `Pattern.Reader`: from the text of a pattern to its tree

Escapes, classes, counts and groups are read by functions that take the text in front and give
what they read with the text behind it. Nesting is kept on explicit stacks: one for groups, and
inside brackets one for classes and their operations. Every step takes at least one character, so
the length of the text bounds the number of steps.
-/

namespace Conformance
namespace Pattern

/-! ## Blanks in verbose patterns -/

/-- Skips what a verbose pattern ignores: blanks, and comments from `#` to the end of the line. -/
def skipVerbose (inComment : Bool) : List Char → List Char
  | [] => []
  | c :: cs =>
    if inComment then skipVerbose (c != '\n') cs
    else if c == '#' then skipVerbose true cs
    else if Text.isBlank c then skipVerbose false cs
    else c :: cs

/-- Skips what does not count at this place. -/
def skip (verbose : Bool) (cs : List Char) : List Char :=
  if verbose then skipVerbose false cs else cs

/-! ## Escapes -/

/-- What a single character or escape stands for. -/
inductive Item where
  | literal (c : Char) (isByte : Bool)
  | set (chars : CharSet)
  | assertion (kind : Assertion)
  deriving Repr, Inhabited

/-- Characters with a meaning of their own in patterns. -/
def metaCharacters : List Char := "\\.+*?()|[]\x7b\x7d^$#&-~".toList

/-- Characters that a backslash turns into themselves. -/
def isEscapable (c : Char) : Bool :=
  metaCharacters.contains c
    || (c.toNat < 0x80 && !c.isAlphanum && c != '<' && c != '>')

/-- Hexadecimal digits in either case. -/
def isHexDigit (c : Char) : Bool :=
  c.isDigit || ('a' ≤ c && c ≤ 'f') || ('A' ≤ c && c ≤ 'F')

/-- The character with the number that the digits give. -/
def characterOf? (digits : List Char) : Except Fault Char :=
  let n := Unicode.hexValue (digits.map Char.toUpper)
  if n.isValidChar then .ok (Char.ofNat n) else .error .badCharacterNumber

/-- Takes `count` hexadecimal digits. -/
def hexDigits (verbose : Bool) : Nat → List Char → Except Fault (List Char × List Char)
  | 0, cs => .ok ([], cs)
  | _ + 1, [] => .error .unfinishedEscape
  | count + 1, c :: cs => do
    if !isHexDigit c then throw .badCharacterNumber
    let (ds, rest) ← hexDigits verbose count (skip verbose cs)
    pure (c :: ds, rest)

/-- Takes characters up to a closing brace. -/
def untilBrace (verbose : Bool) : Nat → List Char → Except Fault (List Char × List Char)
  | _, [] => .error .unfinishedEscape
  | 0, _ => .error .unfinishedEscape
  | fuel + 1, c :: cs =>
    if c == '\x7d' then .ok ([], cs)
    else do
      let (inner, rest) ← untilBrace verbose fuel (skip verbose cs)
      pure (c :: inner, rest)

/-- A character by number: behind `x`, `u` or `U` stand two, four or eight digits, or any number
of them in braces. -/
def hexEscape (verbose : Bool) (kind : Char) (cs : List Char) :
    Except Fault (Item × List Char) := do
  match skip verbose cs with
  | [] => throw .unfinishedEscape
  | '\x7b' :: cs =>
    let (ds, rest) ← untilBrace verbose cs.length (skip verbose cs)
    if ds.isEmpty || !ds.all isHexDigit then throw .badCharacterNumber
    pure (.literal (← characterOf? ds) false, rest)
  | cs =>
    let count := if kind == 'x' then 2 else if kind == 'u' then 4 else 8
    let (ds, rest) ← hexDigits verbose count cs
    pure (.literal (← characterOf? ds) (kind == 'x'), rest)

/-- Splits a text at the first occurrence of a mark. -/
def splitAtFirst (mark : List Char) : List Char → Option (List Char × List Char)
  | [] => none
  | c :: cs =>
    if mark.isPrefixOf (c :: cs) then some ([], (c :: cs).drop mark.length)
    else (splitAtFirst mark cs).map fun (before, behind) => (c :: before, behind)

/-- The property that the text between braces asks for. -/
def propertyOf (negated : Bool) (text : List Char) : CharSet :=
  match splitAtFirst ['!', '='] text with
  | some (name, value) => .property (String.ofList name) (some (String.ofList value)) !negated
  | none =>
    match splitAtFirst [':'] text <|> splitAtFirst ['='] text with
    | some (name, value) => .property (String.ofList name) (some (String.ofList value)) negated
    | none => .property (String.ofList text) none negated

/-- A property of characters: one letter, or a name in braces. -/
def propertyEscape (verbose negated : Bool) (cs : List Char) :
    Except Fault (Item × List Char) := do
  match skip verbose cs with
  | [] => throw .unfinishedEscape
  | '\x7b' :: cs =>
    let (text, rest) ← untilBrace verbose cs.length (skip verbose cs)
    pure (.set (propertyOf negated text), rest)
  | '\\' :: _ => throw .unknownProperty
  | c :: cs => pure (.set (.property (String.singleton c) none negated), skip verbose cs)

/-- The characters that the names of word boundaries are made of. -/
def isBoundaryNameChar (c : Char) : Bool := c.isAlpha || c == '-'

/-- The kind of boundary that a name in braces stands for. -/
def boundaryOfName? (name : List Char) : Option Assertion :=
  [("start", Assertion.wordStart), ("end", .wordEnd), ("start-half", .wordStartHalf),
    ("end-half", .wordEndHalf)].lookup (String.ofList name)

/-- Takes the characters of the name of a word boundary. -/
def boundaryName (verbose : Bool) : Nat → List Char → List Char × List Char
  | fuel + 1, c :: cs =>
    if isBoundaryNameChar c then
      let (name, rest) := boundaryName verbose fuel (skip verbose cs)
      (c :: name, rest)
    else ([], c :: cs)
  | _, cs => ([], cs)

/-- What stands behind `\b`: a name in braces makes it a special boundary. Braces with anything
else in them are left for a count. -/
def boundaryEscape (verbose : Bool) (cs : List Char) : Except Fault (Item × List Char) := do
  match cs with
  | '\x7b' :: inner =>
    match skip verbose inner with
    | [] => throw .badWordBoundary
    | c :: cs' =>
      if !isBoundaryNameChar c then pure (.assertion .wordBoundary, cs)
      else
        let (name, rest) := boundaryName verbose (cs'.length + 1) (c :: cs')
        match rest, boundaryOfName? name with
        | '\x7d' :: rest, some kind => pure (.assertion kind, rest)
        | _, _ => throw .badWordBoundary
  | _ => pure (.assertion .wordBoundary, cs)

/-- The control characters that letters stand for. -/
def controlOf? (c : Char) : Option Char :=
  [('a', '\x07'), ('f', '\x0c'), ('t', '\t'), ('n', '\n'), ('r', '\r'), ('v', '\x0b')].lookup c

/-- The class of characters that a letter stands for; a capital stands for all others. -/
def shorthandOf? (c : Char) : Option (Shorthand × Bool) :=
  [('d', (Shorthand.digit, false)), ('D', (.digit, true)), ('s', (.space, false)),
    ('S', (.space, true)), ('w', (.word, false)), ('W', (.word, true))].lookup c

/-- The condition that a letter or an angle bracket stands for. -/
def assertionOf? (c : Char) : Option Assertion :=
  [('A', Assertion.startText), ('z', .endText), ('B', .notWordBoundary), ('<', .wordStart),
    ('>', .wordEnd)].lookup c

/-- Reads an escape behind its backslash. -/
def escape (verbose : Bool) : List Char → Except Fault (Item × List Char)
  | [] => .error .unfinishedEscape
  | c :: cs =>
    if c.isDigit then .error .backReference
    else if c == 'x' || c == 'u' || c == 'U' then hexEscape verbose c cs
    else if c == 'p' || c == 'P' then propertyEscape verbose (c == 'P') cs
    else
      match shorthandOf? c with
      | some (kind, negated) => .ok (.set (.shorthand kind negated), cs)
      | none =>
        if isEscapable c then .ok (.literal c false, cs)
        else if c == 'b' then boundaryEscape verbose cs
        else
          match controlOf? c, assertionOf? c with
          | some control, _ => .ok (.literal control false, cs)
          | none, some kind => .ok (.assertion kind, cs)
          | none, none => .error .unknownEscape

/-! ## Classes in brackets -/

/-- A bracket that is open, or an operation whose right side is being read. -/
inductive ClassFrame where
  | bracket (outer : List CharSet) (negated : Bool)
  | operation (kind : SetOperation) (left : CharSet)
  deriving Repr, Inhabited

/-- The class of the items read so far, the latest one first. -/
def unionOf : List CharSet → CharSet
  | [s] => s
  | items => .union items.reverse

/-- Completes an operation that waits for its right side. -/
def completeOperation (items : List CharSet) : List ClassFrame → CharSet × List ClassFrame
  | .operation kind left :: stack => (.combined kind left (unionOf items), stack)
  | stack => (unionOf items, stack)

/-- Takes hyphens at the start of a class. -/
def leadingHyphens (verbose : Bool) :
    Nat → List Char → List CharSet → Except Fault (List CharSet × List Char)
  | _, [], _ => .error .unclosedClass
  | fuel + 1, '-' :: cs, items =>
    leadingHyphens verbose fuel (skip verbose cs) (.single '-' :: items)
  | _, cs, items => .ok (items, cs)

/-- Opens a bracket: behind it may stand a negation, hyphens, and a closing bracket that is meant
as a character. -/
def openBracket (verbose : Bool) (cs : List Char) :
    Except Fault (Bool × List CharSet × List Char) := do
  let cs := skip verbose cs
  let negated := cs.head? == some '^'
  let cs := if negated then skip verbose (cs.drop 1) else cs
  let (items, cs) ← leadingHyphens verbose cs.length cs []
  match items, cs with
  | [], ']' :: cs =>
    let cs := skip verbose cs
    if cs.isEmpty then throw .unclosedClass
    pure (negated, [.single ']'], cs)
  | items, cs => pure (negated, items, cs)

/-- The ASCII class with a name. -/
def asciiClassOf? (name : List Char) : Option AsciiClass :=
  [("alnum", AsciiClass.alnum), ("alpha", .alpha), ("ascii", .ascii), ("blank", .blank),
    ("cntrl", .cntrl), ("digit", .digit), ("graph", .graph), ("lower", .lower),
    ("print", .print), ("punct", .punct), ("space", .space), ("upper", .upper), ("word", .word),
    ("xdigit", .xdigit)].lookup (String.ofList name)

/-- Reads `[:name:]` or `[:^name:]` behind its bracket, if that is what stands there. -/
def asciiClass? : List Char → Option (CharSet × List Char)
  | ':' :: cs =>
    let negated := cs.head? == some '^'
    let cs := if negated then cs.drop 1 else cs
    let name := cs.takeWhile (· != ':')
    match cs.drop name.length, asciiClassOf? name with
    | ':' :: ']' :: rest, some kind => some (.ascii kind negated, rest)
    | _, _ => none
  | _ => none

/-- Reads a character or an escape inside brackets. -/
def classItem (verbose : Bool) : List Char → Except Fault (Item × List Char)
  | [] => .error .unclosedClass
  | '\\' :: cs => escape verbose cs
  | c :: cs => .ok (.literal c false, cs)

/-- Whether a hyphen in front makes a range: it does not before a bracket or another hyphen. -/
def startsRange (verbose : Bool) : List Char → Bool
  | '-' :: cs =>
    let next := (skip verbose cs).head?
    next != some ']' && next != some '-'
  | _ => false

/-- Reads a character, an escape or a range inside brackets. -/
def classRange (verbose : Bool) (cs : List Char) : Except Fault (CharSet × List Char) := do
  let (first, rest) ← classItem verbose cs
  let rest := skip verbose rest
  if rest.isEmpty then throw .unclosedClass
  if startsRange verbose rest then
    let rest := skip verbose (rest.drop 1)
    if rest.isEmpty then throw .unclosedClass
    let (last, rest) ← classItem verbose rest
    match first, last with
    | .literal a _, .literal b _ =>
      if b < a then throw .classRangeOutOfOrder
      pure (.range a b, rest)
    | _, _ => throw .badClassItem
  else
    match first with
    | .literal c _ => pure (.single c, rest)
    | .set chars => pure (chars, rest)
    | .assertion _ => throw .badClassItem

/-- The operation between two classes that stands in front, if one does. -/
def operationOf? : List Char → Option (SetOperation × List Char)
  | '&' :: '&' :: cs => some (.intersection, cs)
  | '-' :: '-' :: cs => some (.difference, cs)
  | '~' :: '~' :: cs => some (.symmetricDifference, cs)
  | _ => none

/-- Reads a class from inside its first bracket on. `items` are the items of the innermost open
bracket or operation, the latest one first. -/
def classBody (verbose : Bool) :
    Nat → List ClassFrame → List CharSet → List Char → Except Fault (CharSet × List Char)
  | 0, _, _, _ => .error .unclosedClass
  | fuel + 1, stack, items, cs => do
    let cs := skip verbose cs
    match cs with
    | [] => throw .unclosedClass
    | '[' :: inner =>
      match asciiClass? inner with
      | some (set, rest) => classBody verbose fuel stack (set :: items) rest
      | none =>
        let (negated, first, rest) ← openBracket verbose inner
        classBody verbose fuel (.bracket items negated :: stack) first rest
    | ']' :: rest =>
      match completeOperation items stack with
      | (inner, .bracket outer negated :: stack) =>
        let set := CharSet.bracket negated inner
        if stack.isEmpty then pure (set, rest)
        else classBody verbose fuel stack (set :: outer) rest
      | _ => throw .unclosedClass
    | _ =>
      match operationOf? cs with
      | some (kind, rest) =>
        let (left, stack) := completeOperation items stack
        classBody verbose fuel (.operation kind left :: stack) [] rest
      | none =>
        let (set, rest) ← classRange verbose cs
        classBody verbose fuel stack (set :: items) rest

/-- Reads a class behind its opening bracket. -/
def bracketClass (verbose : Bool) (cs : List Char) : Except Fault (CharSet × List Char) := do
  let (negated, items, rest) ← openBracket verbose cs
  classBody verbose (cs.length + 1) [.bracket [] negated] items rest

/-! ## Counts -/

/-- Counts do not go beyond this. -/
def maxCount : Nat := Nat.pow 2 32 - 1

/-- Takes digits. -/
def countDigits (verbose : Bool) : Nat → List Char → List Char × List Char
  | fuel + 1, c :: cs =>
    if c.isDigit then
      let (ds, rest) := countDigits verbose fuel (skip verbose cs)
      (c :: ds, rest)
    else ([], c :: cs)
  | _, cs => ([], cs)

/-- Reads a number with blanks around it; `none` if no digit stands there. -/
def countNumber (verbose : Bool) (cs : List Char) : Except Fault (Option Nat × List Char) :=
  let cs := cs.dropWhile Text.isBlank
  let (ds, rest) := countDigits verbose cs.length cs
  let rest := skip verbose (rest.dropWhile Text.isBlank)
  if ds.isEmpty then .ok (none, rest)
  else
    let n := ds.foldl (fun n c => 10 * n + (c.toNat - '0'.toNat)) 0
    if maxCount < n then .error .countTooLarge else .ok (some n, rest)

/-- Reads the bounds of a repetition behind the opening brace, through the closing one. -/
def counts (verbose : Bool) (cs : List Char) : Except Fault ((Nat × Option Nat) × List Char) := do
  let cs := skip verbose cs
  if cs.isEmpty then throw .unclosedCount
  let (least, rest) ← countNumber verbose cs
  let (bounds, rest) ← match rest with
    | [] => throw .unclosedCount
    | ',' :: rest =>
      match skip verbose rest with
      | [] => throw .unclosedCount
      | '\x7d' :: rest =>
        match least with
        | some n => pure ((n, none), '\x7d' :: rest)
        | none => throw .emptyCount
      | rest =>
        match least, ← countNumber verbose rest with
        | some n, (some m, rest) => pure ((n, some m), rest)
        | _, _ => throw .emptyCount
    | rest =>
      match least with
      | some n => pure ((n, some n), rest)
      | none => throw .emptyCount
  match rest with
  | '\x7d' :: rest =>
    if bounds.2.any (· < bounds.1) then throw .countOutOfOrder
    pure (bounds, rest)
  | _ => throw .unclosedCount

/-! ## Groups -/

/-- The flag that a letter stands for. -/
def flagOf? (c : Char) : Option Flag :=
  [('i', Flag.ignoreCase), ('m', .multiLine), ('s', .dotTakesBreaks), ('U', .swapGreed),
    ('u', .unicode), ('R', .carriageReturns), ('x', .verbose)].lookup c

/-- Reads flags up to a colon or a closing parenthesis, which is left in front. A hyphen switches
off what follows it. -/
def flagChanges (on : Bool) (changes : FlagChanges) :
    List Char → Except Fault (FlagChanges × List Char)
  | [] => .error .badFlags
  | c :: cs =>
    if c == ':' || c == ')' then .ok (changes.reverse, c :: cs)
    else if c == '-' then
      match cs with
      | next :: _ =>
        if !on || next == ':' || next == ')' then .error .badFlags
        else flagChanges false changes cs
      | [] => .error .badFlags
    else
      match flagOf? c with
      | none => .error .badFlags
      | some flag =>
        if changes.any (·.1 == flag) then .error .badFlags
        else flagChanges on ((flag, on) :: changes) cs

/-- The characters that names of groups are made of. -/
def isGroupNameChar (isFirst : Bool) (c : Char) : Bool :=
  c == '_' || Unicode.isAlphabetic c
    || (!isFirst && (c == '.' || c == '[' || c == ']' || Unicode.isNumeric c))

/-- Reads the name of a group through the closing angle bracket. -/
def groupName (cs : List Char) : Except Fault (List Char × List Char) :=
  let name := cs.takeWhile (· != '>')
  let isGood := match name with
    | [] => false
    | c :: rest => isGroupNameChar true c && rest.all (isGroupNameChar false)
  match cs.drop name.length with
  | '>' :: rest => if isGood then .ok (name, rest) else .error .badGroupName
  | _ => .error .badGroupName

/-! ## The whole pattern -/

/-- What was read around an open group. -/
structure GroupFrame where
  changes : FlagChanges
  branches : List Tree
  parts : List Tree
  verbose : Bool
  deriving Repr, Inhabited

/-- A reading in progress: the finished branches and the parts of the current one, both with the
latest first, the open groups and the names of groups. -/
structure Progress where
  branches : List Tree := []
  parts : List Tree := []
  stack : List GroupFrame := []
  verbose : Bool := false
  names : List (List Char) := []
  deriving Repr, Inhabited

namespace Progress

/-- The parts of a branch as one tree. -/
def branchOf : List Tree → Tree
  | [] => .empty
  | [t] => t
  | parts => .concat parts.reverse

/-- What was read in the innermost group. -/
def body (p : Progress) : Tree :=
  match p.branches with
  | [] => branchOf p.parts
  | branches => .alternation ((branchOf p.parts :: branches).reverse)

/-- Adds a part to the current branch. -/
def push (p : Progress) (t : Tree) : Progress := { p with parts := t :: p.parts }

/-- Repeats the last part. Flags cannot be repeated. -/
def repeatLast (p : Progress) (least : Nat) (most : Option Nat) : Except Fault Progress :=
  match p.parts with
  | [] | .flags _ :: _ => .error .nothingToRepeat
  | t :: parts => .ok { p with parts := .repeated t least most :: parts }

/-- Whether a verbose pattern is read after some flags. -/
def verboseAfter (changes : FlagChanges) (verbose : Bool) : Bool :=
  (changes.lookup .verbose).getD verbose

/-- Opens a group. -/
def openGroup (p : Progress) (changes : FlagChanges) : Progress :=
  { p with
    branches := []
    parts := []
    stack := { changes, branches := p.branches, parts := p.parts, verbose := p.verbose } :: p.stack
    verbose := verboseAfter changes p.verbose }

/-- Closes the innermost group. -/
def closeGroup (p : Progress) : Except Fault Progress :=
  match p.stack with
  | [] => .error .unopenedGroup
  | frame :: stack =>
    .ok { p with
      branches := frame.branches
      parts := .group frame.changes p.body :: frame.parts
      stack
      verbose := frame.verbose }

/-- Opens a group with a name. -/
def openNamed (p : Progress) (cs : List Char) : Except Fault (Progress × List Char) := do
  let (name, rest) ← groupName cs
  if p.names.contains name then throw .repeatedGroupName
  pure ({ p.openGroup [] with names := name :: p.names }, rest)

/-- Reads what stands behind an opening parenthesis. -/
def groupStart (p : Progress) (cs : List Char) : Except Fault (Progress × List Char) := do
  match skip p.verbose cs with
  | '?' :: '=' :: _ | '?' :: '!' :: _ | '?' :: '<' :: '=' :: _ | '?' :: '<' :: '!' :: _ =>
    throw .lookAround
  | '?' :: 'P' :: '<' :: cs => p.openNamed cs
  | '?' :: '<' :: cs => p.openNamed cs
  | '?' :: cs =>
    if cs.isEmpty then throw .unclosedGroup
    let (changes, rest) ← flagChanges true [] cs
    if rest.head? == some ':' then pure (p.openGroup changes, rest.drop 1)
    else if changes.isEmpty then throw .nothingToRepeat
    else
      pure ({ p.push (.flags changes) with verbose := verboseAfter changes p.verbose },
        rest.drop 1)
  | cs => pure (p.openGroup [], cs)

/-- Takes the mark that makes a repetition as short as possible; it does not change what matches. -/
def dropLazy (cs : List Char) : List Char :=
  if cs.head? == some '?' then cs.drop 1 else cs

/-- Reads the next part behind its first character `c`. -/
def step (p : Progress) (c : Char) (cs : List Char) : Except Fault (Progress × List Char) := do
  match c with
  | '(' => p.groupStart cs
  | ')' => pure (← p.closeGroup, cs)
  | '|' => pure ({ p with branches := branchOf p.parts :: p.branches, parts := [] }, cs)
  | '[' =>
    let (set, rest) ← bracketClass p.verbose cs
    pure (p.push (.set set), rest)
  | '?' => pure (← p.repeatLast 0 (some 1), dropLazy cs)
  | '*' => pure (← p.repeatLast 0 none, dropLazy cs)
  | '+' => pure (← p.repeatLast 1 none, dropLazy cs)
  | '\x7b' =>
    -- nothing to repeat is the first thing to be reported
    let _ ← p.repeatLast 0 none
    let ((least, most), rest) ← counts p.verbose cs
    pure (← p.repeatLast least most, dropLazy (skip p.verbose rest))
  | '.' => pure (p.push .dot, cs)
  | '^' => pure (p.push (.assertion .startLine), cs)
  | '$' => pure (p.push (.assertion .endLine), cs)
  | '\\' =>
    let (item, rest) ← escape p.verbose cs
    let tree := match item with
      | .literal c isByte => Tree.literal c isByte
      | .set chars => .set chars
      | .assertion kind => .assertion kind
    pure (p.push tree, rest)
  | c => pure (p.push (.literal c false), cs)

/-- Reads all parts. -/
def run : Nat → Progress → List Char → Except Fault Progress
  | 0, p, _ => .ok p
  | fuel + 1, p, cs =>
    match skip p.verbose cs with
    | [] => .ok p
    | c :: cs => do
      let (p, rest) ← p.step c cs
      run fuel p rest

end Progress

/-- Reads a pattern. -/
def Tree.ofText (text : String) : Except Fault Tree := do
  let cs := text.toList
  let p ← Progress.run (cs.length + 1) {} cs
  if !p.stack.isEmpty then throw .unclosedGroup
  let tree := p.body
  if maxDepth < tree.depth then throw .nestedTooDeeply
  pure tree

end Pattern
end Conformance
