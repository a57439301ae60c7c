import Conformance.Pattern.Reader
import Conformance.Regular.Expr
import Conformance.Unicode.CaseFolding
import Conformance.Unicode.Script

/-!
# `Pattern.Meaning`: the regular expression that a pattern stands for

Flags are carried from left to right through a pattern: a change inside a group lasts to the end
of the group. Under the flag `u`, which is set at first, classes speak of Unicode. Without it they
speak of bytes; then only ASCII may stand in them, and none of them, nor a part of one in brackets,
may hold a byte beyond ASCII.

The properties of characters that patterns may ask for are the general categories, the scripts and those of
`binaryOf?`. Script extensions are taken for scripts. No other property is known, so a pattern that asks for
one has no meaning here.
-/

namespace Conformance
namespace Pattern

/-- The flags in force at a place of a pattern. -/
structure Flags where
  ignoreCase : Bool := false
  multiLine : Bool := false
  dotTakesBreaks : Bool := false
  carriageReturns : Bool := false
  unicode : Bool := true
  deriving DecidableEq, Repr, Inhabited

/-- The flags after some changes. -/
def Flags.apply (flags : Flags) (changes : FlagChanges) : Flags :=
  changes.foldl (fun flags (flag, on) =>
    match flag with
    | .ignoreCase => { flags with ignoreCase := on }
    | .multiLine => { flags with multiLine := on }
    | .dotTakesBreaks => { flags with dotTakesBreaks := on }
    | .carriageReturns => { flags with carriageReturns := on }
    | .unicode => { flags with unicode := on }
    | .swapGreed | .verbose => flags) flags

/-! ## Properties -/

/-- The form in which names of properties are compared: small letters and no blanks, hyphens or
underscores; a leading `is` does not count. -/
def looseName (name : String) : String :=
  let cs := name.toList.map Char.toLower
  let startsIs := ['i', 's'].isPrefixOf cs
  let kept := (if startsIs then cs.drop 2 else cs).filter fun c =>
    c != ' ' && c != '_' && c != '-' && c.toNat < 0x80
  if startsIs && kept == ['c'] then "isc" else String.ofList kept

/-- Whether one of the names is the loose name. -/
def isNamed (loose : String) (names : List String) : Bool :=
  names.any fun n => looseName n == loose

/-- Further names of kinds and groups of kinds. -/
def kindAliases : List (String × String) :=
  [("punct", "P"), ("digit", "Nd"), ("cntrl", "Cc"), ("combiningmark", "M")]

/-- The characters of the kind or group of kinds with a loose name. -/
def kindOf? (loose : String) : Option (Char → Bool) :=
  if loose == "any" then some fun _ => true
  else if loose == "assigned" then some Unicode.isAssigned
  else if loose == "ascii" then some fun c => c.toNat < 0x80
  else
    let loose := ((kindAliases.lookup loose).map looseName).getD loose
    if isNamed loose ["Cn", "Unassigned"] then some fun c => !Unicode.isAssigned c
    else
      match Unicode.kinds.find? fun k => isNamed loose [k.short, k.long] with
      | some k => some k.contains
      | none =>
        (Unicode.groups.find? fun (short, long, _) => isNamed loose [short, long]).map
          fun (_, _, members) c => members.any (Unicode.hasKind · c)

/-- The characters of the script with a loose name. -/
def scriptOf? (loose : String) : Option (Char → Bool) :=
  (Unicode.scripts.find? fun s => isNamed loose s.names).map Unicode.Script.contains

/-- The characters with a property that is either there or not. -/
def binaryOf? (loose : String) : Option (Char → Bool) :=
  if isNamed loose ["Alphabetic", "Alpha"] then some Unicode.isAlphabetic
  else if isNamed loose ["Lowercase", "Lower"] then some Unicode.isLowercase
  else if isNamed loose ["Uppercase", "Upper"] then some Unicode.isUppercase
  else if isNamed loose ["White_Space", "space", "WSpace"] then some Text.isBlank
  else if isNamed loose ["Grapheme_Extend", "Gr_Ext"] then some Unicode.isGraphemeExtend
  else none

/-- The characters that a property with an optional value asks for. -/
def propertyOf? (name : String) (value : Option String) : Option (Char → Bool) :=
  let loose := looseName name
  match value with
  | none => binaryOf? loose <|> kindOf? loose <|> scriptOf? loose
  | some value =>
    if isNamed loose ["General_Category", "gc"] then kindOf? (looseName value)
    else if isNamed loose ["Script", "sc", "Script_Extensions", "scx"] then
      scriptOf? (looseName value)
    else none

/-! ## Classes -/

/-- The members of a named class of ASCII characters. -/
def AsciiClass.contains (kind : AsciiClass) (c : Char) : Bool :=
  let n := c.toNat
  match kind with
  | alnum => c.isAlphanum
  | alpha => c.isAlpha
  | ascii => n < 0x80
  | blank => c == ' ' || c == '\t'
  | cntrl => n < 0x20 || n == 0x7F
  | digit => c.isDigit
  | graph => 0x21 ≤ n && n ≤ 0x7E
  | lower => c.isLower
  | print => 0x20 ≤ n && n ≤ 0x7E
  | punct => 0x21 ≤ n && n ≤ 0x7E && !c.isAlphanum
  | space => c == ' ' || (0x9 ≤ n && n ≤ 0xD)
  | upper => c.isUpper
  | word => c.isAlphanum || c == '_'
  | xdigit => isHexDigit c

/-- The members of a class that a letter stands for. -/
def Shorthand.contains (unicode : Bool) (kind : Shorthand) (c : Char) : Bool :=
  match kind, unicode with
  | digit, true => Unicode.isDecimalDigit c
  | space, true => Text.isBlank c
  | word, true => Unicode.isWordChar c
  | digit, false => c.isDigit
  | space, false => AsciiClass.space.contains c
  | word, false => AsciiClass.word.contains c

/-- Extends a class by the case variants of its members, where case does not matter. -/
def foldSet (flags : Flags) (p : Char → Bool) (c : Char) : Bool :=
  if !flags.ignoreCase then p c
  else if flags.unicode then (Unicode.caseVariants c).any p
  else p c || p c.toLower || p c.toUpper

/-- All characters but the members of a class, if it is negated. -/
def negateIf (negated : Bool) (p : Char → Bool) (c : Char) : Bool :=
  p c != negated

/-- Whether a character may stand in a class: without Unicode only ASCII. -/
def mayStand (flags : Flags) (c : Char) : Bool :=
  flags.unicode || c.toNat < 0x80

/-- Whether a class of bytes holds ASCII characters alone. -/
def isAsciiOnly (p : Char → Bool) : Bool :=
  (List.range 128).all fun n => !p (Char.ofNat (n + 128))

/-- A class that may be used: without Unicode it must not hold bytes beyond ASCII, which are no
characters. -/
def usable (flags : Flags) (p : Char → Bool) : Except Fault (Char → Bool) :=
  if flags.unicode then .ok p
  else if isAsciiOnly p then .ok fun c => c.toNat < 0x80 && p c
  else .error .needsBytes

/-- The members of a class. -/
def CharSet.members (flags : Flags) : CharSet → Except Fault (Char → Bool)
  | single c => if mayStand flags c then .ok (· == c) else .error .needsUnicode
  | range first last =>
    if mayStand flags last then .ok fun c => first ≤ c && c ≤ last else .error .needsUnicode
  | shorthand kind negated => usable flags (negateIf negated (kind.contains flags.unicode))
  | ascii kind negated => usable flags (negateIf negated (foldSet flags kind.contains))
  | property name value negated =>
    if !flags.unicode then .error .needsUnicode
    else
      match propertyOf? name value with
      | some p => .ok (negateIf negated (foldSet flags p))
      | none => .error .unknownProperty
  | union items => do
    let ps ← membersOfAll flags items
    pure fun c => ps.any (· c)
  | bracket negated inner => do
    let p ← inner.members flags
    usable flags (negateIf negated (foldSet flags p))
  | combined operation left right => do
    let p ← left.members flags
    let q ← right.members flags
    let p := foldSet flags p
    let q := foldSet flags q
    pure fun c =>
      match operation with
      | .intersection => p c && q c
      | .difference => p c && !q c
      | .symmetricDifference => p c != q c
where
  /-- The members of each class in a list. -/
  membersOfAll (flags : Flags) : List CharSet → Except Fault (List (Char → Bool))
    | [] => .ok []
    | s :: rest => do
      let p ← s.members flags
      let ps ← membersOfAll flags rest
      pure (p :: ps)

/-! ## Positions -/

/-- The condition that an assertion puts on the characters to both sides of a position. -/
def Assertion.holds (flags : Flags) (kind : Assertion) (before behind : Option Char) : Bool :=
  let word := Shorthand.word.contains flags.unicode
  let wordBefore := before.any word
  let wordBehind := behind.any word
  let lineStart := match before with
    | none => true
    | some c =>
      if flags.carriageReturns then c == '\n' || (c == '\r' && behind != some '\n') else c == '\n'
  let lineEnd := match behind with
    | none => true
    | some c =>
      if flags.carriageReturns then c == '\r' || (c == '\n' && before != some '\r') else c == '\n'
  match kind with
  | startLine => if flags.multiLine then lineStart else before.isNone
  | endLine => if flags.multiLine then lineEnd else behind.isNone
  | startText => before.isNone
  | endText => behind.isNone
  | wordBoundary => wordBefore != wordBehind
  | notWordBoundary => wordBefore == wordBehind
  | wordStart => !wordBefore && wordBehind
  | wordEnd => wordBefore && !wordBehind
  | wordStartHalf => !wordBefore
  | wordEndHalf => !wordBehind

/-- The expression for any character, as a dot has it. -/
def dotExpr (flags : Flags) : Except Fault (Regular.Expr Char) :=
  (usable flags fun c =>
    flags.dotTakesBreaks || (c != '\n' && !(flags.carriageReturns && c == '\r'))).map .symbol

/-- The expression for one written character. -/
def literalExpr (flags : Flags) (c : Char) (isByte : Bool) : Except Fault (Regular.Expr Char) :=
  if !flags.unicode && isByte && 0x80 ≤ c.toNat then .error .needsBytes
  else if !flags.ignoreCase then .ok (.symbol (· == c))
  else if mayStand flags c then .ok (.symbol (foldSet flags (· == c)))
  else .error .needsUnicode

/-! ## Trees -/

/-- The expression that a tree stands for under some flags, and the flags behind it. -/
def Tree.meaning (flags : Flags) : Tree → Except Fault (Regular.Expr Char × Flags)
  | empty => .ok (.empty, flags)
  | literal c isByte => (literalExpr flags c isByte).map (·, flags)
  | dot => (dotExpr flags).map (·, flags)
  | assertion kind => .ok (.between (kind.holds flags), flags)
  | set chars => (chars.members flags).map fun p => (.symbol p, flags)
  | .flags changes => .ok (.empty, flags.apply changes)
  | group changes body => do
    let (e, _) ← body.meaning (flags.apply changes)
    pure (e, flags)
  | repeated body least most => do
    let (e, _) ← body.meaning flags
    pure (.times e least most, flags)
  | concat parts => do
    let (es, flags) ← meaningOfAll flags parts
    pure (.appendAll es, flags)
  | alternation branches => do
    let (es, flags) ← meaningOfAll flags branches
    pure (.anyOf es, flags)
where
  /-- The expressions of the trees in a list, each under the flags behind the one before it. -/
  meaningOfAll (flags : Flags) : List Tree → Except Fault (List (Regular.Expr Char) × Flags)
    | [] => .ok ([], flags)
    | t :: rest => do
      let (e, flags) ← t.meaning flags
      let (es, flags) ← meaningOfAll flags rest
      pure (e :: es, flags)

end Pattern
end Conformance
