import Conformance.Document.Scalar
import Conformance.Yaml.ScalarText

/-!
# `Yaml.Token`: the tokens of a YAML text

Tokens are what the structure of a document is read from: indicators, scalars, and marks for the
beginning and end of lists and records that are written by indentation. This module holds the
tokens, and reads those that are more than an indicator: directives, tags and names of nodes.
-/

namespace Conformance
namespace Yaml

open Document (Scalar)

/-- A token. -/
inductive Token where
  /-- The version that a document is written for. -/
  | versionDirective (major minor : Nat)
  /-- What a handle of tags stands for. -/
  | tagDirective (handle stem : String)
  | documentStart
  | documentEnd
  | blockListStart
  | blockRecordStart
  | blockEnd
  | flowListStart
  | flowListEnd
  | flowRecordStart
  | flowRecordEnd
  | blockEntry
  | flowEntry
  | key
  | value
  /-- The name that a node gets. -/
  | anchor (name : String)
  /-- The name of a node that stands here once more. -/
  | reference (name : String)
  | tag (handle rest : String)
  | scalar (text : String) (style : Document.Style)
  deriving DecidableEq, Repr, Inhabited

/-! ## Directives -/

/-- Takes a number of a version, which has at most nine digits. -/
def versionNumber (c : Cursor) : Except Fault (Nat × Cursor) :=
  let (digits, c) := c.takeWhile Char.isDigit
  if digits.isEmpty || 9 < digits.length then .error .badDirective
  else .ok (Decimal.digitsValue digits, c)

/-- The two digits of an escaped byte at the start of a text. -/
def escapedByte? : List Char → Option (Nat × List Char)
  | '%' :: a :: b :: cs => do
    let high ← hexValue? a
    let low ← hexValue? b
    some (16 * high + low, cs)
  | _ => none

/-- How many bytes a character has whose first byte is this one. -/
def byteCount? (first : Nat) : Option Nat :=
  if first < 0x80 then some 1
  else if first / 0x20 == 6 then some 2
  else if first / 0x10 == 14 then some 3
  else if first / 8 == 30 then some 4
  else none

/-- Takes escaped bytes that go on with a character. -/
def moreBytes : Nat → List Char → Option (List Nat × List Char)
  | 0, cs => some ([], cs)
  | n + 1, cs => do
    let (b, cs) ← escapedByte? cs
    if b / 0x40 != 2 then none
    else
      let (bs, cs) ← moreBytes n cs
      some (b :: bs, cs)

/-- Takes one character that is written as escaped bytes. -/
def escapedChar? (cs : List Char) : Option (List Char × List Char) := do
  let (first, cs) ← escapedByte? cs
  let count ← byteCount? first
  let (others, cs) ← moreBytes (count - 1) cs
  let text ← String.fromUTF8? ⟨((first :: others).map Nat.toUInt8).toArray⟩
  some (text.toList, cs)

/-- Characters of tags, escaped ones apart. -/
def isTagChar (inBrackets : Bool) (c : Char) : Bool :=
  isWordChar c || ";/?:@&=+$.!~*'()".toList.contains c
    || (inBrackets && [',', '[', ']'].contains c)

/-- Takes the characters of a tag. -/
def tagText (inBrackets : Bool) : Nat → Cursor → Except Fault (List Char × Cursor)
  | 0, c => .ok ([], c)
  | fuel + 1, c =>
    match c.peek? with
    | none => .ok ([], c)
    | some x =>
      if x == '%' then
        match escapedChar? c.rest with
        | none => .error .badTag
        | some (ys, rest) =>
          (tagText inBrackets fuel (c.advance (c.rest.length - rest.length))).map fun (t, c) =>
            (ys ++ t, c)
      else if isTagChar inBrackets x then
        (tagText inBrackets fuel c.next).map fun (t, c) => (x :: t, c)
      else .ok ([], c)

/-- Takes the characters of a tag, of which there has to be one. -/
def tagText1 (inBrackets : Bool) (c : Cursor) : Except Fault (String × Cursor) := do
  let (t, c) ← tagText inBrackets c.rest.length c
  if t.isEmpty then throw .badTag
  pure (String.ofList t, c)

/-- Takes a handle: a word between two exclamation marks, of which the second may be missing. -/
def tagHandle (c : Cursor) : Except Fault (List Char × Cursor) :=
  if !c.sees '!' then .error .badTag
  else
    let (word, c) := c.next.takeWhile isWordChar
    if c.sees '!' then .ok ('!' :: word ++ ['!'], c.next) else .ok ('!' :: word, c)

/-- Whether a handle ends with a mark of its own. -/
def isFullHandle (handle : List Char) : Bool :=
  1 < handle.length && handle.getLast? == some '!'

/-- Takes the value of a directive. -/
def directiveValue (name : String) (c : Cursor) : Except Fault (Token × Cursor) := do
  let c := c.skipWhile isBlank
  if name == "YAML" then
    let (major, c) ← versionNumber c
    if !c.sees '.' then throw .badDirective
    let (minor, c) ← versionNumber c.next
    pure (.versionDirective major minor, c)
  else if name == "TAG" then
    let (handle, c) ← tagHandle c
    if !(isFullHandle handle || handle == ['!']) then throw .badDirective
    if !c.seesOne isBlank then throw .badDirective
    let (stem, c) ← tagText1 true (c.skipWhile isBlank)
    if !c.wordEndsAt 0 then throw .badDirective
    pure (.tagDirective (String.ofList handle) stem, c)
  else throw .badDirective

/-- Takes a directive, which fills its line. -/
def directive (c : Cursor) : Except Fault (Token × Cursor) := do
  let (name, c) := c.next.takeWhile isWordChar
  if name.isEmpty || !c.wordEndsAt 0 then throw .badDirective
  let (t, c) ← directiveValue (String.ofList name) c
  let c := (c.skipWhile isBlank).skipComment
  if !c.lineEndsAt 0 then throw .badDirective
  pure (t, c.takeBreak.2)

/-! ## Tags and names -/

/-- Takes a tag behind its handle. Without a full handle, what was read belongs to the tag itself,
and a lone mark is a tag of its own. -/
def shortTag (c : Cursor) : Except Fault (Token × Cursor) := do
  let (handle, c) ← tagHandle c
  if isFullHandle handle then
    let (rest, c) ← tagText1 false c
    pure (.tag (String.ofList handle) rest, c)
  else
    let (t, c) ← tagText false c.rest.length c
    let rest := handle.drop 1 ++ t
    if rest.isEmpty then pure (.tag "" "!", c)
    else pure (.tag "!" (String.ofList rest), c)

/-- Takes a tag: in angle brackets, or with a handle. -/
def tagToken (inFlow : Bool) (c : Cursor) : Except Fault (Token × Cursor) := do
  let (t, c) ←
    if c.peekAt? 1 == some '<' then do
      let (t, c) ← tagText1 true (c.advance 2)
      if !c.sees '>' then throw .badTag
      pure (Token.tag "" t, c.next)
    else shortTag c
  if !(c.wordEndsAt 0 || (inFlow && c.sees ',')) then throw .badTag
  pure (t, c)

/-- Takes the name of a node behind its sign. -/
def nodeName (c : Cursor) : Except Fault (String × Cursor) :=
  let (name, c) := c.next.takeWhile isWordChar
  if name.isEmpty then .error .badAnchor
  else if c.wordEndsAt 0 || c.seesOne "?:,]\x7d%@\x60".toList.contains then
    .ok (String.ofList name, c)
  else .error .badAnchor

end Yaml
end Conformance
