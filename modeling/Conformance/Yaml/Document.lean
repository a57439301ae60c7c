import Conformance.Yaml.Node
import Conformance.Yaml.Tokens

/-!
# `Yaml.Document`: reading a YAML text

The tokens of a text are read into the nodes of one document. Where a node is missing, an empty
plain scalar stands in. A text may hold one document at most; a text without any counts as an empty
scalar.
-/

namespace Conformance
namespace Yaml

open Document (Scalar Value)

/-- A node that is read from the tokens in front, and the tokens behind it. -/
abbrev NodeResult := Except Fault (Node String × List Token)

/-- The node that stands in for a missing one. -/
def Node.missing : Node String := .scalar none { text := "" }

/-- What the handles of tags stand for. -/
abbrev Handles := List (String × String)

/-- The handles that every document knows. -/
def commonHandles : Handles := [("!", "!"), ("!!", Scalar.coreTag "")]

/-- The tag that a handle and the rest of a tag stand for. -/
def fullTag (handles : Handles) (handle rest : String) : Except Fault String :=
  if handle.isEmpty then .ok rest
  else
    match handles.lookup handle with
    | some stem => .ok (stem ++ rest)
    | none => .error .unknownTagHandle

/-- What may stand in front of a node. -/
structure Properties where
  name : Option String := none
  tag : Option String := none
  deriving Inhabited

/-- Whether nothing stands in front of a node. -/
def Properties.isEmpty (p : Properties) : Bool := p.name.isNone && p.tag.isNone

/-- Takes the name and the tag of a node, in any order. -/
def properties (handles : Handles) : List Token → Except Fault (Properties × List Token)
  | .anchor name :: .tag handle rest :: ts =>
    (fullTag handles handle rest).map fun tag => ({ name := some name, tag := some tag }, ts)
  | .tag handle rest :: .anchor name :: ts =>
    (fullTag handles handle rest).map fun tag => ({ name := some name, tag := some tag }, ts)
  | .tag handle rest :: ts =>
    (fullTag handles handle rest).map fun tag => ({ tag := some tag }, ts)
  | .anchor name :: ts => .ok ({ name := some name }, ts)
  | ts => .ok ({}, ts)

/-- Where a node stands, as far as it matters for what it may be. -/
inductive Place where
  /-- Within brackets: no blocks. -/
  | flow
  | block
  /-- A key or a value in a block: a list there need not be indented. -/
  | field
  deriving DecidableEq, Repr, Inhabited

/-- Whether no node stands between two dashes or behind the last one. -/
def endsItem : Token → Bool
  | .blockEntry | .blockEnd => true
  | _ => false

/-- Whether no node stands in a list that is not indented. -/
def endsFlatItem : Token → Bool
  | .blockEntry | .key | .value | .blockEnd => true
  | _ => false

/-- Whether no node stands as a key or value in a block. -/
def endsField : Token → Bool
  | .key | .value | .blockEnd => true
  | _ => false

/-- Whether no node stands between brackets where one of these would end it. -/
def endsIn (closing : Token) (withValue : Bool) (t : Token) : Bool :=
  t == .flowEntry || t == closing || (withValue && t == .value)

/-- Whether the next token says that no node stands here. -/
def lacksNode (ends : Token → Bool) (ts : List Token) : Bool := ts.head?.any ends

mutual

/-- Takes a node. -/
def node (handles : Handles) (place : Place) : Nat → List Token → NodeResult
  | 0, _ => .error .unexpectedToken
  | _ + 1, .reference name :: ts => .ok (.reference name, ts)
  | fuel + 1, ts => do
    let (p, ts) ← properties handles ts
    match ts with
    | .blockEntry :: _ =>
      if place = .field then
        let (items, ts) ← flatItems handles fuel ts
        pure (.list p.name items, ts)
      else emptyNode p ts
    | .scalar text style :: ts => pure (.scalar p.name { text, style, tag := p.tag }, ts)
    | .flowListStart :: ts =>
      let (items, ts) ← flowItems handles true fuel ts
      pure (.list p.name items, ts)
    | .flowRecordStart :: ts =>
      let (fields, ts) ← flowFields handles true fuel ts
      pure (.record p.name fields, ts)
    | .blockListStart :: rest =>
      if place = .flow then emptyNode p ts
      else
        let (items, ts) ← blockItems handles fuel rest
        pure (.list p.name items, ts)
    | .blockRecordStart :: rest =>
      if place = .flow then emptyNode p ts
      else
        let (fields, ts) ← blockFields handles fuel rest
        pure (.record p.name fields, ts)
    | ts => emptyNode p ts

/-- A node of which nothing but its name or tag is written. -/
def emptyNode (p : Properties) (ts : List Token) : NodeResult :=
  if p.isEmpty then .error .unexpectedToken
  else .ok (.scalar p.name { text := "", tag := p.tag }, ts)

/-- Takes a node unless the next token says that none stands here. -/
def nodeUnless (handles : Handles) (place : Place) (ends : Token → Bool) :
    Nat → List Token → NodeResult
  | 0, _ => .error .unexpectedToken
  | fuel + 1, ts =>
    if lacksNode ends ts then .ok (.missing, ts) else node handles place fuel ts

/-- Takes the items of a list in a block. -/
def blockItems (handles : Handles) :
    Nat → List Token → Except Fault (List (Node String) × List Token)
  | 0, _ => .error .unexpectedToken
  | fuel + 1, .blockEntry :: ts => do
    let (item, ts) ← nodeUnless handles .block endsItem fuel ts
    let (items, ts) ← blockItems handles fuel ts
    pure (item :: items, ts)
  | _ + 1, .blockEnd :: ts => .ok ([], ts)
  | _ + 1, _ => .error .unexpectedToken

/-- Takes the items of a list that is not indented. -/
def flatItems (handles : Handles) :
    Nat → List Token → Except Fault (List (Node String) × List Token)
  | 0, _ => .error .unexpectedToken
  | fuel + 1, .blockEntry :: ts => do
    let (item, ts) ← nodeUnless handles .block endsFlatItem fuel ts
    let (items, ts) ← flatItems handles fuel ts
    pure (item :: items, ts)
  | _ + 1, ts => .ok ([], ts)

/-- Takes the fields of a record in a block. -/
def blockFields (handles : Handles) :
    Nat → List Token → Except Fault (List (Node String × Node String) × List Token)
  | 0, _ => .error .unexpectedToken
  | fuel + 1, .key :: ts => do
    let (key, ts) ← nodeUnless handles .field endsField fuel ts
    let (value, ts) ← fieldValue handles .field endsField fuel ts
    let (fields, ts) ← blockFields handles fuel ts
    pure ((key, value) :: fields, ts)
  | _ + 1, .blockEnd :: ts => .ok ([], ts)
  | _ + 1, _ => .error .unexpectedToken

/-- Takes the value behind a key, which may be missing with or without a colon. -/
def fieldValue (handles : Handles) (place : Place) (ends : Token → Bool) :
    Nat → List Token → NodeResult
  | 0, _ => .error .unexpectedToken
  | fuel + 1, .value :: ts => nodeUnless handles place ends fuel ts
  | _ + 1, ts => .ok (.missing, ts)

/-- Takes the items of a list in brackets. -/
def flowItems (handles : Handles) (isFirst : Bool) :
    Nat → List Token → Except Fault (List (Node String) × List Token)
  | 0, _ => .error .unexpectedToken
  | _ + 1, .flowListEnd :: ts => .ok ([], ts)
  | fuel + 1, ts => do
    let ts ← afterComma isFirst ts
    match ts with
    | .flowListEnd :: ts => pure ([], ts)
    | .key :: ts =>
      let (pair, ts) ← flowPair handles fuel ts
      let (items, ts) ← flowItems handles false fuel ts
      pure (.record none [pair] :: items, ts)
    | ts =>
      let (item, ts) ← node handles .flow fuel ts
      let (items, ts) ← flowItems handles false fuel ts
      pure (item :: items, ts)

/-- Takes the comma that has to stand in front of all items but the first. -/
def afterComma (isFirst : Bool) (ts : List Token) : Except Fault (List Token) :=
  if isFirst then .ok ts
  else
    match ts with
    | .flowEntry :: ts => .ok ts
    | _ => .error .unexpectedToken

/-- Takes a single field as an item of a list. Where its key is missing, the token that shows it is
passed over. -/
def flowPair (handles : Handles) :
    Nat → List Token → Except Fault ((Node String × Node String) × List Token)
  | 0, _ => .error .unexpectedToken
  | fuel + 1, ts => do
    let (key, ts) ←
      if lacksNode (endsIn .flowListEnd true) ts then .ok (.missing, ts.drop 1)
      else node handles .flow fuel ts
    let (value, ts) ← fieldValue handles .flow (endsIn .flowListEnd false) fuel ts
    pure ((key, value), ts)

/-- Takes the fields of a record in brackets. A key without a question mark or a colon has no
value. -/
def flowFields (handles : Handles) (isFirst : Bool) :
    Nat → List Token → Except Fault (List (Node String × Node String) × List Token)
  | 0, _ => .error .unexpectedToken
  | _ + 1, .flowRecordEnd :: ts => .ok ([], ts)
  | fuel + 1, ts => do
    let ts ← afterComma isFirst ts
    match ts with
    | .flowRecordEnd :: ts => pure ([], ts)
    | .key :: ts =>
      let (key, ts) ← nodeUnless handles .flow (endsIn .flowRecordEnd true) fuel ts
      let (value, ts) ← fieldValue handles .flow (endsIn .flowRecordEnd false) fuel ts
      let (fields, ts) ← flowFields handles false fuel ts
      pure ((key, value) :: fields, ts)
    | ts =>
      let (key, ts) ← node handles .flow fuel ts
      let (fields, ts) ← flowFields handles false fuel ts
      pure ((key, .missing) :: fields, ts)

end

/-! ## Whole texts -/

/-- Whether a token belongs before the start of a document. -/
def isDirective : Token → Bool
  | .versionDirective _ _ | .tagDirective _ _ => true
  | _ => false

/-- What the handles stand for behind some directives. A version may be given once, and so may
each handle. -/
def directives : Bool → Handles → List Token → Except Fault Handles
  | _, handles, [] => .ok handles
  | versionGiven, handles, .versionDirective major minor :: ts =>
    if versionGiven || major != 1 || (minor != 1 && minor != 2) then .error .badDirective
    else directives true handles ts
  | versionGiven, handles, .tagDirective handle stem :: ts =>
    if (handles.lookup handle).isSome then .error .badDirective
    else directives versionGiven (handles ++ [(handle, stem)]) ts
  | _, _, _ :: _ => .error .badDirective

/-- Whether a document ends before the next token without any node. -/
def endsDocument (t : Token) : Bool :=
  isDirective t || t == .documentStart || t == .documentEnd

/-- How deep reading can go for some tokens. -/
def depthFor (ts : List Token) : Nat := 4 * ts.length + 16

/-- Takes the only document of some tokens. -/
def documentNode (ts : List Token) : NodeResult :=
  let before := ts.takeWhile isDirective
  match before, ts.dropWhile isDirective with
  | [], [] => .ok (.missing, [])
  | _, .documentStart :: ts => do
    let handles ← directives false [] before
    if ts.isEmpty || lacksNode endsDocument ts then pure (.missing, ts)
    else node (handles ++ commonHandles) .block (depthFor ts) ts
  | [], ts => node commonHandles .block (depthFor ts) ts
  | _, _ => .error .unexpectedToken

/-- Reads a text that holds one document or none. -/
def read (text : String) : Except Fault Value := do
  let (n, ts) ← documentNode (← tokens text)
  if !(ts.dropWhile (· == .documentEnd)).isEmpty then throw .severalDocuments
  n.value?

end Yaml
end Conformance
