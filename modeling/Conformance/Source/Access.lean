import Conformance.Source.Bytes
import Conformance.Source.Outline

/-!
# `Source.Access`: reading declarations with accesses that can fail

The same walk as in `Source.Outline`, with every access spelled out that it makes. A type is looked up at
its place among the types read so far, the last place is counted from how many types there are, and what
stands behind the mark of a relative name is cut out at a byte position. Whether there is such a type, such
a place and such a cut is up to the walk: each access that finds nothing fails. Steps without an access are
those of the reader.
-/

namespace Conformance
namespace Source
namespace Access

open Reader (addSupertype declaredMethod)

/-- An access that finds nothing. -/
inductive Fault where
  /-- No type stands at the place. -/
  | noType (index : Nat)
  /-- There is no last place. -/
  | noPlace
  /-- A cut lies outside of the text or inside a character. -/
  | noCut
  deriving DecidableEq, Repr, Inhabited

/-! ## Access -/

/-- The type at a place. -/
def typeAt (r : Reader) (index : Nat) : Except Fault TypeInfo :=
  if h : index < r.types.size then .ok r.types[index] else .error (.noType index)

/-- Changes the type at a place. -/
def changeType (r : Reader) (index : Nat) (f : TypeInfo → TypeInfo) : Except Fault Reader :=
  if h : index < r.types.size then
    .ok { r with types := r.types.set index (f r.types[index]) }
  else .error (.noType index)

/-- The last of so many places. -/
def lastPlace : Nat → Except Fault Nat
  | 0 => .error .noPlace
  | n + 1 => .ok n

/-- The part of a text between two byte positions. -/
def cut (text : String) (i j : Nat) : Except Fault String :=
  (Bytes.textBetween text i j).mapError fun _ => .noCut

/-! ## Type headers -/

/-- How many bytes make a name relative to the current namespace. -/
def relativeLength : Nat := 10

/-- Whether a name begins with these bytes. Where they cannot be cut off it does not. -/
def isRelative (raw : String) : Bool :=
  match cut raw 0 relativeLength with
  | .ok start => Text.sameFolded start "namespace\\"
  | .error _ => false

/-- The full name that a supertype clause means by `raw`. -/
def resolve (r : Reader) (raw : String) : Except Fault String :=
  if raw.toList.head? = some TypeName.separator then .ok (String.ofList (raw.toList.drop 1))
  else if isRelative raw then
    (cut raw relativeLength raw.utf8ByteSize).map (TypeName.qualify r.scope)
  else
    let (first, rest) := Reader.splitName raw
    match r.imports.lookup (Text.foldCase first) with
    | none => .ok (TypeName.qualify r.scope raw)
    | some target =>
      match rest with
      | none => .ok target
      | some rest => .ok (target ++ String.singleton TypeName.separator ++ rest)

/-- Enters the supertype whose name was read, if there is one. -/
def flushName (r : Reader) (index : Nat) (clause : Clause) (name : String) : Except Fault Reader :=
  if name.isEmpty then .ok r
  else
    match resolve r name with
    | .ok full => changeType r index (addSupertype clause full)
    | .error fault => .error fault

/-- A step in the header of a type. -/
def headerStep (r : Reader) (index : Nat) (clause : Clause) (name : String) (t : Token) :
    Except Fault Reader :=
  if t.isWord "extends" then
    (flushName r index clause name).map ({ · with phase := .header index .extending "" })
  else if t.isWord "implements" then
    (flushName r index clause name).map ({ · with phase := .header index .implementing "" })
  else if t.isNamePart then .ok { r with phase := .header index clause (name ++ t.text) }
  else if t.isMark ',' then
    (flushName r index clause name).map ({ · with phase := .header index clause "" })
  else if t.isMark '\x7b' then
    (flushName r index clause name).map fun r =>
      { r with phase := .idle, frames := .body index :: r.frames, member := {} }
  else (flushName r index clause name).map ({ · with phase := .idle })

/-- Opens the declaration of a type, which then is the last one. -/
def openType (r : Reader) (kind : TypeKind) (modifiers : TypeModifiers) (shortName : String) :
    Except Fault Reader :=
  let r := r.openType kind modifiers shortName
  (lastPlace r.types.size).map fun index => { r with phase := .header index .outside "" }

/-! ## Type bodies -/

/-- A step directly in the body of the type at `index`. The kind of the type is looked up for a method. -/
def memberStep (r : Reader) (index : Nat) (t : Token) : Except Fault Reader :=
  if !t.isMark '\x7b' && !t.endsStatement && t.kind == .word && r.member.awaitsName then
    match typeAt r index with
    | .ok info =>
      changeType { r with member := { r.member with awaitsName := false } } index
        fun info' => info'.addMethod (declaredMethod info.kind r.member t.text)
    | .error fault => .error fault
  else .ok (r.memberStep index t)

/-- A step outside of all constructs. -/
def idleStep (r : Reader) (previous : Option Token) (t : Token) : Except Fault Reader :=
  match r.frames.head? with
  | some (.body index) => if t.isMark '\x7d' then .ok r.closeFrame else memberStep r index t
  | _ => .ok (r.idleStep previous t)

/-! ## The walk -/

/-- Reads one token that is no trivia; `previous` is the one before it. -/
def step (r : Reader) (previous : Option Token) (t : Token) : Except Fault Reader :=
  match r.phase with
  | .idle => idleStep r previous t
  | .scopeName text => .ok (r.scopeStep text t)
  | .importing i => .ok (r.importStep i t)
  | .typeName kind modifiers =>
    if t.kind == .word then openType r kind modifiers t.text
    else idleStep { r with phase := .idle } previous t
  | .header index clause name => headerStep r index clause name t

/-- Reads tokens until they end or, given a limit, until that many type bodies were closed. -/
def walk (limit : Option Nat) : Reader → Option Token → List Token → Except Fault Reader
  | r, _, [] => .ok r
  | r, previous, t :: ts =>
    match step r previous t with
    | .ok r => if limit.any (· ≤ r.completed) then .ok r else walk limit r (some t) ts
    | .error fault => .error fault

/-- The outline of a token list, read up to the limit. -/
def ofTokens (file : String) (limit : Option Nat) (ts : List Token) : Except Fault Outline :=
  (walk limit { file } none (ts.filter (!·.isTrivia))).map (Outline.ofReader limit)

end Access
end Source
end Conformance
