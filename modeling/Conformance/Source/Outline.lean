import Conformance.Source.Lexeme
import Conformance.Types.Info

/-!
# `Source.Outline`: the type declarations of a source text

A `Reader` walks once over the tokens that are no trivia. It keeps the stack of open braces, the
current namespace and its imports, and reports every class, interface or trait that is declared
directly in the file or in a braced namespace, with its modifiers, its supertypes and the methods
found directly in its body. Everything inside other braces is passed over.
-/

namespace Conformance
namespace Source

/-! ## What the reader remembers -/

/-- The modifiers read in front of a type declaration. -/
structure TypeModifiers where
  isAbstract : Bool := false
  isFinal : Bool := false
  deriving DecidableEq, Repr, Inhabited

/-- What was read of the member that is being declared. -/
structure MemberModifiers where
  visibility : Option Visibility := none
  isStatic : Bool := false
  isAbstract : Bool := false
  /-- The word `function` was read and its name has not come yet. -/
  awaitsName : Bool := false
  deriving DecidableEq, Repr, Inhabited

/-- What an open brace belongs to. -/
inductive Frame where
  | scope
  /-- The body of the type at this place among the types read so far. -/
  | body (index : Nat)
  | block
  deriving DecidableEq, Repr, Inhabited

/-- The clause of a type header that names are read for. -/
inductive Clause where
  | outside
  | extending
  | implementing
  deriving DecidableEq, Repr, Inhabited

/-- What was read of an import statement. -/
structure Import where
  /-- The common beginning of the names of a group. -/
  group : Option String := none
  target : String := ""
  /-- The name after `as`. -/
  localName : Option String := none
  inAlias : Bool := false
  started : Bool := false
  /-- The statement imports functions or constants, which play no part here. -/
  ignored : Bool := false
  deriving DecidableEq, Repr, Inhabited

/-- The construct that the reader is in the middle of. -/
inductive Phase where
  | idle
  | scopeName (text : String)
  | importing (statement : Import)
  | typeName (kind : TypeKind) (modifiers : TypeModifiers)
  | header (index : Nat) (clause : Clause) (name : String)
  deriving DecidableEq, Repr, Inhabited

/-- The state of a walk over the tokens of one file. -/
structure Reader where
  file : String
  phase : Phase := .idle
  /-- The open braces, the innermost one first. -/
  frames : List Frame := []
  scope : String := ""
  firstScope : Option String := none
  /-- Folded alias and full target of each import, the latest one first. -/
  imports : List (String × String) := []
  pending : TypeModifiers := {}
  member : MemberModifiers := {}
  types : Array TypeInfo := #[]
  /-- How many type bodies were closed. -/
  completed : Nat := 0
  deriving DecidableEq, Repr, Inhabited

namespace Reader

/-! ## Names -/

/-- The first segment of a name and, if there are more, the rest behind its separator. -/
def splitName (name : String) : String × Option String :=
  let first := name.toList.takeWhile (· != TypeName.separator)
  let rest := name.toList.drop first.length
  (String.ofList first, if rest.isEmpty then none else some (String.ofList (rest.drop 1)))

/-- The text that makes a name relative to the current namespace. -/
def relativeMark : List Char := "namespace\\".toList

/-- The full name that a supertype clause means by `raw`. -/
def resolve (r : Reader) (raw : String) : String :=
  if raw.toList.head? = some TypeName.separator then String.ofList (raw.toList.drop 1)
  else if (raw.toList.take relativeMark.length).map Char.toLower = relativeMark then
    TypeName.qualify r.scope (String.ofList (raw.toList.drop relativeMark.length))
  else
    let (first, rest) := splitName raw
    match r.imports.lookup (Text.foldCase first) with
    | none => TypeName.qualify r.scope raw
    | some target =>
      match rest with
      | none => target
      | some rest => target ++ String.singleton TypeName.separator ++ rest

/-! ## Namespaces and imports -/

/-- A step in a namespace declaration whose name was read up to `text`. A separator right after
the keyword makes it a relative name instead, which declares nothing. -/
def scopeStep (r : Reader) (text : String) (t : Token) : Reader :=
  if t.isNamePart then
    if text.isEmpty && t.kind == .separator then { r with phase := .idle }
    else { r with phase := .scopeName (text ++ t.text) }
  else
    { r with
      phase := .idle
      scope := Text.trim text
      imports := []
      frames := if t.isMark '{' then .scope :: r.frames else r.frames }

/-- The full target of an import: its group in front, no separator at the start. -/
def Import.fullTarget (i : Import) : String :=
  TypeName.bare <| match i.group with
    | some group => group ++ String.singleton TypeName.separator ++ i.target
    | none => i.target

/-- Enters the import that was read, unless there is none, and makes room for the next one. -/
def commit (r : Reader) (i : Import) : Reader × Import :=
  let next := { i with target := "", localName := none, inAlias := false }
  if i.target.isEmpty then (r, next)
  else
    let target := Import.fullTarget i
    let name := i.localName.getD (TypeName.shortPart target)
    ({ r with imports := (Text.foldCase name, target) :: r.imports }, next)

/-- A name without the separators at its end. -/
def withoutTrailingSeparators (name : String) : String :=
  String.ofList (name.toList.reverse.dropWhile (· == TypeName.separator)).reverse

/-- A step in an import statement behind its first word. -/
def importNameStep (r : Reader) (i : Import) (t : Token) : Reader :=
  if t.isWord "as" then { r with phase := .importing { i with inAlias := true } }
  else if t.isNamePart then
    if i.inAlias then { r with phase := .importing { i with localName := some t.text } }
    else { r with phase := .importing { i with target := i.target ++ t.text } }
  else if t.isMark '{' then
    let i := { i with group := some (withoutTrailingSeparators i.target), target := "" }
    { r with phase := .importing i }
  else if t.isMark ',' || t.isMark '}' then
    let (r, i) := r.commit i
    { r with phase := .importing i }
  else
    { (r.commit i).1 with phase := .idle }

/-- A step in an import statement. A parenthesis right after the keyword makes it the capture
list of a closure, and `function` or `const` there make it an import of no types. -/
def importStep (r : Reader) (i : Import) (t : Token) : Reader :=
  if i.ignored then
    { r with phase := if t.endsStatement then .idle else .importing i }
  else if i.started then r.importNameStep i t
  else if t.isMark '(' then { r with phase := .idle }
  else if t.isWord "function" || t.isWord "const" then
    { r with phase := .importing { i with started := true, ignored := true } }
  else r.importNameStep { i with started := true } t

/-! ## Type headers and bodies -/

/-- Opens the declaration of a type: only classes keep their modifiers. -/
def openType (r : Reader) (kind : TypeKind) (modifiers : TypeModifiers) (shortName : String) :
    Reader :=
  let info := (TypeInfo.named kind (TypeName.qualify r.scope shortName)).inFile r.file
  let info := match kind with
    | .cls => { info with isAbstract := modifiers.isAbstract, isFinal := modifiers.isFinal }
    | _ => info
  { r with
    firstScope := some (r.firstScope.getD r.scope)
    types := r.types.push info
    phase := .header r.types.size .outside "" }

/-- Enters a supertype: what an interface extends are interfaces too. -/
def addSupertype (clause : Clause) (name : String) (info : TypeInfo) : TypeInfo :=
  match clause, info.kind with
  | .outside, _ => info
  | .extending, .interface => info.addInterface name
  | .extending, _ => { info with parent := some name }
  | .implementing, _ => info.addInterface name

/-- Enters the supertype whose name was read, if there is one. -/
def flushName (r : Reader) (index : Nat) (clause : Clause) (name : String) : Reader :=
  if name.isEmpty then r
  else { r with types := r.types.modify index (addSupertype clause (r.resolve name)) }

/-- A step in the header of a type. Anything unexpected ends the header. -/
def headerStep (r : Reader) (index : Nat) (clause : Clause) (name : String) (t : Token) : Reader :=
  if t.isWord "extends" then
    { r.flushName index clause name with phase := .header index .extending "" }
  else if t.isWord "implements" then
    { r.flushName index clause name with phase := .header index .implementing "" }
  else if t.isNamePart then { r with phase := .header index clause (name ++ t.text) }
  else if t.isMark ',' then
    { r.flushName index clause name with phase := .header index clause "" }
  else
    let r := { r.flushName index clause name with phase := .idle }
    if t.isMark '{' then { r with frames := .body index :: r.frames, member := {} } else r

/-- The method that the word `name` declares with the modifiers in front of it. -/
def declaredMethod (kind : TypeKind) (member : MemberModifiers) (name : String) : Method :=
  { Method.named name (member.visibility.getD .pub) with
    isStatic := member.isStatic
    isAbstract := member.isAbstract || kind == .interface }

/-- What a word that is no method name adds to the member being read. -/
def readModifier (member : MemberModifiers) (t : Token) : MemberModifiers :=
  if t.isWord "function" then { member with awaitsName := true }
  else
    match Visibility.ofKeyword? t.text with
    | some visibility => { member with visibility := some (member.visibility.getD visibility) }
    | none =>
      if t.isWord "static" then { member with isStatic := true }
      else if t.isWord "abstract" then { member with isAbstract := true }
      else member

/-- A step directly in the body of the type at `index`. -/
def memberStep (r : Reader) (index : Nat) (t : Token) : Reader :=
  if t.isMark '{' then { r with frames := .block :: r.frames, member := {} }
  else if t.endsStatement then { r with member := {} }
  else if t.kind != .word then
    if t.isMark '&' then r else { r with member := { r.member with awaitsName := false } }
  else if r.member.awaitsName then
    { r with
      member := { r.member with awaitsName := false }
      types := r.types.modify index fun info =>
        info.addMethod (declaredMethod info.kind r.member t.text) }
  else { r with member := readModifier r.member t }

/-! ## Outside of constructs -/

/-- Whether only namespaces are open. -/
def atDeclarationScope (r : Reader) : Bool :=
  r.frames.all (· == .scope)

/-- Closes the innermost brace. The end of a namespace forgets its name and imports. -/
def closeFrame (r : Reader) : Reader :=
  let r := { r with pending := {}, member := {} }
  match r.frames with
  | [] => r
  | .body _ :: frames => { r with frames, completed := r.completed + 1 }
  | .scope :: frames => { r with frames, scope := "", imports := [] }
  | .block :: frames => { r with frames }

/-- Whether the token before makes the next word part of an expression, as in `Foo::class`,
`$a->class` and `new class`. -/
def inExpression (previous : Option Token) : Bool :=
  previous.any fun p => p.isMark ':' || p.isMark '>' || p.isWord "new"

/-- A word at declaration scope that is no type modifier. -/
def keywordStep (r : Reader) (previous : Option Token) (t : Token) : Reader :=
  let modifiers := r.pending
  let r := { r with pending := {} }
  if t.isWord "namespace" then { r with phase := .scopeName "" }
  else if t.isWord "use" then { r with phase := .importing {} }
  else
    match TypeKind.ofKeyword? t.text with
    | some kind => if inExpression previous then r else { r with phase := .typeName kind modifiers }
    | none => r

/-- A word at declaration scope. -/
def wordStep (r : Reader) (previous : Option Token) (t : Token) : Reader :=
  if t.isWord "abstract" then { r with pending := { r.pending with isAbstract := true } }
  else if t.isWord "final" then { r with pending := { r.pending with isFinal := true } }
  else if t.isWord "readonly" then r
  else r.keywordStep previous t

/-- A step outside of all constructs. -/
def idleStep (r : Reader) (previous : Option Token) (t : Token) : Reader :=
  if t.isMark '}' then r.closeFrame
  else
    match r.frames.head? with
    | some (.body index) => r.memberStep index t
    | _ =>
      if t.isMark '{' then { r with frames := .block :: r.frames, pending := {} }
      else if !r.atDeclarationScope || t.kind != .word then { r with pending := {} }
      else r.wordStep previous t

/-! ## The walk -/

/-- Reads one token that is no trivia; `previous` is the one before it. -/
def step (r : Reader) (previous : Option Token) (t : Token) : Reader :=
  match r.phase with
  | .idle => r.idleStep previous t
  | .scopeName text => r.scopeStep text t
  | .importing i => r.importStep i t
  | .typeName kind modifiers =>
    if t.kind == .word then r.openType kind modifiers t.text
    else { r with phase := .idle }.idleStep previous t
  | .header index clause name => r.headerStep index clause name t

/-- Reads tokens until they end or, given a limit, until that many type bodies were closed. -/
def walk (limit : Option Nat) : Reader → Option Token → List Token → Reader
  | r, _, [] => r
  | r, previous, t :: ts =>
    let r := r.step previous t
    if limit.any (· ≤ r.completed) then r else walk limit r (some t) ts

end Reader

/-! ## Outlines -/

/-- The type declarations of one file, in source order. -/
structure Outline where
  /-- The namespace around the first declaration; without one, the last namespace. -/
  scope : String
  types : List TypeInfo
  deriving DecidableEq, Repr, Inhabited

namespace Outline

/-- What the walk has found; no more types than the limit allows. -/
def ofReader (limit : Option Nat) (r : Reader) : Outline where
  scope := r.firstScope.getD r.scope
  types := match limit with
    | some n => r.types.toList.take n
    | none => r.types.toList

/-- The outline of a token list, read up to the limit. -/
def ofTokens (file : String) (limit : Option Nat) (ts : List Token) : Outline :=
  ofReader limit (Reader.walk limit { file } none (ts.filter (!·.isTrivia)))

/-- The outline of a whole source text. -/
def ofSource (file source : String) : Except Unterminated Outline :=
  (tokens source).map (ofTokens file none)

/-- The first declaration of a source text. Reading stops when its body closes. -/
def firstOfSource (file source : String) : Except Unterminated (Option TypeInfo) :=
  (tokens source).map fun ts => (ofTokens file (some 1) ts).types.head?

/-- The kind and the short name of each declaration. -/
def declarations (o : Outline) : List (TypeKind × String) :=
  o.types.map fun t => (t.kind, t.shortName)

end Outline
end Source
end Conformance
