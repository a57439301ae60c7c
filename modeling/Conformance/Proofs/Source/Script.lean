import Conformance.Source.Outline

/-!
# `Proofs.Source.Script`: well-formed source files and what they declare

The syntax of a source file as far as declarations go, and its meaning. A `Script` is a tree of
statements: namespaces, imports and type declarations with bodies of any content. `Script.tokens`
writes it down, and `Script.declarations` says which types it declares, with every name resolved the
way the language resolves class names. Neither of the two looks at the reader.

A file is divided into *sections*, one for each namespace it declares. Names are resolved within a
section: imports hold from where they stand to the end of their section and nowhere else.
-/

namespace Conformance

/-- The same type without its methods. -/
def TypeInfo.withoutMethods (t : TypeInfo) : TypeInfo := { t with methods := [] }

namespace Source

/-! ## Words and names -/

/-- Characters that start an ASCII identifier. -/
def isIdentifierStart (c : Char) : Bool := c.isAlpha || c == '_'

/-- Characters of an ASCII identifier. -/
def isIdentifierChar (c : Char) : Bool := c.isAlphanum || c == '_'

/-- An ASCII identifier. -/
structure Identifier where
  text : String
  start : text.toList.head?.any isIdentifierStart = true := by decide
  chars : text.toList.all isIdentifierChar = true := by decide
  deriving DecidableEq, Repr

/-- The words that mean something inside a name or behind one. -/
def reservedWords : List String :=
  ["as", "extends", "implements", "namespace", "function", "const"]

/-- A segment of a written name. -/
structure Segment extends Identifier where
  free : reservedWords.all (fun w => !Text.sameFolded text w) = true := by decide
  deriving DecidableEq, Repr

/-- A keyword, in any ASCII case. -/
structure Keyword (word : String) where
  text : String := word
  spells : Text.sameFolded text word = true := by decide
  deriving DecidableEq, Repr

theorem Segment.not_reserved (s : Segment) {w : String} (h : w ∈ reservedWords) :
    Text.sameFolded s.text w = false := by
  simpa using List.all_eq_true.1 s.free w h

/-- A keyword is read as its word is. -/
theorem Keyword.sameFolded {word : String} (k : Keyword word) (w : String) :
    Text.sameFolded k.text w = Text.sameFolded word w := by
  unfold Text.sameFolded
  rw [Text.sameFolded_iff.1 k.spells]

/-- One segment or several, with separators between them. -/
structure Qualified where
  first : Segment
  rest : List Segment := []
  deriving DecidableEq, Repr

/-- The segments as identifiers. -/
def Qualified.parts (q : Qualified) : List Identifier :=
  (q.first :: q.rest).map Segment.toIdentifier

/-- The text of a qualified name with these parts. -/
def joined (parts : List Identifier) : String :=
  (String.singleton TypeName.separator).intercalate (parts.map Identifier.text)

/-- A class name as it is written. -/
inductive ClassName where
  /-- Seen from the namespace and its imports. -/
  | plain (q : Qualified)
  /-- With a separator in front: seen from the global namespace. -/
  | full (q : Qualified)
  /-- Behind the word `namespace`: seen from the namespace, whatever is imported. -/
  | relative (keyword : Keyword "namespace") (q : Qualified)
  deriving DecidableEq, Repr

/-! ## Statements -/

/-- One or several things with commas between them. -/
structure Listing (α : Type) where
  first : α
  rest : List α := []
  deriving DecidableEq, Repr

/-- The things that are listed. -/
def Listing.all {α : Type} (l : Listing α) : List α := l.first :: l.rest

/-- A name that is imported, and the name it gets. -/
structure Entry where
  target : Qualified
  rename : Option (Keyword "as" × Segment) := none
  deriving DecidableEq, Repr

/-- An import statement. -/
inductive Use where
  /-- A list of names; each may have a separator in front. -/
  | list (use : Keyword "use") (entries : Listing (Bool × Entry))
  /-- Names with a common beginning, which may have a separator in front. -/
  | group (use : Keyword "use") (rooted : Bool) (common : Qualified) (entries : Listing Entry)
      (trailingComma : Bool)
  deriving DecidableEq, Repr

/-- The modifiers of a type declaration. -/
inductive TypeModifier where
  | abstract
  | final
  | readonly
  deriving DecidableEq, Repr

/-- The word for a modifier. -/
def TypeModifier.word : TypeModifier → String
  | abstract => "abstract"
  | final => "final"
  | readonly => "readonly"

/-- How many tokens of a list are the mark `c`. -/
def marks (c : Char) (ts : List Token) : Nat := ts.countP (·.isMark c)

/-- No prefix closes more braces than it opens, and in the end none is open. -/
def Balanced (ts : List Token) : Prop :=
  (∀ p, p <+: ts → marks '}' p ≤ marks '{' p) ∧ marks '{' ts = marks '}' ts

/-- The supertypes behind the word `word`. -/
structure Supertypes (word : String) where
  keyword : Keyword word
  names : Listing ClassName
  deriving DecidableEq, Repr

/-- The declaration of a type. Only interfaces extend several types. -/
structure Declaration where
  modifiers : List ((m : TypeModifier) × Keyword m.word) := []
  kind : TypeKind
  keyword : Keyword kind.keyword
  name : Identifier
  extended : Option (Supertypes "extends") := none
  implemented : Option (Supertypes "implements") := none
  body : List Token := []
  single : kind ≠ .interface → ∀ s ∈ extended, s.names.rest = []
  balanced : Balanced body

/-- A statement of a section. -/
inductive Item where
  | use (u : Use)
  | type (d : Declaration)

/-- A namespace that ends where the next one begins. -/
structure OpenSection where
  keyword : Keyword "namespace"
  scope : Qualified
  items : List Item

/-- A namespace in braces, and the statements behind it, which belong to the global namespace.
Without a name it is the global namespace itself. -/
structure BracedSection where
  keyword : Keyword "namespace"
  scope : Option Qualified
  items : List Item
  after : List Item

/-- A source file: statements of the global namespace, and then namespaces of one of the two
forms. -/
inductive Script where
  | plain (lead : List Item) (sections : List OpenSection)
  | braced (lead : List Item) (sections : List BracedSection)

/-! ## Writing a file down -/

/-- The token without the line it stands on. -/
def Token.unplaced (t : Token) : Token := { t with line := 0 }

/-- A word, on no line. -/
def Token.ofWord (text : String) : Token := { kind := .word, text, line := 0 }

/-- A mark, on no line. -/
def Token.ofMark (c : Char) : Token := { kind := .mark, text := String.singleton c, line := 0 }

/-- The separator of names, on no line. -/
def Token.ofSeparator : Token :=
  { kind := .separator, text := String.singleton TypeName.separator, line := 0 }

section
variable (s w : String) (c d : Char)

@[simp] theorem Token.isWord_ofWord : (ofWord s).isWord w = Text.sameFolded s w := rfl
@[simp] theorem Token.isMark_ofWord : (ofWord s).isMark c = false := rfl
@[simp] theorem Token.isNamePart_ofWord : (ofWord s).isNamePart = true := rfl
@[simp] theorem Token.isWord_ofMark : (ofMark c).isWord w = false := rfl
@[simp] theorem Token.isNamePart_ofMark : (ofMark c).isNamePart = false := rfl
@[simp] theorem Token.isWord_ofSeparator : ofSeparator.isWord w = false := rfl
@[simp] theorem Token.isMark_ofSeparator : ofSeparator.isMark c = false := rfl
@[simp] theorem Token.isNamePart_ofSeparator : ofSeparator.isNamePart = true := rfl
@[simp] theorem Token.text_ofWord : (ofWord s).text = s := rfl

@[simp] theorem Token.isMark_ofMark : (ofMark c).isMark d = (c == d) := by
  show (String.singleton c == String.singleton d) = (c == d)
  rw [Bool.eq_iff_iff, beq_iff_eq, beq_iff_eq]
  exact ⟨fun h => by simpa using congrArg String.toList h, fun h => by rw [h]⟩

end

/-- A token that is the word `v` is the word `w` if the two agree. -/
theorem Token.isWord_of_isWord {t : Token} {v : String} (h : t.isWord v = true) (w : String) :
    t.isWord w = Text.sameFolded v w := by
  unfold isWord at h ⊢
  simp only [Bool.and_eq_true] at h
  rw [h.1, Bool.true_and]
  unfold Text.sameFolded
  rw [Text.sameFolded_iff.1 h.2]

theorem Token.isWord_of_kind {t : Token} (h : t.kind ≠ .word) (w : String) : t.isWord w = false := by
  unfold isWord
  simp [h]

/-- A word is no mark. -/
theorem Token.isMark_of_word {t : Token} (ht : t.kind = .word) (c : Char) : t.isMark c = false := by
  unfold isMark
  rw [ht]
  rfl

theorem Token.unplaced_of_isMark {t : Token} {c : Char} (h : t.isMark c = true) :
    t.unplaced = ofMark c := by
  unfold isMark at h
  simp only [Bool.and_eq_true, beq_iff_eq] at h
  unfold unplaced ofMark
  rw [h.1, h.2]

theorem Token.isMark_of_isMark {t : Token} {c : Char} (h : t.isMark c = true) (d : Char) :
    t.isMark d = (c == d) := by
  show t.unplaced.isMark d = _
  rw [unplaced_of_isMark h, isMark_ofMark]

/-- A separator, if there is one. -/
def separatorIf (b : Bool) : List Token := if b then [Token.ofSeparator] else []

/-- The segments behind the first one, each behind its separator. -/
def segmentTokens (ss : List Segment) : List Token :=
  ss.flatMap fun s => [Token.ofSeparator, Token.ofWord s.text]

namespace Qualified

def tokens (q : Qualified) : List Token := Token.ofWord q.first.text :: segmentTokens q.rest

end Qualified

namespace ClassName

def tokens : ClassName → List Token
  | plain q => q.tokens
  | full q => Token.ofSeparator :: q.tokens
  | relative kw q => Token.ofWord kw.text :: Token.ofSeparator :: q.tokens

end ClassName

namespace Listing

/-- The things behind the first one, each behind its comma. -/
def restTokens {α : Type} (f : α → List Token) (as : List α) : List Token :=
  as.flatMap fun a => Token.ofMark ',' :: f a

def tokens {α : Type} (f : α → List Token) (l : Listing α) : List Token :=
  f l.first ++ restTokens f l.rest

end Listing

namespace Entry

def tokens (e : Entry) : List Token :=
  e.target.tokens ++
    match e.rename with
    | none => []
    | some (kw, name) => [Token.ofWord kw.text, Token.ofWord name.text]

end Entry

namespace Use

def tokens : Use → List Token
  | list use entries =>
    Token.ofWord use.text :: (entries.tokens (fun e => separatorIf e.1 ++ e.2.tokens)
      ++ [Token.ofMark ';'])
  | group use rooted common entries trailingComma =>
    Token.ofWord use.text :: (separatorIf rooted ++ common.tokens
      ++ Token.ofSeparator :: Token.ofMark '{' :: (entries.tokens Entry.tokens
      ++ (if trailingComma then [Token.ofMark ','] else [])
      ++ [Token.ofMark '}', Token.ofMark ';']))

end Use

namespace Supertypes

def tokens {word : String} (s : Supertypes word) : List Token :=
  Token.ofWord s.keyword.text :: s.names.tokens ClassName.tokens

end Supertypes

namespace Declaration

/-- The modifiers, the keyword and the name. -/
def headTokens (d : Declaration) : List Token :=
  d.modifiers.map (fun m => Token.ofWord m.2.text)
    ++ [Token.ofWord d.keyword.text, Token.ofWord d.name.text]

/-- The clauses of supertypes. -/
def clauseTokens (d : Declaration) : List Token :=
  d.extended.toList.flatMap Supertypes.tokens ++ d.implemented.toList.flatMap Supertypes.tokens

def tokens (d : Declaration) : List Token :=
  d.headTokens ++ d.clauseTokens ++ Token.ofMark '{' :: (d.body ++ [Token.ofMark '}'])

end Declaration

namespace Item

def tokens : Item → List Token
  | use u => u.tokens
  | type d => d.tokens

/-- The tokens of several statements. -/
def allTokens (items : List Item) : List Token := items.flatMap tokens

end Item

namespace OpenSection

def tokens (s : OpenSection) : List Token :=
  Token.ofWord s.keyword.text :: (s.scope.tokens ++ Token.ofMark ';' :: Item.allTokens s.items)

end OpenSection

namespace BracedSection

def tokens (s : BracedSection) : List Token :=
  Token.ofWord s.keyword.text :: (s.scope.toList.flatMap Qualified.tokens
    ++ Token.ofMark '{' :: (Item.allTokens s.items
    ++ Token.ofMark '}' :: Item.allTokens s.after))

end BracedSection

namespace Script

def tokens : Script → List Token
  | plain lead sections => Item.allTokens lead ++ sections.flatMap OpenSection.tokens
  | braced lead sections => Item.allTokens lead ++ sections.flatMap BracedSection.tokens

end Script

/-! ## What a file declares -/

/-- Names that are imported and the qualified names they stand for, the latest import first. -/
abbrev Imports := List (Identifier × List Identifier)

/-- **Resolution of class names.** A full name is meant as it stands and a relative one within the
namespace. The first segment of any other name may be an imported name, in any ASCII case; if it is
none, the name is meant within the namespace. -/
def ClassName.resolve (scope : List Identifier) (imports : Imports) : ClassName → List Identifier
  | full q => q.parts
  | relative _ q => scope ++ q.parts
  | plain q =>
    match imports.find? (fun e => Text.sameFolded e.1.text q.first.text) with
    | some e => e.2 ++ q.rest.map Segment.toIdentifier
    | none => scope ++ q.parts

/-- The name that an import introduces: the one behind `as`, or else the last segment. -/
def Entry.name (e : Entry) : Identifier :=
  match e.rename with
  | some (_, name) => name.toIdentifier
  | none => (e.target.rest.getLast?.getD e.target.first).toIdentifier

/-- What a statement imports, in the order in which it is written. -/
def Use.imports : Use → Imports
  | list _ entries => entries.all.map fun e => (e.2.name, e.2.target.parts)
  | group _ _ common entries _ => entries.all.map fun e => (e.name, common.parts ++ e.target.parts)

namespace Declaration

/-- Whether the declaration is one of a class with this modifier. -/
def isClassWith (m : TypeModifier) (d : Declaration) : Bool :=
  d.kind == .cls && d.modifiers.any (·.1 == m)

/-- The names behind `extends`. -/
def extendedNames (d : Declaration) : List ClassName :=
  d.extended.toList.flatMap (·.names.all)

/-- The names behind `implements`. -/
def implementedNames (d : Declaration) : List ClassName :=
  d.implemented.toList.flatMap (·.names.all)

/-- What is declared, the methods apart. What an interface extends are interfaces; an interface that
is named twice is one. -/
def info (file : String) (scope : List Identifier) (imports : Imports) (d : Declaration) :
    TypeInfo :=
  let meaning := fun n : ClassName => joined (n.resolve scope imports)
  let isInterface := d.kind == .interface
  let interfaces := if isInterface then d.extendedNames ++ d.implementedNames else d.implementedNames
  { name := joined (scope ++ [d.name])
    kind := d.kind
    isAbstract := d.isClassWith .abstract
    isFinal := d.isClassWith .final
    file := some file
    parent := if isInterface then none else d.extendedNames.head?.map meaning
    interfaces := (interfaces.map meaning).eraseDupsBy TypeName.same }

end Declaration

/-- What the statements of a section declare, given the imports before them. -/
def Item.declarations (file : String) (scope : List Identifier) : Imports → List Item → List TypeInfo
  | _, [] => []
  | imports, use u :: items => declarations file scope (u.imports.reverse ++ imports) items
  | imports, type d :: items => d.info file scope imports :: declarations file scope imports items

/-- **What a file declares**, in the order of the file. Each section starts without imports. -/
def Script.declarations (file : String) : Script → List TypeInfo
  | plain lead sections =>
    Item.declarations file [] [] lead
      ++ sections.flatMap fun s => Item.declarations file s.scope.parts [] s.items
  | braced lead sections =>
    Item.declarations file [] [] lead
      ++ sections.flatMap fun s =>
        Item.declarations file (s.scope.toList.flatMap Qualified.parts) [] s.items
          ++ Item.declarations file [] [] s.after

end Source
end Conformance
