import Conformance.Proofs.Source.Names

/-!
# `Proofs.Source.UseStatements`: import statements and the classes they import

All import statements of the language, not only those of a `Script`: the parts of a name are any
identifiers except the word `as`, and functions and constants are imported, too, by a whole statement or by
single entries of a group, which are marked with a word. `ImportStatement.imports` gives the imports of
classes, in the order in which they are written.

The reader takes the mark of an entry for the beginning of its name. `GroupEntry.asRead` is the entry that
it reads in this way; without a mark it is the entry itself. So `ImportStatement.read`, the imports of a
statement as they are read, has more entries than there are imports of classes.
-/

namespace Conformance
namespace Source

/-! ## Syntax -/

/-- A part of an imported name, or the name that an import gets. -/
structure ImportPart extends Identifier where
  not_as : Text.sameFolded text "as" = false := by rfl
  deriving DecidableEq, Repr

/-- One part or several, with separators between them. -/
structure ImportName where
  first : ImportPart
  rest : List ImportPart := []
  deriving DecidableEq, Repr

/-- A name that is imported, and the name it gets. -/
structure ImportEntry where
  target : ImportName
  rename : Option (Keyword "as" × ImportPart) := none
  deriving DecidableEq, Repr

/-- What is imported besides classes. -/
inductive OtherSort where
  | function
  | const
  deriving DecidableEq, Repr

/-- The word that marks the sort. -/
def OtherSort.word : OtherSort → String
  | function => "function"
  | const => "const"

/-- The word that marks an import of another sort. -/
structure OtherMark where
  sort : OtherSort
  keyword : Keyword sort.word

/-- An entry of a group. Only those without a mark import classes. -/
structure GroupEntry where
  mark : Option OtherMark := none
  entry : ImportEntry

/-- Whether the part is the mark of another sort. -/
def ImportPart.isMark (p : ImportPart) : Bool :=
  Text.sameFolded p.text "function" || Text.sameFolded p.text "const"

/-- An import statement without the token that ends it. A mark right behind `use` is one of the whole
statement. -/
inductive ImportStatement where
  /-- Functions or constants, written in any way. -/
  | other (use : Keyword "use") (mark : OtherMark) (rest : List Token)
      (hrest : ∀ t ∈ rest, t.endsStatement = false)
  /-- A list of names; each may have a separator in front. -/
  | list (use : Keyword "use") (entries : Listing (Bool × ImportEntry))
      (hfirst : entries.first.1 = true ∨ entries.first.2.target.first.isMark = false)
  /-- Names with a common beginning, which may have a separator in front. -/
  | group (use : Keyword "use") (rooted : Bool) (common : ImportName) (entries : Listing GroupEntry)
      (trailingComma : Bool) (hfirst : rooted = true ∨ common.first.isMark = false)

/-! ## Writing a statement down -/

namespace ImportName

def parts (n : ImportName) : List Identifier := (n.first :: n.rest).map ImportPart.toIdentifier

/-- The last part. -/
def last (n : ImportName) : ImportPart := n.rest.getLast?.getD n.first

def tokens (n : ImportName) : List Token :=
  Token.ofWord n.first.text :: partTokens (n.rest.map ImportPart.toIdentifier)

end ImportName

def OtherMark.token (m : OtherMark) : Token := Token.ofWord m.keyword.text

/-- The name behind `as`, if there is one. -/
def ImportEntry.renameTokens (e : ImportEntry) : List Token :=
  match e.rename with
  | none => []
  | some (kw, name) => [Token.ofWord kw.text, Token.ofWord name.text]

def ImportEntry.tokens (e : ImportEntry) : List Token := e.target.tokens ++ e.renameTokens

def GroupEntry.tokens (e : GroupEntry) : List Token :=
  e.mark.toList.map OtherMark.token ++ e.entry.tokens

/-- The tokens of an entry that may have a separator in front. -/
def rootedTokens (e : Bool × ImportEntry) : List Token := separatorIf e.1 ++ e.2.tokens

/-- The end of a group: a comma, if there is one, and the brace. -/
def groupEnd (trailingComma : Bool) : List Token :=
  (if trailingComma then [Token.ofMark ','] else []) ++ [Token.ofMark '}']

def ImportStatement.tokens : ImportStatement → List Token
  | other use mark rest _ => Token.ofWord use.text :: mark.token :: rest
  | list use entries _ => Token.ofWord use.text :: entries.tokens rootedTokens
  | group use rooted common entries trailingComma _ =>
    Token.ofWord use.text :: ((separatorIf rooted ++ common.tokens ++ [Token.ofSeparator])
      ++ Token.ofMark '{' :: (entries.tokens GroupEntry.tokens ++ groupEnd trailingComma))

/-! ## What a statement imports -/

/-- The name that an import gets: the one behind `as`, or else the last part. -/
def ImportEntry.name (e : ImportEntry) : Identifier :=
  match e.rename with
  | some (_, name) => name.toIdentifier
  | none => e.target.last.toIdentifier

/-- What the entry imports, behind the common beginning of its group. -/
def ImportEntry.imported (common : List Identifier) (e : ImportEntry) : Identifier × List Identifier :=
  (e.name, common ++ e.target.parts)

/-- **The classes that a statement imports**, in the order in which it is written. -/
def ImportStatement.imports : ImportStatement → Imports
  | other .. => []
  | list _ entries _ => entries.all.map fun e => e.2.imported []
  | group _ _ common entries _ _ =>
    (entries.all.filter (·.mark.isNone)).map fun e => e.entry.imported common.parts

/-! ## Marks that are taken for the beginning of a name -/

theorem isAlpha_of_toLower {c : Char} (h : c.toLower.isAlpha = true) : c.isAlpha = true := by
  by_cases hupper : c.isUpper = true
  · show (c.isUpper || c.isLower) = true
    rw [hupper, Bool.true_or]
  · rwa [toLower_of_not_upper hupper] at h

namespace OtherMark

variable (m : OtherMark)

theorem isAlpha_text : ∀ c ∈ m.keyword.text.toList, c.isAlpha = true := by
  intro c hc
  have hword : (m.sort.word.toList.map Char.toLower).all Char.isAlpha = true := by
    cases m.sort <;> decide
  rw [← m.keyword.map_toLower, List.all_eq_true] at hword
  exact isAlpha_of_toLower (hword _ (List.mem_map_of_mem hc))

theorem lt_length_text : 2 < m.keyword.text.toList.length := by
  have hlength := congrArg List.length m.keyword.map_toLower
  rw [List.length_map] at hlength
  rw [hlength]
  cases m.sort <;> decide

/-- A part of a name with the mark in front, all of it one word. -/
def glue (p : ImportPart) : ImportPart where
  text := m.keyword.text ++ p.text
  start := by
    have hlength := m.lt_length_text
    rw [String.toList_append]
    cases htext : m.keyword.text.toList with
    | nil =>
      rw [htext] at hlength
      exact absurd hlength (Nat.not_lt_zero 2)
    | cons c cs =>
      have hc := m.isAlpha_text c (by rw [htext]; exact List.mem_cons_self)
      show isIdentifierStart c = true
      rw [isIdentifierStart, hc, Bool.true_or]
  chars := by
    rw [String.toList_append, List.all_append, p.chars, Bool.and_true, List.all_eq_true]
    intro c hc
    rw [isIdentifierChar, Char.isAlphanum, m.isAlpha_text c hc]
    rfl
  not_as := by
    rw [Bool.eq_false_iff]
    intro hsame
    -- the mark alone is longer than the word `as`
    have hlength := congrArg (·.toList.length) (Text.sameFolded_iff.1 hsame)
    have has : "as".toList.length = 2 := by decide
    simp only [Text.toList_foldCase, List.length_map, String.toList_append, List.length_append] at hlength
    have hlt := m.lt_length_text
    omega

end OtherMark

/-- **The entry that is read** where this one is written. -/
def GroupEntry.asRead (e : GroupEntry) : ImportEntry :=
  match e.mark with
  | none => e.entry
  | some m => { e.entry with target := { e.entry.target with first := m.glue e.entry.target.first } }

/-- The imports of a statement as they are read. -/
def ImportStatement.read : ImportStatement → Imports
  | other .. => []
  | list _ entries _ => entries.all.map fun e => e.2.imported []
  | group _ _ common entries _ _ => entries.all.map fun e => e.asRead.imported common.parts

end Source
end Conformance
