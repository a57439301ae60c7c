import Conformance.Document.Scalar

/-!
# `Document.Value`: documents as values, and reading them

A document is a tree of lists and records. Its leaves are typed, as in a document that a program
wrote, or scalars whose type is open. Reading says which shape is expected; it succeeds or not, and
gives no reason. Fields of a record that nobody asks for do not matter.
-/

namespace Conformance
namespace Document

/-- A document, or a part of one. -/
inductive Value where
  | null
  | bool (b : Bool)
  | integer (n : Int)
  | decimal (x : Float)
  | text (s : String)
  | scalar (s : Scalar)
  | list (items : List Value)
  /-- Values in a row: a list, or the first fields of a record in their fixed order. -/
  | row (items : List Value)
  | record (fields : List (String × Value))
  /-- Something that cannot be read, but does no harm where nobody asks for it. -/
  | unreadable
  deriving Inhabited

namespace Value

/-! ## Leaves -/

/-- A text; an open scalar is one as it was written. -/
def text? : Value → Option String
  | text s => some s
  | scalar s => some s.text
  | _ => none

/-- A truth value. -/
def flag? : Value → Option Bool
  | bool b => some b
  | scalar s => s.flag?
  | _ => none

/-- A count. -/
def count? : Value → Option Nat
  | integer n => if 0 ≤ n then Scalar.limited (some n.toNat) else none
  | scalar s => s.count?
  | _ => none

/-- A number. -/
def number? : Value → Option Float
  | integer n => some (Float.ofInt n)
  | decimal x => some x
  | scalar s => s.number?
  | _ => none

/-- Either nothing or what `read` gives. -/
def optional? {α : Type} (read : Value → Option α) (v : Value) : Option (Option α) :=
  match v with
  | null => some none
  | scalar s =>
    match s.isNull? with
    | some true => some none
    | some false => (read v).map some
    | none => none
  | v => (read v).map some

/-- One of some words. The word may also be the tag of a scalar that stands for nothing, or the
name of the only field of a record that holds nothing. -/
def word? {α : Type} (ofWord? : String → Option α) : Value → Option α
  | text s => ofWord? s
  | scalar s =>
    match s.tag.map String.toList with
    | some ('!' :: name) =>
      if s.style == .plain && (s.text.isEmpty || Scalar.nullWords.contains s.text) then
        ofWord? (if name.isEmpty then "!" else String.ofList name)
      else none
    | _ => ofWord? s.text
  | record [(name, null)] => ofWord? name
  | _ => none

/-! ## Lists and records -/

/-- A list of what `read` gives. A scalar of which nothing is written counts as empty. -/
def listOf? {α : Type} (read : Value → Option α) : Value → Option (List α)
  | list items | row items => items.mapM read
  | scalar s => if s.isBlank then some [] else none
  | _ => none

/-- The fields of a record; in a row they go by the order of the known names. A scalar of which
nothing is written counts as empty. -/
def fields? (known : List String) : Value → Option (List (String × Value))
  | record fields => some fields
  | row items => if items.length ≤ known.length then some (known.zip items) else none
  | scalar s => if s.isBlank then some [] else none
  | _ => none

/-- The fields of a record in which none of the known fields stands twice. -/
def open? (known : List String) (v : Value) : Option (List (String × Value)) :=
  (v.fields? known).filter fun fields =>
    known.all fun name => fields.countP (fun f => f.1 == name) ≤ 1

/-- The fields of a record that has no others than the known ones, and each at most once. -/
def closed? (known : List String) (v : Value) : Option (List (String × Value)) :=
  (v.open? known).filter fun fields => fields.all fun f => known.contains f.1

/-- A field that has to be there. -/
def required? {α : Type} (fields : List (String × Value)) (name : String)
    (read : Value → Option α) : Option α :=
  (fields.lookup name).bind read

/-- A field with a value of its own if it is not there. -/
def field? {α : Type} (fields : List (String × Value)) (name : String) (absent : α)
    (read : Value → Option α) : Option α :=
  match fields.lookup name with
  | none => some absent
  | some v => read v

/-- The value of an optional leaf. -/
def ofOption {α : Type} (write : α → Value) : Option α → Value
  | none => null
  | some a => write a

/-- The list of some texts. -/
def ofTexts (ss : List String) : Value := list (ss.map text)

/-- The fields that are there. -/
def setFields (fields : List (String × Option Value)) : List (String × Value) :=
  fields.filterMap fun (name, v) => v.map (name, ·)

end Value
end Document
end Conformance
