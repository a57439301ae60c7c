import Conformance.Document.Value
import Conformance.Yaml.Cursor

/-!
# `Yaml.Node`: the nodes of a document

A document is a tree of scalars, lists and records, in which a node that was given a name can stand
again at other places. Names are first replaced by numbers; then the references are followed, and
what comes out is a document value. A node may refer to a node around it. So references are followed
to a fixed depth only, which is more than a reader of documents of any fixed shape looks at.
-/

namespace Conformance
namespace Yaml

open Document (Scalar Value)

/-- A node, with names of type `ρ`. -/
inductive Node (ρ : Type) where
  | scalar (name : Option ρ) (s : Scalar)
  | list (name : Option ρ) (items : List (Node ρ))
  | record (name : Option ρ) (fields : List (Node ρ × Node ρ))
  | reference (name : ρ)
  deriving Inhabited

/-! ## Numbers instead of names -/

/-- The numbers of the names given so far. A number is the count of different names before it, so
a name that is given again may share its number with a name that comes later. -/
abbrev Numbers := List (String × Nat)

namespace Numbers

/-- Gives a number to a name. -/
def give (ns : Numbers) (name : String) : Nat × Numbers :=
  (ns.length, (name, ns.length) :: ns.filter (fun n => n.1 != name))

/-- Gives a number to a name if there is one. -/
def give? (ns : Numbers) : Option String → Option Nat × Numbers
  | none => (none, ns)
  | some name =>
    let (n, ns) := ns.give name
    (some n, ns)

end Numbers

/-- Replaces names by numbers, in the order of the text. A reference needs a name before it. -/
def Node.number (ns : Numbers) : Node String → Except Fault (Node Nat × Numbers)
  | scalar name s =>
    let (name, ns) := ns.give? name
    .ok (.scalar name s, ns)
  | list name items => do
    let (name, ns) := ns.give? name
    let (items, ns) ← numberItems ns items
    pure (.list name items, ns)
  | record name fields => do
    let (name, ns) := ns.give? name
    let (fields, ns) ← numberFields ns fields
    pure (.record name fields, ns)
  | reference name =>
    match ns.lookup name with
    | some n => .ok (.reference n, ns)
    | none => .error .unknownReference
where
  /-- Replaces names in the items of a list. -/
  numberItems (ns : Numbers) : List (Node String) → Except Fault (List (Node Nat) × Numbers)
    | [] => .ok ([], ns)
    | n :: rest => do
      let (n, ns) ← n.number ns
      let (rest, ns) ← numberItems ns rest
      pure (n :: rest, ns)
  /-- Replaces names in the fields of a record. -/
  numberFields (ns : Numbers) :
      List (Node String × Node String) → Except Fault (List (Node Nat × Node Nat) × Numbers)
    | [] => .ok ([], ns)
    | (k, v) :: rest => do
      let (k, ns) ← k.number ns
      let (v, ns) ← v.number ns
      let (rest, ns) ← numberFields ns rest
      pure ((k, v) :: rest, ns)

/-! ## References -/

/-- A node under its name, if it has one. -/
def Node.entry (name : Option Nat) (n : Node Nat) : List (Nat × Node Nat) :=
  (name.map fun i => (i, n)).toList

/-- The nodes that have names, in the order of the text. -/
def Node.named : Node Nat → List (Nat × Node Nat)
  | scalar name s => entry name (.scalar name s)
  | list name items => entry name (.list name items) ++ namedItems items
  | record name fields => entry name (.record name fields) ++ namedFields fields
  | reference _ => []
where
  /-- The nodes with names in the items of a list. -/
  namedItems : List (Node Nat) → List (Nat × Node Nat)
    | [] => []
    | n :: rest => n.named ++ namedItems rest
  /-- The nodes with names in the fields of a record. -/
  namedFields : List (Node Nat × Node Nat) → List (Nat × Node Nat)
    | [] => []
    | (k, v) :: rest => k.named ++ v.named ++ namedFields rest

/-- A record whose keys are all texts. -/
def recordOf (fields : List (Value × Value)) : Value :=
  match fields.mapM fun (k, v) => k.text?.map (·, v) with
  | some fields => .record fields
  | none => .unreadable

/-- The value of a node, when the values of the nodes with names are known. -/
def Node.toValue (known : List (Nat × Value)) : Node Nat → Value
  | scalar _ s => .scalar s
  | list _ items => .list (itemValues items)
  | record _ fields => recordOf (fieldValues fields)
  | reference n => (known.lookup n).getD .unreadable
where
  /-- The values of the items of a list. -/
  itemValues : List (Node Nat) → List Value
    | [] => []
    | n :: rest => n.toValue known :: itemValues rest
  /-- The values of the fields of a record. -/
  fieldValues : List (Node Nat × Node Nat) → List (Value × Value)
    | [] => []
    | (k, v) :: rest => (k.toValue known, v.toValue known) :: fieldValues rest

/-- The values of nodes with names, with references followed to some depth. -/
def valuesOf (named : List (Nat × Node Nat)) : Nat → List (Nat × Value)
  | 0 => []
  | depth + 1 =>
    let known := valuesOf named depth
    named.map fun (i, n) => (i, n.toValue known)

/-- References within references are followed to this depth. -/
def referenceDepth : Nat := 16

/-- The value of a whole document. Of several nodes with one number the last one counts. -/
def Node.value? (n : Node String) : Except Fault Value := do
  let (n, _) ← n.number []
  pure (n.toValue (valuesOf n.named.reverse referenceDepth))

end Yaml
end Conformance
