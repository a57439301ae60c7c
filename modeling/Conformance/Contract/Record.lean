import Conformance.Contract.Basic
import Conformance.Document.Value

/-!
# `Contract.Record`: contracts as documents

Every part of a contract is a record with fields of fixed names. Writing gives all fields, except
that a requiring clause is written with the fields that are set. Reading takes absent fields as not
set; it passes over fields it does not know, but refuses them in a requiring clause, where they
could only be misspelled demands.
-/

namespace Conformance

open Document (Value)

/-! ## Supplied types -/

namespace SuppliedType

/-- The names of the fields. -/
def fieldNames : List String :=
  ["name", "kind", "abstract", "final", "parent", "interfaces", "methods"]

/-- Writes a supplied type. -/
def toValue (s : SuppliedType) : Value := .record [
  ("name", .text s.name),
  ("kind", .text s.kind.keyword),
  ("abstract", .bool s.isAbstract),
  ("final", .bool s.isFinal),
  ("parent", Value.ofOption .text s.parent),
  ("interfaces", Value.ofTexts s.interfaces),
  ("methods", Value.ofTexts s.methods)]

/-- Reads a supplied type. -/
def ofValue? (v : Value) : Option SuppliedType := do
  let fs ← v.open? fieldNames
  some {
    name := ← Value.required? fs "name" Value.text?
    kind := ← Value.required? fs "kind" (Value.word? TypeKind.ofWord?)
    isAbstract := ← Value.field? fs "abstract" false Value.flag?
    isFinal := ← Value.field? fs "final" false Value.flag?
    parent := ← Value.field? fs "parent" none (Value.optional? Value.text?)
    interfaces := ← Value.field? fs "interfaces" [] (Value.listOf? Value.text?)
    methods := ← Value.field? fs "methods" [] (Value.listOf? Value.text?) }

end SuppliedType

/-! ## Clauses -/

namespace SelectClause

/-- The names of the fields. -/
def fieldNames : List String :=
  ["in_namespace", "exclude_abstract", "exclude_interfaces", "exclude_traits", "matching",
    "implementing", "extending"]

/-- Writes a selecting clause. -/
def toValue (s : SelectClause) : Value := .record [
  ("in_namespace", Value.ofOption .text s.within),
  ("exclude_abstract", .bool s.notAbstract),
  ("exclude_interfaces", .bool s.notInterface),
  ("exclude_traits", .bool s.notTrait),
  ("matching", Value.ofOption .text s.named),
  ("implementing", Value.ofOption .text s.implementing),
  ("extending", Value.ofOption .text s.extending)]

/-- Reads a selecting clause. -/
def ofValue? (v : Value) : Option SelectClause := do
  let fs ← v.open? fieldNames
  some {
    within := ← Value.field? fs "in_namespace" none (Value.optional? Value.text?)
    notAbstract := ← Value.field? fs "exclude_abstract" false Value.flag?
    notInterface := ← Value.field? fs "exclude_interfaces" false Value.flag?
    notTrait := ← Value.field? fs "exclude_traits" false Value.flag?
    named := ← Value.field? fs "matching" none (Value.optional? Value.text?)
    implementing := ← Value.field? fs "implementing" none (Value.optional? Value.text?)
    extending := ← Value.field? fs "extending" none (Value.optional? Value.text?) }

end SelectClause

namespace RequireClause

/-- The names of the fields. -/
def fieldNames : List String :=
  ["name_prefix", "name_suffix", "name_matching", "invokable", "max_public_methods",
    "min_public_methods", "exact_public_methods", "implement", "extend", "final", "abstract"]

/-- A count as a document has it. -/
def ofCount (n : Nat) : Value := .integer n

/-- A flag is written when it is set. -/
def ofFlagSet (b : Bool) : Option Value := if b then some (.bool true) else none

/-- Writes a requiring clause. -/
def toValue (a : RequireClause) : Value := .record <| Value.setFields [
  ("name_prefix", a.startsWith.map .text),
  ("name_suffix", a.endsWith.map .text),
  ("name_matching", a.named.map .text),
  ("invokable", ofFlagSet a.invokable),
  ("max_public_methods", a.atMost.map ofCount),
  ("min_public_methods", a.atLeast.map ofCount),
  ("exact_public_methods", a.exactly.map ofCount),
  ("implement", a.implementing.map .text),
  ("extend", a.extending.map .text),
  ("final", ofFlagSet a.isFinal),
  ("abstract", ofFlagSet a.isAbstract)]

/-- Reads a requiring clause. -/
def ofValue? (v : Value) : Option RequireClause := do
  let fs ← v.closed? fieldNames
  some {
    startsWith := ← Value.field? fs "name_prefix" none (Value.optional? Value.text?)
    endsWith := ← Value.field? fs "name_suffix" none (Value.optional? Value.text?)
    named := ← Value.field? fs "name_matching" none (Value.optional? Value.text?)
    invokable := ← Value.field? fs "invokable" false Value.flag?
    atMost := ← Value.field? fs "max_public_methods" none (Value.optional? Value.count?)
    atLeast := ← Value.field? fs "min_public_methods" none (Value.optional? Value.count?)
    exactly := ← Value.field? fs "exact_public_methods" none (Value.optional? Value.count?)
    implementing := ← Value.field? fs "implement" none (Value.optional? Value.text?)
    extending := ← Value.field? fs "extend" none (Value.optional? Value.text?)
    isFinal := ← Value.field? fs "final" false Value.flag?
    isAbstract := ← Value.field? fs "abstract" false Value.flag? }

end RequireClause

/-! ## Rules and contracts -/

namespace Rule

/-- The names of the fields. -/
def fieldNames : List String := ["name", "message", "select", "assert"]

/-- Writes a rule. -/
def toValue (r : Rule) : Value := .record [
  ("name", .text r.name),
  ("message", Value.ofOption .text r.message),
  ("select", r.select.toValue),
  ("assert", .list (r.require.map RequireClause.toValue))]

/-- Reads a rule. -/
def ofValue? (v : Value) : Option Rule := do
  let fs ← v.open? fieldNames
  some {
    name := ← Value.required? fs "name" Value.text?
    message := ← Value.field? fs "message" none (Value.optional? Value.text?)
    select := ← Value.field? fs "select" {} SelectClause.ofValue?
    require := ← Value.field? fs "assert" [] (Value.listOf? RequireClause.ofValue?) }

end Rule

namespace Contract

/-- The names of the fields. -/
def fieldNames : List String :=
  ["version", "name", "description", "sources", "extensions", "excluded_paths",
    "coverage_threshold", "known_types", "rules"]

/-- Writes a contract. -/
def toValue (c : Contract) : Value := .record [
  ("version", .text c.version),
  ("name", .text c.name),
  ("description", Value.ofOption .text c.description),
  ("sources", Value.ofTexts c.sources),
  ("extensions", Value.ofTexts c.extensions),
  ("excluded_paths", Value.ofTexts c.excludedPaths),
  ("coverage_threshold", Value.ofOption .decimal c.coverageThreshold),
  ("known_types", .list (c.suppliedTypes.map SuppliedType.toValue)),
  ("rules", .list (c.rules.map Rule.toValue))]

/-- Reads a contract. -/
def ofValue? (v : Value) : Option Contract := do
  let fs ← v.open? fieldNames
  some {
    version := ← Value.field? fs "version" "" Value.text?
    name := ← Value.field? fs "name" "" Value.text?
    description := ← Value.field? fs "description" none (Value.optional? Value.text?)
    sources := ← Value.field? fs "sources" [] (Value.listOf? Value.text?)
    extensions := ← Value.field? fs "extensions" [] (Value.listOf? Value.text?)
    excludedPaths := ← Value.field? fs "excluded_paths" [] (Value.listOf? Value.text?)
    coverageThreshold :=
      ← Value.field? fs "coverage_threshold" none (Value.optional? Value.number?)
    suppliedTypes := ← Value.field? fs "known_types" [] (Value.listOf? SuppliedType.ofValue?)
    rules := ← Value.field? fs "rules" [] (Value.listOf? Rule.ofValue?) }

end Contract
end Conformance
