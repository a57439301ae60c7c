import Conformance.Files.Path
import Conformance.Text.Blank
import Conformance.Types.Info

/-!
# `Contract.Basic`: contracts, as they are written

A contract says where the sources are, which types are supplied from elsewhere, and which rules the
types have to follow. Each rule selects types in one clause and asks something of them in others.
Here everything is kept as it was written; patterns are plain texts.
-/

namespace Conformance

/-- A type that the sources use without declaring it. -/
structure SuppliedType where
  name : String
  kind : TypeKind
  isAbstract : Bool := false
  isFinal : Bool := false
  parent : Option String := none
  interfaces : List String := []
  /-- The names of its public methods. -/
  methods : List String := []
  deriving DecidableEq, Repr, Inhabited

/-- What is known about a supplied type. -/
def SuppliedType.info (s : SuppliedType) : TypeInfo :=
  let t := { TypeInfo.named s.kind s.name with isAbstract := s.isAbstract, isFinal := s.isFinal }
  let t := match s.parent with
    | some parent => t.withParent parent
    | none => t
  let t := s.interfaces.foldl TypeInfo.addInterface t
  s.methods.foldl (fun t name => t.addMethod (Method.named name .pub)) t

/-- Says which types a rule is about; all conditions have to hold. -/
structure SelectClause where
  within : Option String := none
  notAbstract : Bool := false
  notInterface : Bool := false
  notTrait : Bool := false
  /-- A pattern over qualified names. -/
  named : Option String := none
  implementing : Option String := none
  extending : Option String := none
  deriving DecidableEq, Repr, Inhabited

/-- Says one thing that the selected types have to be like. Exactly one field should be set. -/
structure RequireClause where
  startsWith : Option String := none
  endsWith : Option String := none
  /-- A pattern over short names. -/
  named : Option String := none
  invokable : Bool := false
  atMost : Option Nat := none
  atLeast : Option Nat := none
  exactly : Option Nat := none
  implementing : Option String := none
  extending : Option String := none
  isFinal : Bool := false
  isAbstract : Bool := false
  deriving DecidableEq, Repr, Inhabited

/-- A rule: which types it is about, and what they have to be like. -/
structure Rule where
  name : String
  /-- What the rule is for, as reported when types violate it. -/
  message : Option String := none
  select : SelectClause := {}
  require : List RequireClause := []
  deriving DecidableEq, Repr, Inhabited

/-- What is reported as the purpose of a rule. -/
def Rule.summary (r : Rule) : String :=
  match r.message.filter (fun m => !Text.isBlankText m) with
  | some m => m
  | none => "rule " ++ r.name ++ " failed"

/-- The rules of an architecture, and the sources that they are about. -/
structure Contract where
  version : String := ""
  name : String := ""
  description : Option String := none
  /-- Files or directories with sources, seen from the checked path. -/
  sources : List String := []
  /-- Extensions of source files without the dot. -/
  extensions : List String := []
  /-- Path patterns for the files to leave out. -/
  excludedPaths : List String := []
  /-- The least overall coverage in percent. -/
  coverageThreshold : Option Float := none
  suppliedTypes : List SuppliedType := []
  rules : List Rule := []
  deriving Inhabited

namespace Contract

/-- The name under which the rules of an unnamed contract run. -/
def defaultName : String := "architecture"

/-- The name under which the rules run. -/
def suiteName (c : Contract) : String :=
  if Text.isBlankText c.name then defaultName else c.name

/-- Where to look for sources when `base` is checked. A file is all there is to look at. -/
def sourceRoots (c : Contract) (base : Path) (baseIsFile : Bool) : List Path :=
  if baseIsFile || c.sources.isEmpty then [base] else c.sources.map base.join

end Contract
end Conformance
