import Conformance.Pattern.Engine
import Conformance.Types.Registry

/-!
# `Rules.Selection`: which types a rule is about

A selection is a list of restrictions, and a type has to meet all of them. Types of the running
environment are never selected. The types of a registry are selected in its order.
-/

namespace Conformance

/-- One condition on the types that a rule is about. -/
inductive Restriction where
  /-- The namespace begins with this text, up to the case of ASCII letters. Since the text need not
  end with a segment, `App\Foo` takes in `App\FooBar`. -/
  | within (start : String)
  | notAbstract
  | notInterface
  | notTrait
  /-- The pattern occurs in the qualified name. -/
  | named (pattern : Pattern)
  | implementing (interface : String)
  | extending (parent : String)
  deriving Inhabited

/-- Whether a type meets a restriction. -/
def Restriction.admits (t : TypeInfo) : Restriction → Bool
  | within start => Text.startsFolded (TypeName.bare start) t.namespaceName
  | notAbstract => !t.isAbstract
  | notInterface => t.kind != .interface
  | notTrait => t.kind != .trait
  | named pattern => pattern.occursIn t.name
  | implementing interface => t.implementsDirectly interface
  | extending parent => t.extendsDirectly parent

/-- All the conditions on the types that a rule is about. -/
structure Selection where
  restrictions : List Restriction := []
  deriving Inhabited

namespace Selection

/-- The selection with one more condition. -/
def restrict (s : Selection) (r : Restriction) : Selection :=
  { s with restrictions := s.restrictions ++ [r] }

/-- Whether a type is selected. -/
def admits (s : Selection) (t : TypeInfo) : Bool :=
  !t.isInternal && s.restrictions.all (·.admits t)

/-- The selected types of a registry. -/
def pick (s : Selection) (r : Registry) : List TypeInfo :=
  r.types.filter s.admits

end Selection
end Conformance
