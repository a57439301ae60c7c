import Conformance.Pattern.Engine
import Conformance.Types.Info
import Conformance.Usage.Ledger

/-!
# `Rules.Requirement`: what a rule asks of each selected type

A requirement looks at one type alone. It says whether the type meets it, what to report if not,
and under which category of checks its application is recorded, if it is recorded at all.
-/

namespace Conformance

/-- One condition that every selected type has to meet. -/
inductive Requirement where
  | startsWith (start : String)
  | endsWith (ending : String)
  /-- The pattern occurs in the short name. -/
  | named (pattern : Pattern)
  | invokable
  | atMost (count : Nat)
  | atLeast (count : Nat)
  | exactly (count : Nat)
  | implementing (interface : String)
  | extending (parent : String)
  | isFinal
  | isAbstract
  deriving Inhabited

namespace Requirement

/-- The method that makes the objects of a class callable. -/
def invokeName : String := "__invoke"

/-- Whether a type meets the requirement. -/
def isMetBy (t : TypeInfo) : Requirement → Bool
  | startsWith start => Text.startsWith start t.shortName
  | endsWith ending => Text.endsWith ending t.shortName
  | named pattern => pattern.occursIn t.shortName
  | invokable => t.hasPublicMethod invokeName
  | atMost count => t.publicMethodCount ≤ count
  | atLeast count => count ≤ t.publicMethodCount
  | exactly count => t.publicMethodCount == count
  | implementing interface => t.implementsDirectly interface
  | extending parent => t.extendsDirectly parent
  | isFinal => t.isFinal
  | isAbstract => t.isAbstract

/-- What is expected about the number of public methods, and what was found. -/
def countText (bound : String) (count found : Nat) : String :=
  bound ++ " " ++ toString count ++ " public methods, has " ++ toString found

/-- What a type that does not meet the requirement should be like. -/
def expectation (t : TypeInfo) : Requirement → String
  | startsWith start => "have name prefix \"" ++ start ++ "\""
  | endsWith ending => "have name suffix \"" ++ ending ++ "\""
  | named pattern => "have a name matching /" ++ pattern.text ++ "/"
  | invokable => "be invokable (public " ++ invokeName ++ " method)"
  | atMost count => "have " ++ countText "at most" count t.publicMethodCount
  | atLeast count => "have " ++ countText "at least" count t.publicMethodCount
  | exactly count => "have " ++ countText "exactly" count t.publicMethodCount
  | implementing interface => "implement " ++ interface
  | extending parent => "extend " ++ parent
  | isFinal => "be final"
  | isAbstract => "be abstract"

/-- What is reported about a type that does not meet the requirement. -/
def complaint (r : Requirement) (t : TypeInfo) : String :=
  t.name ++ " should " ++ r.expectation t

/-- The category that the application of the requirement is recorded under. What is asked of the
methods of a type is not recorded. -/
def category? : Requirement → Option Category
  | startsWith _ => some .namePrefix
  | endsWith _ => some .nameSuffix
  | named _ => some .namePattern
  | implementing _ => some .implement
  | extending _ => some .extend
  | isFinal | isAbstract => some .modifier
  | invokable | atMost _ | atLeast _ | exactly _ => none

end Requirement
end Conformance
