import Conformance.Glob.Basic
import Conformance.Pattern.Tree

/-!
# `Pattern.Engine`: search patterns, as far as rules know them

Search patterns are read by an engine for regular expressions, and so are the path patterns of a contract,
all of them at once. Which texts an engine takes for patterns, what they match, and how large or deeply
nested an expression may be, is up to the engine. Rules and contracts are checked with whatever engine is
there: an `Engine` has no laws, and nothing that is proved of them depends on how it works.
`Pattern.Standard` has the engine that commands run with.
-/

namespace Conformance

/-- An engine for regular expressions. -/
class Engine where
  /-- Reads a search pattern: the test whether it occurs anywhere in a text. -/
  read : String → Except Pattern.Fault (String → Bool)
  /-- Puts path patterns together, so that paths can be held against all of them at once. -/
  unite : List Glob → Except Glob.SetFault Unit

/-- A search pattern that was understood. -/
structure Pattern where
  text : String
  /-- Whether the pattern occurs anywhere in a text. -/
  occursIn : String → Bool
  deriving Inhabited

namespace Pattern

/-- Has a pattern read by the engine. -/
def compile [Engine] (text : String) : Except Fault Pattern :=
  (Engine.read text).map fun occursIn => { text, occursIn }

end Pattern
end Conformance
