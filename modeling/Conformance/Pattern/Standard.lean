import Conformance.Pattern.Engine
import Conformance.Pattern.Meaning

/-!
# `Pattern.Standard`: the engine that commands run with

A search pattern occurs where the expression matches that its tree stands for. Path patterns can be put
together if none of them is nested more deeply than a search pattern may be.

The engine knows fewer properties of characters than Unicode has (`Pattern.Meaning` says which), and it has
no limit to the size of expressions. It is what programs run with, and what fixed inputs are worked out with;
general results are about any engine.
-/

namespace Conformance

/-- Reads search patterns by their grammar and matches them by their meaning. -/
instance Engine.standard : Engine where
  read text := do
    let tree ← Pattern.Tree.ofText text
    let (expr, _) ← tree.meaning {}
    pure fun s => expr.occursIn s.toList
  unite globs :=
    if globs.all (fun g => g.depth ≤ Pattern.maxDepth) then .ok () else .error .nestedTooDeeply

end Conformance
