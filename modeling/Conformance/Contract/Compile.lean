import Conformance.Contract.Basic
import Conformance.Rules.Requirement
import Conformance.Rules.Selection
import Conformance.Text.Quoted

/-!
# `Contract.Compile`: from clauses to selections and requirements

A clause becomes a selection or a requirement when its patterns are understood. A clause that
should say one thing and says none or several has no meaning. Both are faults of one rule only:
they are found when the rule is applied.
-/

namespace Conformance

/-- Why a rule cannot be applied. -/
inductive RuleFault where
  /-- The pattern over qualified names is not understood. -/
  | badSelectPattern (text : String) (cause : Pattern.Fault)
  /-- The pattern over short names is not understood. -/
  | badNamePattern (text : String) (cause : Pattern.Fault)
  /-- A clause says this many things instead of one. -/
  | notOneDemand (count : Nat)
  deriving Repr, Inhabited

/-- How a faulty pattern is reported. -/
def patternFaultText (what text cause : String) : String :=
  "invalid " ++ what ++ " pattern " ++ Text.quote text ++ ": " ++ cause

/-- How the wrong number of demands is reported. -/
def notOneText (count : Nat) : String :=
  "must set exactly one check, found " ++ toString count

/-- How a fault is reported. -/
def RuleFault.message : RuleFault → String
  | badSelectPattern text cause => patternFaultText "matching" text cause.message
  | badNamePattern text cause => patternFaultText "name_matching" text cause.message
  | notOneDemand count => "assertion " ++ notOneText count

namespace SelectClause

/-- The condition of a clause with a pattern, if it has one. -/
def namedRestriction [Engine] : Option String → Except RuleFault (List Restriction)
  | none => .ok []
  | some text =>
    match Pattern.compile text with
    | .ok pattern => .ok [.named pattern]
    | .error cause => .error (.badSelectPattern text cause)

/-- The condition that holds if a flag is set. -/
def whenSet (flag : Bool) (r : Restriction) : List Restriction :=
  if flag then [r] else []

/-- The selection that a clause means. -/
def compile [Engine] (s : SelectClause) : Except RuleFault Selection :=
  (namedRestriction s.named).map fun named => {
    restrictions :=
      (s.within.map Restriction.within).toList
      ++ whenSet s.notAbstract .notAbstract
      ++ whenSet s.notInterface .notInterface
      ++ whenSet s.notTrait .notTrait
      ++ named
      ++ (s.implementing.map Restriction.implementing).toList
      ++ (s.extending.map Restriction.extending).toList }

end SelectClause

/-- One thing that a clause demands. -/
inductive Demand where
  | ready (r : Requirement)
  /-- The pattern occurs in the short name. -/
  | named (text : String)
  deriving Inhabited

/-- The requirement that a demand means. -/
def Demand.compile [Engine] : Demand → Except RuleFault Requirement
  | ready r => .ok r
  | named text =>
    match Pattern.compile text with
    | .ok pattern => .ok (.named pattern)
    | .error cause => .error (.badNamePattern text cause)

namespace RequireClause

/-- The demand of a field that is set. -/
def ofField {α : Type} (field : Option α) (demand : α → Requirement) : List Demand :=
  (field.map fun a => Demand.ready (demand a)).toList

/-- The demand of a flag that is set. -/
def ofFlag (flag : Bool) (r : Requirement) : List Demand :=
  if flag then [.ready r] else []

/-- Everything that a clause demands; it should be one thing. -/
def demands (a : RequireClause) : List Demand :=
  ofField a.startsWith .startsWith
    ++ ofField a.endsWith .endsWith
    ++ (a.named.map Demand.named).toList
    ++ ofFlag a.invokable .invokable
    ++ ofField a.atMost .atMost
    ++ ofField a.atLeast .atLeast
    ++ ofField a.exactly .exactly
    ++ ofField a.implementing .implementing
    ++ ofField a.extending .extending
    ++ ofFlag a.isFinal .isFinal
    ++ ofFlag a.isAbstract .isAbstract

/-- How many things a clause demands. -/
def demandCount (a : RequireClause) : Nat := a.demands.length

/-- The requirement that a clause means. -/
def compile [Engine] (a : RequireClause) : Except RuleFault Requirement :=
  match a.demands with
  | [d] => d.compile
  | ds => .error (.notOneDemand ds.length)

end RequireClause

/-- The requirements of a rule, in the order of its clauses. -/
def Rule.requirements [Engine] (r : Rule) : Except RuleFault (List Requirement) :=
  r.require.mapM RequireClause.compile

end Conformance
