import Conformance.Coverage.Aspect
import Conformance.Coverage.Quantity
import Conformance.Source.Outline
import Conformance.Types.Registry

/-!
# `Coverage.Score`: how much of types, files and whole runs is covered

The score of a type counts the points that its aspects are worth and those that were earned. The
coverage of a file is the mean over the types it declares, the coverage of a run the mean over the
files that declare any. Percentages follow from the points, in whatever numbers they are wanted.
-/

namespace Conformance

/-! ## One type -/

/-- The points of one type. -/
structure Score where
  name : String
  kind : TypeKind
  earned : Nat
  max : Nat
  deriving DecidableEq, Repr, Inhabited

namespace Score

/-- The points that all aspects of a type are worth. -/
def worthOf (aspects : List Aspect) (t : TypeInfo) : Nat :=
  aspects.foldr (fun a n => a.worth t + n) 0

/-- The points that the usage of a type earns, never more than they are worth. -/
def earnedOf (aspects : List Aspect) (t : TypeInfo) (usage : Usage) : Nat :=
  min (aspects.foldr (fun a n => a.earned t usage + n) 0) (worthOf aspects t)

/-- The score of a type. -/
def ofUsage (aspects : List Aspect) (t : TypeInfo) (usage : Usage) : Score where
  name := t.name
  kind := t.kind
  earned := earnedOf aspects t usage
  max := worthOf aspects t

/-- How many percent of its points a type has earned. -/
def percentage {K : Type} [Quantity K] (s : Score) : K :=
  Quantity.percentage s.earned s.max

end Score

/-! ## One file -/

/-- The scores of the types of a file. -/
structure FileCoverage where
  file : String
  scores : List Score
  deriving DecidableEq, Repr, Inhabited

namespace FileCoverage

/-- Scores some types as the declarations of a file. -/
def ofTypes (aspects : List Aspect) (ledger : Ledger) (file : String) (types : List TypeInfo) :
    FileCoverage where
  file := file
  scores := types.map fun t => Score.ofUsage aspects t (ledger.usageOf file t.name)

/-- Scores the declarations of a source text, also those that no rule looked at. -/
def ofSource (aspects : List Aspect) (ledger : Ledger) (file source : String) :
    Except Source.Unterminated FileCoverage :=
  (Source.Outline.ofSource file source).map fun o => ofTypes aspects ledger file o.types

/-- The mean coverage of the types of a file in percent. -/
def percentage {K : Type} [Quantity K] (f : FileCoverage) : K :=
  Quantity.mean (f.scores.map Score.percentage)

end FileCoverage

/-! ## A run -/

/-- The coverage of the files of a run. -/
structure Coverage where
  files : List FileCoverage := []
  deriving DecidableEq, Repr, Inhabited

namespace Coverage

/-- The mean coverage in percent of the files that declare a type. -/
def overall {K : Type} [Quantity K] (c : Coverage) : K :=
  Quantity.mean ((c.files.filter fun f => !f.scores.isEmpty).map FileCoverage.percentage)

/-- The coverage of the first file with this path. -/
def file? (c : Coverage) (file : String) : Option FileCoverage :=
  c.files.find? (fun f => f.file == file)

/-- The number of scored types. -/
def typeCount (c : Coverage) : Nat :=
  c.files.foldr (fun f n => f.scores.length + n) 0

/-- The coverage of the types that a ledger holds, as far as their names are known. -/
def ofLedger (aspects : List Aspect) (registry : Registry) (ledger : Ledger) : Coverage where
  files := ledger.files.entries.map fun (file, types) =>
    FileCoverage.ofTypes aspects ledger file (types.keys.filterMap registry.get?)

end Coverage
end Conformance
