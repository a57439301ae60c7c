import Conformance.Contract.Validity
import Conformance.Coverage.Score
import Conformance.Files.Search
import Conformance.Types.Environment
import Conformance.Types.Index

/-!
# `Project.Survey`: the types of a project

A survey collects the types that rules can speak about: those of the environment, those that are
supplied from elsewhere, and the first declaration of every source file. What comes first wins a
name. Files that are no texts, or in which some literal is never closed, contribute nothing.
-/

namespace Conformance

/-- Where the types of a project come from. -/
structure Survey where
  search : Search := {}
  supplied : List TypeInfo := []
  withEnvironment : Bool := true
  deriving Inhabited

namespace Survey

/-- The type that a file is known for. -/
def typeOf? (f : SourceFile) : Option TypeInfo :=
  f.text?.bind fun source => (Source.Outline.firstOfSource f.path.text source).toOption.join

/-- All types that were found, in order, before a decision about their names. -/
def found (s : Survey) (files : List SourceFile) : List TypeInfo :=
  (if s.withEnvironment then Environment.types else []) ++ s.supplied ++ files.filterMap typeOf?

/-- The source files below some roots. -/
def files (s : Survey) (fs : FileSystem) (roots : List Path) : List SourceFile :=
  s.search.files fs roots

/-- The registry of everything that is found below some roots. -/
def registry (s : Survey) (fs : FileSystem) (roots : List Path) : Registry :=
  (Index.ofList (s.found (s.files fs roots))).registry

end Survey

/-- The extensions of the sources of a contract. -/
def Contract.sourceExtensions (c : Contract) : List String :=
  if c.extensions.isEmpty then ({} : Search).extensions else c.extensions

/-- The survey that a contract asks for. -/
def Contract.survey [Engine] (c : Contract) : Except Invalid Survey :=
  c.excluded.map fun excluded => {
    search := { extensions := c.sourceExtensions, excluded }
    supplied := c.suppliedTypes.map SuppliedType.info }

/-- The coverage of all files that can be read. -/
def Coverage.ofFiles (aspects : List Aspect) (ledger : Ledger) (files : List SourceFile) :
    Coverage where
  files := files.filterMap fun f =>
    f.text?.bind fun source => (FileCoverage.ofSource aspects ledger f.path.text source).toOption

end Conformance
