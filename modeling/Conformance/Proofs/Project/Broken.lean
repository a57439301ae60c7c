import Conformance.Pattern.Standard
import Conformance.Proofs.Files.Removal
import Conformance.Proofs.Project.Registered

/-!
# `Proofs.Project.Broken`: source files that cannot be read

A source file that is no text, or in which some literal is never closed, has no outline. Neither the
registry nor the coverage takes notice of it, so a check comes to the same when the file is taken away
(`Contract.check_of_pruned`, for any number of such files). What the coverage does list is every other
file that the search finds, in the order in which they are found.
-/

namespace Conformance

/-! ## Readable files -/

/-- Whether a content is a text in which every literal is closed. -/
def Source.isReadable (content : ByteArray) : Bool :=
  (String.fromUTF8? content).any fun text => (tokens text).isOk

/-- **The readable files are those with an outline.** -/
theorem SourceFile.isSome_outline? (f : SourceFile) :
    f.outline?.isSome = Source.isReadable f.content := by
  unfold outline? text? Source.isReadable
  cases String.fromUTF8? f.content with
  | none => rfl
  | some text =>
    rw [Option.bind_some, Option.any_some]
    unfold Source.Outline.ofSource
    cases Source.tokens text <;> rfl

theorem SourceFile.outline?_eq_none {f : SourceFile} (h : Source.isReadable f.content = false) :
    f.outline? = none := by
  rw [← f.isSome_outline?] at h
  exact Option.isNone_iff_eq_none.1 (Option.isSome_eq_false_iff.1 h)

/-- The coverage lists the readable files, in their order. -/
theorem Coverage.map_file_ofFiles (aspects : List Aspect) (ledger : Ledger) (files : List SourceFile) :
    (ofFiles aspects ledger files).files.map FileCoverage.file
      = (files.filter fun f => Source.isReadable f.content).map fun f => f.path.text := by
  rw [files_ofFiles]
  induction files with
  | nil => rfl
  | cons f files ih =>
    have hreadable := f.isSome_outline?
    rw [List.filterMap_cons, List.filter_cons, ← hreadable]
    cases f.outline? with
    | none => exact ih
    | some outline => exact congrArg (f.path.text :: ·) ih

/-! ## Checks without them -/

namespace Contract

/-- **A check takes no notice of files that cannot be read**: it comes to the same without some of them,
as long as what is checked is not one of them. -/
theorem check_of_pruned [Engine] (c : Contract) {gone : List String → ByteArray → Prop} {fs fs' : FileSystem}
    {base : Path} (h : fs.Pruned gone fs')
    (hbroken : ∀ place content, gone place content → Source.isReadable content = false)
    (hbase : ∀ place content, fs.locate base = .ok place → ¬ gone place content) :
    c.check fs' base = c.check fs base := by
  have houtline : ∀ place content, gone place content → ∀ path,
      SourceFile.outline? { path, content } = none :=
    fun place content hgone path => SourceFile.outline?_eq_none (hbroken place content hgone)
  have htypes (s : Search) (roots : List Path) : (s.files fs' roots).filterMap Survey.typeOf?
      = (s.files fs roots).filterMap Survey.typeOf? := by
    refine s.filterMap_files h ?_ roots
    intro place content hgone path
    rw [Survey.typeOf?_eq, houtline place content hgone path]
    rfl
  have hregistry (survey : Survey) (roots : List Path) :
      survey.registry fs' roots = survey.registry fs roots := by
    unfold Survey.registry Survey.found Survey.files
    rw [htypes]
  have hcoverage (s : Search) (roots : List Path) (ledger : Ledger) :
      Coverage.ofFiles Aspect.standard ledger (s.files fs' roots)
        = Coverage.ofFiles Aspect.standard ledger (s.files fs roots) := by
    refine congrArg Coverage.mk (?_ : (Coverage.ofFiles _ _ _).files = (Coverage.ofFiles _ _ _).files)
    rw [Coverage.files_ofFiles, Coverage.files_ofFiles]
    refine s.filterMap_files h ?_ roots
    intro place content hgone path
    rw [houtline place content hgone path]
    rfl
  unfold check
  rw [h.isFile hbase]
  refine congrArg (fun read => Except.map read c.survey) (funext fun survey => ?_)
  dsimp only
  rw [hregistry]
  unfold Survey.files
  rw [hcoverage]

/-- **A file that cannot be read contributes nothing and disturbs nothing.** A check of a project comes to
the same registry, outcomes and coverage when a file is removed that is no text or in which some literal
is never closed, unless it is the file that is checked. And the coverage lists exactly the source files
that can be read, in the order in which they are found. -/
theorem check_broken [Engine] (c : Contract) (fs : FileSystem) (base : Path) :
    (∀ place name content, fs.Proper →
      fs.nodeAt? (place ++ [name]) = some (.file content) → Source.isReadable content = false →
      fs.locate base ≠ .ok (place ++ [name]) → c.check (fs.remove place name) base = c.check fs base)
    ∧ ∀ result, c.check fs base = .ok result → ∃ survey, c.survey = .ok survey
      ∧ result.coverage.files.map FileCoverage.file
        = ((c.sourceFiles survey fs base).filter fun f => Source.isReadable f.content).map
            fun f => f.path.text := by
  constructor
  · intro place name content hfs hfile hbroken hbase
    refine c.check_of_pruned (FileSystem.pruned_remove hfs hfile) ?_ ?_
    · rintro _ _ ⟨_, rfl⟩
      exact hbroken
    · rintro _ _ hplace ⟨rfl, _⟩
      exact hbase hplace
  · intro result hresult
    obtain ⟨survey, hsurvey, _, hcoverage⟩ := of_check hresult
    refine ⟨survey, hsurvey, ?_⟩
    rw [hcoverage]
    exact Coverage.map_file_ofFiles _ _ _

/-- A contract that asks for final classes. -/
def finalityContract : Contract where
  rules := [{ name := "finality", require := [{ isFinal := true }] }]

/-- A project with a file whose last literal is never closed. -/
def halfMailer : FileSystem where
  root := [("src", .directory [
    ("Draft.php", .file "<?php class Draft \x7b const TEXT = 'Dear".toUTF8),
    ("Mailer.php", .file "<?php class Mailer {}".toUTF8)])]

theorem proper_halfMailer : halfMailer.Proper := Tree.proper_of_isProper _ (by decide)

/-- The check goes as if the unfinished file were not there, and covers the other one. -/
theorem check_broken_halfMailer :
    finalityContract.check (halfMailer.remove ["src"] "Draft.php") ⟨"/src"⟩
        = finalityContract.check halfMailer ⟨"/src"⟩
    ∧ ∃ result, finalityContract.check halfMailer ⟨"/src"⟩ = .ok result
      ∧ result.coverage.files.map FileCoverage.file = ["/src/Mailer.php"] := by
  have hfile : halfMailer.nodeAt? (["src"] ++ ["Draft.php"])
      = some (.file "<?php class Draft \x7b const TEXT = 'Dear".toUTF8) := rfl
  have hbroken : Source.isReadable "<?php class Draft \x7b const TEXT = 'Dear".toUTF8 = false := by
    decide +kernel
  have hbase : halfMailer.locate ⟨"/src"⟩ ≠ .ok (["src"] ++ ["Draft.php"]) := by
    have hlocate : halfMailer.locate ⟨"/src"⟩ = .ok ["src"] := by decide +kernel
    rw [hlocate]
    decide
  obtain ⟨hremoved, hlisted⟩ := check_broken finalityContract halfMailer ⟨"/src"⟩
  refine ⟨hremoved ["src"] "Draft.php" _ proper_halfMailer hfile hbroken hbase, ?_⟩
  have hcheck : ∃ result, finalityContract.check halfMailer ⟨"/src"⟩ = .ok result := ⟨_, rfl⟩
  obtain ⟨result, hresult⟩ := hcheck
  obtain ⟨survey, hsurvey, hfiles⟩ := hlisted result hresult
  refine ⟨result, hresult, hfiles.trans ?_⟩
  cases hsurvey
  decide +kernel

end Contract
end Conformance
