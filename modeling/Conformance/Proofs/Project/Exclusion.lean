import Conformance.Pattern.Standard
import Conformance.Proofs.Files.Discovery
import Conformance.Proofs.Project.Registered

/-!
# `Proofs.Project.Exclusion`: files that are left out

A contract can name files to leave out by path patterns. A search that goes through a directory finds none
of them, so they stand behind no registered type and no entry of the coverage. A root that is a file itself
is not held against the patterns: `Survey.excluded_only_as_roots` says that this is the only way in.
-/

namespace Conformance

namespace Search

/-- One of the patterns for files to leave out fits the path. -/
def LeavesOut (s : Search) (p : Path) : Prop :=
  ∃ g ∈ s.excluded, g.fits p.text = true

instance (s : Search) (p : Path) : Decidable (s.LeavesOut p) :=
  inferInstanceAs (Decidable (∃ g ∈ s.excluded, g.fits p.text = true))

variable {s : Search} {fs : FileSystem} {root : Path} {f : SourceFile}

theorem not_leavesOut_of_mem_filesIn {t : Tree} (hf : f ∈ s.filesIn root t) : ¬ s.LeavesOut f.path := by
  obtain ⟨⟨names, content⟩, _, hfound⟩ := List.mem_filterMap.1 hf
  dsimp only at hfound
  split at hfound
  · next hwanted =>
    cases hfound
    rw [Bool.and_eq_true, Bool.not_eq_true', excludes_eq_false_iff] at hwanted
    rintro ⟨g, hg, hfits⟩
    rw [(hwanted.2 g hg).1] at hfits
    cases hfits
  · cases hfound

/-- A file at a root that is left out is the root itself. -/
theorem mem_filesAt_iff_of_leavesOut (h : s.LeavesOut f.path) :
    f ∈ s.filesAt fs root
      ↔ f.path = root ∧ fs.node? f.path = some (.file f.content) ∧ s.wants f.path = true := by
  unfold filesAt
  constructor
  · intro hf
    cases hnode : fs.node? root with
    | none =>
      rw [hnode] at hf
      cases hf
    | some t =>
      rw [hnode] at hf
      cases t with
      | file content =>
        dsimp only at hf
        split at hf
        · next hwants =>
          cases List.mem_singleton.1 hf
          exact ⟨rfl, hnode, hwants⟩
        · cases hf
      | directory entries => exact absurd h (not_leavesOut_of_mem_filesIn hf)
  · rintro ⟨rfl, hnode, hwants⟩
    rw [hnode]
    dsimp only
    rw [if_pos hwants]
    exact List.mem_singleton_self f

end Search

namespace Survey

/-- **A file that is left out can only be scanned as a root.** It is among the source files exactly if it
is a root, stands there as a file and has a wanted extension. So if no root is such a file, then no source
file is left out, no registered type comes from a file that is, except one that was supplied, and the
coverage has no entry for one. -/
theorem excluded_only_as_roots (s : Survey) (fs : FileSystem) (roots : List Path) :
    (∀ f : SourceFile, s.search.LeavesOut f.path →
      (f ∈ s.files fs roots ↔ f.path ∈ roots ∧ fs.node? f.path = some (.file f.content)
        ∧ s.search.wants f.path = true))
    ∧ ((∀ root ∈ roots, fs.isFile root = true → ¬ s.search.LeavesOut root) →
      (∀ f ∈ s.files fs roots, ¬ s.search.LeavesOut f.path)
      ∧ (∀ t ∈ (s.registry fs roots).types, t ∉ s.supplied → ∀ p : Path, t.file = some p.text →
        ¬ s.search.LeavesOut p)
      ∧ ∀ aspects ledger, ∀ entry ∈ (Coverage.ofFiles aspects ledger (s.files fs roots)).files,
        ∀ p : Path, entry.file = p.text → ¬ s.search.LeavesOut p) := by
  have hscanned (f : SourceFile) (h : s.search.LeavesOut f.path) :
      f ∈ s.files fs roots ↔ f.path ∈ roots ∧ fs.node? f.path = some (.file f.content)
        ∧ s.search.wants f.path = true := by
    unfold files Search.files
    simp only [List.mem_flatMap, Search.mem_filesAt_iff_of_leavesOut h]
    constructor
    · rintro ⟨root, hroot, rfl, hfile⟩
      exact ⟨hroot, hfile⟩
    · rintro ⟨hroot, hfile⟩
      exact ⟨f.path, hroot, rfl, hfile⟩
  refine ⟨hscanned, fun hroots => ?_⟩
  have hnone (f : SourceFile) (hf : f ∈ s.files fs roots) : ¬ s.search.LeavesOut f.path := by
    intro hleaves
    obtain ⟨hroot, hnode, _⟩ := (hscanned f hleaves).1 hf
    refine hroots f.path hroot ?_ hleaves
    unfold FileSystem.isFile
    rw [hnode]
    rfl
  refine ⟨hnone, ?_, ?_⟩
  · intro t ht hsupplied p hfile
    rcases origin_of_mem_registry ht with henvironment | hmem | ⟨f, hf, htype⟩
    · rw [Environment.file_eq_none henvironment] at hfile
      cases hfile
    · exact absurd hmem hsupplied
    · rw [file_of_typeOf? htype, Option.some_inj] at hfile
      have hpath : f.path = p := congrArg Path.mk hfile
      rw [← hpath]
      exact hnone f hf
  · intro aspects ledger entry hentry p hfile
    rw [Coverage.files_ofFiles] at hentry
    obtain ⟨f, hf, houtline⟩ := List.mem_filterMap.1 hentry
    obtain ⟨outline, _, rfl⟩ := Option.map_eq_some_iff.1 houtline
    have hpath : f.path = p := congrArg Path.mk hfile
    rw [← hpath]
    exact hnone f hf

end Survey

namespace Contract

/-- A contract that leaves a file out, wherever it stands. -/
def sparing : Contract where
  excludedPaths := ["**/Legacy.php"]

/-- A project with that file and another one. -/
def legacyProject : FileSystem where
  root := [("Keep.php", .file "<?php class Keep {}".toUTF8),
    ("Legacy.php", .file "<?php class Legacy {}".toUTF8)]

/-- Below the working directory the file is left out. -/
theorem excluded_only_as_roots_of_directory :
    ∃ survey, sparing.survey = .ok survey
      ∧ (∀ root ∈ [(⟨"."⟩ : Path)], legacyProject.isFile root = true → ¬ survey.search.LeavesOut root)
      ∧ (survey.files legacyProject [⟨"."⟩]).map SourceFile.path = [⟨"./Keep.php"⟩]
      ∧ ∀ f ∈ survey.files legacyProject [⟨"."⟩], ¬ survey.search.LeavesOut f.path := by
  obtain ⟨survey, hsurvey, hfound⟩ : ∃ survey, sparing.survey = .ok survey
      ∧ (survey.files legacyProject [⟨"."⟩]).map SourceFile.path = [⟨"./Keep.php"⟩] :=
    exists_ok_of_any (by decide +kernel)
  have hdirectory : legacyProject.isFile ⟨"."⟩ = false := by decide
  have hroots : ∀ root ∈ [(⟨"."⟩ : Path)], legacyProject.isFile root = true →
      ¬ survey.search.LeavesOut root := by
    intro root hroot hfile
    rw [List.mem_singleton.1 hroot, hdirectory] at hfile
    cases hfile
  exact ⟨survey, hsurvey, hroots, hfound,
    ((Survey.excluded_only_as_roots survey legacyProject [⟨"."⟩]).2 hroots).1⟩

/-- The type that the file declares. -/
def legacyType : TypeInfo := (TypeInfo.named .cls "Legacy").inFile "Legacy.php"

/-- As a root it is scanned all the same: it stands behind a type, and the coverage lists it. -/
theorem excluded_root_is_scanned :
    ∃ survey, sparing.survey = .ok survey
      ∧ survey.search.LeavesOut ⟨"Legacy.php"⟩
      ∧ (survey.files legacyProject [⟨"Legacy.php"⟩]).map SourceFile.path = [⟨"Legacy.php"⟩]
      ∧ legacyType ∈ (survey.registry legacyProject [⟨"Legacy.php"⟩]).types
      ∧ (Coverage.ofFiles Aspect.standard {} (survey.files legacyProject [⟨"Legacy.php"⟩])).files.map
        FileCoverage.file = ["Legacy.php"] := by
  obtain ⟨survey, hsurvey, hleft, hlisted, hcovered, hscanned, hsupplied, henvironment⟩ :
      ∃ survey, sparing.survey = .ok survey
        ∧ survey.search.LeavesOut ⟨"Legacy.php"⟩
        ∧ (survey.files legacyProject [⟨"Legacy.php"⟩]).map SourceFile.path = [⟨"Legacy.php"⟩]
        ∧ (Coverage.ofFiles Aspect.standard {} (survey.files legacyProject [⟨"Legacy.php"⟩])).files.map
          FileCoverage.file = ["Legacy.php"]
        ∧ (survey.files legacyProject [⟨"Legacy.php"⟩]).filterMap Survey.typeOf? = [legacyType]
        ∧ survey.supplied = [] ∧ survey.withEnvironment = true :=
    exists_ok_of_any (by decide +kernel)
  have hnew : Environment.types.any (fun t => TypeName.same t.name legacyType.name) = false := by
    decide +kernel
  have hregistered : legacyType ∈ (survey.registry legacyProject [⟨"Legacy.php"⟩]).types := by
    rw [Survey.types_registry, Survey.found, hscanned, hsupplied, henvironment, newNames_concat]
    simp [hnew]
  exact ⟨survey, hsurvey, hleft, hlisted, hregistered, hcovered⟩

end Contract
end Conformance
