import Conformance.Pattern.Standard
import Conformance.Proofs.Project.Exclusion

/-!
# `Proofs.Project.Relocation`: the same tree at two locations

A pattern for files to leave out is held against a path twice, in full and as seen from the root. What is
seen from the root is the same wherever the tree stands, and so are names and extensions; the full path
is not. So what is found in a tree depends on its location through one test only
(`Search.relativeFiles_eq`), and `Search.relativeFiles_relocated` says what follows for two locations.
-/

namespace Conformance

/-! ## Paths as seen from a root -/

namespace Path

/-- What a path has behind a root and a slash, if it begins with these. -/
def seenFrom? (root p : Path) : Option String :=
  (p.text.toList.dropPrefix? (root.join "").text.toList).map String.ofList

theorem join_eq_append (root : Path) {q : String} (hq : (⟨q⟩ : Path).isAbsolute = false) :
    root.join q = ⟨(root.join "").text ++ q⟩ := by
  have hempty : (⟨""⟩ : Path).isAbsolute = false := rfl
  unfold join
  rw [hq, hempty, if_neg Bool.false_ne_true, if_neg Bool.false_ne_true]
  split
  · rw [String.append_empty]
  · rw [String.append_empty]

/-- What is behind a root is seen from there. -/
theorem seenFrom?_join (root : Path) {q : String} (hq : (⟨q⟩ : Path).isAbsolute = false) :
    root.seenFrom? (root.join q) = some q := by
  unfold seenFrom?
  rw [join_eq_append root hq, String.toList_append, List.dropPrefix?_append_of_beq _ (BEq.rfl),
    Option.map_some, String.ofList_toList]

end Path

namespace Search

variable {s : Search} {fs : FileSystem} {root : Path} {entries : List (String × Tree)}

/-- The files at or below a root, as seen from there. -/
def relativeFiles (s : Search) (fs : FileSystem) (root : Path) : List String :=
  (s.filesAt fs root).filterMap fun f => root.seenFrom? f.path

/-- The files in a directory that have a wanted extension and that no pattern fits as seen from the
directory. -/
def candidates (s : Search) (entries : List (String × Tree)) : List String :=
  (((Tree.directory entries).files enters).map fun e => Path.slashed e.1).filter fun q =>
    s.wants ⟨q⟩ && !decide (s.LeavesOut ⟨q⟩)

theorem isAbsolute_of_mem_candidates (hproper : Tree.Proper (.directory entries)) {q : String}
    (hq : q ∈ s.candidates entries) : (⟨q⟩ : Path).isAbsolute = false := by
  obtain ⟨⟨names, content⟩, hfile, rfl⟩ := List.mem_map.1 (List.mem_filter.1 hq).1
  obtain ⟨hbelow, _⟩ := (Tree.mem_files_iff hproper).1 hfile
  exact Path.isAbsolute_slashed (Tree.ne_nil_of_below? hbelow) (Tree.proper_of_below? hproper hbelow).1

theorem excludes_eq (s : Search) (p : Path) (fromRoot : String) :
    s.excludes p fromRoot = (decide (s.LeavesOut p) || decide (s.LeavesOut ⟨fromRoot⟩)) := by
  rw [Bool.eq_iff_iff]
  simp only [excludes, Bool.or_eq_true, List.any_eq_true, decide_eq_true_iff]
  rfl

/-- The extension of a file does not depend on where its tree stands. -/
theorem wants_join (s : Search) (hroot : root.text ≠ "") {names : List String} (hne : names ≠ [])
    (h : ∀ name ∈ names, Path.IsName name) :
    s.wants (root.join (Path.slashed names)) = s.wants ⟨Path.slashed names⟩ := by
  obtain ⟨dirs, name, rfl⟩ := (List.eq_nil_or_concat' names).resolve_left hne
  unfold wants
  rw [Path.extension_join hroot h,
    Path.extension_of_segments (Path.segments_slashed hne h) (h name (by simp))]

/-- The location of a tree matters for one test, that of the full path against the patterns. -/
theorem paths_filesIn (s : Search) (hroot : root.text ≠ "") (hproper : Tree.Proper (.directory entries)) :
    (s.filesIn root (.directory entries)).map SourceFile.path
      = ((s.candidates entries).filter fun q => ¬ s.LeavesOut (root.join q)).map root.join := by
  unfold filesIn candidates
  rw [List.map_filterMap, List.filter_filter, List.filter_map, List.map_map, ← List.filterMap_eq_map,
    List.filterMap_filter]
  refine List.filterMap_congr fun ⟨names, content⟩ hfile => ?_
  obtain ⟨hbelow, _⟩ := (Tree.mem_files_iff hproper).1 hfile
  have hwants := s.wants_join hroot (Tree.ne_nil_of_below? hbelow) (Tree.proper_of_below? hproper hbelow).1
  dsimp only
  rw [hwants, excludes_eq]
  by_cases hwanted : s.wants ⟨Path.slashed names⟩ = true <;>
    by_cases hfull : s.LeavesOut (root.join (Path.slashed names)) <;>
    by_cases hseen : s.LeavesOut ⟨Path.slashed names⟩ <;>
    simp [hwanted, hfull, hseen]

/-- **What is found in a tree, as seen from its root**: the candidates that no pattern fits in full. -/
theorem relativeFiles_eq (s : Search) (hproper : Tree.Proper (.directory entries))
    (hroot : fs.node? root = some (.directory entries)) :
    (s.filesAt fs root).map SourceFile.path = (s.relativeFiles fs root).map root.join
    ∧ s.relativeFiles fs root = (s.candidates entries).filter fun q => ¬ s.LeavesOut (root.join q) := by
  obtain ⟨htext, _⟩ := FileSystem.leadsTo_of_node? hroot
  have hpaths := s.paths_filesIn htext hproper
  have hfiles : s.filesAt fs root = s.filesIn root (.directory entries) := by
    unfold filesAt
    rw [hroot]
  have hseen : s.relativeFiles fs root
      = (s.candidates entries).filter fun q => ¬ s.LeavesOut (root.join q) := by
    have hcomp : (fun f : SourceFile => root.seenFrom? f.path) = root.seenFrom? ∘ SourceFile.path := rfl
    unfold relativeFiles
    rw [hfiles, hcomp, ← List.filterMap_map, hpaths, List.filterMap_map]
    refine (List.filterMap_congr fun q hq => ?_).trans List.filterMap_some
    exact Path.seenFrom?_join root (isAbsolute_of_mem_candidates hproper (List.mem_filter.1 hq).1)
  rw [hfiles, hseen]
  exact ⟨hpaths, rfl⟩

/-- **Two locations of a tree.** What a search finds at one of them and what it finds at the other are the
same, as seen from there and in the same order, but for the files that a pattern fits by the full path at
the other location. So they are the same altogether exactly if there are no such files on either side. -/
theorem relativeFiles_relocated (s : Search) {entries : List (String × Tree)}
    (hproper : Tree.Proper (.directory entries)) {fs fs' : FileSystem} {root root' : Path}
    (hroot : fs.node? root = some (.directory entries))
    (hroot' : fs'.node? root' = some (.directory entries)) :
    let rel := s.relativeFiles fs root
    let rel' := s.relativeFiles fs' root'
    ((s.filesAt fs root).map SourceFile.path = rel.map root.join
      ∧ (s.filesAt fs' root').map SourceFile.path = rel'.map root'.join)
    ∧ (rel.filter fun q => ¬ s.LeavesOut (root'.join q))
      = (rel'.filter fun q => ¬ s.LeavesOut (root.join q))
    ∧ (rel = rel' ↔
      (∀ q ∈ rel, ¬ s.LeavesOut (root'.join q)) ∧ ∀ q ∈ rel', ¬ s.LeavesOut (root.join q)) := by
  intro rel rel'
  obtain ⟨hpaths, hrel⟩ : _ ∧ rel = _ := s.relativeFiles_eq hproper hroot
  obtain ⟨hpaths', hrel'⟩ : _ ∧ rel' = _ := s.relativeFiles_eq hproper hroot'
  have hrest : (rel.filter fun q => ¬ s.LeavesOut (root'.join q))
      = rel'.filter fun q => ¬ s.LeavesOut (root.join q) := by
    rw [hrel, hrel', List.filter_filter, List.filter_filter]
    exact List.filter_congr fun q _ => Bool.and_comm _ _
  have hnot {q : String} (hq : q ∈ rel) : ¬ s.LeavesOut (root.join q) := by
    rw [hrel, List.mem_filter, decide_eq_true_iff] at hq
    exact hq.2
  have hnot' {q : String} (hq : q ∈ rel') : ¬ s.LeavesOut (root'.join q) := by
    rw [hrel', List.mem_filter, decide_eq_true_iff] at hq
    exact hq.2
  refine ⟨⟨hpaths, hpaths'⟩, hrest, ?_, ?_⟩
  · intro hsame
    exact ⟨fun q hq => hnot' (hsame ▸ hq), fun q hq => hnot (hsame ▸ hq)⟩
  · rintro ⟨hleft, hright⟩
    -- nothing is left out of either list
    rwa [List.filter_eq_self.2 (by simpa using hleft), List.filter_eq_self.2 (by simpa using hright)]
      at hrest

end Search

namespace Contract

/-- A contract that leaves tests out, wherever they stand. -/
def untested : Contract where
  excludedPaths := ["**/tests/**"]

/-- A project with a test. -/
def checkout : List (String × Tree) :=
  [("Mailer.php", .file "<?php class Mailer {}".toUTF8),
    ("tests", .directory [("MailerTest.php", .file "<?php class MailerTest {}".toUTF8)])]

/-- Files with the project at three locations. -/
def checkouts : FileSystem where
  root := [("home", .directory [("app", .directory checkout)]),
    ("tests", .directory [("app", .directory checkout)]),
    ("work", .directory [("app", .directory checkout)])]

theorem proper_checkout : Tree.Proper (.directory checkout) := Tree.proper_of_isProper _ (by decide)

/-- At two of them the test is left out and the other file found. -/
theorem relativeFiles_relocated_to_work :
    ∃ survey, untested.survey = .ok survey
      ∧ survey.search.relativeFiles checkouts ⟨"/home/app"⟩ = ["Mailer.php"]
      ∧ survey.search.relativeFiles checkouts ⟨"/home/app"⟩
        = survey.search.relativeFiles checkouts ⟨"/work/app"⟩ := by
  obtain ⟨survey, hsurvey, hhome, hwork, hleft⟩ : ∃ survey, untested.survey = .ok survey
      ∧ survey.search.relativeFiles checkouts ⟨"/home/app"⟩ = ["Mailer.php"]
      ∧ survey.search.relativeFiles checkouts ⟨"/work/app"⟩ = ["Mailer.php"]
      ∧ ¬ survey.search.LeavesOut ((⟨"/work/app"⟩ : Path).join "Mailer.php")
      ∧ ¬ survey.search.LeavesOut ((⟨"/home/app"⟩ : Path).join "Mailer.php") :=
    exists_ok_of_any (by decide +kernel)
  obtain ⟨_, _, hsame⟩ := survey.search.relativeFiles_relocated proper_checkout
    (rfl : checkouts.node? ⟨"/home/app"⟩ = some (.directory checkout))
    (rfl : checkouts.node? ⟨"/work/app"⟩ = some (.directory checkout))
  refine ⟨survey, hsurvey, hhome, hsame.2 ?_⟩
  rwa [hhome, hwork, List.forall_mem_singleton, List.forall_mem_singleton]

/-- In a directory called like the tests the pattern fits every file by its full path, and nothing is
found. -/
theorem checkout_among_tests_is_empty :
    ∃ survey, untested.survey = .ok survey
      ∧ checkouts.node? ⟨"/work/app"⟩ = some (.directory checkout)
      ∧ checkouts.node? ⟨"/tests/app"⟩ = some (.directory checkout)
      ∧ survey.search.relativeFiles checkouts ⟨"/work/app"⟩ = ["Mailer.php"]
      ∧ survey.search.relativeFiles checkouts ⟨"/tests/app"⟩ = [] := by
  obtain ⟨survey, hsurvey, hwork, htests⟩ : ∃ survey, untested.survey = .ok survey
      ∧ survey.search.relativeFiles checkouts ⟨"/work/app"⟩ = ["Mailer.php"]
      ∧ survey.search.relativeFiles checkouts ⟨"/tests/app"⟩ = [] :=
    exists_ok_of_any (by decide +kernel)
  exact ⟨survey, hsurvey, rfl, rfl, hwork, htests⟩

end Contract
end Conformance
