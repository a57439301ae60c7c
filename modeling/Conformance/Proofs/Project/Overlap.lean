import Mathlib.Algebra.BigOperators.Group.Finset.Basic
import Conformance.Pattern.Standard
import Conformance.Proofs.Coverage.Bounds
import Conformance.Proofs.Files.Discovery

/-!
# `Proofs.Project.Overlap`: files that several roots reach

The roots of a survey are searched one after the other, and what they find is put together as it is. One
search names a file once (`Search.nodup_places_filesAt`), but each root that reaches a file names it anew,
and every time it counts in the coverage. `Survey.files_once_per_root` says how often a file is named, and
that roots of which none stands inside of another name each file once and give it the weight one. To tell
files apart, whatever their paths look like, they are taken by the places that the paths lead to.
-/

namespace Conformance

/-! ## Places -/

namespace FileSystem

variable {fs : FileSystem}

/-- The place that a path leads to. -/
def placeOf? (fs : FileSystem) (p : Path) : Option (List String) :=
  (fs.enterAll (fs.startOf p) p.segments).toOption

/-- Two paths lead to places of which none is inside of the other. -/
def Apart (fs : FileSystem) (p q : Path) : Prop :=
  ∀ place place', fs.placeOf? p = some place → fs.placeOf? q = some place' →
    ¬ place <+: place' ∧ ¬ place' <+: place

theorem placeOf?_eq_some_iff {p : Path} {place : List String} :
    fs.placeOf? p = some place ↔ fs.enterAll (fs.startOf p) p.segments = .ok place := by
  unfold placeOf?
  cases fs.enterAll (fs.startOf p) p.segments <;> simp [Except.toOption]

end FileSystem

/-! ## The places of a search -/

namespace Search

variable {s : Search} {fs : FileSystem} {root : Path} {f : SourceFile}

/-- One of the files that are found at a root stands at a place. -/
def Reaches (s : Search) (fs : FileSystem) (root : Path) (place : List String) : Prop :=
  ∃ f ∈ s.filesAt fs root, fs.placeOf? f.path = some place

instance (s : Search) (fs : FileSystem) (root : Path) (place : List String) :
    Decidable (s.Reaches fs root place) :=
  inferInstanceAs (Decidable (∃ f ∈ s.filesAt fs root, fs.placeOf? f.path = some place))

/-- A file in a directory stands below the place of the directory, at the names behind its path. -/
theorem exists_names_of_mem_filesIn {entries : List (String × Tree)} {place : List String}
    (hroot : root.text ≠ "") (hproper : Tree.Proper (.directory entries))
    (hplace : fs.placeOf? root = some place) (hnode : fs.nodeAt? place = some (.directory entries))
    (hf : f ∈ s.filesIn root (.directory entries)) :
    ∃ names, f.path = root.join (Path.slashed names) ∧ fs.placeOf? f.path = some (place ++ names) := by
  obtain ⟨dirs, name, hfinds⟩ := (s.mem_filesIn_iff hroot hproper).1 hf
  refine ⟨dirs ++ [name], hfinds.path, ?_⟩
  rw [FileSystem.placeOf?_eq_some_iff] at hplace ⊢
  rw [hfinds.path]
  exact FileSystem.enterAll_join hroot hplace hnode (by simp)
    (Tree.proper_of_below? hproper hfinds.file).1 hfinds.file

/-- What a root reaches is the root itself or stands inside of it. -/
theorem prefix_of_mem_filesAt (hfs : fs.Proper) (hf : f ∈ s.filesAt fs root) :
    ∃ place place', fs.placeOf? root = some place ∧ fs.placeOf? f.path = some place'
      ∧ place <+: place' := by
  rcases s.filesAt_cases fs root with hnone | ⟨content, hnode, hfiles⟩ | ⟨entries, hnode, hfiles⟩
  · rw [hnone] at hf
    cases hf
  · obtain ⟨_, place, hplace, _⟩ := FileSystem.leadsTo_of_node? hnode
    rw [hfiles] at hf
    cases List.mem_singleton.1 hf
    have hplace := FileSystem.placeOf?_eq_some_iff.2 hplace
    exact ⟨place, place, hplace, hplace, List.prefix_refl place⟩
  · obtain ⟨htext, place, hplace, hat⟩ := FileSystem.leadsTo_of_node? hnode
    have hplace := FileSystem.placeOf?_eq_some_iff.2 hplace
    rw [hfiles] at hf
    obtain ⟨names, _, hnames⟩ :=
      exists_names_of_mem_filesIn htext (Tree.proper_of_below? hfs hat).2 hplace hat hf
    exact ⟨place, place ++ names, hplace, hnames, List.prefix_append place names⟩

/-- **One search names a file once.** -/
theorem nodup_places_filesAt (s : Search) (hfs : fs.Proper) (root : Path) :
    ((s.filesAt fs root).map fun f => fs.placeOf? f.path).Nodup := by
  rcases s.filesAt_cases fs root with hnone | ⟨content, _, hfiles⟩ | ⟨entries, hnode, hfiles⟩
  · rw [hnone]
    exact List.nodup_nil
  · rw [hfiles]
    exact List.nodup_singleton _
  · obtain ⟨htext, place, hplace, hat⟩ := FileSystem.leadsTo_of_node? hnode
    have hplace := FileSystem.placeOf?_eq_some_iff.2 hplace
    have hproper : Tree.Proper (.directory entries) := (Tree.proper_of_below? hfs hat).2
    rw [hfiles, List.Nodup, List.pairwise_map]
    refine (s.pairwise_filesIn htext hproper).imp_of_mem fun {f g} hf hg hbefore hsame => ?_
    obtain ⟨names, hpath, hnames⟩ := exists_names_of_mem_filesIn htext hproper hplace hat hf
    obtain ⟨names', hpath', hnames'⟩ := exists_names_of_mem_filesIn htext hproper hplace hat hg
    -- the same place below the root is written as the same path
    rw [hnames, hnames', Option.some_inj, List.append_right_inj] at hsame
    refine hbefore.ne ?_
    rw [hpath, hpath', hsame]

/-- **A file is named as often as roots reach it.** -/
theorem count_places_files (s : Search) (hfs : fs.Proper) (roots : List Path) (place : List String) :
    ((s.files fs roots).map fun f => fs.placeOf? f.path).count (some place)
      = roots.countP fun root => s.Reaches fs root place := by
  induction roots with
  | nil => rfl
  | cons root roots ih =>
    have hmem : some place ∈ (s.filesAt fs root).map (fun f => fs.placeOf? f.path)
        ↔ s.Reaches fs root place := List.mem_map
    have hfiles : s.files fs (root :: roots) = s.filesAt fs root ++ s.files fs roots :=
      List.flatMap_cons
    rw [hfiles, List.map_append, List.count_append, ih, List.countP_cons, Nat.add_comm]
    by_cases hreaches : s.Reaches fs root place
    · rw [List.count_eq_one_of_mem (s.nodup_places_filesAt hfs root) (hmem.2 hreaches),
        if_pos (decide_eq_true hreaches)]
    · rw [List.count_eq_zero.2 (mt hmem.1 hreaches), if_neg (by simpa using hreaches)]

/-- Roots of which none stands inside of another name no file twice. -/
theorem nodup_places_files (s : Search) (hfs : fs.Proper) {roots : List Path}
    (h : roots.Pairwise fs.Apart) : ((s.files fs roots).map fun f => fs.placeOf? f.path).Nodup := by
  unfold files
  rw [List.map_flatMap, List.nodup_flatMap]
  refine ⟨fun root _ => s.nodup_places_filesAt hfs root, h.imp fun {root root'} hapart => ?_⟩
  rw [Function.onFun, List.disjoint_left]
  intro found hfound hfound'
  obtain ⟨f, hf, rfl⟩ := List.mem_map.1 hfound
  obtain ⟨g, hg, hsame⟩ := List.mem_map.1 hfound'
  obtain ⟨place, inner, hplace, hinner, hprefix⟩ := prefix_of_mem_filesAt hfs hf
  obtain ⟨place', inner', hplace', hinner', hprefix'⟩ := prefix_of_mem_filesAt hfs hg
  rw [hinner, hinner', Option.some_inj] at hsame
  rw [hsame] at hprefix'
  obtain ⟨hout, hout'⟩ := hapart place place' hplace hplace'
  exact (List.prefix_or_prefix_of_prefix hprefix hprefix').elim hout hout'

end Search

/-! ## The coverage of a survey -/

namespace Coverage

/-- A report names the files that can be read, as they were given. -/
theorem places_ofFiles_sublist (fs : FileSystem) (aspects : List Aspect) (ledger : Ledger)
    (files : List SourceFile) :
    ((ofFiles aspects ledger files).files.map fun e => fs.placeOf? ⟨e.file⟩).Sublist
      (files.map fun f => fs.placeOf? f.path) := by
  rw [files_ofFiles, List.map_filterMap]
  induction files with
  | nil => exact List.Sublist.refl []
  | cons f files ih =>
    rw [List.filterMap_cons, List.map_cons]
    cases f.outline? with
    | none => exact ih.cons _
    | some outline => exact ih.cons_cons _

/-- If no entry is there twice, the overall percentage is the mean over the set of those with types. -/
theorem overall_of_nodup {c : Coverage} (h : c.files.Nodup) :
    let declaring := (c.files.filter fun e => !e.scores.isEmpty).toFinset
    c.overall (K := Rat) = (∑ e ∈ declaring, e.percentage) / declaring.card := by
  intro declaring
  have hdeclaring := h.filter fun e => !e.scores.isEmpty
  unfold overall
  rw [List.sum_toFinset _ hdeclaring, List.toFinset_card_of_nodup hdeclaring, Quantity.mean_eq,
    List.length_map]
  split
  · next hnone =>
    rw [List.map_eq_nil_iff] at hnone
    rw [hnone]
    simp
  · rfl

end Coverage

namespace Survey

/-- **Every file is named once for each root that reaches it.** So if no root stands inside of another,
the source files stand at different places, the coverage has no two entries for a file, and the overall
percentage is the mean in which each file with types has the weight one. -/
theorem files_once_per_root (s : Survey) {fs : FileSystem} (hfs : fs.Proper) (roots : List Path) :
    (∀ place, ((s.files fs roots).map fun f => fs.placeOf? f.path).count (some place)
      = roots.countP fun root => s.search.Reaches fs root place)
    ∧ (roots.Pairwise fs.Apart →
      ((s.files fs roots).map fun f => fs.placeOf? f.path).Nodup
      ∧ ∀ aspects ledger,
        let c := Coverage.ofFiles aspects ledger (s.files fs roots)
        let declaring := (c.files.filter fun e => !e.scores.isEmpty).toFinset
        (c.files.map fun e => fs.placeOf? ⟨e.file⟩).Nodup
        ∧ c.overall (K := Rat) = (∑ e ∈ declaring, e.percentage) / declaring.card) := by
  refine ⟨s.search.count_places_files hfs roots, fun hapart => ?_⟩
  have hfiles : ((s.files fs roots).map fun f => fs.placeOf? f.path).Nodup :=
    s.search.nodup_places_files hfs hapart
  refine ⟨hfiles, fun aspects ledger => ?_⟩
  have hentries := hfiles.sublist (Coverage.places_ofFiles_sublist fs aspects ledger _)
  exact ⟨hentries, Coverage.overall_of_nodup (List.Nodup.of_map _ hentries)⟩

/-- A project with a directory in its source directory. -/
def layeredProject : FileSystem where
  root := [("src", .directory [
    ("Mailer.php", .file "<?php namespace App; class Mailer {}".toUTF8),
    ("Sub", .directory [("Job.php", .file "<?php class Job {}".toUTF8)])])]

theorem proper_layeredProject : layeredProject.Proper := Tree.proper_of_isProper _ (by decide)

/-- A file and the directory beside it, as roots, give both files once. -/
theorem files_once_per_root_of_siblings :
    layeredProject.Proper
    ∧ [(⟨"src/Mailer.php"⟩ : Path), ⟨"src/Sub"⟩].Pairwise layeredProject.Apart
    ∧ ((({} : Survey).files layeredProject [⟨"src/Mailer.php"⟩, ⟨"src/Sub"⟩]).map fun f =>
      layeredProject.placeOf? f.path)
        = [some ["src", "Mailer.php"], some ["src", "Sub", "Job.php"]]
    ∧ ((({} : Survey).files layeredProject [⟨"src/Mailer.php"⟩, ⟨"src/Sub"⟩]).map fun f =>
      layeredProject.placeOf? f.path).Nodup := by
  have hapart : [(⟨"src/Mailer.php"⟩ : Path), ⟨"src/Sub"⟩].Pairwise layeredProject.Apart := by
    rw [List.pairwise_pair]
    intro place place' hplace hplace'
    cases hplace.symm.trans (rfl : _ = some ["src", "Mailer.php"])
    cases hplace'.symm.trans (rfl : _ = some ["src", "Sub"])
    decide
  refine ⟨proper_layeredProject, hapart, by decide +kernel, ?_⟩
  exact ((files_once_per_root {} proper_layeredProject _).2 hapart).1

end Survey

namespace Contract

/-- A contract that names a directory as a source directory, and another one inside of it. -/
def nested : Contract where
  sources := ["src", "src/Sub"]
  rules := [{ name := "naming", select := { within := some "App" }, require := [{ endsWith := some "er" }] }]

/-- The entry of the file in the outer directory, which the rule covers. -/
def outerEntry : FileCoverage where
  file := "./src/Mailer.php"
  scores := [{ name := "App\\Mailer", kind := .cls, earned := 1, max := 1 }]

/-- The entry of the file in the inner directory, which it does not. -/
def innerEntry : FileCoverage where
  file := "./src/Sub/Job.php"
  scores := [{ name := "Job", kind := .cls, earned := 0, max := 1 }]

/-- The file in the inner directory is listed twice, and one covered file of two makes a third. -/
theorem inner_file_counts_twice :
    ∃ result, nested.check Survey.layeredProject ⟨"."⟩ = .ok result
      ∧ result.coverage.files = [outerEntry, innerEntry, innerEntry]
      ∧ result.coverage.overall (K := Rat) = 100 / 3
      ∧ Quantity.mean ([outerEntry, innerEntry].map FileCoverage.percentage) = (50 : Rat) := by
  obtain ⟨result, hresult, hfiles⟩ : ∃ result, nested.check Survey.layeredProject ⟨"."⟩ = .ok result
      ∧ result.coverage.files = [outerEntry, innerEntry, innerEntry] :=
    exists_ok_of_any (by decide +kernel)
  refine ⟨result, hresult, hfiles, ?_, by decide +kernel⟩
  unfold Coverage.overall
  rw [hfiles]
  decide +kernel

end Contract
end Conformance
