import Conformance.Proofs.Files.Resolution
import Conformance.Proofs.Source.Encoding
import Mathlib.Data.List.Lex

/-!
# `Proofs.Files.Discovery`: the files that a search finds

A search goes through a tree once, prunes directories on its way and tests every file that it meets.
`Search.Finds` says which files it should find, by the names that lead to a file and what stands in the
tree. Going through the entries of a directory in order yields the files in the order of their names
(`Tree.pairwise_files`) and exactly those that no pruned directory hides (`Tree.mem_files_iff`);
`Search.filesAt_exact` carries both over to the paths of a search.
-/

namespace Conformance

/-! ## The files of a tree -/

namespace Tree

variable {enters : String → Bool}

/-- One list of names comes before another: where they first differ, it goes on with a smaller name, and
names are compared byte by byte. -/
def NamesBefore (names names' : List String) : Prop :=
  List.Lex (fun s t => Source.Bytes.ofText s < Source.Bytes.ofText t) names names'

/-- **The files of a tree come in the order of their names.** -/
theorem pairwise_files {t : Tree} (h : t.Proper) :
    (t.files enters).Pairwise fun e e' => NamesBefore e.1 e'.1 := by
  induction h with
  | file content => exact List.pairwise_singleton _ _
  | directory entries _ hsorted _ ih =>
    rw [files, filesOfAll_eq, List.pairwise_flatMap]
    constructor
    · intro e he
      unfold filesOfEntry
      split
      · exact List.Pairwise.nil
      · rw [List.pairwise_map]
        exact (ih e he).imp fun hbefore => List.Lex.cons hbefore
    · refine hsorted.imp fun {e e'} hlt => ?_
      intro file hfile file' hfile'
      obtain ⟨_, rest, hnames, _⟩ := mem_filesOfEntry_iff.1 hfile
      obtain ⟨_, rest', hnames', _⟩ := mem_filesOfEntry_iff.1 hfile'
      -- what the names begin with decides
      rw [hnames, hnames']
      exact List.Lex.rel (Source.Bytes.ofText_lt hlt)

end Tree

/-! ## Extensions -/

namespace Path

/-- How the extension of a file is told from its name. -/
inductive HasExtension : String → String → Prop where
  /-- It stands behind the last dot, and something stands in front of that. -/
  | behindDot {stem ext : String} (hstem : stem ≠ "") (hext : '.' ∉ ext.toList) :
      HasExtension (stem ++ "." ++ ext) ext
  /-- Without a dot but at the front there is none. -/
  | none {name : String} (h : '.' ∉ name.toList.tail) : HasExtension name ""

theorem extensionOf_of_hasExtension {name ext : String} (h : HasExtension name ext) :
    extensionOf name = ext := by
  cases h with
  | @behindDot stem _ hstem hext =>
    have hreverse : (stem ++ "." ++ ext).toList.reverse
        = ext.toList.reverse ++ '.' :: stem.toList.reverse := by
      simp [String.toList_append]
    have hending : (ext.toList.reverse ++ '.' :: stem.toList.reverse).takeWhile (· != '.')
        = ext.toList.reverse := by
      rw [List.takeWhile_append_of_pos]
      · simp
      · intro c hc
        rw [List.mem_reverse] at hc
        rw [bne_iff_ne]
        rintro rfl
        exact hext hc
    have hlength : stem.toList.length ≠ 0 := by
      simpa using hstem
    unfold extensionOf
    rw [hreverse]
    dsimp only
    rw [hending, if_neg (by simp; omega)]
    simp
  | none hdots =>
    unfold extensionOf
    dsimp only
    rw [if_pos]
    rw [List.length_drop, List.length_reverse]
    cases hname : name.toList with
    | nil => simp
    | cons c cs =>
      rw [hname, List.tail_cons] at hdots
      have hpos : ∀ d ∈ cs.reverse, (d != '.') = true := by
        intro d hd
        rw [List.mem_reverse] at hd
        rw [bne_iff_ne]
        rintro rfl
        exact hdots hd
      rw [List.reverse_cons, List.takeWhile_append_of_pos hpos]
      simp
      omega

/-- Every name has an extension, if the empty one counts. -/
theorem exists_hasExtension (name : String) : ∃ ext, HasExtension name ext := by
  by_cases hdot : '.' ∈ name.toList.tail
  · -- the last dot is the first one from behind
    rw [← List.mem_reverse] at hdot
    obtain ⟨ext, front, hsplit, hext⟩ := List.eq_append_cons_of_mem hdot
    have htail : name.toList.tail = front.reverse ++ '.' :: ext.reverse := by
      rw [← List.reverse_reverse name.toList.tail, hsplit]
      simp
    cases hname : name.toList with
    | nil =>
      rw [hname] at htail
      simp at htail
    | cons c cs =>
      rw [hname, List.tail_cons] at htail
      have hjoined : name = String.ofList (c :: front.reverse) ++ "." ++ String.ofList ext.reverse := by
        apply String.toList_inj.1
        rw [hname, htail]
        simp [String.toList_append]
      rw [hjoined]
      refine ⟨String.ofList ext.reverse, .behindDot ?_ (by simpa using hext)⟩
      intro hempty
      have hchars := congrArg String.toList hempty
      simp at hchars
  · exact ⟨"", .none hdot⟩

theorem extensionOf_eq_iff {name ext : String} : extensionOf name = ext ↔ HasExtension name ext := by
  constructor
  · intro h
    obtain ⟨ext', hext⟩ := exists_hasExtension name
    rw [extensionOf_of_hasExtension hext] at h
    rw [← h]
    exact hext
  · exact extensionOf_of_hasExtension

/-! ## The paths of a search -/

/-- One path comes before another, segment by segment. -/
def Before (p q : Path) : Prop := Tree.NamesBefore p.segments q.segments

theorem Before.ne {p q : Path} (h : p.Before q) : p ≠ q := by
  have hne : p.segments ≠ q.segments := by
    refine List.Lex.to_ne (List.Lex.imp (fun s t hlt => ?_) _ _ h)
    rintro rfl
    exact List.lt_irrefl _ hlt
  rintro rfl
  exact hne rfl

/-- The last segment has the extension, if it is a name. -/
theorem extension_of_segments {p : Path} {front : List String} {name : String}
    (hsegments : p.segments = front ++ [name]) (hname : IsName name) : p.extension = extensionOf name := by
  have hempty : name.isEmpty = false := String.isEmpty_eq_false_iff.2 hname.ne_empty
  unfold extension fileName? reversedSegments
  rw [hsegments, List.reverse_append, List.reverse_singleton, List.singleton_append, trimReversed]
  simp [hempty, hname.ne_dot, hname.ne_dots]

/-- A joined path ends in the last of its names, so it has the extension of that name. -/
theorem extension_join {p : Path} (hp : p.text ≠ "") {dirs : List String} {name : String}
    (h : ∀ n ∈ dirs ++ [name], IsName n) :
    (p.join (slashed (dirs ++ [name]))).extension = extensionOf name := by
  obtain ⟨_, hsegments⟩ := segments_join hp (by simp) h
  rw [← List.append_assoc] at hsegments
  exact extension_of_segments hsegments (h name (by simp))

end Path

namespace Search

/-- **What a search should find below a directory**: a file whose names lead through directories that are
neither hidden nor hold installed packages, with one of the wanted extensions, and not excluded by its
path, in full or as seen from the directory. -/
structure Finds (s : Search) (root : Path) (entries : List (String × Tree)) (dirs : List String)
    (name : String) (f : SourceFile) : Prop where
  file : Tree.below? (dirs ++ [name]) entries = some (.file f.content)
  path : f.path = root.join (Path.slashed (dirs ++ [name]))
  entered : ∀ d ∈ dirs, d.toList.head? ≠ some '.' ∧ d ≠ "vendor" ∧ d ≠ "node_modules"
  extension : ∃ wanted ∈ s.extensions, ∃ ext, Path.HasExtension name ext
    ∧ Text.sameFolded wanted ext = true
  included : ∀ g ∈ s.excluded, g.fits f.path.text = false
    ∧ g.fits (Path.slashed (dirs ++ [name])) = false

theorem enters_iff (d : String) :
    enters d = true ↔ d.toList.head? ≠ some '.' ∧ d ≠ "vendor" ∧ d ≠ "node_modules" := by
  simp [enters, packageDirectories]

theorem wants_join_iff (s : Search) {root : Path} (hroot : root.text ≠ "") {dirs : List String}
    {name : String} (h : ∀ n ∈ dirs ++ [name], Path.IsName n) :
    s.wants (root.join (Path.slashed (dirs ++ [name]))) = true
      ↔ ∃ wanted ∈ s.extensions, ∃ ext, Path.HasExtension name ext ∧ Text.sameFolded wanted ext = true := by
  unfold wants
  rw [Path.extension_join hroot h, List.any_eq_true]
  simp only [← Path.extensionOf_eq_iff, exists_eq_left']

theorem excludes_eq_false_iff (s : Search) (p : Path) (fromRoot : String) :
    s.excludes p fromRoot = false
      ↔ ∀ g ∈ s.excluded, g.fits p.text = false ∧ g.fits fromRoot = false := by
  simp only [excludes, Bool.or_eq_false_iff, List.any_eq_false, Bool.not_eq_true]
  exact ⟨fun h g hg => ⟨h.1 g hg, h.2 g hg⟩, fun h => ⟨fun g hg => (h g hg).1, fun g hg => (h g hg).2⟩⟩

/-- The files in a proper directory are those that the search should find. -/
theorem mem_filesIn_iff (s : Search) {root : Path} {entries : List (String × Tree)}
    (hroot : root.text ≠ "") (hproper : Tree.Proper (.directory entries)) {f : SourceFile} :
    f ∈ s.filesIn root (.directory entries) ↔ ∃ dirs name, s.Finds root entries dirs name f := by
  unfold filesIn
  rw [List.mem_filterMap]
  constructor
  · rintro ⟨⟨names, content⟩, hfile, hfound⟩
    obtain ⟨hbelow, hdirs⟩ := (Tree.mem_files_iff hproper).1 hfile
    have hnames := (Tree.proper_of_below? hproper hbelow).1
    obtain ⟨dirs, name, rfl⟩ := (List.eq_nil_or_concat' names).resolve_left (Tree.ne_nil_of_below? hbelow)
    dsimp only at hfound
    split at hfound
    · next hwanted =>
      cases hfound
      rw [Bool.and_eq_true, Bool.not_eq_true', s.wants_join_iff hroot hnames,
        excludes_eq_false_iff] at hwanted
      rw [List.dropLast_concat] at hdirs
      exact ⟨dirs, name, hbelow, rfl, fun d hd => (enters_iff d).1 (hdirs d hd), hwanted.1, hwanted.2⟩
    · cases hfound
  · rintro ⟨dirs, name, h⟩
    have hdirs : ∀ d ∈ (dirs ++ [name]).dropLast, enters d = true := by
      rw [List.dropLast_concat]
      exact fun d hd => (enters_iff d).2 (h.entered d hd)
    have hfile : (dirs ++ [name], f.content) ∈ (Tree.directory entries).files enters :=
      (Tree.mem_files_iff hproper).2 ⟨h.file, hdirs⟩
    have hnames := (Tree.proper_of_below? hproper h.file).1
    refine ⟨(dirs ++ [name], f.content), hfile, ?_⟩
    have hwants : s.wants f.path = true := by
      rw [h.path, s.wants_join_iff hroot hnames]
      exact h.extension
    have hincluded : s.excludes f.path (Path.slashed (dirs ++ [name])) = false :=
      (excludes_eq_false_iff s _ _).2 h.included
    dsimp only
    rw [← h.path, hwants, hincluded]
    rfl

/-- The files in a proper directory are found in the order of their paths. -/
theorem pairwise_filesIn (s : Search) {root : Path} {entries : List (String × Tree)}
    (hroot : root.text ≠ "") (hproper : Tree.Proper (.directory entries)) :
    (s.filesIn root (.directory entries)).Pairwise fun f g => f.path.Before g.path := by
  have hpath {e : List String × ByteArray} {f : SourceFile}
      (he : e ∈ (Tree.directory entries).files enters)
      (hf : (if s.wants (root.join (Path.slashed e.1)) && !s.excludes (root.join (Path.slashed e.1))
          (Path.slashed e.1) then some { path := root.join (Path.slashed e.1), content := e.2 }
        else none) = some f) : f.path.segments = root.front ++ e.1 := by
    have hbelow := ((Tree.mem_files_iff hproper).1 he).1
    split at hf
    · cases hf
      exact (Path.segments_join hroot (Tree.ne_nil_of_below? hbelow)
        (Tree.proper_of_below? hproper hbelow).1).2
    · cases hf
  unfold filesIn
  rw [List.pairwise_filterMap]
  refine (Tree.pairwise_files hproper).imp_of_mem fun {e e'} he he' hbefore => ?_
  intro f hf g hg
  unfold Path.Before
  rw [hpath he hf, hpath he' hg]
  exact List.Lex.append_left _ hbefore root.front

variable {fs : FileSystem} {root : Path} {entries : List (String × Tree)}

/-- **The search below a directory is exact.** It finds the files that it should find and no others, each
under a path of its own, in the order of these paths: segment by segment, and each segment byte by byte. -/
theorem filesAt_exact (s : Search) (hfs : fs.Proper) (hroot : fs.node? root = some (.directory entries)) :
    (s.filesAt fs root).Pairwise (fun f g => f.path.Before g.path)
    ∧ ((s.filesAt fs root).map SourceFile.path).Nodup
    ∧ ∀ f, f ∈ s.filesAt fs root ↔ ∃ dirs name, s.Finds root entries dirs name f := by
  obtain ⟨htext, place, _, hplace⟩ := FileSystem.leadsTo_of_node? hroot
  have hproper : Tree.Proper (.directory entries) := (Tree.proper_of_below? hfs hplace).2
  have hfiles : s.filesAt fs root = s.filesIn root (.directory entries) := by
    unfold filesAt
    rw [hroot]
  have hsorted := s.pairwise_filesIn htext hproper
  rw [hfiles]
  refine ⟨hsorted, ?_, fun f => s.mem_filesIn_iff htext hproper⟩
  rw [List.Nodup, List.pairwise_map]
  exact hsorted.imp fun h => h.ne

/-- A directory with a hidden file, and with a file in a hidden directory. -/
def hiddenDrafts : List (String × Tree) :=
  [(".Draft.php", .file "<?php class Draft {}".toUTF8),
    (".cache", .directory [("Draft.php", .file "<?php class Draft {}".toUTF8)])]

/-- A project with that directory. -/
def draftProject : FileSystem where
  root := [("src", .directory hiddenDrafts)]

theorem proper_draftProject : draftProject.Proper := Tree.proper_of_isProper _ (by decide)

/-- The hidden file is found, and nothing in the hidden directory is. -/
theorem filesAt_exact_of_hiddenDrafts :
    (∃ f ∈ ({} : Search).filesAt draftProject ⟨"/src"⟩, f.path = ⟨"/src/.Draft.php"⟩)
    ∧ ∀ f ∈ ({} : Search).filesAt draftProject ⟨"/src"⟩,
      ∃ dirs name, f.path = (⟨"/src"⟩ : Path).join (Path.slashed (dirs ++ [name])) ∧ ".cache" ∉ dirs := by
  have hroot : draftProject.node? ⟨"/src"⟩ = some (.directory hiddenDrafts) := rfl
  obtain ⟨_, _, hexact⟩ := filesAt_exact {} proper_draftProject hroot
  constructor
  · refine ⟨{ path := ⟨"/src/.Draft.php"⟩, content := "<?php class Draft {}".toUTF8 }, ?_, rfl⟩
    have hextension : Path.HasExtension ".Draft.php" "php" := Path.extensionOf_eq_iff.1 (by decide)
    refine (hexact _).2 ⟨[], ".Draft.php", rfl, by decide, by simp, ?_, by simp⟩
    exact ⟨"php", by decide, "php", hextension, by decide⟩
  · intro f hf
    obtain ⟨dirs, name, hfinds⟩ := (hexact f).1 hf
    refine ⟨dirs, name, hfinds.path, fun hcache => ?_⟩
    exact (hfinds.entered ".cache" hcache).1 (by decide)

end Search
end Conformance
