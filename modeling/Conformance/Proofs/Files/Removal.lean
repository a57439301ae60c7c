import Conformance.Proofs.Files.Resolution

/-!
# `Proofs.Files.Removal`: file systems without some of their files

Files are left out of a directory, at whatever depth (`Tree.Pruned`). Two runs over such file systems see
the same directories and files in the same places, except where a file is gone (`Tree.Seen`), so every
path leads to the same place in both unless it led to a file that is gone
(`FileSystem.seen_node?`). A search finds the same files in both, except those that are gone, whatever
roots it starts from (`Search.filterMap_files`). `FileSystem.remove` leaves out one file.
-/

namespace Conformance

namespace Tree

/-! ## Directories without some files -/

/-- The entries of a directory, and what is left of them without some files; `gone` says of which places
and contents files may be left out. -/
inductive Pruned : (List String → ByteArray → Prop) → List (String × Tree) → List (String × Tree) → Prop
  | same {gone} (entries) : Pruned gone entries entries
  /-- A file is left out, and no other entry has its name. -/
  | skip {gone : List String → ByteArray → Prop} {name content entries entries'}
      (hgone : gone [name] content) (hname : ∀ e ∈ entries, e.1 ≠ name)
      (hrest : Pruned gone entries entries') : Pruned gone ((name, .file content) :: entries) entries'
  | keep {gone entries entries'} (e) (hrest : Pruned gone entries entries') :
      Pruned gone (e :: entries) (e :: entries')
  /-- Files are left out of a directory. -/
  | inside {gone : List String → ByteArray → Prop} {name inner inner' entries entries'}
      (hinner : Pruned (fun place => gone (name :: place)) inner inner')
      (hrest : Pruned gone entries entries') :
      Pruned gone ((name, .directory inner) :: entries) ((name, .directory inner') :: entries')

/-- What stands at one place, and what is left of it. -/
inductive Seen (gone : List String → ByteArray → Prop) : Option Tree → Option Tree → Prop
  | same (t) : Seen gone t t
  | left {content} (hgone : gone [] content) : Seen gone (some (.file content)) none
  | directory {entries entries'} (h : Pruned gone entries entries') :
      Seen gone (some (.directory entries)) (some (.directory entries'))

variable {gone : List String → ByteArray → Prop} {entries entries' : List (String × Tree)}

theorem Seen.eq_none {t : Option Tree} (h : Seen gone none t) : t = none := by
  cases h
  rfl

theorem lookup_eq_none_of_ne {name : String} (h : ∀ e ∈ entries, e.1 ≠ name) :
    entries.lookup name = none := by
  rw [List.lookup_eq_none_iff]
  intro e he
  rw [bne_iff_ne]
  exact (h e he).symm

/-- Looking a name up. -/
theorem Pruned.lookup (h : Pruned gone entries entries') (name : String) :
    Seen (fun place => gone (name :: place)) (entries.lookup name) (entries'.lookup name) := by
  induction h with
  | same entries => exact .same _
  | @skip gone name' content entries entries' hgone hname hrest ih =>
    by_cases hn : name = name'
    · subst hn
      rw [lookup_eq_none_of_ne hname] at ih
      rw [List.lookup_cons_self, ih.eq_none]
      exact .left hgone
    · rw [Table.lookup_cons_of_ne hn]
      exact ih
  | @keep gone entries entries' e hrest ih =>
    by_cases hn : name = e.1
    · obtain ⟨_, t⟩ := e
      subst hn
      rw [List.lookup_cons_self, List.lookup_cons_self]
      exact .same _
    · rw [Table.lookup_cons_of_ne hn, Table.lookup_cons_of_ne hn]
      exact ih
  | @inside gone name' inner inner' entries entries' hinner hrest _ ih =>
    by_cases hn : name = name'
    · subst hn
      rw [List.lookup_cons_self, List.lookup_cons_self]
      exact .directory hinner
    · rw [Table.lookup_cons_of_ne hn, Table.lookup_cons_of_ne hn]
      exact ih

/-- Following names. -/
theorem Pruned.below? (h : Pruned gone entries entries') (names : List String) :
    Seen (fun place => gone (names ++ place)) (below? names entries) (below? names entries') := by
  induction names generalizing gone entries entries' with
  | nil => exact .directory h
  | cons name names ih =>
    have hlookup := h.lookup name
    rw [Tree.below?, Tree.below?]
    revert hlookup
    generalize entries.lookup name = t
    generalize entries'.lookup name = t'
    intro hlookup
    cases hlookup with
    | same => exact .same _
    | @left content hgone =>
      by_cases hnames : names = []
      · subst hnames
        exact .left hgone
      · have hrest : names.isEmpty = false := List.isEmpty_eq_false_iff.2 hnames
        simp only [hrest]
        exact .same none
    | directory hinner => exact ih hinner

/-- **Whoever takes no notice of the files that are gone sees the same files** in both directories. -/
theorem Pruned.filterMap_files {β : Type} (h : Pruned gone entries entries') (enters : String → Bool)
    {g : List String × ByteArray → Option β} (hg : ∀ place content, gone place content →
      g (place, content) = none) :
    ((directory entries).files enters).filterMap g
      = ((directory entries').files enters).filterMap g := by
  show (files.filesOfAll enters entries).filterMap g = (files.filesOfAll enters entries').filterMap g
  induction h generalizing g with
  | same entries => rfl
  | @skip gone name content entries entries' hgone hname hrest ih =>
    rw [files.filesOfAll, List.filterMap_append, ← ih hg]
    show [([name], content)].filterMap g ++ _ = _
    rw [List.filterMap_cons_none (hg [name] content hgone)]
    rfl
  | keep e hrest ih =>
    rw [files.filesOfAll, files.filesOfAll, List.filterMap_append, List.filterMap_append, ih hg]
  | @inside gone name inner inner' entries entries' hinner hrest ihinner ih =>
    -- what is seen of the inner directory, under its name
    have hin := @ihinner (fun e => g (name :: e.1, e.2)) fun place => hg (name :: place)
    rw [files.filesOfAll, files.filesOfAll, List.filterMap_append, List.filterMap_append, ih hg]
    congr 1
    by_cases henters : enters name = true
    · simp only [isDirectory, henters, Bool.not_true, Bool.and_false, Bool.false_eq_true, if_false,
        List.filterMap_map]
      exact hin
    · rw [Bool.not_eq_true] at henters
      simp only [isDirectory, henters, Bool.not_false, Bool.and_true, if_true]

/-! ## Leaving out one file -/

/-- A file with a name of its own is left out of a directory. -/
theorem pruned_filter {name : String} {content : ByteArray}
    (hsorted : entries.Pairwise (fun e e' => e.1 < e'.1))
    (h : entries.lookup name = some (.file content)) (hgone : gone [name] content) :
    Pruned gone entries (entries.filter fun e => e.1 != name) := by
  induction entries with
  | nil => cases h
  | cons e entries ih =>
    obtain ⟨n, t⟩ := e
    obtain ⟨hfront, hrest⟩ := List.pairwise_cons.1 hsorted
    by_cases hn : name = n
    · subst hn
      rw [List.lookup_cons_self, Option.some_inj] at h
      subst h
      have hne : ∀ e ∈ entries, e.1 ≠ name := fun e he heq =>
        String.lt_irrefl name (heq ▸ hfront e he)
      have hall : entries.filter (fun e => e.1 != name) = entries :=
        List.filter_eq_self.2 fun e he => bne_iff_ne.2 (hne e he)
      rw [List.filter_cons_of_neg (by simp), hall]
      exact .skip hgone hne (.same entries)
    · rw [Table.lookup_cons_of_ne hn] at h
      have hkeep : ((n, t) :: entries).filter (fun e => e.1 != name)
          = (n, t) :: entries.filter fun e => e.1 != name :=
        List.filter_cons_of_pos (bne_iff_ne.2 (Ne.symm hn))
      rw [hkeep]
      exact .keep (n, t) (ih hrest h)

/-- No directory below other names is changed. -/
theorem changeBelow_of_ne {f : List (String × Tree) → List (String × Tree)} {name : String}
    {place : List String} (h : ∀ e ∈ entries, e.1 ≠ name) :
    changeBelow f (name :: place) entries = entries := by
  rw [changeBelow]
  refine (List.map_congr_left fun e he => ?_).trans (List.map_id entries)
  obtain ⟨n, t⟩ := e
  cases t with
  | file content => rfl
  | directory inner =>
    dsimp only
    rw [if_neg (h _ he)]
    rfl

/-- Files are left out of a directory if they are left out of one of its directories. -/
theorem pruned_changeBelow_cons {f : List (String × Tree) → List (String × Tree)} {name : String}
    {place : List String} {inner : List (String × Tree)}
    (hsorted : entries.Pairwise (fun e e' => e.1 < e'.1))
    (h : entries.lookup name = some (.directory inner))
    (hinner : Pruned (fun q => gone (name :: q)) inner (changeBelow f place inner)) :
    Pruned gone entries (changeBelow f (name :: place) entries) := by
  induction entries with
  | nil => cases h
  | cons e entries ih =>
    obtain ⟨n, t⟩ := e
    obtain ⟨hfront, hrest⟩ := List.pairwise_cons.1 hsorted
    by_cases hn : name = n
    · subst hn
      rw [List.lookup_cons_self, Option.some_inj] at h
      subst h
      -- the name is that of no further entry
      have hne : ∀ e ∈ entries, e.1 ≠ name := fun e he heq =>
        String.lt_irrefl name (heq ▸ hfront e he)
      have hothers : changeBelow f (name :: place) entries = entries := changeBelow_of_ne hne
      rw [changeBelow] at hothers ⊢
      rw [List.map_cons, hothers]
      dsimp only
      rw [if_pos rfl]
      exact .inside hinner (.same entries)
    · rw [Table.lookup_cons_of_ne hn] at h
      have hhead : changeBelow f (name :: place) ((n, t) :: entries)
          = (n, t) :: changeBelow f (name :: place) entries := by
        rw [changeBelow, changeBelow, List.map_cons]
        cases t with
        | file content => rfl
        | directory inner' =>
          dsimp only
          rw [if_neg (Ne.symm hn)]
      rw [hhead]
      exact .keep (n, t) (ih hrest h)

/-- **A file is left out of the directory it stands in.** -/
theorem pruned_changeBelow {place : List String} {name : String} {content : ByteArray}
    (hproper : Proper (directory entries)) (h : below? (place ++ [name]) entries = some (.file content))
    (hgone : gone (place ++ [name]) content) :
    Pruned gone entries (changeBelow (fun es => es.filter fun e => e.1 != name) place entries) := by
  induction place generalizing gone entries with
  | nil =>
    cases hproper with
    | directory _ _ hsorted _ =>
      refine pruned_filter hsorted ?_ hgone
      rcases below?_cons_iff.1 h with ⟨inner, _, hinner⟩ | ⟨content', hlookup, _, heq⟩
      · cases hinner
      · rw [hlookup, heq]
  | cons d place ih =>
    rcases below?_cons_iff.1 h with ⟨inner, hlookup, hrest⟩ | ⟨content', _, hnil, _⟩
    · cases hproper with
      | directory _ _ hsorted hentries =>
        have hinner := hentries _ (mem_of_lookup hlookup)
        exact pruned_changeBelow_cons hsorted hlookup (ih hinner hrest hgone)
    · -- nothing stands below a file
      simp at hnil

end Tree

/-! ## Paths -/

namespace FileSystem

/-- A file system, and what is left of it without some files. -/
structure Pruned (gone : List String → ByteArray → Prop) (fs fs' : FileSystem) : Prop where
  root : Tree.Pruned gone fs.root fs'.root
  workingDirectory : fs'.workingDirectory = fs.workingDirectory

/-- The file system without a file of a directory. -/
def remove (fs : FileSystem) (place : List String) (name : String) : FileSystem :=
  { fs with root := Tree.changeBelow (fun es => es.filter fun e => e.1 != name) place fs.root }

theorem pruned_remove {fs : FileSystem} (hfs : fs.Proper) {place : List String} {name : String}
    {content : ByteArray} (h : fs.nodeAt? (place ++ [name]) = some (.file content)) :
    fs.Pruned (fun q c => q = place ++ [name] ∧ c = content) (fs.remove place name) where
  root := Tree.pruned_changeBelow hfs h ⟨rfl, rfl⟩
  workingDirectory := rfl

/-- Where a path leads in a file system, and where it leads without some files: to the same place, unless
it leads to a file that is gone. -/
inductive Led (gone : List String → ByteArray → Prop) (fs : FileSystem) :
    Except FileError (List String) → Except FileError (List String) → Prop
  | same (r) : Led gone fs r r
  | left {place content cause} (hgone : gone place content)
      (hnode : fs.nodeAt? place = some (.file content)) : Led gone fs (.ok place) (.error cause)
  | failed (cause cause') : Led gone fs (.error cause) (.error cause')

variable {gone : List String → ByteArray → Prop} {fs fs' : FileSystem}

theorem Pruned.seen_nodeAt? (h : fs.Pruned gone fs') (place : List String) :
    Tree.Seen (fun q => gone (place ++ q)) (fs.nodeAt? place) (fs'.nodeAt? place) :=
  h.root.below? place

/-- One segment leads to the same place. -/
theorem Pruned.enter (h : fs.Pruned gone fs') (place : List String) (segment : String) :
    Led gone fs (fs.enter place segment) (fs'.enter place segment) := by
  have hseen := h.seen_nodeAt? place
  unfold FileSystem.enter
  generalize hnode : fs.nodeAt? place = t at hseen
  generalize fs'.nodeAt? place = t' at hseen
  cases hseen with
  | same => exact .same _
  | left hgone => exact .failed _ _
  | @directory entries entries' hentries =>
    dsimp only
    by_cases hdot : (segment.isEmpty || segment == ".") = true
    · rw [if_pos hdot, if_pos hdot]
      exact .same _
    rw [if_neg hdot, if_neg hdot]
    by_cases hup : (segment == "..") = true
    · rw [if_pos hup, if_pos hup]
      exact .same _
    rw [if_neg hup, if_neg hup]
    by_cases hlong : maxName < segment.utf8ByteSize
    · rw [if_pos hlong, if_pos hlong]
      exact .same _
    rw [if_neg hlong, if_neg hlong]
    -- a name: its entry is in both directories, or in none, or it is a file that is gone
    have hentry := hentries.lookup segment
    generalize hlookup : entries.lookup segment = u at hentry
    generalize entries'.lookup segment = u' at hentry
    cases hentry with
    | same => exact .same _
    | @left content hgone =>
      refine .left hgone ?_
      unfold nodeAt? at hnode ⊢
      rw [Tree.below?_append hnode, Tree.below?, hlookup]
      rfl
    | directory _ => exact .same _

/-- No segment leads on from a file. -/
theorem enter_of_file {place : List String} {content : ByteArray}
    (h : fs.nodeAt? place = some (.file content)) (segment : String) :
    fs.enter place segment = .error .notDirectory := by
  unfold FileSystem.enter
  rw [h]

/-- Segments lead to the same place. -/
theorem Pruned.enterAll (h : fs.Pruned gone fs') (place : List String) (segments : List String) :
    Led gone fs (fs.enterAll place segments) (fs'.enterAll place segments) := by
  induction segments generalizing place with
  | nil => exact .same _
  | cons segment segments ih =>
    have hled := h.enter place segment
    rw [FileSystem.enterAll, FileSystem.enterAll]
    generalize fs.enter place segment = r at hled
    generalize fs'.enter place segment = r' at hled
    cases hled with
    | same =>
      cases r with
      | error cause => exact .same _
      | ok place => exact ih place
    | @left place content cause hgone hnode =>
      cases segments with
      | nil => exact .left hgone hnode
      | cons segment segments =>
        dsimp only
        rw [FileSystem.enterAll, enter_of_file hnode]
        exact .failed _ _
    | failed cause cause' => exact .failed cause cause'

/-- **A path leads to the same place**, unless it leads to a file that is gone. -/
theorem Pruned.locate (h : fs.Pruned gone fs') (p : Path) :
    Led gone fs (fs.locate p) (fs'.locate p) := by
  have hstart : fs'.startOf p = fs.startOf p := by
    unfold startOf
    rw [h.workingDirectory]
  unfold FileSystem.locate
  rw [hstart]
  cases checkPath p with
  | error cause => exact .same _
  | ok checked => exact h.enterAll (fs.startOf p) p.segments

/-- **A path shows the same tree**, but for the files that are gone. -/
theorem Pruned.seen_node? (h : fs.Pruned gone fs') (p : Path) :
    Tree.Seen (fun q content => ∃ place, fs.locate p = .ok place ∧ gone (place ++ q) content)
      (fs.node? p) (fs'.node? p) := by
  have hled := h.locate p
  rw [node?_eq, node?_eq]
  generalize fs.locate p = r at hled
  generalize fs'.locate p = r' at hled
  cases hled with
  | same =>
    cases r with
    | error cause => exact .same none
    | ok place =>
      have hseen := h.seen_nodeAt? place
      simp only [Except.ok.injEq, exists_eq_left']
      exact hseen
  | @left place content cause hgone hnode =>
    show Tree.Seen _ (fs.nodeAt? place) none
    rw [hnode]
    refine .left ⟨place, rfl, ?_⟩
    rw [List.append_nil]
    exact hgone
  | failed cause cause' => exact .same none

/-- A path that does not lead to a file that is gone leads to a file in both or in none. -/
theorem Pruned.isFile (h : fs.Pruned gone fs') {p : Path}
    (hp : ∀ place content, fs.locate p = .ok place → ¬ gone place content) :
    fs'.isFile p = fs.isFile p := by
  have hseen := h.seen_node? p
  unfold FileSystem.isFile
  generalize fs.node? p = t at hseen
  generalize fs'.node? p = t' at hseen
  cases hseen with
  | same => rfl
  | left hgone =>
    obtain ⟨place, hplace, hgone⟩ := hgone
    rw [List.append_nil] at hgone
    exact absurd hgone (hp place _ hplace)
  | directory _ => rfl

end FileSystem

/-! ## Searches -/

namespace Search

variable {gone : List String → ByteArray → Prop} {fs fs' : FileSystem} {β : Type}
  {g : SourceFile → Option β}

theorem filterMap_filesAt (s : Search) (h : fs.Pruned gone fs')
    (hg : ∀ place content, gone place content → ∀ path, g { path, content } = none) (root : Path) :
    (s.filesAt fs' root).filterMap g = (s.filesAt fs root).filterMap g := by
  have hseen := h.seen_node? root
  unfold filesAt
  generalize fs.node? root = t at hseen
  generalize fs'.node? root = t' at hseen
  cases hseen with
  | same => rfl
  | @left content hgone =>
    obtain ⟨place, _, hgone⟩ := hgone
    dsimp only
    by_cases hwants : s.wants root = true
    · rw [if_pos hwants, List.filterMap_cons_none (hg _ content hgone root)]
    · rw [if_neg hwants]
  | @directory entries entries' hentries =>
    dsimp only
    unfold filesIn
    rw [List.filterMap_filterMap, List.filterMap_filterMap]
    refine (hentries.filterMap_files enters ?_).symm
    rintro names content ⟨place, _, hgone⟩
    -- the file is found in one of the searches at most, and taken no notice of there
    dsimp only
    split
    · exact hg _ content hgone _
    · rfl

/-- **A search finds the same files**, but for those that are gone. -/
theorem filterMap_files (s : Search) (h : fs.Pruned gone fs')
    (hg : ∀ place content, gone place content → ∀ path, g { path, content } = none)
    (roots : List Path) : (s.files fs' roots).filterMap g = (s.files fs roots).filterMap g := by
  unfold files
  rw [List.filterMap_flatMap, List.filterMap_flatMap]
  rw [funext fun root => s.filterMap_filesAt h hg root]

end Search
end Conformance
