import Conformance.Files.Search
import Conformance.Proofs.Failure
import Conformance.Proofs.Order.KeySet

/-!
# `Proofs.Files.Resolution`: where the paths of a search lead

A search walks through trees and writes down a path for every file it meets. Looking the path up leads
back to the same file (`Search.leadsTo_of_mem_files`), so no two files of a search share a path unless
they share their content. This takes directories that are *proper*: their entries have names of which no
slash, no dots and no second entry can make another path.
-/

namespace Conformance

/-! ## Proper trees -/

/-- A text that can be the name of an entry of a directory. -/
structure Path.IsName (name : String) : Prop where
  ne_empty : name ≠ ""
  ne_dot : name ≠ "."
  ne_dots : name ≠ ".."
  no_slash : '/' ∉ name.toList
  length_le : name.utf8ByteSize ≤ FileSystem.maxName

instance (name : String) : Decidable (Path.IsName name) :=
  decidable_of_iff (name ≠ "" ∧ name ≠ "." ∧ name ≠ ".." ∧ '/' ∉ name.toList
      ∧ name.utf8ByteSize ≤ FileSystem.maxName)
    ⟨fun ⟨hempty, hdot, hdots, hslash, hlength⟩ => ⟨hempty, hdot, hdots, hslash, hlength⟩,
      fun h => ⟨h.ne_empty, h.ne_dot, h.ne_dots, h.no_slash, h.length_le⟩⟩

/-- The entries of every directory have names, in the order of the names and each name once. -/
inductive Tree.Proper : Tree → Prop where
  | file (content : ByteArray) : Proper (.file content)
  | directory (entries : List (String × Tree)) (isName : ∀ e ∈ entries, Path.IsName e.1)
      (sorted : entries.Pairwise (fun e e' => e.1 < e'.1)) (proper : ∀ e ∈ entries, Proper e.2) :
      Proper (.directory entries)

/-- All directories of a file system are proper. -/
def FileSystem.Proper (fs : FileSystem) : Prop := Tree.Proper (.directory fs.root)

namespace Tree

/-- Tests whether all directories of a tree are proper. -/
def isProper : Tree → Bool
  | file _ => true
  | directory entries =>
    decide (∀ e ∈ entries, Path.IsName e.1) && decide (entries.Pairwise fun e e' => e.1 < e'.1)
      && areProper entries
where
  /-- Tests the trees of the entries of a directory. -/
  areProper : List (String × Tree) → Bool
    | [] => true
    | (_, t) :: rest => t.isProper && areProper rest

mutual

/-- A tree that passes the test is proper. -/
theorem proper_of_isProper : (t : Tree) → t.isProper = true → t.Proper
  | file content, _ => .file content
  | directory entries, h => by
    simp only [isProper, Bool.and_eq_true, decide_eq_true_iff] at h
    obtain ⟨⟨hnames, hsorted⟩, hentries⟩ := h
    exact .directory entries hnames hsorted (forall_proper entries hentries)

theorem forall_proper : (entries : List (String × Tree)) → isProper.areProper entries = true →
    ∀ e ∈ entries, e.2.Proper
  | [], _ => by simp
  | (name, t) :: rest, h => by
    simp only [isProper.areProper, Bool.and_eq_true] at h
    obtain ⟨ht, hrest⟩ := h
    rw [List.forall_mem_cons]
    exact ⟨proper_of_isProper t ht, forall_proper rest hrest⟩

end

theorem mem_of_lookup {entries : List (String × Tree)} {name : String} {t : Tree}
    (h : entries.lookup name = some t) : (name, t) ∈ entries := by
  obtain ⟨front, back, rfl, _⟩ := List.lookup_eq_some_iff.1 h
  exact List.mem_append_right front List.mem_cons_self

/-! ## Names that lead into a tree -/

/-- One name leads into a directory, where the others lead on, or to a file, and then it is the last. -/
theorem below?_cons_iff {name : String} {names : List String} {entries : List (String × Tree)} {t : Tree} :
    below? (name :: names) entries = some t
      ↔ (∃ inner, entries.lookup name = some (directory inner) ∧ below? names inner = some t)
        ∨ ∃ content, entries.lookup name = some (file content) ∧ names = [] ∧ t = file content := by
  rw [below?]
  cases hlookup : entries.lookup name with
  | none => simp
  | some u =>
    cases u with
    | directory inner => simp
    | file content =>
      cases names with
      | nil => simp [eq_comm]
      | cons name' names => simp

theorem ne_nil_of_below? {names : List String} {entries : List (String × Tree)} {content : ByteArray}
    (h : below? names entries = some (file content)) : names ≠ [] := by
  rintro rfl
  cases h

/-- From a directory on the way it goes on as from the start. -/
theorem below?_append {place : List String} {root entries : List (String × Tree)}
    (h : below? place root = some (directory entries)) (names : List String) :
    below? (place ++ names) root = below? names entries := by
  induction place generalizing root with
  | nil =>
    cases h
    rfl
  | cons name place ih =>
    rcases below?_cons_iff.1 h with ⟨inner, hlookup, hrest⟩ | ⟨content, _, _, hfile⟩
    · rw [List.cons_append, below?, hlookup]
      exact ih hrest
    · cases hfile

/-- **What stands in a proper directory is proper**, and names lead to it. -/
theorem proper_of_below? {names : List String} {entries : List (String × Tree)} {t : Tree}
    (hproper : Proper (directory entries)) (h : below? names entries = some t) :
    (∀ name ∈ names, Path.IsName name) ∧ Proper t := by
  induction names generalizing entries with
  | nil =>
    cases h
    exact ⟨by simp, hproper⟩
  | cons name names ih =>
    rw [List.forall_mem_cons]
    cases hproper with
    | directory _ hname _ hentries =>
      rcases below?_cons_iff.1 h with ⟨inner, hlookup, hrest⟩ | ⟨content, hlookup, rfl, rfl⟩
      · obtain ⟨hnames, ht⟩ := ih (hentries _ (mem_of_lookup hlookup)) hrest
        exact ⟨⟨hname _ (mem_of_lookup hlookup), hnames⟩, ht⟩
      · exact ⟨⟨hname _ (mem_of_lookup hlookup), by simp⟩, .file content⟩

/-! ## The files of a tree -/

/-- The files of one entry of a directory. -/
def filesOfEntry (enters : String → Bool) (e : String × Tree) : List (List String × ByteArray) :=
  if e.2.isDirectory && !enters e.1 then []
  else (e.2.files enters).map fun (names, content) => (e.1 :: names, content)

theorem filesOfAll_eq (enters : String → Bool) (entries : List (String × Tree)) :
    files.filesOfAll enters entries = entries.flatMap (filesOfEntry enters) := by
  induction entries with
  | nil => rfl
  | cons e entries ih =>
    rw [files.filesOfAll, List.flatMap_cons, ih]
    rfl

variable {enters : String → Bool}

/-- The files of an entry are those of its tree, if it is not a directory that is not gone into. -/
theorem mem_filesOfEntry_iff {e : String × Tree} {file : List String × ByteArray} :
    file ∈ filesOfEntry enters e ↔ (e.2.isDirectory = true → enters e.1 = true)
      ∧ ∃ rest, file.1 = e.1 :: rest ∧ (rest, file.2) ∈ e.2.files enters := by
  unfold filesOfEntry
  by_cases hpruned : (e.2.isDirectory && !enters e.1) = true
  · rw [if_pos hpruned]
    simp only [Bool.and_eq_true, Bool.not_eq_true'] at hpruned
    simp [hpruned]
  · rw [if_neg hpruned, List.mem_map]
    constructor
    · rintro ⟨⟨rest, content⟩, hrest, rfl⟩
      exact ⟨by simpa using hpruned, rest, rfl, hrest⟩
    · rintro ⟨_, rest, hnames, hrest⟩
      exact ⟨(rest, file.2), hrest, Prod.ext hnames.symm rfl⟩

/-- **The files of a directory are those that stand in it**, at names that lead through no directory that
is not gone into. -/
theorem mem_files_iff {entries : List (String × Tree)} (hproper : Proper (directory entries))
    {names : List String} {content : ByteArray} :
    (names, content) ∈ (directory entries).files enters
      ↔ below? names entries = some (file content) ∧ ∀ d ∈ names.dropLast, enters d = true := by
  induction names generalizing entries with
  | nil =>
    rw [files, filesOfAll_eq, List.mem_flatMap]
    simp [mem_filesOfEntry_iff, below?]
  | cons name names ih =>
    rw [files, filesOfAll_eq, List.mem_flatMap]
    simp only [mem_filesOfEntry_iff]
    cases hproper with
    | directory _ _ hsorted hentries =>
      constructor
      · rintro ⟨⟨_, t⟩, hmem, henters, _, heq, hrest⟩
        cases heq
        have hlookup := Table.lookup_of_mem hsorted hmem
        rw [below?_cons_iff]
        cases t with
        | file content' =>
          cases List.mem_singleton.1 hrest
          exact ⟨Or.inr ⟨_, hlookup, rfl, rfl⟩, by simp⟩
        | directory inner =>
          obtain ⟨hbelow, hdirs⟩ := (ih (hentries _ hmem)).1 hrest
          rw [List.dropLast_cons_of_ne_nil (ne_nil_of_below? hbelow), List.forall_mem_cons]
          exact ⟨Or.inl ⟨inner, hlookup, hbelow⟩, henters rfl, hdirs⟩
      · rintro ⟨hbelow, hdirs⟩
        rcases below?_cons_iff.1 hbelow with ⟨inner, hlookup, hrest⟩ | ⟨content', hlookup, rfl, heq⟩
        · have hmem := mem_of_lookup hlookup
          rw [List.dropLast_cons_of_ne_nil (ne_nil_of_below? hrest), List.forall_mem_cons] at hdirs
          exact ⟨(name, directory inner), hmem, fun _ => hdirs.1, names, rfl,
            (ih (hentries _ hmem)).2 ⟨hrest, hdirs.2⟩⟩
        · cases heq
          refine ⟨(name, file content), mem_of_lookup hlookup, nofun, [], rfl, ?_⟩
          exact List.mem_singleton_self _

end Tree

/-! ## The segments of a joined path -/

namespace Path

theorem splitSlashes_cons {c : Char} (hc : c ≠ '/') {cs segment : List Char}
    {rest : List (List Char)} (h : splitSlashes cs = segment :: rest) :
    splitSlashes (c :: cs) = (c :: segment) :: rest := by
  rw [splitSlashes.eq_3 c cs hc, h]

theorem exists_splitSlashes (cs : List Char) :
    ∃ segment rest, splitSlashes cs = segment :: rest := by
  cases cs with
  | nil => exact ⟨[], [], rfl⟩
  | cons c cs =>
    by_cases hc : c = '/'
    · subst hc
      exact ⟨[], splitSlashes cs, rfl⟩
    · obtain ⟨segment, rest, h⟩ := exists_splitSlashes cs
      exact ⟨c :: segment, rest, splitSlashes_cons hc h⟩

/-- A slash stands between segments. -/
theorem splitSlashes_append (cs ds : List Char) :
    splitSlashes (cs ++ '/' :: ds) = splitSlashes cs ++ splitSlashes ds := by
  induction cs with
  | nil => rfl
  | cons c cs ih =>
    by_cases hc : c = '/'
    · subst hc
      exact congrArg ([] :: ·) ih
    · obtain ⟨segment, rest, h⟩ := exists_splitSlashes cs
      rw [h, List.cons_append] at ih
      rw [splitSlashes_cons hc h, List.cons_append, splitSlashes_cons hc ih, List.cons_append]

theorem splitSlashes_of_no_slash {cs : List Char} (h : '/' ∉ cs) : splitSlashes cs = [cs] := by
  induction cs with
  | nil => rfl
  | cons c cs ih =>
    rw [List.mem_cons, not_or] at h
    exact splitSlashes_cons (Ne.symm h.1) (ih h.2)

/-- Joined texts without slashes are told apart again. -/
theorem splitSlashes_slashed {names : List String} (hne : names ≠ [])
    (h : ∀ name ∈ names, '/' ∉ name.toList) :
    splitSlashes (slashed names).toList = names.map String.toList := by
  have hslash : "/".toList = ['/'] := rfl
  unfold slashed
  rw [String.toList_intercalate, hslash]
  induction names with
  | nil => exact absurd rfl hne
  | cons name names ih =>
    rw [List.forall_mem_cons] at h
    have hname : splitSlashes name.toList = [name.toList] := splitSlashes_of_no_slash h.1
    cases names with
    | nil =>
      rw [List.map_singleton, List.intercalate_singleton]
      exact hname
    | cons name' names =>
      rw [List.map_cons, List.map_cons, List.intercalate_cons_cons, List.append_assoc,
        List.singleton_append, splitSlashes_append, hname, ← List.map_cons,
        ih (List.cons_ne_nil _ _) h.2]
      rfl

/-- Joined texts start with a slash only if the first text is empty. -/
theorem isAbsolute_slashed_of_head {names : List String} (hne : names ≠ [])
    (h : ∀ name ∈ names, '/' ∉ name.toList) (hhead : names.head? ≠ some "") :
    (⟨slashed names⟩ : Path).isAbsolute = false := by
  unfold isAbsolute
  cases htext : (slashed names).toList with
  | nil => rfl
  | cons c cs =>
    refine beq_eq_false_iff_ne.2 fun hc => ?_
    cases hc
    have hsplit := splitSlashes_slashed hne h
    rw [htext] at hsplit
    cases names with
    | nil => exact hne rfl
    | cons name names =>
      have hempty : [] = name.toList := (List.cons.inj hsplit).1
      exact hhead (congrArg some (String.toList_eq_nil_iff.1 hempty.symm))

theorem isAbsolute_slashed {names : List String} (hne : names ≠ [])
    (h : ∀ name ∈ names, IsName name) : (⟨slashed names⟩ : Path).isAbsolute = false := by
  refine isAbsolute_slashed_of_head hne (fun name hname => (h name hname).no_slash) fun hhead => ?_
  exact (h "" (List.mem_of_head? hhead)).ne_empty rfl

/-- The characters that hold the segments of a path. -/
def body (p : Path) : List Char := if p.isAbsolute then p.text.toList.drop 1 else p.text.toList

theorem segments_eq (p : Path) : p.segments = (splitSlashes p.body).map String.ofList := rfl

theorem segments_ne_nil (p : Path) : p.segments ≠ [] := by
  obtain ⟨first, rest, hsplit⟩ := exists_splitSlashes p.body
  rw [segments_eq, hsplit]
  exact List.cons_ne_nil _ _

theorem append_text {p : Path} (hp : p.text ≠ "") (q : String) :
    (⟨p.text ++ q⟩ : Path).isAbsolute = p.isAbsolute
    ∧ (⟨p.text ++ q⟩ : Path).body = p.body ++ q.toList := by
  have habsolute : (⟨p.text ++ q⟩ : Path).isAbsolute = p.isAbsolute := by
    unfold isAbsolute
    rw [String.toList_append]
    cases hcs : p.text.toList with
    | nil => exact absurd (String.toList_eq_nil_iff.1 hcs) hp
    | cons c cs => rfl
  refine ⟨habsolute, ?_⟩
  unfold body
  rw [habsolute, String.toList_append]
  cases hcs : p.text.toList with
  | nil => exact absurd (String.toList_eq_nil_iff.1 hcs) hp
  | cons c cs => split <;> rfl

theorem body_of_slash {p : Path} (h : p.text.toList.getLast? = some '/') :
    p.body = [] ∨ ∃ cs, p.body = cs ++ ['/'] := by
  obtain ⟨cs, hcs⟩ := List.getLast?_eq_some_iff.1 h
  unfold body
  rw [hcs]
  split
  · cases cs with
    | nil => exact Or.inl rfl
    | cons c cs => exact Or.inr ⟨cs, rfl⟩
  · exact Or.inr ⟨cs, rfl⟩

/-- The segments in front of names that are put behind a path: a slash at the end of the path ends in an
empty segment, whose place they take. -/
def front (p : Path) : List String :=
  if p.text.toList.getLast? = some '/' then p.segments.dropLast else p.segments

theorem segments_eq_front (p : Path) : p.segments = p.front ∨ p.segments = p.front ++ [""] := by
  unfold front
  split
  · next hlast =>
    rw [segments_eq]
    rcases body_of_slash hlast with hnil | ⟨cs, hcs⟩
    · rw [hnil]
      exact Or.inr rfl
    · rw [hcs, splitSlashes_append, List.map_append]
      simp [splitSlashes]
  · exact Or.inl rfl

theorem map_ofList_toList (names : List String) : (names.map String.toList).map String.ofList = names := by
  rw [List.map_map]
  exact (List.map_congr_left fun name _ => String.ofList_toList).trans (List.map_id _)

/-- Joined names are a path with these segments. -/
theorem segments_slashed {names : List String} (hne : names ≠ []) (h : ∀ name ∈ names, IsName name) :
    (⟨slashed names⟩ : Path).segments = names := by
  rw [segments_eq, body, isAbsolute_slashed hne h, if_neg Bool.false_ne_true,
    splitSlashes_slashed hne (fun name hname => (h name hname).no_slash), map_ofList_toList]

/-- **Names behind a path add segments.** -/
theorem segments_join {p : Path} (hp : p.text ≠ "") {names : List String} (hne : names ≠ [])
    (h : ∀ name ∈ names, IsName name) :
    (p.join (slashed names)).isAbsolute = p.isAbsolute
    ∧ (p.join (slashed names)).segments = p.front ++ names := by
  have hnames := map_ofList_toList names
  have hsplit := splitSlashes_slashed hne fun name hname => (h name hname).no_slash
  have hempty : p.text.isEmpty = false := String.isEmpty_eq_false_iff.2 hp
  unfold join front
  rw [isAbsolute_slashed hne h, hempty, Bool.false_or]
  by_cases hlast : p.text.toList.getLast? = some '/'
  · rw [if_neg Bool.false_ne_true, if_pos (beq_iff_eq.2 hlast), if_pos hlast]
    obtain ⟨habsolute, hbody⟩ := append_text hp (slashed names)
    refine ⟨habsolute, ?_⟩
    rw [segments_eq, segments_eq, hbody]
    rcases body_of_slash hlast with hnil | ⟨cs, hcs⟩
    · rw [hnil, List.nil_append, hsplit, hnames]
      rfl
    · rw [hcs, List.append_assoc, List.singleton_append, splitSlashes_append, splitSlashes_append,
        List.map_append, List.map_append, hsplit, hnames]
      simp [splitSlashes]
  · rw [if_neg Bool.false_ne_true, if_neg (by simpa using hlast), if_neg hlast, String.append_assoc]
    obtain ⟨habsolute, hbody⟩ := append_text hp ("/" ++ slashed names)
    refine ⟨habsolute, ?_⟩
    have hslash : ("/" ++ slashed names).toList = '/' :: (slashed names).toList :=
      String.toList_append
    rw [segments_eq, segments_eq, hbody, hslash, splitSlashes_append, List.map_append, hsplit,
      hnames]

end Path

/-! ## Paths that lead to trees -/

namespace FileSystem

variable {fs : FileSystem}

/-- Going along a path, segment by segment, ends at a tree. -/
def LeadsTo (fs : FileSystem) (p : Path) (t : Tree) : Prop :=
  ∃ place, fs.enterAll (fs.startOf p) p.segments = .ok place ∧ fs.nodeAt? place = some t

/-- A path leads to one tree. -/
theorem LeadsTo.unique {p : Path} {t u : Tree} (ht : fs.LeadsTo p t) (hu : fs.LeadsTo p u) :
    t = u := by
  obtain ⟨place, hplace, ht⟩ := ht
  obtain ⟨place', hplace', hu⟩ := hu
  cases hplace.symm.trans hplace'
  exact Option.some_inj.1 (ht.symm.trans hu)

theorem text_ne_of_checkPath {p : Path} (h : checkPath p = .ok ()) : p.text ≠ "" := by
  intro hempty
  unfold checkPath at h
  rw [hempty] at h
  cases h

theorem locate_eq_ok_iff {p : Path} {place : List String} :
    fs.locate p = .ok place
      ↔ checkPath p = .ok () ∧ fs.enterAll (fs.startOf p) p.segments = .ok place := by
  unfold locate
  cases checkPath p with
  | error cause => simp [bind, Except.bind]
  | ok => simp [bind, Except.bind]

theorem node?_eq (fs : FileSystem) (p : Path) :
    fs.node? p = (fs.locate p).toOption.bind fs.nodeAt? := by
  unfold node? node
  cases fs.locate p with
  | error cause => rfl
  | ok place =>
    dsimp only [bind, Except.bind]
    show _ = fs.nodeAt? place
    cases fs.nodeAt? place <;> rfl

/-- What stands at a path is what the path leads to. -/
theorem leadsTo_of_node? {p : Path} {t : Tree} (h : fs.node? p = some t) :
    p.text ≠ "" ∧ fs.LeadsTo p t := by
  rw [node?_eq, Option.bind_eq_some_iff] at h
  obtain ⟨place, hlocate, hnode⟩ := h
  obtain ⟨hcheck, hall⟩ := locate_eq_ok_iff.1 (eq_ok_of_toOption hlocate)
  exact ⟨text_ne_of_checkPath hcheck, place, hall, hnode⟩

theorem enterAll_append (place : List String) (segments more : List String) :
    fs.enterAll place (segments ++ more)
      = (fs.enterAll place segments).bind fun place => fs.enterAll place more := by
  induction segments generalizing place with
  | nil => rfl
  | cons segment segments ih =>
    rw [List.cons_append, enterAll, enterAll]
    cases fs.enter place segment with
    | error cause => rfl
    | ok place => exact ih place

/-- An empty segment leads nowhere else. -/
theorem eq_of_enter_empty {place place' : List String} (h : fs.enter place "" = .ok place') :
    place' = place := by
  unfold enter at h
  split at h
  · exact (Except.ok.inj h).symm
  · cases h
  · cases h

/-- A name of an entry leads to the entry. -/
theorem enter_name {place : List String} {entries : List (String × Tree)} {name : String}
    (hnode : fs.nodeAt? place = some (.directory entries)) (hname : Path.IsName name)
    (hentry : (entries.lookup name).isSome = true) : fs.enter place name = .ok (place ++ [name]) := by
  have hempty : name.isEmpty = false := String.isEmpty_eq_false_iff.2 hname.ne_empty
  unfold enter
  simp only [hnode, hempty, beq_false_of_ne hname.ne_dot, beq_false_of_ne hname.ne_dots, Bool.or_false,
    Bool.false_eq_true, if_false, if_neg (Nat.not_lt.2 hname.length_le), hentry, if_true]

/-- Names of entries lead from a directory to what stands below it. -/
theorem enterAll_names {place names : List String} {entries : List (String × Tree)} {t : Tree}
    (hnode : fs.nodeAt? place = some (.directory entries))
    (hnames : ∀ name ∈ names, Path.IsName name) (hbelow : Tree.below? names entries = some t) :
    fs.enterAll place names = .ok (place ++ names) ∧ fs.nodeAt? (place ++ names) = some t := by
  refine ⟨?_, (Tree.below?_append hnode names).trans hbelow⟩
  induction names generalizing place entries with
  | nil => rw [List.append_nil]; rfl
  | cons name names ih =>
    rw [List.forall_mem_cons] at hnames
    have hentry {u : Tree} (hlookup : entries.lookup name = some u) :
        fs.enter place name = .ok (place ++ [name]) ∧ fs.nodeAt? (place ++ [name]) = some u := by
      refine ⟨enter_name hnode hnames.1 (by rw [hlookup]; rfl), ?_⟩
      refine (Tree.below?_append hnode [name]).trans ?_
      rw [Tree.below?, hlookup]
      cases u <;> rfl
    rcases Tree.below?_cons_iff.1 hbelow with ⟨inner, hlookup, hrest⟩ | ⟨content, hlookup, rfl, _⟩
    · obtain ⟨henter, hplace⟩ := hentry hlookup
      rw [List.append_cons, enterAll, henter]
      exact ih hplace hnames.2 hrest
    · obtain ⟨henter, _⟩ := hentry hlookup
      rw [enterAll, henter]
      rfl

/-- Names behind the path of a directory lead on from the place of the directory. -/
theorem enterAll_join {p : Path} {place : List String} {entries : List (String × Tree)} (hp : p.text ≠ "")
    (hplace : fs.enterAll (fs.startOf p) p.segments = .ok place)
    (hnode : fs.nodeAt? place = some (.directory entries)) {names : List String} (hne : names ≠ [])
    (hnames : ∀ name ∈ names, Path.IsName name) {t : Tree} (hbelow : Tree.below? names entries = some t) :
    fs.enterAll (fs.startOf (p.join (Path.slashed names))) (p.join (Path.slashed names)).segments
      = .ok (place ++ names) := by
  obtain ⟨hall, _⟩ := enterAll_names hnode hnames hbelow
  obtain ⟨habsolute, hsegments⟩ := Path.segments_join hp hne hnames
  have hstart : fs.startOf (p.join (Path.slashed names)) = fs.startOf p := by
    unfold startOf
    rw [habsolute]
  rw [hstart, hsegments, enterAll_append]
  rcases p.segments_eq_front with hfront | hfront
  · rw [hfront] at hplace
    rw [hplace]
    exact hall
  · -- without the empty segment the path of the directory leads to the same place
    rw [hfront, enterAll_append] at hplace
    cases hbefore : fs.enterAll (fs.startOf p) p.front with
    | error cause =>
      rw [hbefore] at hplace
      cases hplace
    | ok before =>
      rw [hbefore] at hplace
      have hplace : fs.enterAll before [""] = .ok place := hplace
      rw [enterAll] at hplace
      cases hlast : fs.enter before "" with
      | error cause =>
        rw [hlast] at hplace
        cases hplace
      | ok last =>
        rw [hlast] at hplace
        cases hplace
        rw [eq_of_enter_empty hlast] at hall ⊢
        exact hall

/-- **Names behind the path of a directory lead on to what stands below it.** -/
theorem LeadsTo.join {p : Path} {entries : List (String × Tree)} (hp : p.text ≠ "")
    (h : fs.LeadsTo p (.directory entries)) {names : List String} (hne : names ≠ [])
    (hnames : ∀ name ∈ names, Path.IsName name) {t : Tree}
    (hbelow : Tree.below? names entries = some t) : fs.LeadsTo (p.join (Path.slashed names)) t := by
  obtain ⟨place, hplace, hnode⟩ := h
  refine ⟨place ++ names, enterAll_join hp hplace hnode hne hnames hbelow, ?_⟩
  exact (enterAll_names hnode hnames hbelow).2

end FileSystem

/-- What a search at a root comes to: nothing, the root itself, or files in it. -/
theorem Search.filesAt_cases (s : Search) (fs : FileSystem) (root : Path) :
    s.filesAt fs root = []
    ∨ (∃ content, fs.node? root = some (.file content)
      ∧ s.filesAt fs root = [{ path := root, content }])
    ∨ ∃ entries, fs.node? root = some (.directory entries)
      ∧ s.filesAt fs root = s.filesIn root (.directory entries) := by
  unfold filesAt
  cases hnode : fs.node? root with
  | none => exact Or.inl rfl
  | some t =>
    cases t with
    | file content =>
      dsimp only
      split
      · exact Or.inr (Or.inl ⟨content, rfl, rfl⟩)
      · exact Or.inl rfl
    | directory entries => exact Or.inr (Or.inr ⟨entries, rfl, rfl⟩)

/-- **The path of a file that was found leads to it.** -/
theorem Search.leadsTo_of_mem_files {fs : FileSystem} (hfs : fs.Proper) {s : Search}
    {roots : List Path} {f : SourceFile} (h : f ∈ s.files fs roots) :
    fs.LeadsTo f.path (.file f.content) := by
  obtain ⟨root, _, hf⟩ := List.mem_flatMap.1 h
  rcases s.filesAt_cases fs root with hnone | ⟨content, hnode, hfiles⟩ | ⟨entries, hnode, hfiles⟩
  · rw [hnone] at hf
    cases hf
  · rw [hfiles] at hf
    cases List.mem_singleton.1 hf
    exact (FileSystem.leadsTo_of_node? hnode).2
  · obtain ⟨htext, hroot⟩ := FileSystem.leadsTo_of_node? hnode
    rw [hfiles] at hf
    obtain ⟨⟨names, content⟩, hfile, hfound⟩ := List.mem_filterMap.1 hf
    have hproper : Tree.Proper (.directory entries) := by
      obtain ⟨place, _, hplace⟩ := hroot
      exact (Tree.proper_of_below? hfs hplace).2
    have hbelow := ((Tree.mem_files_iff hproper).1 hfile).1
    dsimp only at hfound
    split at hfound
    · cases hfound
      exact hroot.join htext (Tree.ne_nil_of_below? hbelow) (Tree.proper_of_below? hproper hbelow).1 hbelow
    · cases hfound

/-- A path stands for one file of a search. -/
theorem Search.eq_of_path_eq {fs : FileSystem} (hfs : fs.Proper) {s : Search} {roots : List Path}
    {f g : SourceFile} (hf : f ∈ s.files fs roots) (hg : g ∈ s.files fs roots)
    (hpath : f.path = g.path) : f = g := by
  have hleads := leadsTo_of_mem_files hfs hf
  rw [hpath] at hleads
  have hcontent : f.content = g.content :=
    Tree.file.inj (hleads.unique (leadsTo_of_mem_files hfs hg))
  cases f
  cases g
  cases hpath
  cases hcontent
  rfl

end Conformance
