import Conformance.Proofs.Files.Resolution

/-!
# `Proofs.Files.Places`: what stands at which place

A file system is seen here as a map from places to what occupies them: a file with its content, or a
directory. Putting a file or an empty directory where no directory stands changes this map at one place
(`FileSystem.occupant?_put`), whatever else the tree holds. A path that leads somewhere still leads there
when a file system grows (`FileSystem.Grows.enterAll`), and it comes by all the places that its parent
comes by (`Path.OnWay.of_parent?`).

No directory has to be proper for this: a look-up reads the first entry of a name, and that is the one a
change replaces.
-/

namespace Conformance

/-- What stands at a place, without what is below it. -/
inductive Occupant where
  | file (content : ByteArray)
  | directory

namespace Tree

/-- What a tree shows at its place. -/
def occupant : Tree → Occupant
  | file content => .file content
  | directory _ => .directory

/-- Nothing is below the tree. -/
def IsLeaf : Tree → Prop
  | file _ => True
  | directory entries => entries = []

/-! ## Entries of a changed directory -/

theorem lookup_setEntry (name : String) (t : Tree) (entries : List (String × Tree)) (other : String) :
    (setEntry name t entries).lookup other = if other = name then some t else entries.lookup other := by
  induction entries with
  | nil =>
    by_cases h : other = name
    · subst h
      rw [setEntry, List.lookup_cons_self, if_pos rfl]
    · rw [setEntry, Table.lookup_cons_of_ne h, if_neg h]
  | cons e entries ih =>
    obtain ⟨n, u⟩ := e
    rw [setEntry]
    by_cases hother : other = name
    · subst hother
      rw [if_pos rfl] at ih ⊢
      split
      · exact List.lookup_cons_self
      · next hn =>
        split
        · exact List.lookup_cons_self
        · rw [Table.lookup_cons_of_ne hn, ih]
    · rw [if_neg hother] at ih ⊢
      split
      · next hn =>
        subst hn
        rw [Table.lookup_cons_of_ne hother, Table.lookup_cons_of_ne hother]
      · split
        · rw [Table.lookup_cons_of_ne hother]
        · by_cases hn : other = n
          · subst hn
            rw [List.lookup_cons_self, List.lookup_cons_self]
          · rw [Table.lookup_cons_of_ne hn, Table.lookup_cons_of_ne hn, ih]

/-- A change below one entry leaves the names as they are. -/
theorem lookup_changeBelow (f : List (String × Tree) → List (String × Tree)) (d : String)
    (place : List String) (entries : List (String × Tree)) (name : String) :
    (changeBelow f (d :: place) entries).lookup name
      = (entries.lookup name).map fun t =>
          match t with
          | directory inner =>
            if name = d then directory (changeBelow f place inner) else directory inner
          | file content => file content := by
  rw [changeBelow]
  induction entries with
  | nil => rfl
  | cons e entries ih =>
    obtain ⟨n, t⟩ := e
    by_cases hn : name = n
    · subst hn
      rw [List.map_cons, List.lookup_cons_self]
      cases t with
      | file content => exact List.lookup_cons_self
      | directory inner =>
        dsimp only [Option.map_some]
        split <;> exact List.lookup_cons_self
    · rw [List.map_cons, Table.lookup_cons_of_ne hn, ← ih]
      cases t with
      | file content => exact Table.lookup_cons_of_ne hn _ _
      | directory inner =>
        dsimp only
        split <;> exact Table.lookup_cons_of_ne hn _ _

/-! ## Places below a directory -/

/-- What occupies the place that some names lead to from a directory. -/
def occupantBelow? (names : List String) (entries : List (String × Tree)) : Option Occupant :=
  (below? names entries).map occupant

/-- What occupies the place that some names lead to from a tree. -/
def occupantIn? (names : List String) : Tree → Option Occupant
  | file content => if names = [] then some (.file content) else none
  | directory entries => occupantBelow? names entries

@[simp] theorem occupantIn?_nil (t : Tree) : t.occupantIn? [] = some t.occupant := by
  cases t <;> rfl

/-- Nothing is below a leaf. -/
theorem IsLeaf.occupantIn?_cons {t : Tree} (h : t.IsLeaf) (name : String) (names : List String) :
    t.occupantIn? (name :: names) = none := by
  cases t with
  | file content => rfl
  | directory entries =>
    cases h
    rfl

/-- Nothing is below what is no directory. -/
theorem occupantIn?_cons_of_ne {t : Tree} (h : t.occupant ≠ .directory) (name : String)
    (names : List String) : t.occupantIn? (name :: names) = none := by
  cases t with
  | file content => rfl
  | directory entries => exact absurd rfl h

theorem occupantBelow?_cons (name : String) (names : List String) (entries : List (String × Tree)) :
    occupantBelow? (name :: names) entries = (entries.lookup name).bind (occupantIn? names) := by
  unfold occupantBelow?
  rw [below?]
  cases entries.lookup name with
  | none => rfl
  | some t =>
    cases t with
    | directory inner => rfl
    | file content => cases names <;> rfl

/-- **A new leaf occupies its place, and no other place changes.** -/
theorem occupantBelow?_setEntry {t : Tree} (hleaf : t.IsLeaf) {name : String}
    {entries : List (String × Tree)} (hfree : occupantBelow? [name] entries ≠ some .directory)
    (q : List String) :
    occupantBelow? q (setEntry name t entries)
      = if q = [name] then some t.occupant else occupantBelow? q entries := by
  cases q with
  | nil => rfl
  | cons n q =>
    rw [occupantBelow?_cons, occupantBelow?_cons, lookup_setEntry]
    by_cases hn : n = name
    · subst hn
      rw [if_pos rfl, Option.bind_some]
      cases q with
      | nil => rw [if_pos rfl, occupantIn?_nil]
      | cons m q =>
        -- nothing was below the place, and nothing is below a leaf
        rw [if_neg (by simp), hleaf.occupantIn?_cons]
        rw [occupantBelow?_cons] at hfree
        cases hlookup : entries.lookup n with
        | none => rfl
        | some u =>
          rw [hlookup, Option.bind_some, occupantIn?_nil, ne_eq, Option.some_inj] at hfree
          rw [Option.bind_some, occupantIn?_cons_of_ne hfree]
    · rw [if_neg hn, if_neg (fun h => hn (List.cons.inj h).1)]

/-- The same in a directory below. -/
theorem occupantBelow?_changeBelow {t : Tree} (hleaf : t.IsLeaf) {name : String} {place : List String}
    {entries : List (String × Tree)} (hplace : occupantBelow? place entries = some .directory)
    (hfree : occupantBelow? (place ++ [name]) entries ≠ some .directory) (q : List String) :
    occupantBelow? q (changeBelow (setEntry name t) place entries)
      = if q = place ++ [name] then some t.occupant else occupantBelow? q entries := by
  induction place generalizing entries q with
  | nil => exact occupantBelow?_setEntry hleaf hfree q
  | cons d place ih =>
    cases q with
    | nil => rfl
    | cons n q =>
      rw [occupantBelow?_cons, occupantBelow?_cons, lookup_changeBelow, List.cons_append]
      by_cases hn : n = d
      · subst hn
        rw [occupantBelow?_cons] at hplace
        rw [List.cons_append, occupantBelow?_cons] at hfree
        cases hlookup : entries.lookup n with
        | none =>
          rw [hlookup] at hplace
          cases hplace
        | some u =>
          rw [hlookup, Option.bind_some] at hplace hfree
          cases u with
          | file content =>
            rw [occupantIn?] at hplace
            split at hplace <;> cases hplace
          | directory inner =>
            have hinner : occupantBelow? q (changeBelow (setEntry name t) place inner)
                = if q = place ++ [name] then some t.occupant else occupantBelow? q inner :=
              ih hplace hfree q
            simp only [Option.map_some, Option.bind_some, if_true, occupantIn?, hinner, List.cons.injEq,
              true_and]
      · rw [if_neg (fun h => hn (List.cons.inj h).1)]
        cases entries.lookup n with
        | none => rfl
        | some u =>
          cases u with
          | file content => rfl
          | directory inner => simp only [Option.map_some, if_neg hn]

/-- **Only a directory has something below it.** -/
theorem occupantBelow?_of_append {place rest : List String} {entries : List (String × Tree)}
    (hrest : rest ≠ []) (h : (occupantBelow? (place ++ rest) entries).isSome = true) :
    occupantBelow? place entries = some .directory := by
  induction place generalizing entries with
  | nil => rfl
  | cons d place ih =>
    rw [List.cons_append, occupantBelow?_cons] at h
    rw [occupantBelow?_cons]
    cases hlookup : entries.lookup d with
    | none =>
      rw [hlookup] at h
      cases h
    | some u =>
      rw [hlookup, Option.bind_some] at h
      cases u with
      | directory inner => exact ih h
      | file content =>
        have hne : place ++ rest ≠ [] := List.append_ne_nil_of_right_ne_nil place hrest
        rw [occupantIn?, if_neg hne] at h
        cases h

end Tree

namespace FileSystem

variable {fs fs' : FileSystem} {p : Path} {place place' : List String} {name segment : String}

/-- What occupies a place. -/
def occupant? (fs : FileSystem) (place : List String) : Option Occupant :=
  Tree.occupantBelow? place fs.root

theorem occupant?_eq (fs : FileSystem) (place : List String) :
    fs.occupant? place = (fs.nodeAt? place).map Tree.occupant := rfl

/-- **Putting a leaf where no directory stands changes one place.** -/
theorem occupant?_put {t : Tree} (hleaf : t.IsLeaf) (hplace : fs.occupant? place = some .directory)
    (hfree : fs.occupant? (place ++ [name]) ≠ some .directory) (q : List String) :
    (fs.put place name t).occupant? q
      = if q = place ++ [name] then some t.occupant else fs.occupant? q :=
  Tree.occupantBelow?_changeBelow hleaf hplace hfree q

/-- The places above an occupied one are directories. -/
theorem directory_of_occupied {rest : List String} (hrest : rest ≠ [])
    (h : (fs.occupant? (place ++ rest)).isSome = true) : fs.occupant? place = some .directory :=
  Tree.occupantBelow?_of_append hrest h

/-- The places above an occupied one are occupied. -/
theorem occupied_of_prefix (hbegins : place <+: place') (h : (fs.occupant? place').isSome = true) :
    (fs.occupant? place).isSome = true := by
  obtain ⟨rest, rfl⟩ := hbegins
  by_cases hrest : rest = []
  · rwa [hrest, List.append_nil] at h
  · rw [directory_of_occupied hrest h]
    rfl

theorem exists_entries (h : fs.occupant? place = some .directory) :
    ∃ entries, fs.nodeAt? place = some (.directory entries)
      ∧ ∀ name, fs.occupant? (place ++ [name]) = (entries.lookup name).map Tree.occupant := by
  rw [occupant?_eq, Option.map_eq_some_iff] at h
  obtain ⟨t, hnode, ht⟩ := h
  cases t with
  | file content => cases ht
  | directory entries =>
    refine ⟨entries, hnode, fun name => ?_⟩
    have hbelow : Tree.below? (place ++ [name]) fs.root = Tree.below? [name] entries :=
      Tree.below?_append hnode [name]
    unfold occupant? Tree.occupantBelow?
    rw [hbelow, Tree.below?]
    cases entries.lookup name with
    | none => rfl
    | some u => cases u <;> rfl

/-! ## Going along segments -/

/-- A segment that can only mean an entry of a directory, and may be its name. -/
structure IsEntryName (segment : String) : Prop where
  ne_empty : segment ≠ ""
  ne_dot : segment ≠ "."
  ne_dots : segment ≠ ".."
  length_le : segment.utf8ByteSize ≤ maxName

/-- Where a segment leads from a directory. -/
inductive Enters (fs : FileSystem) (place : List String) : String → List String → Prop
  | stay {segment : String} (h : segment = "" ∨ segment = ".") : Enters fs place segment place
  | up : Enters fs place ".." place.dropLast
  | down {name : String} (hname : IsEntryName name) (h : (fs.occupant? (place ++ [name])).isSome = true) :
      Enters fs place name (place ++ [name])

/-- **One segment**: it leads on from directories only. -/
theorem enter_eq_ok_iff :
    fs.enter place segment = .ok place'
      ↔ fs.occupant? place = some .directory ∧ fs.Enters place segment place' := by
  constructor
  · intro h
    unfold enter at h
    split at h
    · next entries hnode =>
      have hdirectory : fs.occupant? place = some .directory := by
        rw [occupant?_eq, hnode]
        rfl
      obtain ⟨entries', hnode', hentries⟩ := exists_entries hdirectory
      cases hnode.symm.trans hnode'
      refine ⟨hdirectory, ?_⟩
      split at h
      · next hstay =>
        cases h
        exact .stay (by simpa [String.isEmpty_iff] using hstay)
      · next hstay =>
        rw [Bool.or_eq_true, not_or, String.isEmpty_iff, beq_iff_eq] at hstay
        split at h
        · next hup =>
          cases h
          cases beq_iff_eq.1 hup
          exact .up
        · next hup =>
          split at h
          · cases h
          · next hlength =>
            split at h
            · next hentry =>
              cases h
              have hname : IsEntryName segment :=
                ⟨hstay.1, hstay.2, fun h => hup (beq_iff_eq.2 h), Nat.not_lt.1 hlength⟩
              exact .down hname (by rwa [hentries, Option.isSome_map])
            · cases h
    · cases h
    · cases h
  · rintro ⟨hdirectory, henters⟩
    obtain ⟨entries, hnode, hentries⟩ := exists_entries hdirectory
    unfold enter
    rw [hnode]
    dsimp only
    cases henters with
    | stay h => rw [if_pos (by simpa [String.isEmpty_iff] using h)]
    | up => rfl
    | down hname h =>
      have hstay : ¬ (segment.isEmpty || segment == ".") = true := by
        simp [String.isEmpty_iff, hname.ne_empty, hname.ne_dot]
      have hup : ¬ (segment == "..") = true := by simp [hname.ne_dots]
      rw [hentries, Option.isSome_map] at h
      rw [if_neg hstay, if_neg hup, if_neg (Nat.not_lt.2 hname.length_le), if_pos h]

theorem enterAll_cons_eq_ok_iff {segments : List String} :
    fs.enterAll place (segment :: segments) = .ok place'
      ↔ ∃ mid, fs.enter place segment = .ok mid ∧ fs.enterAll mid segments = .ok place' := by
  rw [enterAll]
  cases fs.enter place segment with
  | error cause => simp
  | ok mid => simp

theorem enterAll_append_eq_ok_iff {segments more : List String} :
    fs.enterAll place (segments ++ more) = .ok place'
      ↔ ∃ mid, fs.enterAll place segments = .ok mid ∧ fs.enterAll mid more = .ok place' := by
  rw [enterAll_append]
  cases fs.enterAll place segments with
  | error cause => simp [Except.bind]
  | ok mid => simp [Except.bind]

theorem enterAll_singleton : fs.enterAll place [segment] = fs.enter place segment := by
  rw [enterAll]
  cases fs.enter place segment <;> rfl

/-- A segment leads to an occupied place. -/
theorem occupied_of_enter (h : fs.enter place segment = .ok place') :
    (fs.occupant? place').isSome = true := by
  obtain ⟨hdirectory, henters⟩ := enter_eq_ok_iff.1 h
  have hplace : (fs.occupant? place).isSome = true := by
    rw [hdirectory]
    rfl
  cases henters with
  | stay => exact hplace
  | up => exact occupied_of_prefix place.dropLast_prefix hplace
  | down _ hentry => exact hentry

/-- Segments lead from a directory, if there are any. -/
theorem directory_of_enterAll {segments : List String} (hne : segments ≠ [])
    (h : fs.enterAll place segments = .ok place') : fs.occupant? place = some .directory := by
  cases segments with
  | nil => exact absurd rfl hne
  | cons segment segments =>
    obtain ⟨mid, henter, _⟩ := enterAll_cons_eq_ok_iff.1 h
    exact (enter_eq_ok_iff.1 henter).1

/-- Segments lead from an occupied place to an occupied one. -/
theorem occupied_of_enterAll {segments : List String} (h : fs.enterAll place segments = .ok place')
    (hplace : (fs.occupant? place).isSome = true) : (fs.occupant? place').isSome = true := by
  induction segments generalizing place with
  | nil =>
    cases h
    exact hplace
  | cons segment segments ih =>
    obtain ⟨mid, henter, hrest⟩ := enterAll_cons_eq_ok_iff.1 h
    exact ih hrest (occupied_of_enter henter)

/-- Without two dots segments only lead further down. -/
theorem prefix_of_enterAll {segments : List String} (h : fs.enterAll place segments = .ok place')
    (hdots : ".." ∉ segments) : place <+: place' := by
  induction segments generalizing place with
  | nil =>
    cases h
    exact List.prefix_rfl
  | cons segment segments ih =>
    rw [List.mem_cons, not_or] at hdots
    obtain ⟨mid, henter, hrest⟩ := enterAll_cons_eq_ok_iff.1 h
    refine List.IsPrefix.trans ?_ (ih hrest hdots.2)
    cases (enter_eq_ok_iff.1 henter).2 with
    | stay => exact List.prefix_rfl
    | up => exact absurd rfl hdots.1
    | down => exact List.prefix_append place _

/-- Something stands at a path if and only if the path leads somewhere. -/
theorem has_eq_true_iff : fs.has p = true ↔ ∃ place, fs.locate p = .ok place := by
  unfold has
  rw [node?_eq]
  cases hlocate : fs.locate p with
  | error cause => simp [Except.toOption]
  | ok place =>
    obtain ⟨_, hall⟩ := locate_eq_ok_iff.1 hlocate
    have hstart : (fs.occupant? (fs.startOf p)).isSome = true := by
      rw [directory_of_enterAll p.segments_ne_nil hall]
      rfl
    have hoccupied := occupied_of_enterAll hall hstart
    rw [occupant?_eq, Option.isSome_map] at hoccupied
    exact ⟨fun _ => ⟨place, rfl⟩, fun _ => hoccupied⟩

/-! ## File systems that grow -/

/-- Directories stay directories and no place becomes free. What a file holds may change. -/
structure Grows (fs fs' : FileSystem) : Prop where
  workingDirectory : fs'.workingDirectory = fs.workingDirectory
  directory : ∀ place, fs.occupant? place = some .directory → fs'.occupant? place = some .directory
  occupied : ∀ place, (fs.occupant? place).isSome = true → (fs'.occupant? place).isSome = true

theorem Grows.refl (fs : FileSystem) : Grows fs fs := ⟨rfl, fun _ => id, fun _ => id⟩

theorem Grows.startOf (h : Grows fs fs') (p : Path) : fs'.startOf p = fs.startOf p := by
  unfold FileSystem.startOf
  rw [h.workingDirectory]

theorem Grows.enter (h : Grows fs fs') (henter : fs.enter place segment = .ok place') :
    fs'.enter place segment = .ok place' := by
  rw [enter_eq_ok_iff] at henter ⊢
  refine ⟨h.directory place henter.1, ?_⟩
  cases henter.2 with
  | stay hsegment => exact .stay hsegment
  | up => exact .up
  | down hname hentry => exact .down hname (h.occupied _ hentry)

/-- **Where segments lead, they still lead when a file system has grown.** -/
theorem Grows.enterAll (h : Grows fs fs') {segments : List String}
    (hall : fs.enterAll place segments = .ok place') : fs'.enterAll place segments = .ok place' := by
  induction segments generalizing place with
  | nil => exact hall
  | cons segment segments ih =>
    obtain ⟨mid, henter, hrest⟩ := enterAll_cons_eq_ok_iff.1 hall
    exact enterAll_cons_eq_ok_iff.2 ⟨mid, h.enter henter, ih hrest⟩

/-- A leaf that is put where no directory stands makes a file system grow. -/
theorem grows_put {t : Tree} (hleaf : t.IsLeaf) (hplace : fs.occupant? place = some .directory)
    (hfree : fs.occupant? (place ++ [name]) ≠ some .directory) : Grows fs (fs.put place name t) where
  workingDirectory := rfl
  directory q hq := by
    rw [occupant?_put hleaf hplace hfree, if_neg, hq]
    rintro rfl
    exact hfree hq
  occupied q hq := by
    rw [occupant?_put hleaf hplace hfree]
    split
    · rfl
    · exact hq

/-! ## Places that a path comes by -/

/-- The path comes by the place: its segments up to somewhere lead there. -/
def Passes (fs : FileSystem) (p : Path) (place : List String) : Prop :=
  ∃ front, front <+: p.segments ∧ fs.enterAll (fs.startOf p) front = .ok place

theorem Grows.passes (h : Grows fs fs') (hplace : fs.Passes p place) : fs'.Passes p place := by
  obtain ⟨front, hfront, hall⟩ := hplace
  refine ⟨front, hfront, ?_⟩
  rw [h.startOf]
  exact h.enterAll hall

end FileSystem

/-! ## Parents -/

namespace Path

theorem no_slash_of_mem_splitSlashes {cs segment : List Char} (h : segment ∈ splitSlashes cs) :
    '/' ∉ segment := by
  induction cs generalizing segment with
  | nil =>
    cases List.mem_singleton.1 h
    simp
  | cons c cs ih =>
    by_cases hc : c = '/'
    · subst hc
      rcases List.mem_cons.1 h with rfl | h
      · simp
      · exact ih h
    · obtain ⟨first, rest, hsplit⟩ := exists_splitSlashes cs
      rw [splitSlashes_cons hc hsplit] at h
      rw [hsplit] at ih
      rcases List.mem_cons.1 h with rfl | h
      · rw [List.mem_cons, not_or]
        exact ⟨Ne.symm hc, ih List.mem_cons_self⟩
      · exact ih (List.mem_cons_of_mem _ h)

theorem no_slash_of_mem_segments {p : Path} {segment : String} (h : segment ∈ p.segments) :
    '/' ∉ segment.toList := by
  obtain ⟨cs, hcs, rfl⟩ := List.mem_map.1 h
  rw [String.toList_ofList]
  exact no_slash_of_mem_splitSlashes hcs

/-- A relative path that is not empty starts with a segment that is not empty. -/
theorem head?_segments {p : Path} (hp : p.isAbsolute = false) (htext : p.text ≠ "") :
    p.segments.head? ≠ some "" := by
  have hbody : p.body = p.text.toList := by
    unfold body
    rw [hp, if_neg Bool.false_ne_true]
  rw [segments_eq, hbody]
  unfold isAbsolute at hp
  cases hcs : p.text.toList with
  | nil => exact absurd (String.toList_eq_nil_iff.1 hcs) htext
  | cons c cs =>
    rw [hcs] at hp
    have hc : c ≠ '/' := by simpa using hp
    obtain ⟨first, rest, hsplit⟩ := exists_splitSlashes cs
    rw [splitSlashes_cons hc hsplit]
    simp

theorem trimReversed_suffix (absolute : Bool) (segments : List String) :
    trimReversed absolute segments <:+ segments := by
  induction segments with
  | nil => exact List.suffix_rfl
  | cons s rest ih =>
    rw [trimReversed]
    split
    · exact ih.trans (List.suffix_cons s rest)
    · split
      · exact ih.trans (List.suffix_cons s rest)
      · exact List.suffix_rfl

/-- **A parent has the first segments of the path**, or it is no more than where the path starts. -/
theorem segments_parent? {p q : Path} (h : p.parent? = some q) :
    q.isAbsolute = p.isAbsolute ∧ (q.segments <+: p.segments ∨ q.segments = [""]) := by
  have htext : p.text ≠ "" := by
    intro htext
    obtain ⟨text⟩ := p
    cases htext
    cases h
  unfold parent? at h
  split at h
  · cases h
  · next s rest hreversed =>
    obtain rfl := Option.some.inj h
    have hbegins : (trimReversed p.isAbsolute rest).reverse <+: p.segments := by
      have hsuffix : trimReversed p.isAbsolute rest <:+ p.segments.reverse := by
        refine (trimReversed_suffix _ rest).trans ((List.suffix_cons s rest).trans ?_)
        rw [← hreversed]
        exact trimReversed_suffix _ _
      rwa [← List.reverse_prefix, List.reverse_reverse] at hsuffix
    generalize (trimReversed p.isAbsolute rest).reverse = names at hbegins
    by_cases hne : names = []
    · subst hne
      cases p.isAbsolute with
      | false => exact ⟨by decide, Or.inr (by decide)⟩
      | true => exact ⟨by decide, Or.inr (by decide)⟩
    · have hslash : ∀ name ∈ names, '/' ∉ name.toList := fun name hname =>
        no_slash_of_mem_segments (hbegins.subset hname)
      have hsegments : (splitSlashes (slashed names).toList).map String.ofList = names := by
        rw [splitSlashes_slashed hne hslash, map_ofList_toList]
      cases habsolute : p.isAbsolute with
      | false =>
        have hrelative : (⟨slashed names⟩ : Path).isAbsolute = false := by
          refine isAbsolute_slashed_of_head hne hslash fun hhead => ?_
          rw [← List.singleton_prefix_iff_head?_eq_some] at hhead
          exact head?_segments habsolute htext
            (List.singleton_prefix_iff_head?_eq_some.1 (hhead.trans hbegins))
        refine ⟨hrelative, Or.inl ?_⟩
        rw [if_neg Bool.false_ne_true, segments_eq, body, hrelative, if_neg Bool.false_ne_true, hsegments]
        exact hbegins
      | true =>
        have hslashed : ("/" ++ slashed names).toList = '/' :: (slashed names).toList :=
          String.toList_append
        have hrooted : (⟨"/" ++ slashed names⟩ : Path).isAbsolute = true := by
          unfold isAbsolute
          rw [hslashed]
          rfl
        refine ⟨hrooted, Or.inl ?_⟩
        rw [if_pos rfl, segments_eq, body, hrooted, if_pos rfl, hslashed, List.drop_one, List.tail_cons,
          hsegments]
        exact hbegins

/-! ### The way of a path -/

/-- The path `p` comes by every place that `q` comes by. -/
structure OnWay (q p : Path) : Prop where
  isAbsolute : q.isAbsolute = p.isAbsolute
  passes : ∀ {fs : FileSystem} {place : List String}, fs.Passes q place → fs.Passes p place

namespace OnWay

variable {p q r : Path}

theorem refl (p : Path) : OnWay p p := ⟨rfl, id⟩

theorem trans (h : OnWay r q) (h' : OnWay q p) : OnWay r p :=
  ⟨h.isAbsolute.trans h'.isAbsolute, fun hr => h'.passes (h.passes hr)⟩

theorem startOf (h : OnWay q p) (fs : FileSystem) : fs.startOf q = fs.startOf p := by
  unfold FileSystem.startOf
  rw [h.isAbsolute]

/-- **A parent is on the way.** -/
theorem of_parent? (h : p.parent? = some q) : OnWay q p := by
  obtain ⟨habsolute, hsegments⟩ := segments_parent? h
  refine ⟨habsolute, ?_⟩
  rintro fs place ⟨front, hfront, hall⟩
  have hstart : fs.startOf q = fs.startOf p := by
    unfold FileSystem.startOf
    rw [habsolute]
  rw [hstart] at hall
  rcases hsegments with hbegins | hempty
  · exact ⟨front, hfront.trans hbegins, hall⟩
  · -- the parent stands for the start, where an empty segment stays
    refine ⟨[], List.nil_prefix, ?_⟩
    rw [hempty] at hfront
    rcases List.prefix_cons_iff.1 hfront with rfl | ⟨front, rfl, hnil⟩
    · exact hall
    · rw [List.prefix_nil] at hnil
      subst hnil
      rw [FileSystem.enterAll_singleton] at hall
      rw [FileSystem.eq_of_enter_empty hall]
      rfl

theorem of_mem_ancestorsUpTo {fuel : Nat} (h : q ∈ ancestorsUpTo fuel p) : OnWay q p := by
  induction fuel generalizing p with
  | zero =>
    cases List.mem_singleton.1 h
    exact refl q
  | succ fuel ih =>
    rw [ancestorsUpTo] at h
    split at h
    · next parent hparent =>
      rcases List.mem_cons.1 h with rfl | h
      · exact refl q
      · exact (ih h).trans (of_parent? hparent)
    · cases List.mem_singleton.1 h
      exact refl q

/-- Ancestors are on the way. -/
theorem of_mem_ancestors (h : q ∈ p.ancestors) : OnWay q p := of_mem_ancestorsUpTo h

end OnWay
end Path
end Conformance
