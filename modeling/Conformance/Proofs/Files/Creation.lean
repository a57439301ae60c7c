import Conformance.Proofs.Failure
import Conformance.Proofs.Files.Places

/-!
# `Proofs.Files.Creation`: directories and files that are made

Making a directory, and writing a file, opens one place: the segments before the last name lead to a
directory, and the name in it is free for what is made (`FileSystem.Opens`). Making all the directories
that a path needs takes many such steps and may stop at any of them. Whatever comes of it, what was there
is as it was, and all that was added are directories that the path comes by (`FileSystem.MadeRoom`,
`FileSystem.madeRoom_createDirectories`).

A path that leads somewhere only after that may lead to what was there all along. This takes two dots
behind the name of a directory that was missing (`FileSystem.MadeRoom.climbs`).
-/

namespace Conformance
namespace FileSystem

variable {fs fs' fs'' : FileSystem} {p q : Path} {segments : List String} {place : List String}
  {name : String} {t : Tree}

/-! ## One place -/

/-- The segments end with the name of an entry. Those before lead to a directory, and no directory has
the name in it. -/
structure Opens (fs : FileSystem) (p : Path) (segments place : List String) (name : String) : Prop where
  leads : ∃ front, segments = front ++ [name] ∧ fs.enterAll (fs.startOf p) front = .ok place
  isName : IsEntryName name
  directory : fs.occupant? place = some .directory
  free : fs.occupant? (place ++ [name]) ≠ some .directory

/-- The way begins in a directory. -/
theorem Opens.start (h : fs.Opens p segments place name) :
    fs.occupant? (fs.startOf p) = some .directory := by
  obtain ⟨front, _, hall⟩ := h.leads
  by_cases hfront : front = []
  · subst hfront
    cases hall
    exact h.directory
  · exact directory_of_enterAll hfront hall

theorem Opens.grows (h : fs.Opens p segments place name) (hleaf : t.IsLeaf) :
    Grows fs (fs.put place name t) :=
  grows_put hleaf h.directory h.free

theorem Opens.occupant?_put (h : fs.Opens p segments place name) (hleaf : t.IsLeaf) (q : List String) :
    (fs.put place name t).occupant? q
      = if q = place ++ [name] then some t.occupant else fs.occupant? q :=
  FileSystem.occupant?_put hleaf h.directory h.free q

/-- **Once the place is taken, the segments lead there.** -/
theorem Opens.enterAll (h : fs.Opens p segments place name) (hgrows : Grows fs fs')
    (htaken : (fs'.occupant? (place ++ [name])).isSome = true) :
    fs'.enterAll (fs'.startOf p) segments = .ok (place ++ [name]) := by
  obtain ⟨front, rfl, hall⟩ := h.leads
  rw [hgrows.startOf]
  refine enterAll_append_eq_ok_iff.2 ⟨place, hgrows.enterAll hall, ?_⟩
  rw [enterAll_singleton, enter_eq_ok_iff]
  exact ⟨hgrows.directory place h.directory, .down h.isName htaken⟩

theorem Opens.enterAll_put (h : fs.Opens p segments place name) (hleaf : t.IsLeaf) :
    (fs.put place name t).enterAll ((fs.put place name t).startOf p) segments = .ok (place ++ [name]) := by
  refine h.enterAll (h.grows hleaf) ?_
  rw [h.occupant?_put hleaf, if_pos rfl]
  rfl

/-- Without empty segments at the end, what is left are the segments up to one that is not empty. -/
theorem prefix_of_dropWhile {segments before : List String} {last : String}
    (h : segments.reverse.dropWhile String.isEmpty = last :: before) :
    last ≠ "" ∧ before.reverse ++ [last] <+: segments := by
  constructor
  · have hlast := List.head?_dropWhile_not String.isEmpty segments.reverse
    rw [h] at hlast
    exact String.isEmpty_eq_false_iff.1 hlast
  · have hsuffix := List.dropWhile_suffix (l := segments.reverse) String.isEmpty
    rwa [h, ← List.reverse_prefix, List.reverse_reverse, List.reverse_cons] at hsuffix

/-- The name in a directory that was looked up is what it opens, if there is no directory. -/
theorem opens_of_directoryAt {before : List String} {entries : List (String × Tree)}
    (hplace : fs.directoryAt p before = .ok (place, entries)) (hname : IsEntryName name)
    (hfree : ∀ inner, entries.lookup name ≠ some (.directory inner)) :
    fs.Opens p (before ++ [name]) place name
      ∧ fs.occupant? (place ++ [name]) = (entries.lookup name).map Tree.occupant := by
  unfold directoryAt at hplace
  obtain ⟨place', hall, hplace⟩ := exists_of_bind_ok hplace
  split at hplace
  · next entries' hnode =>
    cases hplace
    have hdirectory : fs.occupant? place = some .directory := by
      rw [occupant?_eq, hnode]
      rfl
    obtain ⟨entries', hnode', hentries⟩ := exists_entries hdirectory
    cases hnode.symm.trans hnode'
    refine ⟨⟨⟨before, rfl, hall⟩, hname, hdirectory, fun hname => ?_⟩, hentries name⟩
    rw [hentries, Option.map_eq_some_iff] at hname
    obtain ⟨t, hlookup, ht⟩ := hname
    cases t with
    | file content => cases ht
    | directory inner => exact hfree inner hlookup
  · cases hplace
  · cases hplace

/-- **A directory that was made** stands at one place, which was free. -/
theorem createDirectory_ok (h : fs.createDirectory p = .ok fs') :
    ∃ segments place name, segments <+: p.segments ∧ fs.Opens p segments place name
      ∧ fs.occupant? (place ++ [name]) = none ∧ fs' = fs.put place name (.directory []) := by
  unfold createDirectory at h
  obtain ⟨_, _, h⟩ := exists_of_bind_ok h
  split at h
  · cases h
  · next last before hlast =>
    obtain ⟨hne, hbegins⟩ := prefix_of_dropWhile hlast
    obtain ⟨⟨place, entries⟩, hplace, h⟩ := exists_of_bind_ok h
    dsimp only at h
    split at h
    · cases h
    · next hdots =>
      split at h
      · cases h
      · next hlength =>
        split at h
        · cases h
        · next hentry =>
          cases h
          rw [Bool.or_eq_true, not_or, beq_iff_eq, beq_iff_eq] at hdots
          rw [Option.isSome_iff_ne_none, not_not] at hentry
          have hname : IsEntryName last := ⟨hne, hdots.1, hdots.2, Nat.not_lt.1 hlength⟩
          obtain ⟨hopens, hoccupant⟩ := opens_of_directoryAt hplace hname (by simp [hentry])
          rw [hentry] at hoccupant
          exact ⟨_, place, last, hbegins, hopens, hoccupant, rfl⟩

/-- **A file that was written** stands at one place, where no directory was. The path leads there. -/
theorem writeFile_ok {content : ByteArray} (h : fs.writeFile p content = .ok fs') :
    checkPath p = .ok () ∧ ∃ place name, fs.Opens p p.segments place name
      ∧ fs' = fs.put place name (.file content) := by
  unfold writeFile at h
  obtain ⟨⟨⟩, hcheck, h⟩ := exists_of_bind_ok h
  refine ⟨hcheck, ?_⟩
  dsimp only at h
  split at h
  · cases h
  · next last before hlast =>
    obtain ⟨⟨place, entries⟩, hplace, h⟩ := exists_of_bind_ok h
    dsimp only at h
    split at h
    · cases h
    · next hdots =>
      split at h
      · cases h
      · next hlength =>
        split at h
        · cases h
        · next hentry =>
          cases h
          simp only [Bool.or_eq_true, not_or, beq_iff_eq] at hdots
          obtain ⟨⟨hend, hdot⟩, hup⟩ := hdots
          -- the last segment is not empty, so it is the name
          have hsegments : before.reverse ++ [last] = p.segments := by
            cases hreversed : p.segments.reverse with
            | nil =>
              rw [hreversed] at hlast
              cases hlast
            | cons s rest =>
              rw [hreversed, List.head?_cons, Option.some_inj] at hend
              rw [hreversed, List.dropWhile_cons_of_neg (by simpa using hend)] at hlast
              rw [← List.reverse_cons, ← hlast, ← hreversed, List.reverse_reverse]
          have hname : IsEntryName last :=
            ⟨(prefix_of_dropWhile hlast).1, hdot, hup, Nat.not_lt.1 hlength⟩
          have hopens := (opens_of_directoryAt hplace hname hentry).1
          rw [hsegments] at hopens
          exact ⟨place, last, hopens, rfl⟩

/-! ## Room for a path -/

/-- **What making directories for a path comes to.** Everything stays as it was, and all that is new are
directories that the path comes by. -/
structure MadeRoom (p : Path) (fs fs' : FileSystem) : Prop where
  workingDirectory : fs'.workingDirectory = fs.workingDirectory
  kept : ∀ place o, fs.occupant? place = some o → fs'.occupant? place = some o
  added : ∀ place o, fs.occupant? place = none → fs'.occupant? place = some o →
    o = .directory ∧ fs'.Passes p place
  /-- Nothing is made unless the path starts in a directory. -/
  start : fs' = fs ∨ fs.occupant? (fs.startOf p) = some .directory

namespace MadeRoom

theorem refl (p : Path) (fs : FileSystem) : MadeRoom p fs fs where
  workingDirectory := rfl
  kept _ _ h := h
  added _ _ hfree h := by
    rw [hfree] at h
    cases h
  start := Or.inl rfl

theorem grows (h : MadeRoom p fs fs') : Grows fs fs' where
  workingDirectory := h.workingDirectory
  directory place := h.kept place .directory
  occupied place hplace := by
    obtain ⟨o, ho⟩ := Option.isSome_iff_exists.1 hplace
    rw [h.kept place o ho]
    rfl

theorem trans (h : MadeRoom p fs fs') (h' : MadeRoom p fs' fs'') : MadeRoom p fs fs'' where
  workingDirectory := h'.workingDirectory.trans h.workingDirectory
  kept place o ho := h'.kept place o (h.kept place o ho)
  added place o hfree ho := by
    cases hmid : fs'.occupant? place with
    | none => exact h'.added place o hmid ho
    | some o' =>
      obtain ⟨hdirectory, hpasses⟩ := h.added place o' hfree hmid
      rw [h'.kept place o' hmid, Option.some_inj] at ho
      exact ⟨ho.symm.trans hdirectory, h'.grows.passes hpasses⟩
  start := by
    rcases h.start with rfl | hstart
    · exact h'.start
    · exact Or.inr hstart

/-- Room for a path is room for those on whose way it is. -/
theorem of_onWay (h : MadeRoom q fs fs') (hway : q.OnWay p) : MadeRoom p fs fs' where
  workingDirectory := h.workingDirectory
  kept := h.kept
  added place o hfree ho := (h.added place o hfree ho).imp_right hway.passes
  start := by
    rw [← hway.startOf]
    exact h.start

end MadeRoom

/-- One directory. -/
theorem madeRoom_createDirectory (h : fs.createDirectory p = .ok fs') : MadeRoom p fs fs' := by
  obtain ⟨segments, place, name, hbegins, hopens, hnone, rfl⟩ := createDirectory_ok h
  have hleaf : (Tree.directory []).IsLeaf := rfl
  refine ⟨rfl, fun q o ho => ?_, fun q o hfree ho => ?_, Or.inr hopens.start⟩
  · rw [hopens.occupant?_put hleaf, if_neg, ho]
    rintro rfl
    rw [hnone] at ho
    cases ho
  · rw [hopens.occupant?_put hleaf] at ho
    split at ho
    · next hq =>
      subst hq
      exact ⟨(Option.some.inj ho).symm, segments, hbegins, hopens.enterAll_put hleaf⟩
    · rw [hfree] at ho
      cases ho

/-- At most one directory is made while the missing ones are found. -/
theorem madeRoom_createMissing (fs : FileSystem) (missing : List Path) {ps : List Path}
    (hps : ∀ q ∈ ps, q.OnWay p) :
    MadeRoom p fs (fs.createMissing missing ps).1.files
      ∧ ∀ q ∈ (fs.createMissing missing ps).2, q ∈ missing ∨ q ∈ ps := by
  induction ps generalizing missing with
  | nil => exact ⟨.refl p fs, fun q hq => Or.inl hq⟩
  | cons r ps ih =>
    rw [List.forall_mem_cons] at hps
    rw [createMissing]
    split
    · exact ⟨.refl p fs, fun q hq => Or.inl hq⟩
    · split
      · next fs' hmade =>
        exact ⟨(madeRoom_createDirectory hmade).of_onWay hps.1, fun q hq => Or.inl hq⟩
      · -- the directory is remembered, and its own parent comes next
        obtain ⟨hroom, hmissing⟩ := ih (r :: missing) hps.2
        refine ⟨hroom, fun q hq => ?_⟩
        rcases hmissing q hq with hq | hq
        · rcases List.mem_cons.1 hq with rfl | hq
          · exact Or.inr List.mem_cons_self
          · exact Or.inl hq
        · exact Or.inr (List.mem_cons_of_mem r hq)
      · split
        · exact ⟨.refl p fs, fun q hq => Or.inl hq⟩
        · exact ⟨.refl p fs, fun q hq => Or.inl hq⟩

theorem madeRoom_createInOrder {ps : List Path} (hps : ∀ q ∈ ps, q.OnWay p) :
    MadeRoom p fs (fs.createInOrder ps).files := by
  induction ps generalizing fs with
  | nil => exact .refl p fs
  | cons r ps ih =>
    rw [List.forall_mem_cons] at hps
    rw [createInOrder]
    split
    · next fs' hmade => exact ((madeRoom_createDirectory hmade).of_onWay hps.1).trans (ih hps.2)
    · split
      · exact ih hps.2
      · exact .refl p fs

/-- **A directory and all its ancestors**, or as many of them as could be made. -/
theorem madeRoom_createDirectories (hway : q.OnWay p) :
    MadeRoom p fs (fs.createDirectories q).files := by
  have hancestors : ∀ r ∈ q.ancestors, r.OnWay p := fun r hr => (Path.OnWay.of_mem_ancestors hr).trans hway
  obtain ⟨hroom, hmissing⟩ := madeRoom_createMissing fs [] hancestors
  unfold createDirectories
  split
  · next fs' missing hfound =>
    rw [hfound] at hroom hmissing
    refine hroom.trans (madeRoom_createInOrder fun r hr => ?_)
    exact hancestors r ((hmissing r hr).resolve_left List.not_mem_nil)
  · next failed missing _ hfound =>
    rw [hfound] at hroom
    exact hroom

/-! ## Where a path leads only afterwards -/

/-- Where the ways of some segments part: a name is missing in one file system. -/
theorem exists_missing {start : List String}
    (hkept : ∀ place content, fs.occupant? place = some (.file content) →
      fs'.occupant? place = some (.file content))
    (hstart : (fs.occupant? start).isSome = true) (h : fs'.enterAll start segments = .ok place)
    (hno : ∀ r, fs.enterAll start segments ≠ .ok r) :
    ∃ front name rest mid, segments = front ++ name :: rest ∧ IsEntryName name
      ∧ fs.enterAll start front = .ok mid ∧ fs.occupant? mid = some .directory
      ∧ fs.occupant? (mid ++ [name]) = none ∧ fs'.enterAll (mid ++ [name]) rest = .ok place := by
  induction segments generalizing start with
  | nil => exact absurd rfl (hno start)
  | cons segment segments ih =>
    obtain ⟨mid, henter, hrest⟩ := enterAll_cons_eq_ok_iff.1 h
    by_cases hsame : fs.enter start segment = .ok mid
    · have hno' : ∀ r, fs.enterAll mid segments ≠ .ok r := fun r hr =>
        hno r (enterAll_cons_eq_ok_iff.2 ⟨mid, hsame, hr⟩)
      obtain ⟨front, name, rest, mid', rfl, hname, hfront, hfound⟩ :=
        ih (occupied_of_enter hsame) hrest hno'
      exact ⟨segment :: front, name, rest, mid', rfl, hname,
        enterAll_cons_eq_ok_iff.2 ⟨mid, hsame, hfront⟩, hfound⟩
    · -- the start is a directory before, or no segment would lead on from it now
      obtain ⟨hdirectory', henters⟩ := enter_eq_ok_iff.1 henter
      have hdirectory : fs.occupant? start = some .directory := by
        obtain ⟨o, ho⟩ := Option.isSome_iff_exists.1 hstart
        cases o with
        | directory => exact ho
        | file content =>
          rw [hkept start content ho] at hdirectory'
          cases hdirectory'
      cases henters with
      | stay hsegment => exact absurd (enter_eq_ok_iff.2 ⟨hdirectory, .stay hsegment⟩) hsame
      | up => exact absurd (enter_eq_ok_iff.2 ⟨hdirectory, .up⟩) hsame
      | down hname hentry =>
        have hnone : fs.occupant? (start ++ [segment]) = none := by
          rw [← Option.not_isSome_iff_eq_none]
          exact fun hold => hsame (enter_eq_ok_iff.2 ⟨hdirectory, .down hname hold⟩)
        exact ⟨[], segment, segments, start, rfl, hname, rfl, hdirectory, hnone, hrest⟩

/-- The path comes to a directory in which the next name is missing, and goes up later on. -/
def ClimbsFromMissing (fs : FileSystem) (p : Path) : Prop :=
  ∃ front name rest place, p.segments = front ++ name :: rest ∧ IsEntryName name
    ∧ fs.enterAll (fs.startOf p) front = .ok place ∧ fs.occupant? place = some .directory
    ∧ fs.occupant? (place ++ [name]) = none ∧ ".." ∈ rest

/-- **A path that leads to an old place only since there is room for it** goes up again behind a directory
that was missing. -/
theorem MadeRoom.climbs (h : MadeRoom p fs fs')
    (hleads : fs'.enterAll (fs'.startOf p) p.segments = .ok place)
    (hno : ∀ r, fs.enterAll (fs.startOf p) p.segments ≠ .ok r)
    (hold : (fs.occupant? place).isSome = true) : fs.ClimbsFromMissing p := by
  rw [h.grows.startOf] at hleads
  have hstart : (fs.occupant? (fs.startOf p)).isSome = true := by
    rcases h.start with rfl | hstart
    · exact absurd hleads (hno place)
    · rw [hstart]
      rfl
  obtain ⟨front, name, rest, mid, hsegments, hname, hfront, hdirectory, hnone, hrest⟩ :=
    exists_missing (fun q content => h.kept q (.file content)) hstart hleads hno
  refine ⟨front, name, rest, mid, hsegments, hname, hfront, hdirectory, hnone, ?_⟩
  by_contra hdots
  have hoccupied := occupied_of_prefix (prefix_of_enterAll hrest hdots) hold
  rw [hnone] at hoccupied
  cases hoccupied

end FileSystem
end Conformance
