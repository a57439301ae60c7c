import Conformance.Command.Run
import Conformance.Proofs.Files.Creation

/-!
# `Proofs.Command.Init`: what writing a contract leaves alone

A contract is written to a path at which nothing stands. Every way in which this can end is one case of
`Initialized`, with the files as they are left: unchanged if nothing was attempted, with more directories
if it failed halfway (`FileSystem.MadeRoom`), and with one file more if it succeeded (`Written`).

Whether something stands at the path is tested before its directories are made. The path may come to lead
to an older file by that: a run with the output `new/../keep.yaml` makes the directory `new` and then
writes over `keep.yaml` (`runInit_overwrites`). The main result, `runInit_frame`, says that this takes two
dots behind a directory that is missing, and that otherwise no run changes anything that was there.
-/

namespace Conformance
namespace Command

variable {fs fs' : FileSystem} {args : InitArguments} {p : Path} {content : ByteArray}

/-- **What a run that succeeded has changed.** The path leads to one file, with this content. Every other
place is as it was, or has a new directory that the path comes by. -/
structure Written (p : Path) (content : ByteArray) (place : List String) (fs fs' : FileSystem) :
    Prop where
  workingDirectory : fs'.workingDirectory = fs.workingDirectory
  locate : fs'.locate p = .ok place
  file : fs'.occupant? place = some (.file content)
  kept : ∀ q o, q ≠ place → fs.occupant? q = some o → fs'.occupant? q = some o
  added : ∀ q o, q ≠ place → fs.occupant? q = none → fs'.occupant? q = some o →
    o = .directory ∧ fs'.Passes p q
  /-- No directory was in the place of the file. -/
  notDirectory : fs.occupant? place ≠ some .directory
  /-- An older file was in its place only if the path led nowhere for want of a directory that it leaves
  again. -/
  replaced : (fs.occupant? place).isSome = true → fs.ClimbsFromMissing p

/-- **How a run can end.** -/
inductive Initialized (fs : FileSystem) (args : InitArguments) : FileSystem → Response → Prop
  | listed (hlist : args.list = true) :
      Initialized fs args fs { exitCode := exitSuccess, output := templateList }
  | unknown (hlist : args.list = false) (htemplate : Template.named? args.template = none) :
      Initialized fs args fs (refusal (InitFault.unknownTemplate args.template).message)
  | taken (hlist : args.list = false) (htaken : fs.has ⟨args.output⟩ = true) :
      Initialized fs args fs (refusal (InitFault.taken args.output).message)
  | failed {fs' : FileSystem} {t : Template} {fault : InitFault} (hlist : args.list = false)
      (htemplate : Template.named? args.template = some t) (hfree : fs.has ⟨args.output⟩ = false)
      (hroom : fs.MadeRoom ⟨args.output⟩ fs') :
      Initialized fs args fs' (refusal fault.message)
  | written {fs' : FileSystem} {t : Template} {place : List String} (hlist : args.list = false)
      (htemplate : Template.named? args.template = some t) (hfree : fs.has ⟨args.output⟩ = false)
      (hwritten : Written ⟨args.output⟩ t.content.toUTF8 place fs fs') :
      Initialized fs args fs' { exitCode := exitSuccess, output := createdText args.output t }

/-! ## The steps of a run -/

theorem madeRoom_makeRoom (fs : FileSystem) (p : Path) : FileSystem.MadeRoom p fs (makeRoom fs p).1 := by
  unfold makeRoom
  split
  · exact .refl p fs
  · next directory hparent =>
    exact FileSystem.madeRoom_createDirectories (.of_parent? (Option.filter_eq_some_iff.1 hparent).1)

/-- Once there is room, the file is all that is new. -/
theorem written_of_writeFile {room : FileSystem} (hfree : fs.has p = false)
    (hroom : FileSystem.MadeRoom p fs room) (h : room.writeFile p content = .ok fs') :
    ∃ place, Written p content place fs fs' := by
  obtain ⟨hcheck, place, name, hopens, rfl⟩ := FileSystem.writeFile_ok h
  have hleaf : (Tree.file content).IsLeaf := trivial
  have hgrows := hopens.grows hleaf
  refine ⟨place ++ [name], ?_⟩
  constructor
  case workingDirectory => exact hroom.workingDirectory
  case locate => exact FileSystem.locate_eq_ok_iff.2 ⟨hcheck, hopens.enterAll_put hleaf⟩
  case file =>
    rw [hopens.occupant?_put hleaf, if_pos rfl]
    rfl
  case kept =>
    intro q o hq ho
    rw [hopens.occupant?_put hleaf, if_neg hq]
    exact hroom.kept q o ho
  case added =>
    intro q o hq hnone ho
    rw [hopens.occupant?_put hleaf, if_neg hq] at ho
    exact (hroom.added q o hnone ho).imp_right hgrows.passes
  case notDirectory => exact fun hdirectory => hopens.free (hroom.kept _ _ hdirectory)
  case replaced =>
    intro hold
    -- the place was taken before the file was written, so the path led there as soon as there was room
    have hleads : room.enterAll (room.startOf p) p.segments = .ok (place ++ [name]) :=
      hopens.enterAll (.refl room) (hroom.grows.occupied _ hold)
    refine hroom.climbs hleads (fun r hr => ?_) hold
    have hhas : fs.has p = true :=
      FileSystem.has_eq_true_iff.2 ⟨r, FileSystem.locate_eq_ok_iff.2 ⟨hcheck, hr⟩⟩
    rw [hfree] at hhas
    cases hhas

theorem writeTemplate_cases (hfree : fs.has p = false) (t : Template) :
    (∃ fault, (writeTemplate fs p t).2 = .error fault ∧ FileSystem.MadeRoom p fs (writeTemplate fs p t).1)
      ∨ (writeTemplate fs p t).2 = .ok ()
        ∧ ∃ place, Written p t.content.toUTF8 place fs (writeTemplate fs p t).1 := by
  have hroom := madeRoom_makeRoom fs p
  unfold writeTemplate
  split
  · next room fault hmade =>
    rw [hmade] at hroom
    exact Or.inl ⟨fault, rfl, hroom⟩
  · next room hmade =>
    rw [hmade] at hroom
    split
    · next fs' hwritten => exact Or.inr ⟨rfl, written_of_writeFile hfree hroom hwritten⟩
    · exact Or.inl ⟨_, rfl, hroom⟩

theorem initialized_runInit (fs : FileSystem) (args : InitArguments) :
    Initialized fs args (runInit fs args).1 (runInit fs args).2 := by
  unfold runInit
  cases hlist : args.list with
  | true => exact .listed hlist
  | false =>
    unfold placeTemplate
    cases htemplate : Template.named? args.template with
    | none => exact .unknown hlist htemplate
    | some t =>
      cases hfree : fs.has ⟨args.output⟩ with
      | true => exact .taken hlist hfree
      | false =>
        rcases writeTemplate_cases hfree t with ⟨fault, hresult, hroom⟩ | ⟨hresult, place, hwritten⟩
        · simp only [Bool.false_eq_true, if_false, hresult, Except.map]
          exact .failed hlist htemplate hfree hroom
        · simp only [Bool.false_eq_true, if_false, hresult, Except.map]
          exact .written hlist htemplate hfree hwritten

/-! ## What a run leaves alone -/

namespace Initialized

variable {r : Response}

theorem exitCode (h : Initialized fs args fs' r) : r.exitCode = 0 ∨ r.exitCode = 2 := by
  cases h with
  | listed | written => exact Or.inl rfl
  | unknown | taken | failed => exact Or.inr rfl

/-- Whatever was there stays, unless the output leads there only afterwards. -/
theorem kept (h : Initialized fs args fs' r) (hclimbs : ¬ fs.ClimbsFromMissing ⟨args.output⟩)
    (place : List String) (o : Occupant) (ho : fs.occupant? place = some o) :
    fs'.occupant? place = some o := by
  cases h with
  | listed | unknown | taken => exact ho
  | failed _ _ _ hroom => exact hroom.kept place o ho
  | written _ _ _ hwritten =>
    refine hwritten.kept place o ?_ ho
    rintro rfl
    exact hclimbs (hwritten.replaced (by rw [ho]; rfl))

/-- To list the templates nothing is written. -/
theorem of_list (h : Initialized fs args fs' r) (hlist : args.list = true) :
    fs' = fs ∧ r.exitCode = 0 := by
  cases h with
  | listed => exact ⟨rfl, rfl⟩
  | unknown hlist' | taken hlist' | failed hlist' | written hlist' =>
    rw [hlist] at hlist'
    cases hlist'

/-- For no known template, and where something stands, nothing is attempted. -/
theorem of_refused (h : Initialized fs args fs' r) (hlist : args.list = false)
    (hrefused : Template.named? args.template = none ∨ fs.has ⟨args.output⟩ = true) :
    fs' = fs ∧ r.exitCode = 2 := by
  cases h with
  | listed hlist' =>
    rw [hlist] at hlist'
    cases hlist'
  | unknown | taken => exact ⟨rfl, rfl⟩
  | failed _ htemplate hfree | written _ htemplate hfree => simp [htemplate, hfree] at hrefused

/-- A run that fails halfway leaves no file behind. -/
theorem madeRoom (h : Initialized fs args fs' r) (hcode : r.exitCode = 2) :
    fs.MadeRoom ⟨args.output⟩ fs' := by
  cases h with
  | listed | written => cases hcode
  | unknown | taken => exact .refl _ fs
  | failed _ _ _ hroom => exact hroom

theorem exists_written (h : Initialized fs args fs' r) (hlist : args.list = false)
    (hcode : r.exitCode = 0) :
    ∃ t place, Template.named? args.template = some t
      ∧ Written ⟨args.output⟩ t.content.toUTF8 place fs fs' := by
  cases h with
  | listed hlist' =>
    rw [hlist] at hlist'
    cases hlist'
  | unknown | taken | failed => cases hcode
  | written _ htemplate _ hwritten => exact ⟨_, _, htemplate, hwritten⟩

end Initialized

/-- Where something stands, nothing is written. -/
theorem runInit_of_has (hlist : args.list = false) {t : Template}
    (htemplate : Template.named? args.template = some t) (htaken : fs.has ⟨args.output⟩ = true) :
    runInit fs args = (fs, refusal (InitFault.taken args.output).message) := by
  unfold runInit placeTemplate
  simp only [hlist, htemplate, htaken, Bool.false_eq_true, if_false, if_true]

/-- **What a run leaves alone**, for all files and arguments. It returns 0 or 2. What was there stays as it
was, except if the output goes up again behind a directory that is missing. With a list it returns 0, and
with an unknown template or something at the output it returns 2; no file and no directory changes then. If
the run returns 2, at most directories that the output comes by were made. If it returns 0 without a list,
the output leads to a file with the template in it, and all else that is new are directories that the output
comes by; the same run once more is then refused, and changes nothing. -/
theorem runInit_frame (fs : FileSystem) (args : InitArguments) :
    ((runInit fs args).2.exitCode = 0 ∨ (runInit fs args).2.exitCode = 2)
    ∧ (¬ fs.ClimbsFromMissing ⟨args.output⟩ → ∀ place o, fs.occupant? place = some o →
        (runInit fs args).1.occupant? place = some o)
    ∧ (args.list = true → (runInit fs args).1 = fs ∧ (runInit fs args).2.exitCode = 0)
    ∧ (args.list = false → Template.named? args.template = none ∨ fs.has ⟨args.output⟩ = true →
        (runInit fs args).1 = fs ∧ (runInit fs args).2.exitCode = 2)
    ∧ ((runInit fs args).2.exitCode = 2 → fs.MadeRoom ⟨args.output⟩ (runInit fs args).1)
    ∧ (args.list = false → (runInit fs args).2.exitCode = 0 →
        ∃ t place, Template.named? args.template = some t
          ∧ Written ⟨args.output⟩ t.content.toUTF8 place fs (runInit fs args).1
          ∧ runInit (runInit fs args).1 args
            = ((runInit fs args).1, refusal (InitFault.taken args.output).message)) := by
  have h := initialized_runInit fs args
  refine ⟨h.exitCode, h.kept, h.of_list, h.of_refused, h.madeRoom, fun hlist hcode => ?_⟩
  obtain ⟨t, place, htemplate, hwritten⟩ := h.exists_written hlist hcode
  have htaken : (runInit fs args).1.has ⟨args.output⟩ = true :=
    FileSystem.has_eq_true_iff.2 ⟨place, hwritten.locate⟩
  exact ⟨t, place, htemplate, hwritten, runInit_of_has hlist htemplate htaken⟩

/-- A directory with a contract in it. -/
def keptContract : FileSystem where
  root := [("keep.yaml", .file "name: Keep\nrules: []\n".toUTF8)]

/-- A new contract in directories of its own, next to it. -/
def nestedArguments : InitArguments where
  output := "new/deep/arch.yaml"

theorem runInit_frame_of_nested :
    (runInit keptContract nestedArguments).2.exitCode = 0
    ∧ (∃ place, Written ⟨"new/deep/arch.yaml"⟩ Template.minimal.content.toUTF8 place keptContract
        (runInit keptContract nestedArguments).1)
    ∧ (∀ place o, keptContract.occupant? place = some o →
        (runInit keptContract nestedArguments).1.occupant? place = some o)
    ∧ (runInit (runInit keptContract nestedArguments).1 nestedArguments).2.exitCode = 2 := by
  obtain ⟨_, hkept, _, _, _, hwritten⟩ := runInit_frame keptContract nestedArguments
  have hcode : (runInit keptContract nestedArguments).2.exitCode = 0 := by decide +kernel
  obtain ⟨t, place, htemplate, hwritten, hagain⟩ := hwritten rfl hcode
  have ht : t = Template.minimal :=
    Option.some_inj.1 (htemplate.symm.trans (by decide +kernel))
  refine ⟨hcode, ⟨place, ht ▸ hwritten⟩, hkept ?_, ?_⟩
  · -- the output has no dots
    rintro ⟨front, name, rest, _, hsegments, _, _, _, _, hdots⟩
    have hmem : ".." ∈ (⟨"new/deep/arch.yaml"⟩ : Path).segments := by
      have hsegments : (⟨"new/deep/arch.yaml"⟩ : Path).segments = front ++ name :: rest := hsegments
      rw [hsegments]
      exact List.mem_append_right _ (List.mem_cons_of_mem _ hdots)
    revert hmem
    decide +kernel
  · rw [hagain]
    rfl

/-- The other way to come to the contract leads through a directory that is missing. -/
def climbingArguments : InitArguments where
  output := "new/../keep.yaml"

/-- **The contract is written over**: nothing stood at the output until its directories were made. -/
theorem runInit_overwrites :
    keptContract.occupant? ["keep.yaml"] = some (.file "name: Keep\nrules: []\n".toUTF8)
    ∧ (runInit keptContract climbingArguments).2.exitCode = 0
    ∧ (runInit keptContract climbingArguments).1.occupant? ["keep.yaml"]
      = some (.file Template.minimal.content.toUTF8)
    ∧ Template.minimal.content.toUTF8 ≠ "name: Keep\nrules: []\n".toUTF8 := by
  have hcode : (runInit keptContract climbingArguments).2.exitCode = 0 := by decide +kernel
  refine ⟨rfl, hcode, ?_, ?_⟩
  · obtain ⟨t, place, htemplate, hwritten⟩ := (initialized_runInit _ _).exists_written rfl hcode
    have hplace : (runInit keptContract climbingArguments).1.locate ⟨"new/../keep.yaml"⟩
        = .ok ["keep.yaml"] := by decide +kernel
    have ht : some t = some Template.minimal := htemplate.symm.trans (by decide +kernel)
    have hfile := hwritten.file
    rwa [Except.ok.inj (hwritten.locate.symm.trans hplace), Option.some_inj.1 ht] at hfile
  · exact ne_of_apply_ne ByteArray.size (by decide +kernel)

end Command
end Conformance
