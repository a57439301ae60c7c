import Conformance.Project.Check
import Conformance.Proofs.Files.Resolution
import Conformance.Proofs.Source.Declared
import Conformance.Proofs.Types.FirstWins

/-!
# `Proofs.Project.Registered`: where the types of a check come from

A check registers types of the environment, supplied types, and the first declarations of source files.
Only the last ones stand for a file, each for the one it was read from. So the file key of a registered
type tells its origin: if there is one, some source file of the survey is known for this very type
(`Survey.exists_file_of_fileKey`), and no second type has the key (`Survey.eq_of_fileKey_eq`).
-/

namespace Conformance

/-! ## Types without a file -/

theorem mem_of_mem_newNames {ts : List TypeInfo} {t : TypeInfo} (h : t ∈ newNames ts) : t ∈ ts := by
  obtain ⟨⟨t', place⟩, hmem, rfl⟩ := List.mem_map.1 h
  exact List.fst_mem_of_mem_zipIdx (List.mem_filter.1 hmem).1

theorem Environment.file_eq_none {t : TypeInfo} (h : t ∈ types) : t.file = none := by
  have hall : ∀ t ∈ types, t.file = none := by decide
  exact hall t h

namespace SuppliedType

/-- What no entry changes is the same after all of them. -/
theorem foldl_keeps {α β : Type} {f : TypeInfo → α → TypeInfo} (field : TypeInfo → β)
    (hf : ∀ t a, field (f t a) = field t) (as : List α) (t : TypeInfo) :
    field (as.foldl f t) = field t := by
  induction as generalizing t with
  | nil => rfl
  | cons a as ih => exact (ih (f t a)).trans (hf t a)

/-- A field that supertypes and methods leave alone is what the kind, the name and the modifiers of a
supplied type make of it. -/
theorem field_info {β : Type} (field : TypeInfo → β)
    (hparent : ∀ t parent, field (t.withParent parent) = field t)
    (hinterface : ∀ t interface, field (t.addInterface interface) = field t)
    (hmethod : ∀ t m, field (t.addMethod m) = field t) (s : SuppliedType) :
    field s.info = field { TypeInfo.named s.kind s.name with
      isAbstract := s.isAbstract, isFinal := s.isFinal } := by
  unfold info
  dsimp only
  rw [foldl_keeps field (fun t name => hmethod t (Method.named name .pub)),
    foldl_keeps field hinterface]
  cases s.parent with
  | none => rfl
  | some parent => exact hparent _ parent

theorem name_info (s : SuppliedType) : s.info.name = TypeName.bare s.name := by
  refine field_info TypeInfo.name (fun _ _ => rfl) (fun t interface => ?_) (fun _ _ => rfl) s
  unfold TypeInfo.addInterface
  split <;> rfl

/-- The name in the registry is one of the type that was written. -/
theorem same_info (s : SuppliedType) : TypeName.same s.info.name s.name = true := by
  rw [s.name_info, TypeName.same_iff]
  unfold TypeName.key
  rw [TypeName.bare_bare]

theorem file_info (s : SuppliedType) : s.info.file = none := by
  refine field_info TypeInfo.file (fun _ _ => rfl) (fun t interface => ?_) (fun _ _ => rfl) s
  unfold TypeInfo.addInterface
  split <;> rfl

end SuppliedType

/-! ## Types with a file -/

namespace Survey

variable {s : Survey} {fs : FileSystem} {roots : List Path}

/-- The type that a file is known for stands for the file. -/
theorem file_of_typeOf? {f : SourceFile} {t : TypeInfo} (h : typeOf? f = some t) :
    t.file = some f.path.text := by
  rw [typeOf?_eq, Option.bind_eq_some_iff] at h
  obtain ⟨outline, houtline, ht⟩ := h
  obtain ⟨text, _, hsource⟩ := (f.outline?_eq_some_iff outline).1 houtline
  exact Source.Outline.forall_mem_types (Source.Reader.lasting_file f.path.text) hsource t
    (List.mem_of_mem_head? ht)

theorem types_registry (s : Survey) (fs : FileSystem) (roots : List Path) :
    (s.registry fs roots).types = newNames (s.found (s.files fs roots)) := by
  unfold registry
  rw [Index.registry_ofList, Registry.types_ofList]

/-- A registered type comes from the environment, was supplied, or is what a source file is known for. -/
theorem origin_of_mem_registry {t : TypeInfo} (ht : t ∈ (s.registry fs roots).types) :
    t ∈ Environment.types ∨ t ∈ s.supplied ∨ ∃ f ∈ s.files fs roots, typeOf? f = some t := by
  rw [types_registry] at ht
  have hfound := mem_of_mem_newNames ht
  unfold found at hfound
  rw [List.mem_append, List.mem_append] at hfound
  rcases hfound with (henvironment | hmem) | hsource
  · split at henvironment
    · exact Or.inl henvironment
    · cases henvironment
  · exact Or.inr (Or.inl hmem)
  · exact Or.inr (Or.inr (List.mem_filterMap.1 hsource))

/-- **A type with a file is the one that this file is known for**, if the supplied types have none. -/
theorem exists_file_of_fileKey (hsupplied : ∀ t ∈ s.supplied, t.file = none) {t : TypeInfo}
    (ht : t ∈ (s.registry fs roots).types) (hplaced : t.fileKey ≠ "") :
    ∃ f ∈ s.files fs roots, typeOf? f = some t ∧ f.path.text = t.fileKey := by
  have hfile : t.file ≠ none := by
    intro hnone
    refine hplaced ?_
    unfold TypeInfo.fileKey
    rw [hnone]
    rfl
  rcases origin_of_mem_registry ht with henvironment | hmem | ⟨f, hf, htype⟩
  · exact absurd (Environment.file_eq_none henvironment) hfile
  · exact absurd (hsupplied t hmem) hfile
  · refine ⟨f, hf, htype, ?_⟩
    unfold TypeInfo.fileKey
    rw [file_of_typeOf? htype]
    rfl

/-- **A file stands for one registered type**, since it is known for one only and no second file is
found under its path. -/
theorem eq_of_fileKey_eq (hfs : fs.Proper) (hsupplied : ∀ t ∈ s.supplied, t.file = none)
    {t u : TypeInfo} (ht : t ∈ (s.registry fs roots).types) (hu : u ∈ (s.registry fs roots).types)
    (hplaced : t.fileKey ≠ "") (hkey : t.fileKey = u.fileKey) : t = u := by
  obtain ⟨f, hf, hft, hpath⟩ := exists_file_of_fileKey hsupplied ht hplaced
  obtain ⟨g, hg, hgu, hpath'⟩ := exists_file_of_fileKey hsupplied hu (hkey ▸ hplaced)
  have hsame : f.path = g.path := congrArg Path.mk (hpath.trans (hkey.trans hpath'.symm))
  have hfile : f = g := Search.eq_of_path_eq hfs hf hg hsame
  rw [hfile, hgu] at hft
  exact (Option.some_inj.1 hft).symm

end Survey

/-! ## Checks -/

namespace Contract

variable {c : Contract} {fs : FileSystem} {base : Path} {survey : Survey}

/-- The ledger behind the rules of a contract, applied to some types. -/
def ledger [Engine] (c : Contract) (registry : Registry) : Ledger := (c.run registry {}).2.ledger

/-- The source files below the roots of a contract. -/
def sourceFiles (c : Contract) (survey : Survey) (fs : FileSystem) (base : Path) : List SourceFile :=
  survey.files fs (c.sourceRoots base (fs.isFile base))

/-- The types that a contract supplies have no file. -/
theorem file_eq_none_of_supplied [Engine] (h : c.survey = .ok survey) :
    ∀ t ∈ survey.supplied, t.file = none := by
  unfold Contract.survey at h
  cases hexcluded : c.excluded with
  | error cause => rw [hexcluded] at h; cases h
  | ok excluded =>
    rw [hexcluded] at h
    cases h
    intro t ht
    obtain ⟨s, _, rfl⟩ := List.mem_map.1 ht
    exact s.file_info

/-- **What a check comes to**: the types of its survey, and the coverage of its source files by what the
rules recorded for these types. -/
theorem of_check [Engine] {result : CheckResult} (h : c.check fs base = .ok result) :
    ∃ survey, c.survey = .ok survey
      ∧ result.registry = survey.registry fs (c.sourceRoots base (fs.isFile base))
      ∧ result.coverage = Coverage.ofFiles Aspect.standard (c.ledger result.registry)
        (c.sourceFiles survey fs base) := by
  unfold check at h
  cases hsurvey : c.survey with
  | error cause => rw [hsurvey] at h; cases h
  | ok survey =>
    rw [hsurvey] at h
    cases h
    exact ⟨survey, rfl, rfl, rfl⟩

end Contract
end Conformance
