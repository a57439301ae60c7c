import Conformance.Proofs.Contract.Records
import Conformance.Proofs.Project.Registered

/-!
# `Proofs.Project.Agreement`: two ways to the coverage of a file

The coverage of a run can be computed from its ledger alone, by looking the recorded names up in the
registry, or from the source files, by reading all their declarations again. The first way sees no more
than the types that some rule selected. Where it sees a file, both agree: a file stands for one type at
most, which is the first one declared in it, so the ledger holds one name for the file and the registry
gives back the type of the first declaration. `Contract.reports_agree` says so for every list of
aspects.
-/

namespace Conformance

/-! ## The two reports, file by file -/

namespace Coverage

variable {aspects : List Aspect} {ledger : Ledger} {file : String}

theorem mem_files_ofFiles {files : List SourceFile} {fc : FileCoverage} :
    fc ∈ (ofFiles aspects ledger files).files
      ↔ ∃ f ∈ files, ∃ outline, f.outline? = some outline
        ∧ fc = FileCoverage.ofTypes aspects ledger f.path.text outline.types := by
  rw [files_ofFiles, List.mem_filterMap]
  simp only [Option.map_eq_some_iff, eq_comm (a := fc)]

/-- **The coverage of a file begins with the type that the file is known for.** -/
theorem head?_scores (aspects : List Aspect) (ledger : Ledger) {fs : FileSystem} (hfs : fs.Proper)
    {s : Search} {roots : List Path} {f : SourceFile} (hf : f ∈ s.files fs roots) {t : TypeInfo}
    (htype : Survey.typeOf? f = some t) :
    (∃ fc ∈ (ofFiles aspects ledger (s.files fs roots)).files, fc.file = f.path.text)
    ∧ ∀ fc ∈ (ofFiles aspects ledger (s.files fs roots)).files, fc.file = f.path.text →
      fc.scores.head? = some (Score.ofUsage aspects t (ledger.usageOf f.path.text t.name)) := by
  obtain ⟨outline, houtline, hfirst⟩ : ∃ outline, f.outline? = some outline
      ∧ outline.types.head? = some t := by
    rw [Survey.typeOf?_eq] at htype
    exact Option.bind_eq_some_iff.1 htype
  constructor
  · exact ⟨_, mem_files_ofFiles.2 ⟨f, hf, outline, houtline, rfl⟩, rfl⟩
  · intro fc hfc hkey
    obtain ⟨g, hg, outline', houtline', rfl⟩ := mem_files_ofFiles.1 hfc
    -- the entry comes from the same file
    have hsame : f.path = g.path := congrArg Path.mk hkey.symm
    cases Search.eq_of_path_eq hfs hf hg hsame
    cases houtline.symm.trans houtline'
    show (outline.types.map _).head? = _
    rw [List.head?_map, hfirst]
    rfl

/-- The report of a ledger has one entry for a file that it holds. -/
theorem filter_files_ofLedger {registry : Registry} {types : Table String Usage}
    (h : ledger.files.get? file = some types) :
    (ofLedger aspects registry ledger).files.filter (fun fc => fc.file == file)
      = [FileCoverage.ofTypes aspects ledger file (types.keys.filterMap registry.get?)] := by
  show (ledger.files.entries.map _).filter _ = _
  rw [List.filter_map]
  show (ledger.files.entries.filter fun e => e.1 == file).map _ = _
  rw [Table.filter_entries h]
  rfl

end Coverage

/-! ## What a ledger holds for a file -/

namespace Contract

variable {c : Contract} {registry : Registry} {file name : String}

theorem ledger_eq [Engine] (c : Contract) (registry : Registry) :
    c.ledger registry
      = (c.rules.flatMap (Rule.events registry c.suiteName)).foldl Ledger.record {} :=
  congrArg Recorder.ledger (recorder_run c registry {})

/-- The rules record something for the files of the types that they are about. -/
theorem mem_keys_ledger [Engine] :
    file ∈ (c.ledger registry).files.keys ↔ ∃ name, ∃ r ∈ c.rules, r.Touches registry file name := by
  rw [ledger_eq, Ledger.mem_keys_foldl]
  simp only [← Rule.exists_mem_events_iff _ registry c.suiteName, List.mem_flatMap]
  constructor
  · rintro ⟨e, ⟨r, hr, he⟩, hfile⟩
    exact ⟨e.name, r, hr, e, he, hfile, rfl⟩
  · rintro ⟨_, r, hr, e, he, hfile, _⟩
    exact ⟨e, ⟨r, hr, he⟩, hfile⟩

/-- For a file they record the names of the types that they are about. -/
theorem isSome_get?_ledger [Engine] :
    ((c.ledger registry).get? file name).isSome = true
      ↔ ∃ r ∈ c.rules, r.Touches registry file name := by
  have hempty : ({} : Ledger).get? file name = none := rfl
  rw [ledger_eq, Ledger.isSome_get?_foldl, hempty]
  simp only [← Rule.exists_mem_events_iff _ registry c.suiteName, List.mem_flatMap]
  constructor
  · rintro (hnone | ⟨e, ⟨r, hr, he⟩, hat⟩)
    · cases hnone
    · exact ⟨r, hr, e, he, hat⟩
  · rintro ⟨r, hr, e, he, hat⟩
    exact Or.inr ⟨e, ⟨r, hr, he⟩, hat⟩

/-- If a file stands for one type, its name is all that is recorded for the file. -/
theorem exists_keys_ledger [Engine] (hfile : file ∈ (c.ledger registry).files.keys)
    (hunique : ∀ t ∈ registry.types, ∀ u ∈ registry.types,
      t.fileKey = file → u.fileKey = file → t = u) :
    ∃ t ∈ registry.types, t.fileKey = file
      ∧ ∃ types, (c.ledger registry).files.get? file = some types ∧ types.keys = [t.name] := by
  obtain ⟨name, r, hr, htouches⟩ := mem_keys_ledger.1 hfile
  obtain ⟨hsound, t, ht, haccepts, hplace, rfl⟩ := htouches
  rw [Table.mem_keys_iff] at hfile
  obtain ⟨types, htypes⟩ := Option.isSome_iff_exists.1 hfile
  have hcontains (name : String) :
      types.contains name = ((c.ledger registry).get? file name).isSome := by
    unfold Ledger.get?
    rw [htypes]
    rfl
  refine ⟨t, ht, hplace, types, htypes, Table.keys_eq_singleton fun name => ?_⟩
  -- a name is recorded exactly if some rule is about a type with this name in the file
  rw [hcontains, isSome_get?_ledger]
  constructor
  · rintro ⟨_, _, _, u, hu, _, hplace', rfl⟩
    rw [hunique u hu t ht hplace' hplace]
  · rintro rfl
    exact ⟨r, hr, hsound, t, ht, haccepts, hplace, rfl⟩

end Contract

/-! ## Checks -/

namespace Contract

variable {c : Contract} {fs : FileSystem} {base : Path} {result : CheckResult}

/-- **The report of the ledger agrees with the report of the sources.** Every file with a path for which
a check has recorded something has one entry in the report of the ledger, with the score of one type.
The sources have entries for the file as well, and in each of them this is the score of the first type.
The score is the same in all that it says, name, kind and points, so its percentage is the same too. -/
theorem reports_agree [Engine] (hfs : fs.Proper) (h : c.check fs base = .ok result) :
    ∃ survey, c.survey = .ok survey
      ∧ result.coverage = Coverage.ofFiles Aspect.standard (c.ledger result.registry)
        (c.sourceFiles survey fs base)
      ∧ ∀ aspects, ∀ file ∈ (c.ledger result.registry).files.keys, file ≠ "" →
        ∃ score,
          (Coverage.ofLedger aspects result.registry (c.ledger result.registry)).files.filter
              (fun fc => fc.file == file) = [{ file, scores := [score] }]
          ∧ (∃ fc ∈ (Coverage.ofFiles aspects (c.ledger result.registry)
              (c.sourceFiles survey fs base)).files, fc.file = file)
          ∧ ∀ fc ∈ (Coverage.ofFiles aspects (c.ledger result.registry)
              (c.sourceFiles survey fs base)).files, fc.file = file →
            fc.scores.head? = some score := by
  obtain ⟨survey, hsurvey, hregistry, hcoverage⟩ := of_check h
  have hsupplied := file_eq_none_of_supplied hsurvey
  refine ⟨survey, hsurvey, hcoverage, fun aspects file hfile hplaced => ?_⟩
  have hunique : ∀ t ∈ result.registry.types, ∀ u ∈ result.registry.types,
      t.fileKey = file → u.fileKey = file → t = u := by
    rw [hregistry]
    rintro t ht u hu rfl hplace
    exact Survey.eq_of_fileKey_eq hfs hsupplied ht hu hplaced hplace.symm
  -- the one type that the file stands for, and the file as it was found
  obtain ⟨t, ht, rfl, types, hrecorded, hkeys⟩ := exists_keys_ledger hfile hunique
  obtain ⟨f, hf, htype, hpath⟩ :=
    Survey.exists_file_of_fileKey hsupplied (hregistry ▸ ht) hplaced
  obtain ⟨hlisted, hfirst⟩ :=
    Coverage.head?_scores aspects (c.ledger result.registry) hfs hf htype
  have hlookup : result.registry.get? t.name = some t :=
    Registry.get?_eq_some_iff.2 ⟨ht, TypeName.same_refl t.name⟩
  rw [hpath] at hlisted hfirst
  refine ⟨Score.ofUsage aspects t ((c.ledger result.registry).usageOf t.fileKey t.name), ?_,
    hlisted, hfirst⟩
  rw [Coverage.filter_files_ofLedger hrecorded, hkeys, List.filterMap_cons, hlookup]
  rfl

/-- A file that declares two classes, of which the first one is registered. -/
def pairedMailer : FileSystem where
  root := [("src", .directory [("Mailer.php", .file "<?php class Mailer {} class Letter {}".toUTF8)])]

theorem proper_pairedMailer : pairedMailer.Proper := Tree.proper_of_isProper _ (by decide)

/-- The ledger scores the class that the rules are about, and the sources list it in front of the
other one. -/
theorem reports_agree_of_pair :
    ∃ result, mailerContract.check pairedMailer ⟨"/src"⟩ = .ok result
      ∧ ∃ score : Score, score.name = "Mailer"
        ∧ (Coverage.ofLedger Aspect.standard result.registry
            (mailerContract.ledger result.registry)).files.filter
              (fun fc => fc.file == "/src/Mailer.php")
          = [{ file := "/src/Mailer.php", scores := [score] }]
        ∧ ∃ fc ∈ result.coverage.files, fc.file = "/src/Mailer.php"
          ∧ fc.scores.map Score.name = ["Mailer", "Letter"] ∧ fc.scores.head? = some score := by
  obtain ⟨result, hresult, hfile, hfiles⟩ :
      ∃ result, mailerContract.check pairedMailer ⟨"/src"⟩ = .ok result
        ∧ "/src/Mailer.php" ∈ (mailerContract.ledger result.registry).files.keys
        ∧ result.coverage.files.map (fun fc => (fc.file, fc.scores.map Score.name))
          = [("/src/Mailer.php", ["Mailer", "Letter"])] :=
    exists_ok_of_any (by decide +kernel)
  obtain ⟨survey, _, hcoverage, hagree⟩ := reports_agree proper_pairedMailer hresult
  obtain ⟨score, hledger, ⟨fc, hfc, hkey⟩, hsources⟩ :=
    hagree Aspect.standard "/src/Mailer.php" hfile (by decide)
  rw [← hcoverage] at hfc
  have hnames : fc.scores.map Score.name = ["Mailer", "Letter"] := by
    have hmem := List.mem_map_of_mem (f := fun fc : FileCoverage =>
      (fc.file, fc.scores.map Score.name)) hfc
    rw [hfiles, List.mem_singleton] at hmem
    exact congrArg Prod.snd hmem
  have hhead := hsources fc (hcoverage ▸ hfc) hkey
  have hname : score.name = "Mailer" := by
    have hfirst := congrArg List.head? hnames
    rw [List.head?_map, hhead] at hfirst
    exact Option.some_inj.1 hfirst
  exact ⟨result, hresult, score, hname, hledger, fc, hfc, hkey, hnames, hhead⟩

end Contract
end Conformance
