import Conformance.Project.Survey
import Conformance.Proofs.Source.Limit

/-!
# `Proofs.Project.Reading`: what a source file is read for

A source file is read twice: a survey takes the first declaration from it, and the coverage lists all
of them. Both readings see one outline, if the file is a text in which every literal is closed, and
neither sees anything otherwise.
-/

namespace Conformance

/-- The outline of a file, if it is a text that can be read. -/
def SourceFile.outline? (f : SourceFile) : Option Source.Outline :=
  f.text?.bind fun text => (Source.Outline.ofSource f.path.text text).toOption

theorem SourceFile.outline?_eq_some_iff (f : SourceFile) (outline : Source.Outline) :
    f.outline? = some outline
      ↔ ∃ text, f.text? = some text ∧ Source.Outline.ofSource f.path.text text = .ok outline := by
  unfold outline?
  rw [Option.bind_eq_some_iff]
  refine exists_congr fun text => and_congr_right fun _ => ?_
  cases Source.Outline.ofSource f.path.text text with
  | error cause => exact ⟨nofun, nofun⟩
  | ok outline' => exact ⟨fun h => congrArg Except.ok (Option.some_inj.1 h), fun h => by cases h; rfl⟩

/-- The reading that stops behind the first body finds the first declaration of the outline. -/
theorem Source.Outline.toOption_firstOfSource (file source : String) :
    (firstOfSource file source).toOption.join
      = (ofSource file source).toOption.bind (·.types.head?) := by
  unfold firstOfSource ofSource
  cases tokens source with
  | error cause => rfl
  | ok ts =>
    show (ofTokens file (some 1) ts).types.head? = (ofTokens file none ts).types.head?
    rw [types_ofTokens_some, List.head?_take]
    rfl

/-- **A file is known for the first declaration of its outline.** -/
theorem Survey.typeOf?_eq (f : SourceFile) : typeOf? f = f.outline?.bind (·.types.head?) := by
  unfold typeOf? SourceFile.outline?
  rw [Option.bind_assoc]
  exact congrArg f.text?.bind (funext (Source.Outline.toOption_firstOfSource f.path.text))

/-- **The coverage lists the declarations of the outlines**, file by file. -/
theorem Coverage.files_ofFiles (aspects : List Aspect) (ledger : Ledger) (files : List SourceFile) :
    (ofFiles aspects ledger files).files = files.filterMap fun f =>
      f.outline?.map fun o => FileCoverage.ofTypes aspects ledger f.path.text o.types := by
  refine congrArg (fun read => files.filterMap read) (funext fun f => ?_)
  unfold SourceFile.outline?
  rw [Option.map_bind]
  refine congrArg f.text?.bind (funext fun text => ?_)
  show (Except.map _ (Source.Outline.ofSource f.path.text text)).toOption
    = (Source.Outline.ofSource f.path.text text).toOption.map _
  cases Source.Outline.ofSource f.path.text text <;> rfl

end Conformance
