import Conformance.Text.Ascii

/-!
# `Types.Name`: qualified names of types

A qualified name is a list of segments joined by `\`, such as `App\Service\Mailer`. The language
compares such names without regard to ASCII case and ignores separators in front. Both rules meet
in `key`: two names denote one type exactly when their keys are equal.
-/

namespace Conformance
namespace TypeName

/-- Stands between the segments of a qualified name. -/
def separator : Char := '\\'

/-- The name without the separators in front of it. -/
def bare (name : String) : String :=
  String.ofList (name.toList.dropWhile (· == separator))

/-- The identity of a name: bare, and with ASCII letters folded. -/
def key (name : String) : String :=
  Text.foldCase (bare name)

/-- Whether two names denote one type. -/
def same (a b : String) : Bool :=
  key a == key b

/-- The name `short` inside the namespace `ns`; the global namespace is empty. -/
def qualify (ns short : String) : String :=
  if ns.isEmpty then short else ns ++ String.singleton separator ++ short

/-- The segments after the last separator. -/
def shortPart (name : String) : String :=
  String.ofList (name.toList.reverse.takeWhile (· != separator)).reverse

/-- The text before the last separator, empty when there is none. -/
def namespacePart (name : String) : String :=
  String.ofList ((name.toList.reverse.dropWhile (· != separator)).drop 1).reverse

/-- No separator is left in front. -/
theorem head?_bare_ne (name : String) : (bare name).toList.head? ≠ some separator := by
  have hnot := List.head?_dropWhile_not (· == separator) name.toList
  rw [bare, String.toList_ofList]
  intro hhead
  rw [hhead] at hnot
  cases hnot

theorem bare_eq_of_head? {name : String} (h : name.toList.head? ≠ some separator) :
    bare name = name := by
  rw [bare]
  cases hname : name.toList with
  | nil => exact (String.toList_eq_nil_iff.1 hname).symm
  | cons c cs =>
    have hc : (c == separator) = false :=
      beq_eq_false_iff_ne.2 fun heq => h (by rw [hname, heq]; rfl)
    rw [List.dropWhile_cons, hc, ← hname]
    exact String.ofList_toList

theorem bare_bare (name : String) : bare (bare name) = bare name :=
  bare_eq_of_head? (head?_bare_ne name)

theorem same_iff {a b : String} : same a b = true ↔ key a = key b := by
  simp [same]

theorem same_refl (a : String) : same a a = true := by
  simp [same]

end TypeName
end Conformance
