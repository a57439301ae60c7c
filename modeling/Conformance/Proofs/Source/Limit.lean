import Conformance.Proofs.Source.Coherence

/-!
# `Proofs.Source.Limit`: a walk with a limit finds the first declarations of the full walk

A limited walk stops in the middle of the tokens and counts bodies that were *closed*, while it
keeps types that were *opened*. The two counts differ as soon as a header never gets a body. What
makes the walk right all the same is that a type is settled once as many bodies were closed as there
are types up to it (`Coherent.settled`): the type that a move can still change is the last one, and by
coherence fewer bodies were closed than types stand before it.
-/

namespace Conformance
namespace Source
namespace Reader

variable {r : Reader}

/-- **Limited and full walk agree on the first types.** The walks go together until the limit is
reached; from there on the full one only adds types behind. -/
theorem take_walk (h : Coherent r) (n : Nat) (previous : Option Token) (ts : List Token) :
    (walk (some n) r previous ts).types.toList.take n
      = (walk none r previous ts).types.toList.take n := by
  induction ts generalizing r previous with
  | nil => rfl
  | cons t ts ih =>
    have hstep := coherent_step h previous t
    simp only [walk, Option.any_some, Option.any_none, Bool.false_eq_true, if_false,
      decide_eq_true_eq]
    split
    · -- the limited walk stops here, and what the full one still reads changes no settled type
      next hn => exact ((hstep.settled hn).take_walk (some t) ts).symm
    · exact ih hstep (some t)

end Reader

namespace Outline

/-- The types that a limited reading reports are the first ones of all types. -/
theorem types_ofTokens_some (file : String) (n : Nat) (ts : List Token) :
    (ofTokens file (some n) ts).types = (ofTokens file none ts).types.take n :=
  Reader.take_walk (Reader.coherent_start file) n none (ts.filter (!·.isTrivia))

/-- **The limited reading of a source text agrees with the full one**, however malformed the text
is: with any limit it reports that many of the first declarations, each with everything that the
full reading finds in it, and the reading of the first declaration fails exactly as the full reading
does and otherwise gives the head of its list. -/
theorem limited_reading_eq_take (file : String) :
    (∀ (n : Nat) (ts : List Token),
      (ofTokens file (some n) ts).types = (ofTokens file none ts).types.take n)
    ∧ ∀ source : String,
      firstOfSource file source = (ofSource file source).map (·.types.head?) := by
  refine ⟨types_ofTokens_some file, fun source => ?_⟩
  unfold firstOfSource ofSource
  cases tokens source with
  | error e => rfl
  | ok ts =>
    show Except.ok (ofTokens file (some 1) ts).types.head?
      = Except.ok (ofTokens file none ts).types.head?
    rw [types_ofTokens_some, List.head?_take]
    rfl

end Outline
end Source
end Conformance
