import Conformance.Proofs.Source.Names

/-!
# `Proofs.Source.Walk`: walking over the tokens in parts

A full walk over two parts is a walk over the first and then one over the second, which only has to
know the last token of the first. The lines of tokens play no part. Names are read by phases that do
nothing but collect text; `walk_collect` is the induction they share.
-/

namespace Conformance
namespace Source
namespace Reader

variable {r : Reader} {p : Option Token} {t : Token}

/-- Outside of all constructs. -/
theorem step_idle (hidle : r.phase = .idle) : r.step p t = r.idleStep p t := by
  unfold step
  rw [hidle]

/-! ## Walking over a part of the tokens -/

theorem walk_cons (r : Reader) (p : Option Token) (t : Token) (ts : List Token) :
    walk none r p (t :: ts) = walk none (r.step p t) (some t) ts := rfl

/-- The last token of a list is the one before what follows it. -/
theorem getLast?_cons_or (t : Token) (ts : List Token) (p : Option Token) :
    (t :: ts).getLast?.or p = ts.getLast?.or (some t) := by
  rw [List.getLast?_cons]
  cases ts.getLast? <;> rfl

theorem walk_append (r : Reader) (p : Option Token) (ts us : List Token) :
    walk none r p (ts ++ us) = walk none (walk none r p ts) (ts.getLast?.or p) us := by
  induction ts generalizing r p with
  | nil => rfl
  | cons t ts ih => rw [List.cons_append, walk_cons, ih, walk_cons, getLast?_cons_or]

/-- A walk with a limit either stops within the first tokens or goes on behind them as the full walk
does. -/
theorem walk_append_cases (limit : Option Nat) (r : Reader) (p : Option Token) (ts : List Token) :
    (∀ us, walk limit r p (ts ++ us) = walk limit r p ts)
    ∨ ∀ us, walk limit r p (ts ++ us) = walk limit (walk none r p ts) (ts.getLast?.or p) us := by
  induction ts generalizing r p with
  | nil => exact Or.inr fun _ => rfl
  | cons t ts ih =>
    by_cases hlimit : limit.any (· ≤ (r.step p t).completed) = true
    · left
      intro us
      rw [List.cons_append, walk, walk, if_pos hlimit, if_pos hlimit]
    · have hcons (us : List Token) :
          walk limit r p (t :: us) = walk limit (r.step p t) (some t) us := by
        rw [walk, if_neg hlimit]
      rcases ih (r.step p t) (some t) with hstop | hgo
      · left
        intro us
        rw [List.cons_append, hcons, hcons, hstop us]
      · right
        intro us
        rw [List.cons_append, hcons, hgo us, getLast?_cons_or, walk_cons]

/-- The lines on which tokens stand do not matter. -/
theorem step_unplaced (r : Reader) (p : Option Token) (t : Token) :
    r.step (p.map Token.unplaced) t.unplaced = r.step p t := by
  cases p <;> rfl

theorem walk_unplaced (r : Reader) (p : Option Token) (ts : List Token) :
    walk none r (p.map Token.unplaced) (ts.map Token.unplaced) = walk none r p ts := by
  induction ts generalizing r p with
  | nil => rfl
  | cons t ts ih =>
    rw [List.map_cons, walk_cons, walk_cons, step_unplaced]
    exact ih (r.step p t) (some t)

/-- Tokens that only add their text to what is collected. -/
theorem walk_collect {f : String → Reader} {P : String → Prop} {Q : Token → Prop}
    (hstep : ∀ n p t, P n → Q t → (f n).step p t = f (n ++ t.text) ∧ P (n ++ t.text))
    (ts : List Token) (hts : ∀ t ∈ ts, Q t) (n : String) (hn : P n) (p : Option Token) :
    walk none (f n) p ts = f (n ++ String.join (ts.map Token.text)) := by
  induction ts generalizing n p with
  | nil => simp [walk]
  | cons t ts ih =>
    obtain ⟨hread, hkeep⟩ := hstep n p t hn (hts t List.mem_cons_self)
    rw [walk_cons, hread, ih (fun u hu => hts u (List.mem_cons_of_mem t hu)) _ hkeep,
      List.map_cons, String.join_cons, String.append_assoc]

/-- Where every token of some sort is collected. -/
theorem walk_plain {f : String → Reader} {Q : Token → Prop}
    (hstep : ∀ n p t, Q t → (f n).step p t = f (n ++ t.text))
    (ts : List Token) (hts : ∀ t ∈ ts, Q t) (n : String) (p : Option Token) :
    walk none (f n) p ts = f (n ++ String.join (ts.map Token.text)) :=
  walk_collect (fun n p t (_ : True) ht => ⟨hstep n p t ht, trivial⟩) ts hts n trivial p

/-! ## The reader at a point of a file -/

/-- The reader behind the tokens `ts` of a file, trivia among them. -/
def behind (file : String) (ts : List Token) : Reader :=
  walk none { file } none (ts.filter (!·.isTrivia))

/-- The token before the next one. -/
def lastSeen (ts : List Token) : Option Token :=
  (ts.filter (!·.isTrivia)).getLast?

theorem behind_append (file : String) (ts us : List Token) :
    behind file (ts ++ us) = walk none (behind file ts) (lastSeen ts) (us.filter (!·.isTrivia)) := by
  unfold behind lastSeen
  rw [List.filter_append, walk_append, Option.or_none]

end Reader
end Source
end Conformance
