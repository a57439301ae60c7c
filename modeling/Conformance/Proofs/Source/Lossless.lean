import Conformance.Proofs.Source.Pieces
import Conformance.Proofs.Source.TokenPositions

/-!
# `Proofs.Source.Lossless`: tokens lose nothing of a text

Token by token the movements over bytes and the lengths in characters find the same, so both give the same
tokens, and what fails in bytes is what fails in characters: a form that the text leaves open. The faults that
only bytes know, an access outside of the text, a cut through a character and a movement that does not get on,
never come about. Tokens that are found are not empty and are, one after the other, the text.
-/

namespace Conformance
namespace Source

/-! ## What the tokens of a text are like -/

/-- The part of a text that some tokens cover. -/
def covered (ts : List Token) : String := String.join (ts.map Token.text)

/-- The tokens cut a text into parts that are not empty, between its characters and without a rest, and each
of them is on the line where its part begins. -/
structure Cuts (source : String) (ts : List Token) : Prop where
  ne_empty : ∀ t ∈ ts, t.text ≠ ""
  covered_eq : covered ts = source
  isValid : ∀ us vs, ts = us ++ vs → (covered us).rawEndPos.IsValid source
  line_eq : ∀ us t vs, ts = us ++ t :: vs →
    t.line = 1 + ((Bytes.ofText source).take (covered us).utf8ByteSize).count (Bytes.byte '\n')

theorem covered_append (us vs : List Token) : covered (us ++ vs) = covered us ++ covered vs := by
  rw [covered, List.map_append, String.join_append]
  rfl

theorem toList_covered_placedFrom (line : Nat) (ps : List (TokenKind × List Char)) :
    (covered (placedFrom line ps)).toList = ps.flatMap Prod.snd := by
  rw [covered, String.toList_join]
  induction ps generalizing line with
  | nil => rfl
  | cons p ps ih =>
    rw [placedFrom, List.map_cons, List.flatMap_cons, List.flatMap_cons, ih, placed,
      String.toList_ofList]

/-- A token is on the line that the line breaks before it make. -/
theorem line_of_placedFrom {line : Nat} {ps : List (TokenKind × List Char)} {us : List Token}
    {t : Token} {vs : List Token} (h : placedFrom line ps = us ++ t :: vs) :
    t.line = line + (covered us).toList.count '\n' := by
  induction us generalizing line ps with
  | nil =>
    cases ps with
    | nil => cases h
    | cons p ps =>
      rw [← (List.cons.inj h).1]
      rfl
  | cons u us ih =>
    cases ps with
    | nil => cases h
    | cons p ps =>
      obtain ⟨hu, hrest⟩ := List.cons.inj h
      have htext : u.text.toList = p.2 := by rw [← hu, placed, String.toList_ofList]
      rw [ih hrest, covered, covered, List.map_cons, String.join_cons, String.toList_append,
        List.count_append, htext, Nat.add_assoc]

/-- No piece is empty. -/
theorem Reads.ne_nil {m m' : Mode} {cs rest : List Char} {ps : List (TokenKind × List Char)}
    (h : Reads m cs ps m' rest) : ∀ p ∈ ps, p.2 ≠ [] := by
  induction h with
  | stop => exact nofun
  | cut _ _ ih =>
    intro p hp
    rcases List.mem_cons.1 hp with rfl | hp
    · exact List.cons_ne_nil _ _
    · exact ih p hp

namespace Bytes

theorem ofText_append (a b : String) : ofText (a ++ b) = ofText a ++ ofText b := by
  rw [ofText_eq, ofText_eq, ofText_eq, String.toList_append, encode_append]

/-- The line breaks before a place, in bytes and in characters. -/
theorem count_take_ofText (a b : String) :
    ((ofText (a ++ b)).take a.utf8ByteSize).count (byte '\n') = a.toList.count '\n' := by
  rw [ofText_append, ← length_ofText, List.take_left, ofText_eq, count_encode]

/-! ## All tokens -/

theorem lt_after (pos : Nat) (c : Char) (cs : List Char) (n : Nat) :
    pos < after pos (c :: cs) (n + 1) := by
  obtain ⟨b, ys, hbytes, _⟩ := exists_utf8EncodeChar c
  rw [after_cons, hbytes, after, List.length_cons]
  omega

/-- One token is cut off between two characters, and reading gets on. -/
theorem tokensFrom_cons {source : String} {mode : Mode} {line pos : Nat} {c : Char} {cs : List Char}
    {kind : TokenKind} {n : Nat} (h : InFront (ofText source) pos (c :: cs))
    (hlexeme : lexeme mode c cs = .ok (kind, n)) :
    tokensFrom source mode line pos
      = (tokensFrom source (kind.modeAfter mode) (line + (c :: cs.take n).count '\n')
          (after pos (c :: cs) (n + 1))).map
            ({ kind, text := String.ofList (c :: cs.take n), line } :: ·) := by
  rw [tokensFrom, if_pos h.lt_of_cons, token_eq mode h, hlexeme]
  dsimp only [located]
  rw [h.textBetween_eq]
  dsimp only
  rw [if_pos (lt_after pos c cs n), ofText_ofList, count_encode, List.take_succ_cons]
  cases tokensFrom source (kind.modeAfter mode) (line + (c :: cs.take n).count '\n')
    (after pos (c :: cs) (n + 1)) <;> rfl

/-- **Reading by bytes finds the tokens that reading by characters finds**, and fails only where that does. -/
theorem tokensFrom_eq {source : String} {mode : Mode} {line pos : Nat} {cs : List Char}
    (h : InFront (ofText source) pos cs) :
    tokensFrom source mode line pos
      = (Source.tokensFrom mode line cs).mapError Fault.unterminated := by
  induction mode, line, cs using Source.tokensFrom.induct generalizing pos with
  | case1 mode line =>
    rw [tokensFrom, if_neg (Nat.not_lt_of_le h.length_le_of_nil), Source.tokensFrom]
    rfl
  | case2 mode line c cs what hlexeme =>
    rw [tokensFrom, if_pos h.lt_of_cons, token_eq mode h, Source.tokensFrom, hlexeme]
    rfl
  | case3 mode line c cs kind n hlexeme text e hrest =>
    rename_i ih
    rw [tokensFrom_cons h hlexeme, ih (h.move (n + 1)), Source.tokensFrom, hlexeme]
    dsimp only
    rw [hrest]
    rfl
  | case4 mode line c cs kind n hlexeme text ts hrest =>
    rename_i ih
    rw [tokensFrom_cons h hlexeme, ih (h.move (n + 1)), Source.tokensFrom, hlexeme]
    dsimp only
    rw [hrest]
    rfl

theorem tokens_eq (source : String) :
    tokens source = (Source.tokens source).mapError Fault.unterminated := by
  have hmode : (if (find (['<', '?'].map byte) (ofText source)).isSome then Mode.html else .code)
      = initialMode source.toList := by
    rw [ofText_eq, find_encode (by decide) (by decide), initialMode]
    show _ = if lengthBefore ['<', '?'].isPrefixOf source.toList < source.toList.length then _ else _
    by_cases hlt : lengthBefore ['<', '?'].isPrefixOf source.toList < source.toList.length
    · rw [if_pos hlt, if_pos hlt]
      rfl
    · rw [if_neg hlt, if_neg hlt]
      rfl
  rw [tokens, hmode]
  exact tokensFrom_eq (.start source)

end Bytes

/-! ## Nothing is lost -/

theorem cuts_of_tokens {source : String} {ts : List Token} (h : tokens source = .ok ts) :
    Cuts source ts := by
  obtain ⟨ps, m, hreads, rfl⟩ := reads_of_tokensFrom h
  have hcovered : covered (placedFrom 1 ps) = source := by
    rw [← String.toList_inj, toList_covered_placedFrom, hreads.eq_append, List.append_nil]
  refine ⟨fun t ht => ?_, hcovered, fun us vs hts => ?_, fun us t vs hts => ?_⟩
  · obtain ⟨p, hp, _, htext⟩ := exists_of_mem_placedFrom ht
    rw [htext, Ne, String.ofList_eq_empty_iff]
    exact hreads.ne_nil p hp
  · rw [String.Pos.Raw.isValid_iff_exists_append]
    exact ⟨covered us, covered vs, by rw [← covered_append, ← hts, hcovered], rfl⟩
  · rw [line_of_placedFrom hts]
    rw [hts, covered_append] at hcovered
    rw [← hcovered, Bytes.count_take_ofText]

/-- **Tokenizing is total, never looks outside of the text, and loses nothing.** Whatever the text, reading
it by bytes gives tokens that cut it, or fails because a form is left open. It then comes to no access
outside of the text, no cut through a character and no movement that does not get on; and the tokens or the
open form are those that reading by characters finds. -/
theorem tokens_lossless (source : String) :
    match Bytes.tokens source with
    | .ok ts => tokens source = .ok ts ∧ Cuts source ts
    | .error f => ∃ e, f = .unterminated e ∧ tokens source = .error e := by
  rw [Bytes.tokens_eq]
  cases htokens : tokens source with
  | error e => exact ⟨e, rfl, rfl⟩
  | ok ts => exact ⟨rfl, cuts_of_tokens htokens⟩

end Source
end Conformance
