import Conformance.Proofs.Source.Forms
import Conformance.Proofs.Source.Walk

/-!
# `Proofs.Source.Pieces`: cutting a text piece by piece

`Reads` says that reading cuts certain pieces off the front of a text and then stands, in some mode, before
the rest. It does not ask what becomes of the rest, so it speaks about the tokens in front of a place also
when the reading fails behind it. No token reaches beyond the text, so the pieces put together are the
text in front. The kinds and texts of all tokens follow from the pieces; only their lines do not.
-/

namespace Conformance
namespace Source

/-! ## Pieces -/

/-- Reading cuts the front of a text into pieces, each a token without its line, and then stands in a
mode before the rest. -/
inductive Reads : Mode → List Char → List (TokenKind × List Char) → Mode → List Char → Prop where
  | stop {m : Mode} {cs : List Char} : Reads m cs [] m cs
  | cut {m m' : Mode} {c : Char} {cs rest : List Char} {kind : TokenKind} {n : Nat}
      {ps : List (TokenKind × List Char)} (hlexeme : lexeme m c cs = .ok (kind, n))
      (hrest : Reads (kind.modeAfter m) (cs.drop n) ps m' rest) :
      Reads m (c :: cs) ((kind, c :: cs.take n) :: ps) m' rest

namespace Reads

variable {m m' m'' : Mode} {cs rest rest' : List Char} {ps qs : List (TokenKind × List Char)}

/-- The pieces are the text in front. -/
theorem eq_append (h : Reads m cs ps m' rest) : cs = ps.flatMap Prod.snd ++ rest := by
  induction h with
  | stop => rfl
  | cut _ _ ih =>
    rw [List.flatMap_cons, List.append_assoc, ← ih, List.cons_append, List.take_append_drop]

theorem length_le (h : Reads m cs ps m' rest) : rest.length ≤ cs.length := by
  rw [h.eq_append, List.length_append]
  exact Nat.le_add_left _ _

theorem nil_inv (h : Reads m cs [] m' rest) : m' = m ∧ rest = cs := by
  cases h
  exact ⟨rfl, rfl⟩

theorem trans (h : Reads m cs ps m' rest) (h' : Reads m' rest qs m'' rest') :
    Reads m cs (ps ++ qs) m'' rest' := by
  induction h with
  | stop => exact h'
  | cut hlexeme _ ih => exact cut hlexeme (ih h')

/-- The first piece in front of a place ends at the place or before it. -/
theorem cons_inv {c : Char} (h : Reads m (c :: cs) ps m' rest) (hrest : rest.length ≤ cs.length) :
    ∃ kind n qs, lexeme m c cs = .ok (kind, n) ∧ ps = (kind, c :: cs.take n) :: qs
      ∧ n + rest.length ≤ cs.length ∧ Reads (kind.modeAfter m) (cs.drop n) qs m' rest := by
  cases h with
  | stop => exact absurd hrest (Nat.not_le_of_lt (Nat.lt_succ_self _))
  | @cut _ _ _ _ _ kind n qs hlexeme hreads =>
    have hle := hreads.length_le
    have hn := lexeme_le hlexeme
    rw [List.length_drop] at hle
    exact ⟨kind, n, qs, hlexeme, rfl, by omega, hreads⟩

/-- One piece is one token. -/
theorem singleton_iff {kind : TokenKind} {l v : List Char} :
    Reads m (l ++ v) [(kind, l)] m' v
      ↔ ∃ c cs, l = c :: cs ∧ lexeme m c (cs ++ v) = .ok (kind, cs.length)
        ∧ m' = kind.modeAfter m := by
  constructor
  · intro h
    generalize htext : l ++ v = text at h
    cases h with
    | @cut _ _ c cs _ _ n _ hlexeme hrest =>
      obtain ⟨rfl, rfl⟩ := hrest.nil_inv
      rw [List.cons_append, List.take_append_drop] at htext
      refine ⟨c, cs.take n, rfl, ?_, rfl⟩
      rw [List.take_append_drop, List.length_take_of_le (lexeme_le hlexeme)]
      exact hlexeme
  · rintro ⟨c, cs, rfl, hlexeme, rfl⟩
    have hcut := Reads.cut hlexeme .stop
    rwa [List.take_left, List.drop_left] at hcut

/-- Between two pieces reading stands before the rest of the text. -/
theorem append_inv (h : Reads m cs (ps ++ qs) m' rest) :
    ∃ m₁, Reads m cs ps m₁ (qs.flatMap Prod.snd ++ rest)
      ∧ Reads m₁ (qs.flatMap Prod.snd ++ rest) qs m' rest := by
  induction ps generalizing m cs with
  | nil =>
    rw [List.nil_append] at h
    rw [← h.eq_append]
    exact ⟨m, stop, h⟩
  | cons p ps ih =>
    cases h with
    | cut hlexeme hrest =>
      obtain ⟨m₁, hfirst, hlast⟩ := ih hrest
      exact ⟨m₁, cut hlexeme hfirst, hlast⟩

end Reads

/-! ## Pieces and tokens -/

/-- A piece as a token on some line. -/
def placed (line : Nat) (p : TokenKind × List Char) : Token :=
  { kind := p.1, text := String.ofList p.2, line }

/-- Pieces as tokens, the first of them on a given line. -/
def placedFrom : Nat → List (TokenKind × List Char) → List Token
  | _, [] => []
  | line, p :: ps => placed line p :: placedFrom (line + p.2.count '\n') ps

/-- Each of the tokens is one of the pieces. -/
theorem exists_of_mem_placedFrom {line : Nat} {ps : List (TokenKind × List Char)} {t : Token}
    (h : t ∈ placedFrom line ps) : ∃ p ∈ ps, t.kind = p.1 ∧ t.text = String.ofList p.2 := by
  induction ps generalizing line with
  | nil => cases h
  | cons p ps ih =>
    rcases List.mem_cons.1 h with rfl | h
    · exact ⟨p, List.mem_cons_self, rfl, rfl⟩
    · obtain ⟨q, hq, htoken⟩ := ih h
      exact ⟨q, List.mem_cons_of_mem p hq, htoken⟩

/-- **The tokens of a text are its pieces**, followed by the tokens of the rest. -/
theorem tokensFrom_of_reads {m m' : Mode} {cs rest : List Char} {ps : List (TokenKind × List Char)}
    (h : Reads m cs ps m' rest) (line : Nat) :
    tokensFrom m line cs
      = (tokensFrom m' (line + (ps.flatMap Prod.snd).count '\n') rest).map
          (placedFrom line ps ++ ·) := by
  induction h generalizing line with
  | @stop m cs =>
    show tokensFrom m line cs = (tokensFrom m line cs).map ([] ++ ·)
    cases tokensFrom m line cs <;> rfl
  | @cut m m' c cs rest kind n ps hlexeme _ ih =>
    rw [tokensFrom, hlexeme]
    dsimp only
    rw [ih, List.flatMap_cons, List.count_append, ← Nat.add_assoc]
    cases tokensFrom m' (line + (c :: cs.take n).count '\n' + (ps.flatMap Prod.snd).count '\n') rest <;>
      rfl

/-- **A text is read to its end where it has tokens.** -/
theorem reads_of_tokensFrom {m : Mode} {line : Nat} {cs : List Char} {ts : List Token}
    (h : tokensFrom m line cs = .ok ts) :
    ∃ ps m', Reads m cs ps m' [] ∧ ts = placedFrom line ps := by
  induction m, line, cs using tokensFrom.induct generalizing ts with
  | case1 m line =>
    rw [tokensFrom] at h
    cases h
    exact ⟨[], m, .stop, rfl⟩
  | case2 m line c cs what hlexeme =>
    rw [tokensFrom, hlexeme] at h
    cases h
  | case3 m line c cs kind n hlexeme text e hrest =>
    rw [tokensFrom, hlexeme] at h
    dsimp only at h
    rw [hrest] at h
    cases h
  | case4 m line c cs kind n hlexeme text ts' hrest =>
    rename_i ih
    rw [tokensFrom, hlexeme] at h
    dsimp only at h
    rw [hrest] at h
    cases h
    obtain ⟨ps, m', hreads, rfl⟩ := ih hrest
    exact ⟨_, m', .cut hlexeme hreads, rfl⟩

/-- **Where the reading of a text fails** it stands in code, before a token that is not closed. -/
theorem reads_of_tokensFrom_error {m : Mode} {line : Nat} {cs : List Char} {e : Unterminated}
    (h : tokensFrom m line cs = .error e) :
    ∃ ps c rest, Reads m cs ps .code (c :: rest) ∧ codeLexeme c rest = .error e.what
      ∧ e.line = line + (ps.flatMap Prod.snd).count '\n' := by
  induction m, line, cs using tokensFrom.induct generalizing e with
  | case1 m line =>
    rw [tokensFrom] at h
    cases h
  | case2 m line c cs what hlexeme =>
    rw [tokensFrom, hlexeme] at h
    cases h
    cases m with
    | html => cases hlexeme
    | code => exact ⟨[], c, cs, .stop, hlexeme, rfl⟩
  | case3 m line c cs kind n hlexeme text e' hrest =>
    rename_i ih
    rw [tokensFrom, hlexeme] at h
    dsimp only at h
    rw [hrest] at h
    cases h
    obtain ⟨ps, d, rest, hreads, hfault, hline⟩ := ih hrest
    refine ⟨_, d, rest, .cut hlexeme hreads, hfault, ?_⟩
    rw [hline, List.flatMap_cons, List.count_append, Nat.add_assoc]
  | case4 m line c cs kind n hlexeme text ts hrest =>
    rw [tokensFrom, hlexeme] at h
    dsimp only at h
    rw [hrest] at h
    cases h

/-- A text that cannot be read fails on its first line or behind it. -/
theorem le_line_of_tokensFrom_error {m : Mode} {line : Nat} {cs : List Char} {e : Unterminated}
    (h : tokensFrom m line cs = .error e) : line ≤ e.line := by
  obtain ⟨ps, c, rest, _, _, hline⟩ := reads_of_tokensFrom_error h
  rw [hline]
  exact Nat.le_add_right _ _

/-! ## A place in code -/

/-- The line on which a text goes on behind its front. -/
def lineBehind (u : List Char) : Nat := 1 + u.count '\n'

theorem lineBehind_append (u w : List Char) : lineBehind (u ++ w) = lineBehind u + w.count '\n' := by
  unfold lineBehind
  rw [List.count_append, Nat.add_assoc]

/-- Reading the text `u ++ w` cuts `u` into pieces and comes to stand in code before `w`. -/
def StandsInCode (ps : List (TokenKind × List Char)) (u w : List Char) : Prop :=
  Reads (initialMode (u ++ w)) (u ++ w) ps .code w

namespace StandsInCode

variable {ps : List (TokenKind × List Char)} {u w l v : List Char}

theorem pieces_eq (h : StandsInCode ps u w) : ps.flatMap Prod.snd = u :=
  (List.append_cancel_right (Reads.eq_append h)).symm

/-- The tokens of the text are the pieces and what is read of the rest as code. -/
theorem tokens_eq (h : StandsInCode ps u w) :
    tokens (String.ofList (u ++ w)) = (tokensFrom .code (lineBehind u) w).map (placedFrom 1 ps ++ ·) := by
  unfold tokens
  rw [String.toList_ofList, tokensFrom_of_reads h, h.pieces_eq]
  rfl

/-- One token at the place, and what is read of the rest behind it. -/
theorem tokens_token {kind : TokenKind} {m : Mode} (h : StandsInCode ps u (l ++ v))
    (hl : Reads .code (l ++ v) [(kind, l)] m v) :
    tokens (String.ofList (u ++ (l ++ v)))
      = (tokensFrom m (lineBehind (u ++ l)) v).map fun ts =>
          placedFrom 1 ps ++ { kind, text := String.ofList l, line := lineBehind u } :: ts := by
  rw [h.tokens_eq, tokensFrom_of_reads hl, List.flatMap_singleton, lineBehind_append]
  cases tokensFrom m (lineBehind u + l.count '\n') v <;> rfl

/-- The token at the place is not closed. -/
theorem tokens_fault {c : Char} {cs : List Char} {what : Literal} (h : StandsInCode ps u (c :: cs))
    (hfault : codeLexeme c cs = .error what) :
    tokens (String.ofList (u ++ c :: cs)) = .error { what, line := lineBehind u } := by
  have hlexeme : lexeme .code c cs = .error what := hfault
  rw [h.tokens_eq, tokensFrom, hlexeme]
  rfl

end StandsInCode

/-- Blanks are one token, up to a character that is none. -/
theorem lexeme_blanks {b : Char} {blanks w : List Char} (hb : Text.isAsciiBlank b = true)
    (hblanks : ∀ c ∈ blanks, Text.isAsciiBlank c = true) (hw : w.head?.any Text.isAsciiBlank = false) :
    lexeme .code b (blanks ++ w) = .ok (.blank, blanks.length) := by
  show codeLexeme b (blanks ++ w) = _
  rw [codeLexeme_eq, codeForm, if_pos hb]
  simp only [CodeForm.lexeme, takeWhile_append_stop hblanks hw]

/-- Behind an opening tag and a line break a file is code. -/
theorem standsInCode_behind_tag {w : List Char} (hw : w.head?.any Text.isAsciiBlank = false) :
    StandsInCode [(.openTag, "<?php".toList), (.blank, ['\n'])] "<?php\n".toList w := by
  have htag : lexeme .html '<' ("?php\n".toList ++ w) = .ok (.openTag, 4) := rfl
  have hnone : ∀ c ∈ ([] : List Char), Text.isAsciiBlank c = true := by simp
  have hblank : lexeme .code '\n' w = .ok (.blank, 0) := lexeme_blanks rfl hnone hw
  exact .cut htag (.cut hblank .stop)

/-- The place at which the reading of a text fails. -/
theorem standsInCode_of_error {source : String} {e : Unterminated} (h : tokens source = .error e) :
    ∃ ps u c rest, source.toList = u ++ c :: rest ∧ StandsInCode ps u (c :: rest)
      ∧ codeLexeme c rest = .error e.what ∧ e.line = lineBehind u := by
  obtain ⟨ps, c, rest, hreads, hfault, hline⟩ := reads_of_tokensFrom_error h
  have hsource := hreads.eq_append
  refine ⟨ps, ps.flatMap Prod.snd, c, rest, hsource, ?_, hfault, hline⟩
  unfold StandsInCode
  rwa [← hsource]

/-! ## Words -/

theorem isNameChar_separator : isNameChar TypeName.separator = false := by decide

/-- A word has no separator in it. -/
theorem separator_not_mem_of_lexeme {m : Mode} {c : Char} {cs : List Char} {n : Nat}
    (h : lexeme m c cs = .ok (.word, n)) : TypeName.separator ∉ c :: cs.take n := by
  cases m with
  | html =>
    have hkind : (htmlLexeme c cs).1 = .word := by
      injection h with h
      rw [h]
    rcases htmlLexeme_kind c cs with hopen | hhtml
    · rw [hopen] at hkind
      cases hkind
    · rw [hhtml] at hkind
      cases hkind
  | code =>
    have hcode : codeLexeme c cs = .ok (.word, n) := h
    have hkinds := kind_mem_kinds hcode
    have hform : codeForm c cs = .word := by
      cases hform : codeForm c cs <;> rw [hform] at hkinds <;> simp [CodeForm.kinds] at hkinds
    rw [codeLexeme_eq, hform] at hcode
    cases hcode
    intro hmem
    rcases List.mem_cons.1 hmem with rfl | htail
    · -- a separator begins a token of its own
      have hseparator : codeForm TypeName.separator cs = .separator := rfl
      rw [hseparator] at hform
      cases hform
    · rw [← List.prefix_iff_eq_take.1 (List.takeWhile_prefix isNameChar)] at htail
      have hchar := List.all_eq_true.1 List.all_takeWhile _ htail
      rw [isNameChar_separator] at hchar
      cases hchar

theorem Reads.separator_not_mem {m m' : Mode} {cs rest : List Char} {ps : List (TokenKind × List Char)}
    (h : Reads m cs ps m' rest) : ∀ p ∈ ps, p.1 = .word → TypeName.separator ∉ p.2 := by
  induction h with
  | stop => intro p hp; cases hp
  | cut hlexeme _ ih =>
    intro p hp hword
    rcases List.mem_cons.1 hp with rfl | hp
    · cases hword
      exact separator_not_mem_of_lexeme hlexeme
    · exact ih p hp hword

/-- **No word of a source text contains a separator.** -/
theorem separator_not_mem_of_tokens {source : String} {ts : List Token} {t : Token}
    (h : tokens source = .ok ts) (ht : t ∈ ts) (hword : t.kind = .word) :
    TypeName.separator ∉ t.text.toList := by
  obtain ⟨ps, m, hreads, rfl⟩ := reads_of_tokensFrom h
  obtain ⟨p, hp, hkind, htext⟩ := exists_of_mem_placedFrom ht
  rw [htext, String.toList_ofList]
  exact hreads.separator_not_mem p hp (hkind.symm.trans hword)

/-! ## One token of a text -/

/-- Reading the text `u ++ (l ++ v)` comes to stand in front of `l` and cuts it off as one token of this
kind. Nothing is said about the reading of `v`. -/
def IsTokenAt (kind : TokenKind) (u l v : List Char) : Prop :=
  ∃ ps m m', Reads (initialMode (u ++ (l ++ v))) (u ++ (l ++ v)) ps m (l ++ v)
    ∧ Reads m (l ++ v) [(kind, l)] m' v

end Source
end Conformance
