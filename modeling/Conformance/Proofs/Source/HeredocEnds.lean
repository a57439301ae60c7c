import Conformance.Proofs.Source.Replacement

/-!
# `Proofs.Source.HeredocEnds`: where a heredoc ends

Behind the header of a heredoc the text is a list of lines, and the first of them that the label closes
ends the token. `HeredocBody` gives a body up to there, so that earlier lines with the label in them,
longer words that begin with it and bodies without any line are all cases of one form. Every text either
begins with such a body or has no closing line (`heredocBody_or_none`), and the reading agrees with both:
`tokens_heredoc` says what becomes of `<<<` at any place in code.
-/

namespace Conformance
namespace Source

/-! ## Lines -/

/-- What holds of a text without line breaks, and with each line put in front of it, holds of every text. -/
theorem lines_induction {P : List Char → Prop} (last : ∀ line, '\n' ∉ line → P line)
    (line : ∀ line rest, '\n' ∉ line → P rest → P (line ++ '\n' :: rest)) (cs : List Char) : P cs := by
  by_cases hbreak : '\n' ∈ cs
  · obtain ⟨front, rest, hcs, hfront⟩ := List.eq_append_cons_of_mem hbreak
    have hlt : rest.length < cs.length := by
      rw [hcs, List.length_append, List.length_cons]
      omega
    rw [hcs]
    exact line front rest hfront (lines_induction last line rest)
  · exact last cs hbreak
termination_by cs.length

/-! ## Bodies -/

/-- **The body of a heredoc** through the first label that closes a line: lines that do not close, then
blanks and the label. -/
structure HeredocBody (label : List Char) where
  lines : List (List Char)
  blanks : List Char
  not_closesLine : ∀ line ∈ lines, '\n' ∉ line ∧ ¬ ClosesLine label line
  isIndent_blanks : ∀ c ∈ blanks, isIndent c = true

namespace HeredocBody

variable {label : List Char}

/-- The characters of the body. -/
def chars (b : HeredocBody label) : List Char :=
  b.lines.flatMap (· ++ ['\n']) ++ (b.blanks ++ label)

/-- The same body with one more line in front. -/
def cons (line : List Char) (hline : '\n' ∉ line) (hopen : ¬ ClosesLine label line)
    (b : HeredocBody label) : HeredocBody label where
  lines := line :: b.lines
  blanks := b.blanks
  not_closesLine := List.forall_mem_cons.2 ⟨⟨hline, hopen⟩, b.not_closesLine⟩
  isIndent_blanks := b.isIndent_blanks

theorem cons_chars {line : List Char} {hline : '\n' ∉ line} {hopen : ¬ ClosesLine label line}
    (b : HeredocBody label) : (b.cons line hline hopen).chars = line ++ '\n' :: b.chars := by
  simp [chars, cons]

end HeredocBody

/-- A body of this label is in front, and the label ends there. -/
def HasHeredocBody (label cs : List Char) : Prop :=
  ∃ (b : HeredocBody label) (v : List Char), cs = b.chars ++ v ∧ v.head?.any isNameChar = false

/-- A line that closes is a body of its own. -/
theorem ClosesLine.hasHeredocBody {label line : List Char} (h : ClosesLine label line) :
    HasHeredocBody label line := by
  obtain ⟨blanks, after, hblanks, rfl, hword⟩ := h
  refine ⟨{ lines := [], blanks, not_closesLine := nofun, isIndent_blanks := hblanks }, after, ?_, hword⟩
  simp [HeredocBody.chars]

/-- **Every text** begins with a body or has no line that closes one. -/
theorem heredocBody_or_none (label cs : List Char) :
    HasHeredocBody label cs ∨ ∀ line ∈ cs.splitOn '\n', ¬ ClosesLine label line := by
  -- line by line: where the first line does not close, the lines behind it decide
  induction cs using lines_induction with
  | last line hline =>
    rw [List.splitOn_eq_singleton hline]
    by_cases hcloses : ClosesLine label line
    · exact Or.inl hcloses.hasHeredocBody
    · exact Or.inr (List.forall_mem_singleton.2 hcloses)
  | line line rest hline ih =>
    rw [List.splitOn_append_cons_self_of_not_mem hline]
    by_cases hcloses : ClosesLine label line
    · exact Or.inl (IsLabel.closesLine_append hcloses rest).hasHeredocBody
    · rcases ih with hbody | hnone
      · obtain ⟨b, v, rfl, hv⟩ := hbody
        refine Or.inl ⟨b.cons line hline hcloses, v, ?_, hv⟩
        rw [HeredocBody.cons_chars, List.append_assoc, List.cons_append]
      · exact Or.inr (List.forall_mem_cons.2 ⟨hcloses, hnone⟩)

namespace IsLabel

variable {label : List Char} (hl : IsLabel label)
include hl

/-- The reading of a body ends with its label. -/
theorem heredocBodyLength_chars (b : HeredocBody label) {v : List Char}
    (hv : v.head?.any Source.isNameChar = false) :
    heredocBodyLength label true (b.chars ++ v) = some b.chars.length := by
  unfold HeredocBody.chars
  rw [List.append_assoc, List.append_assoc,
    hl.heredocBodyLength_lines b.not_closesLine b.isIndent_blanks hv, List.length_append,
    List.length_append]

/-- Without a closing line there is no end. -/
theorem heredocBodyLength_eq_none {cs : List Char}
    (h : ∀ line ∈ cs.splitOn '\n', ¬ ClosesLine label line) : heredocBodyLength label true cs = none := by
  induction cs using lines_induction with
  | last line hline =>
    rw [List.splitOn_eq_singleton hline, List.forall_mem_singleton] at h
    rw [heredocBodyLength_of_none (hl.closingLength?_eq_none_iff.2 h)]
    cases hlength : heredocBodyLength label false line with
    | none => rfl
    | some n => exact absurd (List.mem_of_mem_take (newline_mem_of_heredocBodyLength hlength)) hline
  | line line rest hline ih =>
    rw [List.splitOn_append_cons_self_of_not_mem hline, List.forall_mem_cons] at h
    obtain ⟨hopen, hrest⟩ := h
    rw [hl.heredocBodyLength_line hline hopen, ih hrest]
    rfl

theorem heredocBodyLength_ne_none {cs : List Char} (h : HasHeredocBody label cs) :
    heredocBodyLength label true cs ≠ none := by
  obtain ⟨b, v, rfl, hv⟩ := h
  rw [hl.heredocBodyLength_chars b hv]
  exact Option.some_ne_none _

/-- **A body is left open** exactly if no line closes it. -/
theorem heredocBodyLength_eq_none_iff {cs : List Char} :
    heredocBodyLength label true cs = none ↔ ∀ line ∈ cs.splitOn '\n', ¬ ClosesLine label line := by
  constructor
  · intro hend
    apply (heredocBody_or_none label cs).resolve_left
    intro hbody
    exact hl.heredocBodyLength_ne_none hbody hend
  · exact hl.heredocBodyLength_eq_none

/-- **A text has a body** exactly if one of its lines closes one. -/
theorem hasHeredocBody_iff {cs : List Char} :
    HasHeredocBody label cs ↔ ∃ line ∈ cs.splitOn '\n', ClosesLine label line := by
  constructor
  · intro hbody
    apply Classical.byContradiction
    intro hnone
    apply hl.heredocBodyLength_ne_none hbody
    apply hl.heredocBodyLength_eq_none
    intro line hmem hcloses
    exact hnone ⟨line, hmem, hcloses⟩
  · rintro ⟨line, hmem, hcloses⟩
    apply (heredocBody_or_none label cs).resolve_right
    intro hnone
    exact hnone line hmem hcloses

end IsLabel

/-! ## Heredocs at a place in code -/

/-- The characters of a heredoc. -/
def heredocChars (h : HeredocHeader) (b : HeredocBody h.label) : List Char :=
  '<' :: '<' :: '<' :: (h.chars ++ b.chars)

theorem heredocChars_append (h : HeredocHeader) (b : HeredocBody h.label) (v : List Char) :
    '<' :: '<' :: '<' :: (h.chars ++ (b.chars ++ v)) = heredocChars h b ++ v := by
  simp [heredocChars]

/-- A heredoc takes more than one line. -/
theorem newline_mem_heredocChars (h : HeredocHeader) (b : HeredocBody h.label) :
    '\n' ∈ heredocChars h b := by
  have hbreak : '\n' ∈ h.lineBreak := by
    rcases h.lineBreak_eq with heq | heq <;> simp [heq]
  simp [heredocChars, HeredocHeader.chars, hbreak]

/-- A heredoc that is left open. -/
theorem codeLexeme_heredoc_error {h : HeredocHeader} {body : List Char}
    (hopen : ∀ line ∈ body.splitOn '\n', ¬ ClosesLine h.label line) :
    codeLexeme '<' ('<' :: '<' :: (h.chars ++ body)) = .error .heredoc := by
  rw [codeLexeme_heredoc, heredocLength_chars, h.isLabel.heredocBodyLength_eq_none hopen]
  rfl

/-- Three angles that no header follows. -/
theorem codeLexeme_no_heredoc {cs : List Char}
    (h : ∀ (header : HeredocHeader) body, cs ≠ header.chars ++ body) :
    codeLexeme '<' ('<' :: '<' :: cs) = .ok (.mark, 0) := by
  have hnone : heredocHeader? cs = none := by
    cases hheader : heredocHeader? cs with
    | none => rfl
    | some found =>
      obtain ⟨label, body⟩ := found
      obtain ⟨header, _, hcs⟩ := heredocHeader?_eq_some_iff.1 hheader
      exact absurd hcs (h header body)
  rw [codeLexeme_heredoc, heredocLength_eq_none_iff.2 hnone]
  rfl

section Place

variable {ps : List (TokenKind × List Char)} {u body v cs : List Char} {h : HeredocHeader}

/-- A heredoc with its body is one token. -/
theorem StandsInCode.tokens_heredoc_closed {b : HeredocBody h.label}
    (hplace : StandsInCode ps u (heredocChars h b ++ v)) (hv : v.head?.any isNameChar = false) :
    tokens (String.ofList (u ++ (heredocChars h b ++ v)))
      = (tokensFrom .code (lineBehind (u ++ heredocChars h b)) v).map fun ts => placedFrom 1 ps
        ++ { kind := .heredoc, text := String.ofList (heredocChars h b), line := lineBehind u } :: ts :=
  hplace.tokens_token (reads_heredoc h b.not_closesLine b.isIndent_blanks hv)

/-- A heredoc is not closed, or what is not closed stands on a later line. -/
theorem StandsInCode.tokens_heredoc_error_iff
    (hplace : StandsInCode ps u ('<' :: '<' :: '<' :: (h.chars ++ body))) :
    tokens (String.ofList (u ++ '<' :: '<' :: '<' :: (h.chars ++ body)))
        = .error { what := .heredoc, line := lineBehind u }
      ↔ ∀ line ∈ body.splitOn '\n', ¬ ClosesLine h.label line := by
  constructor
  · intro herror
    refine (heredocBody_or_none h.label body).resolve_left ?_
    rintro ⟨b, v, rfl, hv⟩
    rw [heredocChars_append] at hplace herror
    rw [hplace.tokens_heredoc_closed hv] at herror
    cases hrest : tokensFrom .code (lineBehind (u ++ heredocChars h b)) v with
    | ok ts =>
      rw [hrest] at herror
      cases herror
    | error e =>
      rw [hrest] at herror
      cases herror
      -- the token has a line break in it, so the fault behind it stands further down
      have hle := le_line_of_tokensFrom_error hrest
      have hpos := List.count_pos_iff.2 (newline_mem_heredocChars h b)
      rw [lineBehind_append] at hle
      dsimp only at hle
      omega
  · intro hopen
    exact hplace.tokens_fault (codeLexeme_heredoc_error hopen)

end Place

/-- **A heredoc ends where the language ends it.** In code let `<<<` stand in front. If a header follows,
then one token reaches through the label on the first line that the label closes; there is such a line, or
else the text cannot be read because of this heredoc. If no header follows, a single mark is read. -/
theorem tokens_heredoc {ps : List (TokenKind × List Char)} {u cs : List Char}
    (hplace : StandsInCode ps u ('<' :: '<' :: '<' :: cs)) :
    let source := String.ofList (u ++ '<' :: '<' :: '<' :: cs)
    (∀ (h : HeredocHeader) body, cs = h.chars ++ body →
        (∀ (b : HeredocBody h.label) v, body = b.chars ++ v → v.head?.any isNameChar = false →
          tokens source = (tokensFrom .code (lineBehind (u ++ heredocChars h b)) v).map fun ts =>
            placedFrom 1 ps
              ++ { kind := .heredoc, text := String.ofList (heredocChars h b), line := lineBehind u } :: ts)
        ∧ (HasHeredocBody h.label body ↔ ∃ line ∈ body.splitOn '\n', ClosesLine h.label line)
        ∧ (tokens source = .error { what := .heredoc, line := lineBehind u }
          ↔ ∀ line ∈ body.splitOn '\n', ¬ ClosesLine h.label line))
      ∧ ((∀ (h : HeredocHeader) body, cs ≠ h.chars ++ body) →
        tokens source = (tokensFrom .code (lineBehind u) ('<' :: '<' :: cs)).map fun ts =>
          placedFrom 1 ps ++ { kind := .mark, text := "<", line := lineBehind u } :: ts) := by
  intro source
  constructor
  · rintro h body rfl
    refine ⟨?_, h.isLabel.hasHeredocBody_iff, hplace.tokens_heredoc_error_iff⟩
    rintro b v rfl hv
    unfold source
    rw [heredocChars_append] at hplace ⊢
    exact hplace.tokens_heredoc_closed hv
  · intro hnone
    have hlexeme : lexeme .code '<' ('<' :: '<' :: cs) = .ok (.mark, 0) := codeLexeme_no_heredoc hnone
    have hmark : Reads .code (['<'] ++ '<' :: '<' :: cs) [(.mark, ['<'])] .code ('<' :: '<' :: cs) :=
      .cut hlexeme .stop
    have htokens := hplace.tokens_token (l := ['<']) hmark
    have hline : lineBehind (u ++ ['<']) = lineBehind u := by rw [lineBehind_append]; rfl
    rw [hline] at htokens
    exact htokens

/-- The header of a nowdoc whose label is beyond ASCII. -/
def nowdocHeader : HeredocHeader where
  blanks := [' ']
  quote := some '\''
  label := ['É']
  lineBreak := ['\r', '\n']
  isIndent_blanks := List.all_eq_true.1 rfl
  quote_eq := by rintro q ⟨⟩; exact Or.inl rfl
  start_label := rfl
  isNameChar_label := List.all_eq_true.1 rfl
  lineBreak_eq := Or.inr rfl

/-- A longer word that begins with the label, and the label in the middle of a line. -/
def nowdocBody : HeredocBody nowdocHeader.label where
  lines := [['É', 'A'], ['a', ' ', 'É']]
  blanks := ['\t']
  not_closesLine := by
    have hopen {line : List Char} (h : closingLength? ['É'] line = none) : ¬ ClosesLine ['É'] line :=
      nowdocHeader.isLabel.closingLength?_eq_none_iff.1 h
    simp only [List.forall_mem_cons]
    exact ⟨⟨by decide, hopen rfl⟩, ⟨by decide, hopen rfl⟩, nofun⟩
  isIndent_blanks := List.all_eq_true.1 rfl

theorem tokens_heredoc_of_nowdoc :
    let ps := [(.openTag, "<?php".toList), (.blank, ['\n'])]
    let source := "<?php\n<<< 'É'\r\nÉA\na É\n\tÉ;"
    StandsInCode ps "<?php\n".toList ('<' :: '<' :: '<' :: (nowdocHeader.chars ++ (nowdocBody.chars ++ [';'])))
      ∧ tokens source = (tokensFrom .code 5 [';']).map fun ts => placedFrom 1 ps
          ++ { kind := .heredoc, text := "<<< 'É'\r\nÉA\na É\n\tÉ", line := 2 } :: ts := by
  intro ps source
  have hplace : StandsInCode ps "<?php\n".toList
      ('<' :: '<' :: '<' :: (nowdocHeader.chars ++ (nowdocBody.chars ++ [';']))) :=
    standsInCode_behind_tag rfl
  have hsource : String.ofList ("<?php\n".toList
      ++ '<' :: '<' :: '<' :: (nowdocHeader.chars ++ (nowdocBody.chars ++ [';']))) = source := by
    decide +kernel
  have htext : String.ofList (heredocChars nowdocHeader nowdocBody) = "<<< 'É'\r\nÉA\na É\n\tÉ" := by
    decide +kernel
  have hline : lineBehind "<?php\n".toList = 2
      ∧ lineBehind ("<?php\n".toList ++ heredocChars nowdocHeader nowdocBody) = 5 := by
    decide +kernel
  have hread := ((tokens_heredoc hplace).1 nowdocHeader _ rfl).1 nowdocBody [';'] rfl rfl
  rw [hsource, htext, hline.1, hline.2] at hread
  exact ⟨hplace, hread⟩

end Source
end Conformance
