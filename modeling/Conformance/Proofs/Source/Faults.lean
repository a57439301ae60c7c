import Conformance.Proofs.Source.Brackets
import Conformance.Proofs.Source.HeredocEnds

/-!
# `Proofs.Source.Faults`: what a message about an open form says

A text that cannot be read is reported with a form and a line. `LeftOpen` gives the texts that open such a
form and do not close it. Where reading fails, such a text stands in front: at the place of the token
itself, whose line is reported, or inside of an attribute that the reading has begun there and that holds
a literal without its closing quote. `exists_leftOpen_of_error` puts the two cases together: the line is
that of the opening mark, short of the line breaks which the attribute has in front of its literal.
-/

namespace Conformance
namespace Source

/-- **A form that is left open.** The text opens it, and nothing in the text closes it. -/
inductive LeftOpen : Literal → List Char → Prop where
  | comment {body : List Char} (h : ¬ ['*', '/'] <:+: body) : LeftOpen .comment ('/' :: '*' :: body)
  | string {quote : Char} {body : List Char} (hquote : quote = '\'' ∨ quote = '"' ∨ quote = '\x60')
      (h : ∀ inner v, Escaped quote inner → body ≠ inner ++ quote :: v) : LeftOpen .string (quote :: body)
  | attr {body : List Char} (h : ∀ inner v, InAttribute 0 0 inner → body ≠ inner ++ ']' :: v) :
      LeftOpen .attr ('#' :: '[' :: body)
  | heredoc (header : HeredocHeader) {body : List Char}
      (h : ∀ line ∈ body.splitOn '\n', ¬ ClosesLine header.label line) :
      LeftOpen .heredoc ('<' :: '<' :: '<' :: (header.chars ++ body))

/-- The beginning of an attribute: what stands in it leaves no literal open and does not close it. -/
def OpenAttribute (front : List Char) : Prop :=
  ∃ n inner, InAttribute 0 n inner ∧ front = '#' :: '[' :: inner

/-- A text that stays inside of an attribute has no bracket that closes it. -/
theorem ne_of_inside {n : Nat} {body inner v : List Char} (h : InAttribute 0 n body)
    (hinner : InAttribute 0 0 inner) : body ≠ inner ++ ']' :: v := by
  rintro rfl
  have herror := attributeLength_of_inside h
  rw [attributeLength_of_inner hinner] at herror
  cases herror

/-- **A token that is not closed** is a form left open, or an attribute in front of such a literal. -/
theorem leftOpen_of_codeLexeme {c : Char} {cs : List Char} {what : Literal}
    (h : codeLexeme c cs = .error what) :
    LeftOpen what (c :: cs)
      ∨ what = .string ∧ ∃ front w, c :: cs = front ++ w ∧ OpenAttribute front ∧ LeftOpen .string w := by
  have hguard := guard_codeForm c cs
  rw [codeLexeme_eq] at h
  cases hform : codeForm c cs <;> rw [hform] at h hguard
  case attr =>
    obtain ⟨rfl, hnext⟩ := hguard
    obtain ⟨body, rfl⟩ := exists_cons_of_head? hnext
    rcases attributeLength_error (eq_error_of_map h) with ⟨rfl, n, hinside⟩ | ⟨rfl, hopens⟩
    · exact Or.inl (.attr fun inner v hinner => ne_of_inside hinside hinner)
    · obtain ⟨n, inner, quote, rest, hinner, hquote, hopen, hbody⟩ := hopens
      have hescape := (ne_of_attributeQuote hquote).1
      have hstring : LeftOpen .string (quote :: rest) :=
        .string (hquote.imp_right Or.inl) ((quotedLength_eq_none_iff hescape).1 hopen)
      refine Or.inr ⟨rfl, '#' :: '[' :: inner, quote :: rest, ?_, ⟨n, inner, hinner, rfl⟩, hstring⟩
      exact congrArg (fun body => '#' :: '[' :: body) hbody
  case blockComment =>
    obtain ⟨rfl, hnext⟩ := hguard
    obtain ⟨body, rfl⟩ := exists_cons_of_head? hnext
    obtain ⟨rfl, hlength⟩ := of_closed_error h
    rw [Option.map_eq_none_iff] at hlength
    exact Or.inl (.comment (not_infix_of_lengthThrough (by decide) hlength))
  case quoted =>
    obtain ⟨rfl, hlength⟩ := of_closed_error h
    have hescape : c ≠ '\\' := by rcases hguard with rfl | rfl | rfl <;> decide
    exact Or.inl (.string hguard ((quotedLength_eq_none_iff hescape).1 hlength))
  case heredoc =>
    obtain ⟨rfl, hnext⟩ := hguard
    obtain ⟨rest, rfl⟩ := List.isPrefixOf_iff_prefix.1 hnext
    obtain ⟨rfl, header, body, hrest, hopen⟩ := of_heredocLength_error (eq_error_of_map h)
    have hbody : rest = header.chars ++ body := hrest
    rw [hbody]
    exact Or.inl (.heredoc header (header.isLabel.heredocBodyLength_eq_none_iff.1 hopen))
  -- the tokens of all other sorts have an end
  all_goals cases h

/-- **What a message about an open form says.** Reading came to stand in code, before a form of this sort
that is left open, or before an attribute with a literal in it that is. The line is that of the opening
mark, except that the line breaks between the beginning of the attribute and the literal are not
counted. -/
theorem exists_leftOpen_of_error {source : String} {e : Unterminated} (h : tokens source = .error e) :
    ∃ ps u front w, source.toList = u ++ (front ++ w) ∧ StandsInCode ps u (front ++ w)
      ∧ LeftOpen e.what w ∧ e.line + front.count '\n' = lineBehind (u ++ front)
      ∧ (front = [] ∨ e.what = .string ∧ OpenAttribute front) := by
  obtain ⟨ps, u, c, rest, hsource, hplace, hfault, hline⟩ := standsInCode_of_error h
  rcases leftOpen_of_codeLexeme hfault with hopen | ⟨hwhat, front, w, hfront, hattr, hopen⟩
  · refine ⟨ps, u, [], c :: rest, hsource, hplace, hopen, ?_, Or.inl rfl⟩
    rw [List.append_nil, hline]
    rfl
  · rw [hfront] at hsource hplace
    rw [← hwhat] at hopen
    refine ⟨ps, u, front, w, hsource, hplace, hopen, ?_, Or.inr ⟨hwhat, hattr⟩⟩
    rw [hline, lineBehind_append]

/-- A literal in an attribute that begins on the same line. -/
theorem exists_leftOpen_of_string :
    let source := "<?php\n#[A('x)]"
    tokens source = .error { what := .string, line := 2 }
      ∧ ∃ ps u front w, source.toList = u ++ (front ++ w) ∧ StandsInCode ps u (front ++ w)
        ∧ LeftOpen .string w ∧ 2 + front.count '\n' = lineBehind (u ++ front)
        ∧ (front = [] ∨ Literal.string = .string ∧ OpenAttribute front) := by
  intro source
  have hplace : StandsInCode [(.openTag, "<?php".toList), (.blank, ['\n'])] "<?php\n".toList
      "#[A('x)]".toList := standsInCode_behind_tag rfl
  have hfault : tokens source = .error { what := .string, line := 2 } := hplace.tokens_fault rfl
  exact ⟨hfault, exists_leftOpen_of_error hfault⟩

/-- The only quote of the text stands on line 3, and the message names line 2. -/
theorem line_of_string_in_attribute :
    let source := "<?php\n#[A(\n'x)]"
    tokens source = .error { what := .string, line := 2 }
      ∧ ∃ u w, source.toList = u ++ '\'' :: w ∧ lineBehind u = 3
        ∧ ∀ c ∈ u ++ w, c ≠ '\'' ∧ c ≠ '"' ∧ c ≠ '\x60' := by
  intro source
  have hplace : StandsInCode [(.openTag, "<?php".toList), (.blank, ['\n'])] "<?php\n".toList
      "#[A(\n'x)]".toList := standsInCode_behind_tag rfl
  have hother : (("<?php\n#[A(\n".toList ++ "x)]".toList).all
      fun c => c ≠ '\'' ∧ c ≠ '"' ∧ c ≠ '\x60') = true := by decide +kernel
  refine ⟨hplace.tokens_fault rfl, "<?php\n#[A(\n".toList, "x)]".toList, by decide +kernel,
    by decide +kernel, ?_⟩
  intro c hc
  exact of_decide_eq_true (List.all_eq_true.1 hother c hc)

end Source
end Conformance
