import Conformance.Proofs.Source.Replacement

/-!
# `Proofs.Source.Inert`: what stands in comments, literals and markup does not matter

The main result, `Outline.ofSource_replace`, compares two texts that differ in one token: text outside of
code, a comment, a literal in quotes or a heredoc, which a text of the same form replaces. What stands
before it is cut into the same pieces, the replacement is read in its place, and what stands behind it is
read in the same mode. So the reader sees the same in both.
-/

namespace Conformance
namespace Source

/-! ## Opening tags -/

/-- A text begins outside of code exactly if there is an opening tag in it. -/
theorem initialMode_eq_html_iff (cs : List Char) :
    initialMode cs = .html ↔ ['<', '?'] <:+: cs := by
  have hbefore : lengthBefore startsTag cs < cs.length ↔ ['<', '?'] <:+: cs := by
    induction cs with
    | nil => simp [lengthBefore]
    | cons c cs ih =>
      rw [lengthBefore, List.infix_cons_iff, ← ih]
      by_cases htag : startsTag (c :: cs) = true
      · rw [if_pos htag]
        exact ⟨fun _ => Or.inl (List.isPrefixOf_iff_prefix.1 htag), fun _ => Nat.succ_pos _⟩
      · rw [if_neg htag, List.length_cons, Nat.succ_lt_succ_iff]
        exact ⟨Or.inr, fun h => h.resolve_left fun hp => htag (List.isPrefixOf_iff_prefix.2 hp)⟩
  unfold initialMode
  rw [← hbefore]
  split
  · next h => exact ⟨fun _ => h, fun _ => rfl⟩
  · next h => exact iff_of_false (by decide) h

variable {m m' : Mode} {cs rest u l l' v : List Char} {ps : List (TokenKind × List Char)}
variable {kind : TokenKind}

theorem one_le_of_startsTag {c : Char} {cs : List Char} (h : startsTag (c :: cs) = true) :
    1 ≤ (htmlLexeme c cs).2 := by
  unfold htmlLexeme
  rw [if_pos h]
  split
  · exact Nat.succ_le_succ (Nat.zero_le _)
  split <;> exact Nat.succ_le_succ (Nat.zero_le _)

/-- Only an opening tag leads into code. -/
theorem Reads.openTag (h : Reads m cs ps m' rest) (hm : m = .html) (hm' : m' = .code) :
    ['<', '?'] <:+: ps.flatMap Prod.snd := by
  induction h with
  | stop =>
    rw [hm] at hm'
    cases hm'
  | @cut m m' c cs rest kind n ps hlexeme _ ih =>
    subst hm
    have hhtml : htmlLexeme c cs = (kind, n) := Except.ok.inj hlexeme
    rw [List.flatMap_cons]
    by_cases htag : startsTag (c :: cs) = true
    · obtain ⟨z, hz⟩ := List.isPrefixOf_iff_prefix.1 htag
      obtain ⟨rfl, htail⟩ := List.cons.inj hz
      obtain rfl : cs = '?' :: z := htail.symm
      have hone := one_le_of_startsTag htag
      rw [hhtml] at hone
      obtain ⟨k, rfl⟩ := Nat.exists_eq_add_of_le' hone
      exact (List.prefix_append ['<', '?'] (z.take k ++ ps.flatMap Prod.snd)).isInfix
    · unfold htmlLexeme at hhtml
      rw [if_neg htag] at hhtml
      cases hhtml
      exact (ih rfl hm').trans (List.suffix_append _ _).isInfix

/-- Behind the code stands a closing tag. -/
theorem closeTag_of_reads {t w : List Char} (h : Reads m (t ++ w) [(kind, t)] .html w)
    (hw : w ≠ []) (htag : startsTag w = false) :
    m = .code ∧ kind = .closeTag ∧ t = ['?', '>'] := by
  obtain ⟨c, cs, rfl, hlexeme, hmode⟩ := Reads.singleton_iff.1 h
  cases m with
  | html =>
    have hkind : kind = .html := by
      have hhtml : (htmlLexeme c (cs ++ w)).1 = kind := congrArg Prod.fst (Except.ok.inj hlexeme)
      rcases htmlLexeme_kind c (cs ++ w) with hopen | hopen
      · rw [← hhtml, hopen] at hmode
        cases hmode
      · exact hhtml.symm.trans hopen
    subst hkind
    have hstop := (lengthBefore_eq_length_iff.1 (mode_eq_html hlexeme).2.2.symm).2
    rw [htag] at hstop
    exact absurd (hstop.resolve_right Bool.false_ne_true) hw
  | code =>
    have hkind : kind = .closeTag := by
      cases kind <;> first | rfl | cases hmode
    subst hkind
    have hkind := kind_mem_kinds hlexeme
    have hguard := guard_codeForm c (cs ++ w)
    have hlexeme : codeLexeme c (cs ++ w) = _ := hlexeme
    rw [codeLexeme_eq] at hlexeme
    cases hform : codeForm c (cs ++ w) <;> rw [hform] at hlexeme hkind hguard
    case closeTag =>
      obtain ⟨rfl, hangle⟩ := hguard
      have hlength : 1 = cs.length := congrArg Prod.snd (Except.ok.inj hlexeme)
      obtain ⟨d, rfl⟩ := List.length_eq_one_iff.1 hlength.symm
      cases hangle
      exact ⟨rfl, rfl, rfl⟩
    all_goals simp [CodeForm.kinds] at hkind

/-! ## The text in front -/

theorem Replaces.ne_openTag (h : Replaces kind l l') : kind ≠ .openTag := by
  cases h with
  | blockComment hkind => rcases hkind with rfl | rfl <;> decide
  | _ => decide

/-- A comment or a literal and its replacement look alike. -/
theorem Replaces.alike (h : Replaces kind l l') (hkind : kind ≠ .html)
    (hl : Reads .code (l ++ v) [(kind, l)] m' v) : Alike (l ++ v) (l' ++ v) := by
  cases h with
  | html _ => exact absurd rfl hkind
  | blockComment _ hprefix _ =>
    obtain ⟨rest, rfl⟩ := hprefix
    exact .mark (by decide) _ _
  | lineComment hopener hprefix =>
    obtain ⟨rest, rfl⟩ := hprefix
    rcases hopener with rfl | rfl <;> exact .mark (by decide) _ _
  | quoted hhead _ =>
    obtain ⟨rest, rfl⟩ := exists_cons_of_head? hhead
    obtain ⟨c, cs, hcs, hlexeme, _⟩ := Reads.singleton_iff.1 hl
    obtain ⟨rfl, rfl⟩ := List.cons.inj hcs
    refine .mark ?_ _ _
    rcases quote_of_quoted hlexeme with rfl | rfl | rfl <;> decide
  | heredoc header hprefix =>
    obtain ⟨rest, rfl⟩ := hprefix
    exact .heredoc _ _

/-- Only a literal in quotes begins with a quote. -/
theorem Replaces.quoted_of_head? (h : Replaces kind l l') (hkind : kind ≠ .html) {q : Char}
    (hq : q = '\'' ∨ q = '"') (hl : (l ++ v).head? = some q) : kind = .quoted := by
  cases h with
  | html _ => exact absurd rfl hkind
  | blockComment _ hprefix _ =>
    obtain ⟨rest, rfl⟩ := hprefix
    cases hl
    exact absurd hq (by decide)
  | lineComment hopener hprefix =>
    obtain ⟨rest, rfl⟩ := hprefix
    rcases hopener with rfl | rfl <;> cases hl <;> exact absurd hq (by decide)
  | quoted _ _ => rfl
  | heredoc header hprefix =>
    obtain ⟨rest, rfl⟩ := hprefix
    cases hl
    exact absurd hq (by decide)

/-- Before text outside of code there is nothing, or a closing tag. -/
theorem reads_before_html (hbefore : Reads .html (u ++ (l ++ v)) ps .html (l ++ v))
    (hl : Reads .html (l ++ v) [(.html, l)] m' v) (htag : ['<', '?'] <:+: u ++ (l ++ v)) :
    Reads .html (u ++ (l' ++ v)) ps .html (l' ++ v) ∧ ['<', '?'] <:+: u ++ (l' ++ v) := by
  obtain ⟨c, cs, rfl, hlexeme, rfl⟩ := Reads.singleton_iff.1 hl
  obtain ⟨_, hstart, hlength⟩ := mode_eq_html hlexeme
  rcases List.eq_nil_or_concat ps with rfl | ⟨qs, ⟨kind, t⟩, rfl⟩
  · -- nothing stands in front, so there is an opening tag behind
    obtain ⟨_, hu⟩ := hbefore.nil_inv
    obtain rfl : u = [] := List.append_left_eq_self.1 hu.symm
    refine ⟨.stop, ?_⟩
    rcases (lengthBefore_eq_length_iff.1 hlength.symm).2 with rfl | hv
    · have hhtml := (initialMode_eq_html_iff _).2 htag
      have hnone : lengthBefore startsTag (c :: (cs ++ [])) = (c :: (cs ++ [])).length := by
        rw [lengthBefore, if_neg (Bool.eq_false_iff.1 hstart), ← hlength, List.append_nil]
        rfl
      unfold initialMode at hhtml
      rw [List.nil_append, List.cons_append, hnone, if_neg (Nat.lt_irrefl _)] at hhtml
      cases hhtml
    · exact (List.isPrefixOf_iff_prefix.1 hv).isInfix.trans (List.suffix_append l' v).isInfix
  · rw [List.concat_eq_append] at hbefore ⊢
    obtain ⟨m₁, hfirst, hlast⟩ := hbefore.append_inv
    rw [List.flatMap_singleton] at hfirst hlast
    obtain ⟨rfl, rfl, rfl⟩ := closeTag_of_reads hlast (List.cons_ne_nil _ _) hstart
    have hu : u = qs.flatMap Prod.snd ++ ['?', '>'] := by
      have happend := hfirst.eq_append
      simp only [← List.append_assoc] at happend
      exact List.append_cancel_right (List.append_cancel_right happend)
    have hopen := hfirst.openTag rfl rfl
    rw [hu, List.append_assoc] at hfirst
    have hswap := hfirst.swap (.closeTag (c :: cs ++ v) (l' ++ v)) fun q hq hhead => by
      cases hhead
      exact absurd hq (by decide)
    have hclose : Reads .code (['?', '>'] ++ (l' ++ v)) [(.closeTag, ['?', '>'])] .html (l' ++ v) :=
      Reads.singleton_iff.2 ⟨'?', ['>'], rfl, rfl, rfl⟩
    rw [hu, List.append_assoc]
    exact ⟨hswap.trans hclose, hopen.trans (List.prefix_append _ _).isInfix⟩

/-- **What stands before a token is read in the same way before its replacement.** -/
theorem Replaces.reads_before (h : Replaces kind l l')
    (hbefore : Reads .html (u ++ (l ++ v)) ps m (l ++ v)) (hl : Reads m (l ++ v) [(kind, l)] m' v)
    (htag : ['<', '?'] <:+: u ++ (l ++ v))
    (hquote : kind = .quoted → ∀ blanks, (∀ c ∈ blanks, isIndent c = true) →
      ¬ ['<', '<', '<'] ++ blanks <:+ u) :
    Reads .html (u ++ (l' ++ v)) ps m (l' ++ v) ∧ ['<', '?'] <:+: u ++ (l' ++ v) := by
  obtain ⟨c, cs, hcs, hlexeme, _⟩ := Reads.singleton_iff.1 hl
  by_cases hkind : kind = .html
  · subst hkind
    obtain ⟨rfl, _, _⟩ := mode_eq_html hlexeme
    exact reads_before_html hbefore hl htag
  · obtain rfl := mode_eq_code hlexeme ⟨hkind, h.ne_openTag⟩
    have hu : ps.flatMap Prod.snd = u := List.append_cancel_right hbefore.eq_append.symm
    refine ⟨hbefore.swap (h.alike hkind hl) fun q hq hhead =>
      hquote (h.quoted_of_head? hkind hq hhead), ?_⟩
    rw [← hu]
    exact (hbefore.openTag rfl rfl).trans (List.prefix_append _ _).isInfix

/-! ## The outline -/

/-- **The text of comments, literals and markup never changes an outline.** In a text with an opening tag,
one such token gives way to a text of its form; of a literal in quotes the text in front must not be the
beginning of a heredoc. Then the two texts are both read or both not, with the same outline. -/
theorem Outline.ofSource_replace (file : String) {kind : TokenKind} {u l v l' : List Char}
    (htag : ['<', '?'] <:+: u ++ (l ++ v)) (hl : IsTokenAt kind u l v) (h : Replaces kind l l')
    (hquote : kind = .quoted → ∀ blanks, (∀ c ∈ blanks, isIndent c = true) →
      ¬ ['<', '<', '<'] ++ blanks <:+ u) :
    (ofSource file (String.ofList (u ++ (l' ++ v)))).toOption
      = (ofSource file (String.ofList (u ++ (l ++ v)))).toOption := by
  obtain ⟨ps, m, m', hbefore, htoken⟩ := hl
  rw [(initialMode_eq_html_iff _).2 htag] at hbefore
  obtain ⟨hbefore', htag'⟩ := h.reads_before hbefore htoken htag hquote
  obtain ⟨qs, htoken', hshapes⟩ := h.reads htoken
  rw [ofSource_toOption, ofSource_toOption, (initialMode_eq_html_iff _).2 htag,
    (initialMode_eq_html_iff _).2 htag', shapesFrom_of_reads hbefore, shapesFrom_of_reads hbefore',
    shapesFrom_of_reads htoken, shapesFrom_of_reads htoken', hshapes]

/-- A literal that looks like the beginning of a class. -/
theorem isTokenAt_literal :
    IsTokenAt .quoted "<?php $a = ".toList "'class A \x7b'".toList "; class B \x7b\x7d".toList :=
  ⟨_, _, _, .cut rfl (.cut rfl (.cut rfl (.cut rfl (.cut rfl (.cut rfl .stop))))),
    Reads.singleton_iff.2 ⟨'\'', "class A \x7b'".toList, rfl, rfl, rfl⟩⟩

/-- With other words and braces in the literal the declarations are the same. -/
theorem Outline.ofSource_replace_literal :
    (ofSource "B.php" (String.ofList
        ("<?php $a = ".toList ++ ("'\x7d interface \x7b'".toList ++ "; class B \x7b\x7d".toList)))).toOption
      = (ofSource "B.php" (String.ofList
        ("<?php $a = ".toList ++ ("'class A \x7b'".toList ++ "; class B \x7b\x7d".toList)))).toOption := by
  have hbody : Escaped '\'' "\x7d interface \x7b".toList := Escaped.of_all (by decide)
  refine ofSource_replace "B.php" ⟨[], _, rfl⟩ isTokenAt_literal (.quoted rfl hbody) ?_
  intro _ blanks _ hsuffix
  -- there is only one angle in the text in front
  have hcount := hsuffix.sublist.count_le '<'
  rw [List.count_append] at hcount
  have hone : "<?php $a = ".toList.count '<' = 1 := by decide
  have hthree : ['<', '<', '<'].count '<' = 3 := by decide
  omega

end Source
end Conformance
