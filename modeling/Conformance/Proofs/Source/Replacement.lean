import Conformance.Proofs.Source.Lookahead
import Conformance.Proofs.Source.Shapes

/-!
# `Proofs.Source.Replacement`: texts of the same form

`Replaces kind l l'` says that `l'` is written in the form of `l`, a token of that kind: text outside of
code, a comment that opens and closes in the same way, a literal in the same quotes, or a heredoc with the
same header. The forms are given without any reading. `Replaces.reads` says that reading agrees with
them: where `l` is cut off as a token, so is `l'`, and the reading goes on in the same mode behind it.
-/

namespace Conformance
namespace Source

/-- **A text in the form of a token.** -/
inductive Replaces : TokenKind → List Char → List Char → Prop where
  /-- Text outside of code, possibly none, does not open any. -/
  | html {l l' : List Char} (htag : ¬ ['<', '?'] <:+: l') : Replaces .html l l'
  /-- A block comment is closed only at its end. -/
  | blockComment {kind : TokenKind} {l body : List Char}
      (hkind : kind = .comment ∨ kind = .docComment) (hl : ['/', '*'] <+: l)
      (hbody : ¬ ['*', '/'] <:+: body ++ ['*']) :
      Replaces kind l ('/' :: '*' :: (body ++ ['*', '/']))
  /-- A line comment has the same opener and ends neither the line nor the code, and it does not open an
  attribute. -/
  | lineComment {opener l body : List Char} (hopener : opener = ['#'] ∨ opener = ['/', '/'])
      (hl : opener <+: l) (hline : '\n' ∉ body) (htag : ¬ ['?', '>'] <:+: body)
      (hattr : ¬ ['#', '['] <+: opener ++ body) : Replaces .comment l (opener ++ body)
  /-- A literal has the same quote at both ends and a backslash in front of every other one. -/
  | quoted {quote : Char} {l body : List Char} (hl : l.head? = some quote)
      (hbody : Escaped quote body) : Replaces .quoted l (quote :: (body ++ [quote]))
  /-- A heredoc has the same header and ends with the first line that the label closes. -/
  | heredoc {l : List Char} (header : HeredocHeader) {lines : List (List Char)} {blanks : List Char}
      (hl : ['<', '<', '<'] ++ header.chars <+: l)
      (hlines : ∀ line ∈ lines, '\n' ∉ line ∧ ¬ ClosesLine header.label line)
      (hblanks : ∀ c ∈ blanks, isIndent c = true) :
      Replaces .heredoc l (['<', '<', '<']
        ++ (header.chars ++ (lines.flatMap (· ++ ['\n']) ++ (blanks ++ header.label))))

/-! ## What the token in place says about the text behind it -/

variable {m m' : Mode} {kind : TokenKind} {l v : List Char}

/-- Only text and opening tags are read outside of code. -/
theorem mode_eq_code {c : Char} {cs : List Char} {n : Nat} (h : lexeme m c cs = .ok (kind, n))
    (hkind : kind ≠ .html ∧ kind ≠ .openTag) : m = .code := by
  cases m with
  | html =>
    have hhtml : (htmlLexeme c cs).1 = kind := congrArg Prod.fst (Except.ok.inj h)
    rcases htmlLexeme_kind c cs with hopen | hopen
    · exact absurd (hhtml.symm.trans hopen) hkind.2
    · exact absurd (hhtml.symm.trans hopen) hkind.1
  | code => rfl

/-- Text outside of code ends where code is opened, or with the whole text. -/
theorem mode_eq_html {c : Char} {cs : List Char} {n : Nat} (h : lexeme m c cs = .ok (.html, n)) :
    m = .html ∧ startsTag (c :: cs) = false ∧ n = lengthBefore startsTag cs := by
  cases m with
  | html =>
    have hhtml : htmlLexeme c cs = (.html, n) := Except.ok.inj h
    unfold htmlLexeme at hhtml
    split at hhtml
    · split at hhtml
      · cases hhtml
      split at hhtml <;> cases hhtml
    · next htag =>
      cases hhtml
      exact ⟨rfl, Bool.eq_false_iff.2 htag, rfl⟩
  | code =>
    have hkind := kind_mem_kinds (show codeLexeme c cs = _ from h)
    cases hform : codeForm c cs <;> rw [hform] at hkind <;> simp [CodeForm.kinds] at hkind

/-! ## The forms are read -/

theorem startsTag_append_eq_false {z : List Char} (hz : z ≠ []) (htag : ¬ ['<', '?'] <:+: z)
    (hv : v = [] ∨ startsTag v = true) : startsTag (z ++ v) = false := by
  rw [Bool.eq_false_iff]
  intro hstarts
  obtain ⟨rest, hrest⟩ := List.isPrefixOf_iff_prefix.1 hstarts
  match z, hz with
  | [a], _ =>
    obtain ⟨rfl, hrest⟩ := List.cons.inj hrest
    rcases hv with rfl | hv
    · cases hrest
    · obtain ⟨rest', rfl⟩ := List.isPrefixOf_iff_prefix.1 hv
      cases hrest
  | a :: b :: z, _ =>
    obtain ⟨rfl, htail⟩ := List.cons.inj hrest
    obtain ⟨rfl, _⟩ := List.cons.inj htail
    exact htag (List.prefix_append ['<', '?'] z).isInfix

/-- Text without an opening tag is read up to one, or to the end. -/
theorem reads_markup {l v : List Char} (hl : l ≠ []) (htag : ¬ ['<', '?'] <:+: l)
    (hv : v = [] ∨ startsTag v = true) : Reads .html (l ++ v) [(.html, l)] .html v := by
  obtain ⟨c, cs, rfl⟩ := List.exists_cons_of_ne_nil hl
  have hnone {z : List Char} (hz : z ≠ []) (hsuffix : z <:+ c :: cs) : startsTag (z ++ v) = false :=
    startsTag_append_eq_false hz (fun hmid => htag (hmid.trans hsuffix.isInfix)) hv
  refine Reads.singleton_iff.2 ⟨c, cs, rfl, ?_, rfl⟩
  show Except.ok (htmlLexeme c (cs ++ v)) = _
  unfold htmlLexeme
  rw [← List.cons_append, hnone (List.cons_ne_nil c cs) (List.suffix_refl _),
    if_neg Bool.false_ne_true, lengthBefore_append (fun y z h hz => ?_) hv]
  exact hnone hz ⟨c :: y, by rw [h, List.cons_append]⟩

theorem reads_html {l' : List Char} (hl : Reads m (l ++ v) [(.html, l)] m' v)
    (htag : ¬ ['<', '?'] <:+: l') :
    ∃ ps, Reads m (l' ++ v) ps m' v ∧ shapes (placedFrom 1 ps) = [] := by
  obtain ⟨c, cs, rfl, hlexeme, rfl⟩ := Reads.singleton_iff.1 hl
  obtain ⟨rfl, _, hlength⟩ := mode_eq_html hlexeme
  have hv : v = [] ∨ startsTag v = true := (lengthBefore_eq_length_iff.1 hlength.symm).2
  by_cases hl' : l' = []
  · subst hl'
    exact ⟨[], .stop, rfl⟩
  · exact ⟨[(.html, l')], reads_markup hl' htag hv, rfl⟩

theorem reads_blockComment (v : List Char) {body : List Char} (hbody : ¬ ['*', '/'] <:+: body ++ ['*']) :
    ∃ ps, Reads .code ('/' :: '*' :: (body ++ ['*', '/']) ++ v) ps .code v
      ∧ shapes (placedFrom 1 ps) = [] := by
  have hlexeme : ∃ kind, (kind = .comment ∨ kind = .docComment)
      ∧ codeLexeme '/' ('*' :: (body ++ ['*', '/']) ++ v)
        = .ok (kind, ('*' :: (body ++ ['*', '/'])).length) := by
    have hform : codeForm '/' ('*' :: (body ++ ['*', '/']) ++ v) = .blockComment := rfl
    rw [codeLexeme_eq, hform]
    refine ⟨if CodeForm.isDoc ('*' :: (body ++ ['*', '/']) ++ v) then .docComment else .comment, ?_, ?_⟩
    · split
      · exact Or.inr rfl
      · exact Or.inl rfl
    · show closed _ .comment ((lengthThrough ['*', '/'] (body ++ ['*', '/'] ++ v)).map (· + 1)) = _
      rw [lengthThrough_comment hbody, List.length_cons, List.length_append]
      rfl
  obtain ⟨kind, hkind, hlexeme⟩ := hlexeme
  refine ⟨[(kind, _)], Reads.singleton_iff.2 ⟨'/', _, rfl, hlexeme, ?_⟩, ?_⟩
  · rcases hkind with rfl | rfl <;> rfl
  · rcases hkind with rfl | rfl <;> rfl

/-- A line comment ends where the line or the code ends, or with the whole text. -/
theorem ends_of_lineComment {c : Char} {cs : List Char}
    (hlexeme : codeLexeme c (cs ++ v) = .ok (.comment, cs.length))
    (hc : c = '#' ∨ (c = '/' ∧ cs.head? = some '/')) : v = [] ∨ endsLineComment v = true := by
  have hkind := kind_mem_kinds hlexeme
  have hguard := guard_codeForm c (cs ++ v)
  rw [codeLexeme_eq] at hlexeme
  cases hform : codeForm c (cs ++ v) <;> rw [hform] at hlexeme hkind hguard
  case lineComment =>
    have hlength : lengthBefore endsLineComment (cs ++ v) = cs.length :=
      congrArg Prod.snd (Except.ok.inj hlexeme)
    exact (lengthBefore_eq_length_iff.1 hlength).2
  case blockComment =>
    obtain ⟨rfl, hstar⟩ := hguard
    obtain ⟨rest, rfl⟩ := exists_cons_of_head? (hc.resolve_left (by decide)).2
    cases hstar
  all_goals simp [CodeForm.kinds] at hkind

/-- Neither the line nor the code ends in such a text. -/
theorem endsLineComment_append_eq_false {z : List Char} (hz : z ≠ []) (hline : '\n' ∉ z)
    (htag : ¬ ['?', '>'] <:+: z) (hv : v = [] ∨ endsLineComment v = true) :
    endsLineComment (z ++ v) = false := by
  obtain ⟨c, z, rfl⟩ := List.exists_cons_of_ne_nil hz
  have hc : c ≠ '\n' := fun heq => hline (heq ▸ List.mem_cons_self)
  unfold endsLineComment
  rw [Bool.or_eq_false_iff]
  refine ⟨by simpa using hc, ?_⟩
  rw [Bool.eq_false_iff]
  intro hclose
  obtain ⟨rest, hrest⟩ := List.isPrefixOf_iff_prefix.1 hclose
  obtain ⟨rfl, htail⟩ := List.cons.inj hrest
  cases z with
  | nil =>
    -- a line comment does not end in front of an angle
    rcases hv with rfl | hv
    · cases htail
    · have hangle : v = '>' :: rest := htail.symm
      rw [hangle] at hv
      cases hv
  | cons d z =>
    obtain ⟨rfl, _⟩ := List.cons.inj htail
    exact htag (List.prefix_append ['?', '>'] z).isInfix

theorem reads_lineComment {opener body : List Char} (hopener : opener = ['#'] ∨ opener = ['/', '/'])
    (hline : '\n' ∉ body) (htag : ¬ ['?', '>'] <:+: body) (hattr : ¬ ['#', '['] <+: opener ++ body)
    (hv : v = [] ∨ endsLineComment v = true) :
    Reads .code (opener ++ body ++ v) [(.comment, opener ++ body)] .code v := by
  have hbody {y z : List Char} (h : body = y ++ z) (hz : z ≠ []) : endsLineComment (z ++ v) = false :=
    endsLineComment_append_eq_false hz (fun hmem => hline (h ▸ List.mem_append_right y hmem))
      (fun hmid => htag (hmid.trans (h ▸ (List.suffix_append y z).isInfix))) hv
  rcases hopener with rfl | rfl
  · have hform : codeForm '#' (body ++ v) = .lineComment := by
      have hbracket : (body ++ v).head? ≠ some '[' := by
        intro hhead
        cases body with
        | nil =>
          obtain ⟨rest, rfl⟩ := exists_cons_of_head? (show v.head? = some '[' from hhead)
          exact absurd (hv.resolve_left (List.cons_ne_nil _ _)) (by simp [endsLineComment])
        | cons d body =>
          cases hhead
          exact hattr (List.prefix_append ['#', '['] body)
      show (if '#' = '#' ∧ (body ++ v).head? = some '[' then CodeForm.attr else _) = _
      rw [if_neg fun hattr => hbracket hattr.2]
      rfl
    refine Reads.singleton_iff.2 ⟨'#', body, rfl, ?_, rfl⟩
    show codeLexeme '#' (body ++ v) = _
    rw [codeLexeme_eq, hform]
    exact congrArg (fun n => Except.ok (_, n)) (lengthBefore_append (fun y z h hz => hbody h hz) hv)
  · have hform : codeForm '/' ('/' :: body ++ v) = .lineComment := rfl
    refine Reads.singleton_iff.2 ⟨'/', '/' :: body, rfl, ?_, rfl⟩
    show codeLexeme '/' ('/' :: body ++ v) = _
    rw [codeLexeme_eq, hform]
    refine congrArg (fun n => Except.ok (_, n)) (lengthBefore_append (fun y z h hz => ?_) hv)
    cases y with
    | nil =>
      rw [← List.nil_append z, ← h]
      rfl
    | cons d y => exact hbody (List.cons.inj h).2 hz

/-- A literal opens with a quote. -/
theorem quote_of_quoted {c : Char} {cs : List Char} {n : Nat}
    (hlexeme : codeLexeme c cs = .ok (.quoted, n)) : c = '\'' ∨ c = '"' ∨ c = '\x60' := by
  have hkind := kind_mem_kinds hlexeme
  have hguard := guard_codeForm c cs
  cases hform : codeForm c cs <;> rw [hform] at hkind hguard
  case quoted => exact hguard
  all_goals simp [CodeForm.kinds] at hkind

theorem reads_quoted {quote : Char} {body : List Char}
    (hquote : quote = '\'' ∨ quote = '"' ∨ quote = '\x60') (hbody : Escaped quote body) :
    Reads .code (quote :: (body ++ [quote]) ++ v) [(.quoted, quote :: (body ++ [quote]))] .code v := by
  have hform : codeForm quote (body ++ [quote] ++ v) = .quoted := by
    rcases hquote with rfl | rfl | rfl <;> rfl
  have hescape : quote ≠ '\\' := by
    rcases hquote with rfl | rfl | rfl <;> decide
  refine Reads.singleton_iff.2 ⟨quote, body ++ [quote], rfl, ?_, rfl⟩
  show codeLexeme quote (body ++ [quote] ++ v) = _
  rw [codeLexeme_eq, hform]
  show closed .quoted .string (quotedLength quote (body ++ [quote] ++ v)) = _
  rw [List.append_assoc, List.singleton_append, quotedLength_escaped hescape hbody, List.length_append]
  rfl

/-- Behind a heredoc its label does not go on. -/
theorem no_name_after_heredoc {c : Char} {cs : List Char}
    (hlexeme : codeLexeme c (cs ++ v) = .ok (.heredoc, cs.length)) :
    v.head?.any isNameChar = false := by
  have hkind := kind_mem_kinds hlexeme
  rw [codeLexeme_eq] at hlexeme
  cases hform : codeForm c (cs ++ v) <;> rw [hform] at hlexeme hkind
  case heredoc =>
    obtain ⟨found, hfound, hn⟩ := exists_of_map_ok hlexeme
    cases found with
    | none => cases hn
    | some k =>
      have hlength : k + 2 = cs.length := congrArg Prod.snd hn
      have hword := (heredocLength_bounds hfound).2
      rwa [List.drop_drop, Nat.add_comm, hlength, List.drop_left] at hword
  all_goals simp [CodeForm.kinds] at hkind

theorem reads_heredoc (header : HeredocHeader) {lines : List (List Char)} {blanks : List Char}
    (hlines : ∀ line ∈ lines, '\n' ∉ line ∧ ¬ ClosesLine header.label line)
    (hblanks : ∀ c ∈ blanks, isIndent c = true) (hv : v.head?.any isNameChar = false) :
    let l' := ['<', '<', '<']
      ++ (header.chars ++ (lines.flatMap (· ++ ['\n']) ++ (blanks ++ header.label)))
    Reads .code (l' ++ v) [(.heredoc, l')] .code v := by
  intro l'
  let rest := lines.flatMap (· ++ ['\n']) ++ (blanks ++ header.label)
  refine Reads.singleton_iff.2 ⟨'<', '<' :: '<' :: (header.chars ++ rest), rfl, ?_, rfl⟩
  have hbody : heredocBodyLength header.label true (rest ++ v) = some rest.length := by
    rw [List.append_assoc, List.append_assoc,
      header.isLabel.heredocBodyLength_lines hlines hblanks hv, List.length_append,
      List.length_append]
  have hlength : heredocLength (header.chars ++ rest ++ v)
      = .ok (some (header.chars.length + rest.length)) := by
    rw [List.append_assoc, heredocLength_chars, hbody]
  show codeLexeme '<' ('<' :: '<' :: (header.chars ++ rest ++ v)) = _
  rw [codeLexeme_heredoc, hlength, ← List.length_append]
  rfl

/-- **A text in the form of a token is read in its place.** The reading goes on behind it in the same
mode, and the reader sees the same. -/
theorem Replaces.reads {l' : List Char} (h : Replaces kind l l')
    (hl : Reads m (l ++ v) [(kind, l)] m' v) :
    ∃ ps, Reads m (l' ++ v) ps m' v ∧ shapes (placedFrom 1 ps) = shapes (placedFrom 1 [(kind, l)]) := by
  obtain ⟨c, cs, hcs, hlexeme, hmode⟩ := Reads.singleton_iff.1 hl
  cases h with
  | html htag => exact reads_html hl htag
  | blockComment hkind _ hbody =>
    obtain rfl : m = .code := mode_eq_code hlexeme (by rcases hkind with rfl | rfl <;> decide)
    obtain ⟨ps, hps, hshapes⟩ := reads_blockComment v hbody
    rcases hkind with rfl | rfl <;> cases hmode <;> exact ⟨ps, hps, hshapes⟩
  | @lineComment opener _ body hopener hprefix hline htag hattr =>
    obtain rfl : m = .code := mode_eq_code hlexeme (by decide)
    have hv : v = [] ∨ endsLineComment v = true := by
      refine ends_of_lineComment hlexeme ?_
      obtain ⟨rest, rfl⟩ := hprefix
      rcases hopener with rfl | rfl
      · exact Or.inl (List.cons.inj hcs).1.symm
      · exact Or.inr ⟨(List.cons.inj hcs).1.symm, by rw [← (List.cons.inj hcs).2]; rfl⟩
    cases hmode
    exact ⟨_, reads_lineComment hopener hline htag hattr hv, rfl⟩
  | @quoted quote _ body hhead hbody =>
    obtain rfl : m = .code := mode_eq_code hlexeme (by decide)
    rw [hcs] at hhead
    obtain rfl : c = quote := Option.some.inj hhead
    have hquote := quote_of_quoted hlexeme
    cases hmode
    exact ⟨_, reads_quoted hquote hbody, rfl⟩
  | @heredoc _ header lines blanks _ hlines hblanks =>
    obtain rfl : m = .code := mode_eq_code hlexeme (by decide)
    have hv : v.head?.any isNameChar = false := no_name_after_heredoc hlexeme
    cases hmode
    exact ⟨_, reads_heredoc header hlines hblanks hv, rfl⟩

end Source
end Conformance
