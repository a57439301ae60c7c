import Conformance.Proofs.Source.Insertion
import Conformance.Proofs.Source.Lossless

/-!
# `Proofs.Source.Layout`: layout does not matter

The main result, `Outline.ofSource_insert_blanks`, compares a text with the one that has blanks between two
of its tokens. In front of the blanks the tokens are the same, except that the last one may take some of
them in; what is left of the blanks is passed over, and behind them the reading goes on in the same mode.
It begins in the same mode, too: blanks make no opening tag, and between the two characters of the only
one there is no room for them. So the reader sees the same in both texts.
-/

namespace Conformance
namespace Source

/-! ## Pairs of characters -/

/-- Two characters that stand side by side in a text of two parts stand in one of them or at the seam. -/
theorem pair_infix_append_iff {a b : Char} {xs ys : List Char} :
    [a, b] <:+: xs ++ ys
      ↔ [a, b] <:+: xs ∨ [a, b] <:+: ys ∨ (xs.getLast? = some a ∧ ys.head? = some b) := by
  induction xs with
  | nil => simp
  | cons x xs ih =>
    rw [List.cons_append, List.infix_cons_iff, List.infix_cons_iff, ih]
    cases xs with
    | nil =>
      have hseam : [a, b] <+: x :: ys ↔ [x].getLast? = some a ∧ ys.head? = some b := by
        cases ys with
        | nil => simp
        | cons y ys => simp [List.cons_prefix_cons, eq_comm (a := a), eq_comm (a := b)]
      rw [List.nil_append, hseam]
      simp [or_comm]
    | cons y xs => simp [List.cons_prefix_cons, List.getLast?_cons_cons, or_assoc]

variable {blanks l u w : List Char} {m m' : Mode} {c : Char} {kind : TokenKind}
  {ps : List (TokenKind × List Char)}

/-- Blanks are no part of a tag. -/
theorem not_infix_append_blanks {a b : Char} (hab : b ∉ asciiBlanks)
    (hblanks : ∀ c ∈ blanks, Text.isAsciiBlank c = true) (hl : ¬ [a, b] <:+: l) :
    ¬ [a, b] <:+: l ++ blanks := by
  have hnone : b ∉ blanks := fun hmem => hab (mem_asciiBlanks (hblanks b hmem))
  rw [pair_infix_append_iff]
  rintro (hmid | hmid | ⟨-, hhead⟩)
  · exact hl hmid
  · exact hnone (hmid.subset (List.mem_cons_of_mem a List.mem_cons_self))
  · exact hnone (List.mem_of_mem_head? hhead)

/-! ## Blanks are passed over -/

/-- Tokens that are trivia show nothing to the reader. -/
theorem shapesFrom_of_shapes_eq_nil {cs rest : List Char} (h : Reads m cs ps m' rest)
    (hshapes : shapes (placedFrom 1 ps) = []) : shapesFrom m cs = shapesFrom m' rest := by
  rw [shapesFrom_of_reads h, hshapes]
  exact Option.map_id'

theorem shapesFrom_dropWhile (cs : List Char) :
    shapesFrom .code (cs.dropWhile Text.isAsciiBlank) = shapesFrom .code cs := by
  cases cs with
  | nil => rfl
  | cons c cs =>
    by_cases hc : Text.isAsciiBlank c = true
    · have hlexeme : lexeme .code c cs = .ok (.blank, (cs.takeWhile Text.isAsciiBlank).length) :=
        if_pos hc
      have hreads := Reads.cut hlexeme .stop
      rw [Bytes.drop_length_takeWhile] at hreads
      rw [List.dropWhile_cons_of_pos hc]
      exact (shapesFrom_of_shapes_eq_nil hreads rfl).symm
    · rw [List.dropWhile_cons_of_neg hc]

theorem shapesFrom_drop_lengthBefore (cs : List Char) :
    shapesFrom .html (cs.drop (lengthBefore startsTag cs)) = shapesFrom .html cs := by
  cases cs with
  | nil => rfl
  | cons c cs =>
    rw [lengthBefore]
    split
    · rfl
    · next htag =>
      have hlexeme : lexeme .html c cs = .ok (.html, lengthBefore startsTag cs) :=
        congrArg Except.ok (if_neg htag)
      exact (shapesFrom_of_shapes_eq_nil (Reads.cut hlexeme .stop) rfl).symm

/-- **Blanks in front of a text show nothing to the reader.** -/
theorem shapesFrom_blanks (m : Mode) (hblanks : ∀ c ∈ blanks, Text.isAsciiBlank c = true)
    (w : List Char) : shapesFrom m (blanks ++ w) = shapesFrom m w := by
  cases m with
  | code =>
    rw [← shapesFrom_dropWhile (blanks ++ w), List.dropWhile_append_of_pos hblanks,
      shapesFrom_dropWhile]
  | html =>
    have hdrop : (blanks ++ w).drop (lengthBefore startsTag (blanks ++ w))
        = w.drop (lengthBefore startsTag w) := by
      induction blanks with
      | nil => rfl
      | cons b blanks ih =>
        have hb : startsTag (b :: (blanks ++ w)) = false := by
          rw [Bool.eq_false_iff]
          intro htag
          obtain ⟨z, hz⟩ := List.isPrefixOf_iff_prefix.1 htag
          obtain ⟨rfl, -⟩ := List.cons.inj hz
          exact absurd (hblanks '<' List.mem_cons_self) (by decide)
        rw [List.cons_append, lengthBefore, if_neg (Bool.eq_false_iff.1 hb), List.drop_succ_cons]
        exact ih fun c hc => hblanks c (List.mem_cons_of_mem b hc)
    rw [← shapesFrom_drop_lengthBefore (blanks ++ w), hdrop, shapesFrom_drop_lengthBefore]

/-! ## Tokens that take blanks in -/

/-- What is in front is a token that reaches over blanks behind it: text outside of code, blanks, or a line
comment. -/
def TakesBlanks (m : Mode) (c : Char) (cs : List Char) : Prop :=
  match m with
  | .html => startsTag (c :: cs) = false
  | .code => codeForm c cs = .blank ∨ codeForm c cs = .lineComment

/-- A line comment has no end in it, and one behind it. -/
theorem of_lineComment (hlexeme : codeLexeme c (l ++ w) = .ok (kind, l.length))
    (hform : codeForm c (l ++ w) = .lineComment) :
    kind = .comment ∧ '\n' ∉ l ∧ ¬ ['?', '>'] <:+: l ∧ (w = [] ∨ endsLineComment w = true) := by
  rw [codeLexeme_eq, hform] at hlexeme
  obtain ⟨rfl, hlength⟩ := Prod.mk.inj (Except.ok.inj hlexeme)
  obtain ⟨hline, htag⟩ := of_lengthBefore_endsLineComment hlength
  exact ⟨rfl, hline, htag, (lengthBefore_eq_length_iff.1 hlength).2⟩

/-- Text outside of code has no opening tag in it, and one behind it. -/
theorem of_html (hlexeme : lexeme m c (l ++ w) = .ok (.html, l.length)) :
    m = .html ∧ ¬ ['<', '?'] <:+: c :: l ∧ (w = [] ∨ startsTag w = true) := by
  obtain ⟨rfl, hstart, hlength⟩ := mode_eq_html hlexeme
  have hlength' : lengthBefore startsTag (c :: l ++ w) = (c :: l).length := by
    rw [List.cons_append, lengthBefore, if_neg (Bool.eq_false_iff.1 hstart), ← hlength]
    rfl
  obtain ⟨hnone, hstop⟩ := lengthBefore_eq_length_iff.1 hlength'
  exact ⟨rfl, not_infix_of_stop (List.cons_ne_nil _ _) hnone, hstop⟩

theorem exists_line (cs : List Char) :
    ∃ line rest, cs = line ++ rest ∧ '\n' ∉ line ∧ (rest = [] ∨ rest.head? = some '\n') := by
  induction cs with
  | nil => exact ⟨[], [], rfl, nofun, Or.inl rfl⟩
  | cons c cs ih =>
    by_cases hc : c = '\n'
    · exact ⟨[], c :: cs, rfl, nofun, Or.inr (congrArg some hc)⟩
    · obtain ⟨line, rest, rfl, hline, hrest⟩ := ih
      refine ⟨c :: line, rest, rfl, fun hmem => ?_, hrest⟩
      exact (List.mem_cons.1 hmem).elim (fun heq => hc heq.symm) hline

theorem isAsciiBlank_of_codeForm {cs : List Char} (h : codeForm c cs = .blank) :
    Text.isAsciiBlank c = true := by
  by_cases hc : Text.isAsciiBlank c = true
  · exact hc
  · -- the other sorts are different
    rw [codeForm, if_neg hc] at h
    simp only [apply_ite (· = CodeForm.blank), reduceCtorEq, ite_self] at h

/-- A line comment takes blanks in up to the first line break. -/
theorem shapesFrom_lineComment (hb : IsBlanks blanks)
    (hlexeme : codeLexeme c (l ++ w) = .ok (kind, l.length))
    (hform : codeForm c (l ++ w) = .lineComment) :
    shapesFrom .code (c :: l ++ (blanks ++ w)) = shapesFrom .code w := by
  have hangle : c ≠ '<' := by
    have hguard := guard_codeForm c (l ++ w)
    rw [hform] at hguard
    rintro rfl
    rcases hguard with hc | ⟨hc, -⟩ <;> cases hc
  have hsort := codeForm_insert (u := []) hb hangle hlexeme
  rw [List.nil_append, List.nil_append, hform] at hsort
  obtain ⟨-, hline, htag, hends⟩ := of_lineComment hlexeme hform
  -- the blanks up to the line break belong to the comment
  obtain ⟨inside, behind, rfl, hinside, hbehind⟩ := exists_line blanks
  have hblank := List.forall_mem_append.1 hb.isAsciiBlank
  have hends' : behind ++ w = [] ∨ endsLineComment (behind ++ w) = true := by
    rcases hbehind with rfl | hbreak
    · exact hends
    · obtain ⟨rest, rfl⟩ := exists_cons_of_head? hbreak
      exact Or.inr rfl
  have hlength' : lengthBefore endsLineComment (l ++ inside ++ (behind ++ w)) = (l ++ inside).length :=
    lengthBefore_endsLineComment (fun hmem => (List.mem_append.1 hmem).elim hline hinside)
      (not_infix_append_blanks (by decide) hblank.1 htag) hends'
  have htext : l ++ (inside ++ behind ++ w) = l ++ inside ++ (behind ++ w) := by
    simp only [List.append_assoc]
  have hreads : Reads .code (c :: (l ++ inside) ++ (behind ++ w)) [(.comment, c :: (l ++ inside))] .code
      (behind ++ w) := by
    refine Reads.singleton_iff.2 ⟨c, l ++ inside, rfl, ?_, rfl⟩
    show codeLexeme c _ = _
    rw [← htext, codeLexeme_eq, hsort, htext]
    exact congrArg (fun n => Except.ok (_, n)) hlength'
  rw [List.cons_append, htext, ← List.cons_append, shapesFrom_of_shapes_eq_nil hreads rfl]
  exact shapesFrom_blanks .code hblank.2 w

/-- **A token that takes blanks in shows nothing to the reader**, with or without blanks behind it. -/
theorem shapesFrom_takesBlanks (hb : IsBlanks blanks)
    (hlexeme : lexeme m c (l ++ w) = .ok (kind, l.length)) (htakes : TakesBlanks m c (l ++ w)) :
    shapesFrom m (c :: l ++ (blanks ++ w)) = shapesFrom m (c :: l ++ w) := by
  have htoken : Reads m (c :: l ++ w) [(kind, c :: l)] (kind.modeAfter m) w :=
    Reads.singleton_iff.2 ⟨c, l, rfl, hlexeme, rfl⟩
  cases m with
  | html =>
    have hhtml : htmlLexeme c (l ++ w) = (kind, l.length) := Except.ok.inj hlexeme
    rw [htmlLexeme, if_neg (Bool.eq_false_iff.1 htakes)] at hhtml
    obtain rfl : TokenKind.html = kind := congrArg Prod.fst hhtml
    obtain ⟨-, htag, hstop⟩ := of_html hlexeme
    have hne : c :: l ++ blanks ≠ [] := List.cons_ne_nil c (l ++ blanks)
    have hreads := reads_markup hne (not_infix_append_blanks (by decide) hb.isAsciiBlank htag) hstop
    rw [← List.append_assoc, shapesFrom_of_shapes_eq_nil hreads rfl]
    exact (shapesFrom_of_shapes_eq_nil htoken rfl).symm
  | code =>
    rcases htakes with hform | hform
    · have hlexeme : codeLexeme c (l ++ w) = .ok (kind, l.length) := hlexeme
      rw [codeLexeme_eq, hform] at hlexeme
      obtain ⟨rfl, hlength⟩ := Prod.mk.inj (Except.ok.inj hlexeme)
      have hcl : ∀ d ∈ c :: l, Text.isAsciiBlank d = true :=
        List.forall_mem_cons.2 ⟨isAsciiBlank_of_codeForm hform, (of_length_takeWhile hlength).1⟩
      rw [shapesFrom_of_shapes_eq_nil htoken rfl, shapesFrom_blanks .code hcl]
      exact shapesFrom_blanks .code hb.isAsciiBlank w
    · obtain ⟨rfl, -⟩ := of_lineComment hlexeme hform
      rw [shapesFrom_lineComment hb hlexeme hform]
      exact (shapesFrom_of_shapes_eq_nil htoken rfl).symm

/-! ## What begins behind a token

The text behind a token goes on with tokens up to the place where the blanks come in. A mark that a token
in front looks for is one of these tokens or a part of it, so the place is not inside of it. -/

theorem endsLineComment_insert (h : Reads .code (u ++ w) ps m' w) (hu : u ≠ [])
    (hends : endsLineComment (u ++ w) = true) (blanks : List Char) :
    endsLineComment (u ++ (blanks ++ w)) = true := by
  obtain ⟨d, us, rfl⟩ := List.exists_cons_of_ne_nil hu
  rcases Bool.or_eq_true_iff.1 hends with hbreak | hclose
  · exact Bool.or_eq_true_iff.2 (Or.inl hbreak)
  · obtain ⟨z, hz⟩ := List.isPrefixOf_iff_prefix.1 hclose
    obtain ⟨rfl, htail⟩ := List.cons.inj hz
    cases us with
    | cons d us =>
      obtain ⟨rfl, -⟩ := List.cons.inj htail
      rfl
    | nil =>
      -- the closing tag would reach over the place
      obtain rfl : '>' :: z = w := htail
      obtain ⟨kind, n, qs, hlexeme, -, hle, -⟩ := h.cons_inv (Nat.le_refl _)
      cases hlexeme
      exact absurd hle (by simp)

theorem startsTag_insert (h : Reads .html (u ++ w) ps m' w) (hu : u ≠ [])
    (htag : startsTag (u ++ w) = true) (blanks : List Char) : startsTag (u ++ (blanks ++ w)) = true := by
  obtain ⟨d, us, rfl⟩ := List.exists_cons_of_ne_nil hu
  obtain ⟨z, hz⟩ := List.isPrefixOf_iff_prefix.1 htag
  obtain ⟨rfl, htail⟩ := List.cons.inj hz
  cases us with
  | cons d us =>
    obtain ⟨rfl, -⟩ := List.cons.inj htail
    rfl
  | nil =>
    -- the opening tag would reach over the place
    obtain ⟨kind, n, qs, hlexeme, -, hle, -⟩ := h.cons_inv (Nat.le_refl _)
    have hone := one_le_of_startsTag htag
    rw [Except.ok.inj hlexeme] at hone
    have hle : n + w.length ≤ w.length := hle
    omega

/-- An angle that no two others follow is a mark. -/
theorem Reads.mark_of_angle {ys : List Char} (h : Reads .code ('<' :: ys ++ w) ps m' w)
    (hys : ¬ ['<', '<'] <+: ys) : ∃ qs, ps = (.mark, ['<']) :: qs ∧ Reads .code (ys ++ w) qs m' w := by
  obtain ⟨kind, n, qs, hlexeme, hps, hle, hrest⟩ := h.cons_inv
    (show w.length ≤ (ys ++ w).length by rw [List.length_append]; exact Nat.le_add_left _ _)
  have hle : n + w.length ≤ (ys ++ w).length := hle
  rcases codeLexeme_angle_cases hlexeme with ⟨rfl, rfl⟩ | ⟨rest, k, hcs, -, -, rfl⟩
  · exact ⟨qs, hps, hrest⟩
  · rw [List.length_append] at hle
    match ys, hle with
    | [], hle => exact absurd hle (by rw [List.length_nil]; omega)
    | [a], hle => exact absurd hle (by rw [List.length_singleton]; omega)
    | a :: b :: ys, _ =>
      obtain ⟨rfl, htail⟩ := List.cons.inj hcs
      obtain ⟨rfl, -⟩ := List.cons.inj htail
      exact absurd (List.prefix_append ['<', '<'] ys) hys

/-- Three marks `<` in a row. -/
def angles : List (TokenKind × List Char) := List.replicate 3 (.mark, ['<'])

/-- Blanks behind an angle complete no header, unless it is the first of three marks. -/
theorem heredocHeader?_insert (hb : IsBlanks blanks) (h : Reads .code (u ++ w) ps m' w)
    (hangles : ¬ angles <:+: (.mark, ['<']) :: ps) {rest : List Char}
    (hrest : u ++ (blanks ++ w) = '<' :: '<' :: rest) : heredocHeader? rest = none := by
  have hnot : (blanks ++ w).head? ≠ some '<' := hb.head?_ne (by decide) w
  match u with
  | [] => exact absurd (congrArg List.head? hrest) hnot
  | [a] => exact absurd (congrArg List.head? (List.cons.inj hrest).2) hnot
  | a :: b :: ys =>
    obtain ⟨rfl, htail⟩ := List.cons.inj hrest
    obtain ⟨rfl, rfl⟩ := List.cons.inj htail
    by_cases hys : ys.head? = some '<'
    · obtain ⟨zs, rfl⟩ := exists_cons_of_head? hys
      rfl
    · refine absurd ?_ hangles
      have hfirst : Reads .code ('<' :: ('<' :: ys) ++ w) ps m' w := h
      obtain ⟨ps, rfl, hsecond⟩ := hfirst.mark_of_angle fun ⟨z, hz⟩ =>
        hys (congrArg List.head? (List.cons.inj hz).2).symm
      obtain ⟨qs, rfl, -⟩ := hsecond.mark_of_angle fun ⟨z, hz⟩ => hys (congrArg List.head? hz).symm
      exact (List.prefix_append angles qs).isInfix

/-! ## Tokens in front of the blanks -/

/-- **A token in front of blanks stays what it is**, unless it takes them in. -/
theorem lexeme_insert (hb : IsBlanks blanks) (hlexeme : lexeme m c (l ++ (u ++ w)) = .ok (kind, l.length))
    (hrest : Reads (kind.modeAfter m) (u ++ w) ps m' w) (htakes : u = [] → ¬ TakesBlanks m c (l ++ w))
    (hangles : ¬ angles <:+: (kind, c :: l) :: ps) :
    lexeme m c (l ++ (u ++ (blanks ++ w))) = .ok (kind, l.length) := by
  have hne {z : List Char} (h : u ≠ []) : u ++ z ≠ [] := List.append_ne_nil_of_left_ne_nil h z
  cases m with
  | html =>
    have hhtml : htmlLexeme c (l ++ (u ++ w)) = (kind, l.length) := Except.ok.inj hlexeme
    show Except.ok (htmlLexeme c _) = _
    rcases htmlLexeme_kind c (l ++ (u ++ w)) with hkind | hkind
    · obtain rfl : kind = .openTag := by rw [← hkind, hhtml]
      rw [htmlLexeme_openTag_insert hb hhtml]
    · obtain rfl : kind = .html := by rw [← hkind, hhtml]
      obtain ⟨-, htag, hstop⟩ := of_html hlexeme
      have hu : u ≠ [] := by
        rintro rfl
        exact htakes rfl (mode_eq_html hlexeme).2.1
      have hstop' := startsTag_insert hrest hu (hstop.resolve_left (hne hu)) blanks
      obtain ⟨c', l', hcl, hlexeme', -⟩ :=
        Reads.singleton_iff.1 (reads_markup (List.cons_ne_nil c l) htag (Or.inr hstop'))
      cases hcl
      exact hlexeme'
  | code =>
    have hlexeme : codeLexeme c (l ++ (u ++ w)) = .ok (kind, l.length) := hlexeme
    refine codeLexeme_insert hb hlexeme (fun hform => ?_) (fun hform => ?_) ?_
    · rintro rfl
      exact htakes rfl (Or.inl hform)
    · obtain ⟨rfl, -, -, hends⟩ := of_lineComment hlexeme hform
      have hu : u ≠ [] := by
        rintro rfl
        exact htakes rfl (Or.inr hform)
      exact endsLineComment_insert hrest hu (hends.resolve_left (hne hu)) blanks
    · rintro rfl rfl rest hheader
      obtain ⟨rfl, -⟩ | ⟨_, _, -, -, -, hn⟩ := codeLexeme_angle_cases hlexeme
      · exact heredocHeader?_insert hb hrest hangles hheader
      · cases hn

/-! ## Runs in front of the blanks -/

/-- **Blanks between two tokens show nothing to the reader.** What stands in front of them is cut into
pieces up to the place; nothing is said about what stands behind. -/
theorem shapesFrom_insert (hb : IsBlanks blanks) (h : Reads m (u ++ w) ps m' w)
    (hangles : ¬ angles <:+: ps) : shapesFrom m (u ++ (blanks ++ w)) = shapesFrom m (u ++ w) := by
  induction ps generalizing m u with
  | nil =>
    obtain ⟨rfl, hw⟩ := h.nil_inv
    obtain rfl : u = [] := List.append_left_eq_self.1 hw.symm
    exact shapesFrom_blanks m' hb.isAsciiBlank w
  | cons p ps ih =>
    obtain ⟨c, u, rfl⟩ : ∃ d us, u = d :: us := by
      refine List.exists_cons_of_ne_nil fun hnil => ?_
      subst hnil
      have hempty := List.append_left_eq_self.1 h.eq_append.symm
      rw [List.flatMap_cons, List.append_eq_nil_iff] at hempty
      exact h.ne_nil p List.mem_cons_self hempty.1
    rw [List.cons_append] at h
    obtain ⟨kind, n, qs, hlexeme, hps, hle, hrest⟩ := h.cons_inv
      (by rw [List.length_append]; exact Nat.le_add_left _ _)
    cases hps
    obtain ⟨l, us, rfl, rfl⟩ : ∃ l us, u = l ++ us ∧ l.length = n := by
      rw [List.length_append] at hle
      exact ⟨u.take n, u.drop n, (List.take_append_drop n u).symm,
        List.length_take_of_le (Nat.le_of_add_le_add_right hle)⟩
    rw [List.append_assoc] at hlexeme hrest hangles
    rw [List.drop_left] at hrest
    rw [List.take_left] at hangles
    by_cases htakes : us = [] ∧ TakesBlanks m c (l ++ w)
    · obtain ⟨rfl, htakes⟩ := htakes
      rw [List.append_nil]
      exact shapesFrom_takesBlanks hb hlexeme htakes
    · have hlexeme' := lexeme_insert hb hlexeme hrest (fun hus htakes' => htakes ⟨hus, htakes'⟩) hangles
      have htoken {v : List Char} (hv : lexeme m c (l ++ v) = .ok (kind, l.length)) :
          Reads m (c :: l ++ v) [(kind, c :: l)] (kind.modeAfter m) v :=
        Reads.singleton_iff.2 ⟨c, l, rfl, hv, rfl⟩
      have hrun := ih hrest fun hmid => hangles (hmid.trans (List.suffix_cons _ _).isInfix)
      rw [← List.cons_append, List.append_assoc, List.append_assoc, shapesFrom_of_reads (htoken hlexeme),
        shapesFrom_of_reads (htoken hlexeme'), hrun]

/-! ## The mode in the beginning -/

/-- No place between two tokens lies inside of the first opening tag. -/
theorem Reads.infix_of_seam (h : Reads .html (u ++ w) ps m' w) (hlast : u.getLast? = some '<')
    (hhead : w.head? = some '?') : ['<', '?'] <:+: u := by
  have hu : ps.flatMap Prod.snd = u := List.append_cancel_right h.eq_append.symm
  cases m' with
  | code => exact hu ▸ h.openTag rfl rfl
  | html =>
    obtain ⟨z, rfl⟩ := exists_cons_of_head? hhead
    rcases List.eq_nil_or_concat ps with rfl | ⟨qs, ⟨kind, t⟩, rfl⟩
    · rw [← hu] at hlast
      cases hlast
    · -- the piece in front of the place is a closing tag
      rw [List.concat_eq_append] at h hu
      obtain ⟨m₁, -, htoken⟩ := h.append_inv
      rw [List.flatMap_singleton] at htoken
      obtain ⟨-, -, rfl⟩ := closeTag_of_reads htoken (List.cons_ne_nil _ _) rfl
      rw [← hu, List.flatMap_append, List.flatMap_singleton, List.getLast?_append] at hlast
      cases hlast

/-- **Blanks between two tokens neither make an opening tag nor break the first one.** -/
theorem initialMode_insert (hb : IsBlanks blanks)
    (h : Reads (initialMode (u ++ w)) (u ++ w) ps m' w) :
    initialMode (u ++ (blanks ++ w)) = initialMode (u ++ w) := by
  have hnot {d : Char} (hd : d ∉ asciiBlanks) : d ∉ blanks :=
    fun hmem => hd (mem_asciiBlanks (hb.isAsciiBlank d hmem))
  have hiff : ['<', '?'] <:+: u ++ (blanks ++ w) ↔ ['<', '?'] <:+: u ++ w := by
    constructor
    · rw [pair_infix_append_iff, pair_infix_append_iff]
      rintro (hu | (hmid | hw | ⟨hlast, -⟩) | ⟨-, hhead⟩)
      · exact hu.trans (List.prefix_append u w).isInfix
      · exact absurd (hmid.subset (List.mem_cons_of_mem '<' List.mem_cons_self)) (hnot (by decide))
      · exact hw.trans (List.suffix_append u w).isInfix
      · exact absurd (List.mem_of_getLast? hlast) (hnot (by decide))
      · exact absurd hhead (hb.head?_ne (by decide) w)
    · intro htag
      rw [(initialMode_eq_html_iff _).2 htag] at h
      rcases pair_infix_append_iff.1 htag with hu | hw | ⟨hlast, hhead⟩
      · exact hu.trans (List.prefix_append u _).isInfix
      · exact hw.trans ((List.suffix_append blanks w).trans (List.suffix_append u _)).isInfix
      · exact (h.infix_of_seam hlast hhead).trans (List.prefix_append u _).isInfix
  cases hmode : initialMode (u ++ w) with
  | html => exact (initialMode_eq_html_iff _).2 (hiff.2 ((initialMode_eq_html_iff _).1 hmode))
  | code =>
    cases hmode' : initialMode (u ++ (blanks ++ w)) with
    | code => rfl
    | html =>
      rw [(initialMode_eq_html_iff _).2 (hiff.1 ((initialMode_eq_html_iff _).1 hmode'))] at hmode
      cases hmode

/-! ## The outline -/

theorem exists_of_placedFrom_eq_append {line : Nat} {ts us : List Token}
    (h : placedFrom line ps = ts ++ us) :
    ∃ qs qs' line', ps = qs ++ qs' ∧ ts = placedFrom line qs ∧ us = placedFrom line' qs' := by
  induction ts generalizing line ps with
  | nil => exact ⟨[], ps, line, rfl, rfl, h.symm⟩
  | cons t ts ih =>
    cases ps with
    | nil => cases h
    | cons p ps =>
      obtain ⟨rfl, htail⟩ := List.cons.inj h
      obtain ⟨qs, qs', line', rfl, rfl, rfl⟩ := ih htail
      exact ⟨p :: qs, qs', line', rfl, rfl, rfl⟩

theorem map_placedFrom (line : Nat) (ps : List (TokenKind × List Char)) :
    (placedFrom line ps).map (fun t => (t.kind, t.text))
      = ps.map (Prod.map id String.ofList) := by
  induction ps generalizing line with
  | nil => rfl
  | cons p ps ih => exact congrArg (_ :: ·) (ih _)

/-- Where a text is cut at a boundary, blanks between the parts change nothing. -/
theorem Outline.toOption_insert (file : String) (hblanks : ∀ c ∈ blanks, Text.isAsciiBlank c = true)
    (h : Reads (initialMode (u ++ w)) (u ++ w) ps m' w) (hangles : ¬ angles <:+: ps) :
    (ofSource file (String.ofList (u ++ (blanks ++ w)))).toOption
      = (ofSource file (String.ofList (u ++ w))).toOption := by
  by_cases hne : blanks = []
  · rw [hne, List.nil_append]
  · have hb : IsBlanks blanks := ⟨hne, hblanks⟩
    rw [ofSource_toOption, ofSource_toOption, initialMode_insert hb h, shapesFrom_insert hb h hangles]

/-- **Layout does not matter.** At any boundary between two tokens of a text that can be read, the start and
the end of the text included, any blanks may come in: the text can still be read, with the same outline.
Only three marks `<` in a row are left out, as blanks might make a heredoc of them. -/
theorem Outline.ofSource_insert_blanks (file : String) {source : String} {ts us : List Token}
    (hsource : tokens source = .ok (ts ++ us))
    (hangles : ¬ List.replicate 3 (TokenKind.mark, "<") <:+: (ts ++ us).map fun t => (t.kind, t.text))
    {blanks : String} (hblanks : ∀ c ∈ blanks.toList, Text.isAsciiBlank c = true) :
    source = covered ts ++ covered us
      ∧ ∃ ts' outline, tokens (covered ts ++ blanks ++ covered us) = .ok ts'
        ∧ ofSource file source = .ok outline
        ∧ ofSource file (covered ts ++ blanks ++ covered us) = .ok outline := by
  have hcovered : source = covered ts ++ covered us := by
    rw [← covered_append, (cuts_of_tokens hsource).covered_eq]
  refine ⟨hcovered, ?_⟩
  -- the text in front of the boundary and its pieces
  obtain ⟨ps, m', hreads, hts⟩ := reads_of_tokensFrom hsource
  obtain ⟨qs, qs', line', rfl, rfl, rfl⟩ := exists_of_placedFrom_eq_append hts.symm
  obtain ⟨m₁, hbefore, -⟩ := hreads.append_inv
  have hlist : source.toList = qs.flatMap Prod.snd ++ qs'.flatMap Prod.snd := by
    rw [hcovered, String.toList_append, toList_covered_placedFrom, toList_covered_placedFrom]
  have hpieces : ¬ angles <:+: qs := fun hmid => by
    refine hangles ((hmid.map (Prod.map id String.ofList)).trans ?_)
    rw [List.map_append, map_placedFrom]
    exact (List.prefix_append _ _).isInfix
  rw [List.append_nil, hlist] at hbefore
  have hsame := Outline.toOption_insert file hblanks hbefore hpieces
  have hnew : String.ofList (qs.flatMap Prod.snd ++ (blanks.toList ++ qs'.flatMap Prod.snd))
      = covered (placedFrom 1 qs) ++ blanks ++ covered (placedFrom line' qs') := by
    rw [← String.toList_inj, String.toList_ofList, String.toList_append, String.toList_append,
      toList_covered_placedFrom, toList_covered_placedFrom, List.append_assoc]
  have houtline : ofSource file source
      = .ok (ofTokens file none (placedFrom 1 qs ++ placedFrom line' qs')) := by
    rw [ofSource, hsource]
    rfl
  rw [hnew, ← hlist, String.ofList_toList, houtline] at hsame
  have hinserted := eq_ok_of_toOption hsame
  obtain ⟨ts', hts', -⟩ := exists_of_map_ok hinserted
  exact ⟨ts', _, hts', houtline, hinserted⟩

/-- Blanks behind a comment, which takes some of them in. -/
theorem Outline.ofSource_insert_blanks_comment :
    ∃ ts' outline, tokens "<?php // a \t\n\r\nclass A\x7b\x7d" = .ok ts'
      ∧ ofSource "A.php" "<?php // a\nclass A\x7b\x7d" = .ok outline
      ∧ ofSource "A.php" "<?php // a \t\n\r\nclass A\x7b\x7d" = .ok outline := by
  let ts : List Token := [⟨.openTag, "<?php", 1⟩, ⟨.blank, " ", 1⟩, ⟨.comment, "// a", 1⟩]
  let us : List Token := [⟨.blank, "\n", 1⟩, ⟨.word, "class", 2⟩, ⟨.blank, " ", 2⟩, ⟨.word, "A", 2⟩,
    ⟨.mark, "\x7b", 2⟩, ⟨.mark, "\x7d", 2⟩]
  have hread : (tokens "<?php // a\nclass A\x7b\x7d").toOption = some (ts ++ us) := by decide +kernel
  have hangles : ¬ List.replicate 3 (TokenKind.mark, "<")
      <:+: (ts ++ us).map fun t => (t.kind, t.text) := by decide
  have hblanks : ∀ c ∈ " \t\n\r".toList, Text.isAsciiBlank c = true := List.all_eq_true.1 rfl
  exact (ofSource_insert_blanks "A.php" (eq_ok_of_toOption hread) hangles hblanks).2

end Source
end Conformance
