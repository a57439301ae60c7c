import Conformance.Proofs.Source.Inert

/-!
# `Proofs.Source.Insertion`: tokens in front of inserted blanks

A token stands in front of `u ++ w`, and blanks come in, so that the text goes on with `u ++ (blanks ++ w)`;
if `u` is empty, they stand right behind the token. A blank is no character that a token looks for behind
itself, and it continues neither a word nor a number. So the token stays what it is, unless it takes the
blanks in (text outside of code, blanks and line comments do) or is the first of three `<` without a
heredoc.
-/

namespace Conformance
namespace Source

/-! ## Blanks in front -/

/-- A text of blanks, at least one. -/
structure IsBlanks (blanks : List Char) : Prop where
  ne_nil : blanks ≠ []
  isAsciiBlank : ∀ c ∈ blanks, Text.isAsciiBlank c = true

/-- The five blanks, as a list of characters to decide about. -/
def asciiBlanks : List Char := [' ', '\t', '\n', '\x0c', '\r']

theorem mem_asciiBlanks {c : Char} (h : Text.isAsciiBlank c = true) : c ∈ asciiBlanks := by
  simp only [Text.isAsciiBlank, Bool.or_eq_true, beq_iff_eq] at h
  rcases h with (((rfl | rfl) | rfl) | rfl) | rfl <;> decide

namespace IsBlanks

variable {blanks : List Char} (hb : IsBlanks blanks)
include hb

theorem exists_head : ∃ b rest, blanks = b :: rest ∧ b ∈ asciiBlanks := by
  obtain ⟨b, rest, rfl⟩ := List.exists_cons_of_ne_nil hb.ne_nil
  exact ⟨b, rest, rfl, mem_asciiBlanks (hb.isAsciiBlank b List.mem_cons_self)⟩

/-- No other character stands in front. -/
theorem head?_ne {d : Char} (hd : d ∉ asciiBlanks) (w : List Char) : (blanks ++ w).head? ≠ some d := by
  obtain ⟨b, rest, rfl, hmem⟩ := hb.exists_head
  intro hhead
  cases hhead
  exact hd hmem

/-- No class of characters without blanks begins in front. -/
theorem head?_any {p : Char → Bool} (hp : asciiBlanks.any p = false) (w : List Char) :
    (blanks ++ w).head?.any p = false := by
  obtain ⟨b, rest, rfl, hmem⟩ := hb.exists_head
  rw [Bool.eq_false_iff]
  intro hb
  rw [List.any_eq_true.2 ⟨b, hmem, hb⟩] at hp
  cases hp

/-- Blanks inside a text add no class of characters to what stands in front. -/
theorem head?_any_insert {p : Char → Bool} (hp : asciiBlanks.any p = false) {u w : List Char}
    (h : (u ++ w).head?.any p = false) : (u ++ (blanks ++ w)).head?.any p = false := by
  cases u with
  | nil => exact hb.head?_any hp w
  | cons d u => exact h

end IsBlanks

/-! ## Tokens of one character -/

/-- What stands behind the first character matters only if it is one of those looked for there. -/
theorem codeForm_eq_nil {c : Char} {cs : List Char} (hangle : c ≠ '<')
    (hclose : ¬ (c = '?' ∧ cs.head? = some '>')) (hattr : ¬ (c = '#' ∧ cs.head? = some '['))
    (hline : ¬ (c = '/' ∧ cs.head? = some '/')) (hblock : ¬ (c = '/' ∧ cs.head? = some '*'))
    (hname : ¬ (c = '$' ∧ cs.head?.any isNameStart = true)) : codeForm c cs = codeForm c [] := by
  unfold codeForm
  simp only [hangle, hclose, hattr, hline, hblock, hname, List.head?_nil, Option.any_none,
    Bool.false_eq_true, reduceCtorEq, and_false, false_and]

/-- A token of one character has found nothing behind it. -/
theorem codeForm_of_length_zero {c : Char} {cs : List Char} {kind : TokenKind} (hangle : c ≠ '<')
    (h : codeLexeme c cs = .ok (kind, 0)) : codeForm c cs = codeForm c [] := by
  refine codeForm_eq_nil hangle ?_ ?_ ?_ ?_ ?_ <;> rintro ⟨rfl, hhead⟩
  · obtain ⟨rest, rfl⟩ := exists_cons_of_head? hhead
    cases h
  · obtain ⟨rest, rfl⟩ := exists_cons_of_head? hhead
    obtain ⟨n, _, hn⟩ := exists_of_map_ok (show (attributeLength 0 none rest).map _ = _ from h)
    cases hn
  · obtain ⟨rest, rfl⟩ := exists_cons_of_head? hhead
    cases h
  · obtain ⟨rest, rfl⟩ := exists_cons_of_head? hhead
    have hclosed : closed _ .comment ((lengthThrough ['*', '/'] rest).map (· + 1)) = _ := h
    obtain ⟨n, _, hn⟩ := Option.map_eq_some_iff.1 (of_closed hclosed).2
    cases hn
  · cases cs with
    | nil => cases hhead
    | cons d rest =>
      have hform : codeForm '$' (d :: rest) = .variable := by
        show (if '$' = '$' ∧ isNameStart d = true then CodeForm.variable else _) = _
        rw [if_pos ⟨rfl, hhead⟩]
      rw [codeLexeme_eq, hform] at h
      have hlength : ((d :: rest).takeWhile isNameChar).length = 0 :=
        congrArg Prod.snd (Except.ok.inj h)
      rw [List.takeWhile_cons_of_pos (isNameChar_of_isNameStart hhead)] at hlength
      cases hlength

variable {blanks l u w : List Char} {c : Char} {kind : TokenKind}

/-- With blanks behind it a token is of the same sort. -/
theorem codeForm_insert (hb : IsBlanks blanks) (hangle : c ≠ '<')
    (h : codeLexeme c (l ++ (u ++ w)) = .ok (kind, l.length)) :
    codeForm c (l ++ (u ++ (blanks ++ w))) = codeForm c (l ++ (u ++ w)) := by
  have hcongr {cs cs' : List Char} (hhead : cs'.head? = cs.head?) : codeForm c cs' = codeForm c cs := by
    unfold codeForm
    simp only [hhead, hangle, false_and]
  cases l with
  | cons d l => exact hcongr rfl
  | nil =>
    cases u with
    | cons d u => exact hcongr rfl
    | nil =>
      rw [List.nil_append, List.nil_append] at h ⊢
      rw [List.nil_append, List.nil_append, codeForm_of_length_zero hangle h]
      have hnot {d : Char} (hd : d ∉ asciiBlanks) : ¬ (blanks ++ w).head? = some d := hb.head?_ne hd w
      refine codeForm_eq_nil hangle (fun hc => hnot (by decide) hc.2) (fun hc => hnot (by decide) hc.2)
        (fun hc => hnot (by decide) hc.2) (fun hc => hnot (by decide) hc.2) fun hc => ?_
      rw [hb.head?_any (by decide)] at hc
      cases hc.2

theorem of_length_takeWhile {p : Char → Bool} {xs v : List Char}
    (h : ((xs ++ v).takeWhile p).length = xs.length) :
    (∀ d ∈ xs, p d = true) ∧ v.head?.any p = false := by
  induction xs with
  | nil =>
    refine ⟨nofun, ?_⟩
    cases v with
    | nil => rfl
    | cons d v =>
      rw [List.nil_append, List.takeWhile_cons] at h
      split at h
      · cases h
      · next hd => exact Bool.eq_false_iff.2 hd
  | cons d xs ih =>
    rw [List.cons_append, List.takeWhile_cons] at h
    split at h
    · next hd =>
      obtain ⟨hxs, hv⟩ := ih (Nat.succ.inj h)
      exact ⟨List.forall_mem_cons.2 ⟨hd, hxs⟩, hv⟩
    · cases h

/-- A run of characters that ends with a token ends there also in front of blanks. -/
theorem length_takeWhile_insert {p : Char → Bool}
    (hstop : (u ++ w).head?.any p = false → (u ++ (blanks ++ w)).head?.any p = false)
    (h : ((l ++ (u ++ w)).takeWhile p).length = l.length) :
    ((l ++ (u ++ (blanks ++ w))).takeWhile p).length = l.length := by
  obtain ⟨hl, hend⟩ := of_length_takeWhile h
  rw [takeWhile_append_stop hl (hstop hend)]

/-! ## Opening angles -/

/-- An angle is a mark, or two others stand behind it and it opens a heredoc. -/
theorem codeLexeme_angle_cases {cs : List Char} {n : Nat} (h : codeLexeme '<' cs = .ok (kind, n)) :
    (kind = .mark ∧ n = 0)
      ∨ ∃ rest k, cs = '<' :: '<' :: rest ∧ heredocLength rest = .ok (some k) ∧ kind = .heredoc
        ∧ n = k + 2 := by
  by_cases hangles : ['<', '<'].isPrefixOf cs = true
  · obtain ⟨rest, rfl⟩ := List.isPrefixOf_iff_prefix.1 hangles
    rw [codeLexeme_eq] at h
    obtain ⟨found, hfound, hn⟩ := exists_of_map_ok (show (heredocLength rest).map _ = _ from h)
    cases found with
    | none =>
      cases hn
      exact Or.inl ⟨rfl, rfl⟩
    | some k =>
      cases hn
      exact Or.inr ⟨rest, k, rfl, hfound, rfl, rfl⟩
  · cases h.symm.trans (codeLexeme_angle hangles)
    exact Or.inl ⟨rfl, rfl⟩

/-- What an opening angle stands for is the same with blanks behind it. The one exception is an angle with
two others behind it that becomes the beginning of a heredoc. -/
theorem codeLexeme_angle_insert (hb : IsBlanks blanks)
    (h : codeLexeme '<' (l ++ (u ++ w)) = .ok (kind, l.length))
    (hheader : l = [] → ∀ rest, u ++ (blanks ++ w) = '<' :: '<' :: rest → heredocHeader? rest = none) :
    codeLexeme '<' (l ++ (u ++ (blanks ++ w))) = .ok (kind, l.length) := by
  rcases codeLexeme_angle_cases h with ⟨rfl, hlength⟩ | ⟨rest, k, hcs, hfound, rfl, hlength⟩
  · obtain rfl := List.length_eq_zero_iff.1 hlength
    rw [List.nil_append]
    by_cases hangles : ['<', '<'].isPrefixOf (u ++ (blanks ++ w)) = true
    · obtain ⟨rest, hrest⟩ := List.isPrefixOf_iff_prefix.1 hangles
      have hnone := heredocLength_eq_none_iff.2 (hheader rfl rest hrest.symm)
      rw [← hrest, codeLexeme_eq]
      show (heredocLength rest).map _ = _
      rw [hnone]
      rfl
    · exact codeLexeme_angle hangles
  · match l, hlength with
    | a :: b :: ys, hlength =>
      obtain ⟨rfl, htail⟩ := List.cons.inj hcs
      obtain ⟨rfl, rfl⟩ := List.cons.inj htail
      obtain rfl : ys.length = k := Nat.add_right_cancel (m := 2) hlength
      have hfound : heredocLength (ys ++ (u ++ w)) = .ok (some ys.length) := hfound
      have hword := (heredocLength_bounds hfound).2
      rw [List.drop_left] at hword
      have htake := heredocLength_take hfound (hb.head?_any_insert (by decide) hword)
      rw [List.take_left] at htake
      rw [codeLexeme_eq]
      show (heredocLength (ys ++ (u ++ (blanks ++ w)))).map _ = _
      rw [htake]
      rfl

/-! ## Comments -/

/-- In a line comment stands neither a line break nor a closing tag. -/
theorem of_lengthBefore_endsLineComment {xs v : List Char}
    (h : lengthBefore endsLineComment (xs ++ v) = xs.length) :
    '\n' ∉ xs ∧ ¬ ['?', '>'] <:+: xs := by
  have hparts {y z : List Char} (hyz : xs = y ++ z) (hz : z ≠ []) :=
    Bool.or_eq_false_iff.1 ((lengthBefore_eq_length_iff.1 h).1 y z hyz hz)
  refine ⟨fun hmem => ?_, not_infix_of_stop (List.cons_ne_nil _ _) fun y z hyz hz => (hparts hyz hz).2⟩
  obtain ⟨y, z, hyz⟩ := List.append_of_mem hmem
  cases (hparts hyz (List.cons_ne_nil _ _)).1

/-- Without a line break and a closing tag in it, a line comment reaches to the one behind it. -/
theorem lengthBefore_endsLineComment {xs v : List Char} (hline : '\n' ∉ xs)
    (htag : ¬ ['?', '>'] <:+: xs) (hv : v = [] ∨ endsLineComment v = true) :
    lengthBefore endsLineComment (xs ++ v) = xs.length := by
  refine lengthBefore_append (fun y z hyz hz => endsLineComment_append_eq_false hz ?_ ?_ hv) hv
  · exact fun hmem => hline (hyz ▸ List.mem_append_right y hmem)
  · exact fun hmid => htag (hmid.trans (hyz ▸ (List.suffix_append y z).isInfix))

/-- A block comment is long enough to show whether it documents something. -/
theorem isDoc_of_closed {v : List Char}
    (h : CodeForm.blockComment.lexeme c (l ++ v) = .ok (kind, l.length)) (v' : List Char) :
    CodeForm.isDoc (l ++ v') = CodeForm.isDoc (l ++ v) := by
  obtain ⟨k, hk, hlength⟩ := Option.map_eq_some_iff.1 (of_closed h).2
  have hthree : 3 ≤ l.length := by
    have htwo := (lengthThrough_bounds hk).1
    rw [← hlength]
    exact Nat.succ_le_succ htwo
  have hfront {s : List Char} (hs : s.length ≤ 3) (z : List Char) :
      s.isPrefixOf (l ++ z) = s.isPrefixOf l := isPrefixOf_append_of_le (Nat.le_trans hs hthree) z
  unfold CodeForm.isDoc
  rw [hfront (by decide), hfront (by decide), hfront (by decide), hfront (by decide)]

/-! ## Tokens in code -/

/-- **A token in code stays what it is with blanks behind it.** Blanks do not stand right behind blanks, a
line comment still ends where it did, and no angle becomes the beginning of a heredoc. -/
theorem codeLexeme_insert (hb : IsBlanks blanks)
    (h : codeLexeme c (l ++ (u ++ w)) = .ok (kind, l.length))
    (hblank : codeForm c (l ++ (u ++ w)) = .blank → u ≠ [])
    (hline : codeForm c (l ++ (u ++ w)) = .lineComment → endsLineComment (u ++ (blanks ++ w)) = true)
    (hheader : c = '<' → l = [] →
      ∀ rest, u ++ (blanks ++ w) = '<' :: '<' :: rest → heredocHeader? rest = none) :
    codeLexeme c (l ++ (u ++ (blanks ++ w))) = .ok (kind, l.length) := by
  by_cases hangle : c = '<'
  · subst hangle
    exact codeLexeme_angle_insert hb h (hheader rfl)
  have hguard := guard_codeForm c (l ++ (u ++ w))
  have hsort := codeForm_insert hb hangle h
  rw [codeLexeme_eq] at h ⊢
  rw [hsort]
  cases hform : codeForm c (l ++ (u ++ w)) <;> rw [hform] at h hguard
  case blank =>
    obtain ⟨d, us, rfl⟩ := List.exists_cons_of_ne_nil (hblank hform)
    obtain ⟨rfl, hlength⟩ := Prod.mk.inj (Except.ok.inj h)
    exact congrArg (fun n => Except.ok (_, n)) (length_takeWhile_insert id hlength)
  case word | number | «variable» =>
    obtain ⟨rfl, hlength⟩ := Prod.mk.inj (Except.ok.inj h)
    exact congrArg (fun n => Except.ok (_, n))
      (length_takeWhile_insert (hb.head?_any_insert (by decide)) hlength)
  case closeTag | separator | mark => exact h
  case attr => exact attr_lexeme_append h (Nat.le_refl _) _
  case lineComment =>
    obtain ⟨rfl, hlength⟩ := Prod.mk.inj (Except.ok.inj h)
    obtain ⟨hnone, htag⟩ := of_lengthBefore_endsLineComment hlength
    exact congrArg (fun n => Except.ok (_, n))
      (lengthBefore_endsLineComment hnone htag (Or.inr (hline hform)))
  case blockComment => exact blockComment_lexeme_append h (Nat.le_refl _) (isDoc_of_closed h _)
  case quoted => exact quoted_lexeme_append h hguard (Nat.le_refl _) _
  case heredoc => exact absurd hguard.1 hangle

/-! ## Opening tags -/

/-- Blanks do not complete the letters of an opening tag. -/
theorem take_php_insert (hb : IsBlanks blanks)
    (h : ((u ++ (blanks ++ w)).take 3).map Char.toLower = ['p', 'h', 'p']) :
    ((u ++ w).take 3).map Char.toLower = ['p', 'h', 'p'] := by
  obtain ⟨b, rest, rfl, hmem⟩ := hb.exists_head
  have hletters : (asciiBlanks.all fun d => decide (d.toLower ≠ 'p' ∧ d.toLower ≠ 'h')) = true := by
    decide
  have hletter := of_decide_eq_true (List.all_eq_true.1 hletters b hmem)
  have hu : 3 ≤ u.length := length_of_take_php hletter rfl h
  rw [List.take_append_of_le_length hu] at h ⊢
  exact h

/-- **An opening tag stays what it is with blanks behind it.** -/
theorem htmlLexeme_openTag_insert (hb : IsBlanks blanks)
    (h : htmlLexeme c (l ++ (u ++ w)) = (.openTag, l.length)) :
    htmlLexeme c (l ++ (u ++ (blanks ++ w))) = (.openTag, l.length) := by
  have htag : startsTag (c :: (l ++ (u ++ w))) = true := by
    unfold htmlLexeme at h
    split at h
    · next htag => exact htag
    · cases h
  obtain ⟨z, hz⟩ := List.isPrefixOf_iff_prefix.1 htag
  obtain ⟨rfl, htail⟩ := List.cons.inj hz
  have hone := one_le_of_startsTag htag
  rw [h] at hone
  obtain ⟨d, xs, rfl⟩ := List.exists_cons_of_length_pos hone
  obtain ⟨rfl, -⟩ := List.cons.inj htail
  have htext (v : List Char) : htmlLexeme '<' ('?' :: xs ++ v)
      = if ((xs ++ v).take 3).map Char.toLower = ['p', 'h', 'p'] then (.openTag, 4)
        else if (xs ++ v).head? = some '=' then (.openTag, 2) else (.openTag, 1) := rfl
  rw [htext] at h ⊢
  split at h
  · next hphp =>
    have hthree : xs.length = 3 := (Nat.succ.inj (congrArg Prod.snd h)).symm
    rw [List.take_left' hthree] at hphp
    rw [List.take_left' hthree, if_pos hphp, List.length_cons, hthree]
  · next hphp =>
    split at h
    · next hecho =>
      obtain ⟨x, rfl⟩ := List.length_eq_one_iff.1 (Nat.succ.inj (congrArg Prod.snd h)).symm
      cases hecho
      rw [if_neg (by simp)]
      rfl
    · next hecho =>
      obtain rfl : xs = [] := List.length_eq_zero_iff.1 (Nat.succ.inj (congrArg Prod.snd h)).symm
      rw [List.nil_append] at hphp hecho ⊢
      rw [if_neg fun hphp' => hphp (take_php_insert hb hphp'), if_neg fun hecho' => ?_]
      · rfl
      · cases u with
        | nil => exact hb.head?_ne (by decide) w hecho'
        | cons d u => exact hecho hecho'

end Source
end Conformance
