import Conformance.Proofs.Source.Pieces

/-!
# `Proofs.Source.Lookahead`: what reading sees of the text behind a place

The end of a token can depend on what stands behind it, but not on much. `Alike` lists pairs of texts
that begin alike and in which the beginning is all that a token in front of them can see. There is one
exception, a heredoc whose label is in quotes: what follows `<<<` may be the literal that stands behind the
place. `Reads.swap` says that apart from this a text can be put in the place of another one that
begins alike, and what stands before it is cut into the same pieces.
-/

namespace Conformance
namespace Source

/-! ## Texts that begin alike -/

/-- Texts that look the same from in front of them: comments with the same first character, literals
with the same quote, heredocs, and texts behind a closing tag. -/
inductive Alike : List Char → List Char → Prop where
  | mark {d : Char} (hd : d ∈ ['/', '#', '\'', '"', '\x60']) (w w' : List Char) :
      Alike (d :: w) (d :: w')
  | heredoc (w w' : List Char) : Alike ('<' :: '<' :: '<' :: w) ('<' :: '<' :: '<' :: w')
  | closeTag (w w' : List Char) : Alike ('?' :: '>' :: w) ('?' :: '>' :: w')

/-- The characters that such texts begin with. -/
def openers : List Char := ['/', '#', '\'', '"', '\x60', '<', '?']

/-- They belong to no class that words, blanks and numbers are made of. -/
theorem not_mem_of_mem_openers {p : Char → Bool} (hp : openers.any p = false) {d : Char}
    (hd : d ∈ openers) {xs : List Char} (hxs : ∀ c ∈ xs, p c = true) : d ∉ xs := fun hmem => by
  rw [List.any_eq_true.2 ⟨d, hd, hxs d hmem⟩] at hp
  cases hp

/-- What tokens look for behind their first character, and what remains of it while they look. -/
def needles : List (List Char) :=
  [['<', '?'], ['?', '>'], ['<', '<'], ['*', '*'], ['*', '*', '/'], ['*', '/'], ['?'], ['>'], ['<'],
    ['*'], ['/'], []]

theorem mem_needles_of_suffix {s t : List Char} (hs : s ∈ needles) (ht : t <:+ s) : t ∈ needles := by
  simp only [needles, List.mem_cons, List.not_mem_nil, or_false] at hs
  rcases hs with rfl | rfl | rfl | rfl | rfl | rfl | rfl | rfl | rfl | rfl | rfl | rfl <;>
    simp only [List.suffix_cons_iff, List.suffix_nil] at ht <;>
    rcases ht with rfl | rfl | rfl | rfl <;> decide

/-- Whether a text begins with `s` is seen in front of it and behind it, by the ends of `s`. -/
theorem isPrefixOf_append_congr {s w w' : List Char}
    (h : ∀ t, t <:+ s → t.isPrefixOf w' = t.isPrefixOf w) (xs : List Char) :
    s.isPrefixOf (xs ++ w') = s.isPrefixOf (xs ++ w) := by
  induction xs generalizing s with
  | nil => exact h s List.suffix_rfl
  | cons x xs ih =>
    cases s with
    | nil => rfl
    | cons a s =>
      rw [List.cons_append, List.cons_append, List.isPrefixOf, List.isPrefixOf,
        ih fun t ht => h t (ht.trans (List.suffix_cons a s))]

/-- A change behind a place, seen from a place before it. -/
theorem append_eq_take_append {xs : List Char} {n : Nat} (h : n ≤ xs.length) (w w' : List Char) :
    xs ++ w' = (xs ++ w).take n ++ (xs.drop n ++ w') := by
  rw [List.take_append_of_le_length h, ← List.append_assoc, List.take_append_drop]

/-- Where the front of one text ends inside another, or which character it goes on with. -/
theorem append_split {xs w ys zs : List Char} (h : xs ++ w = ys ++ zs) :
    (∃ rest, xs = ys ++ rest ∧ zs = rest ++ w)
      ∨ ∃ d rest, ys = xs ++ d :: rest ∧ w.head? = some d := by
  rcases List.append_eq_append_iff.1 h with ⟨rest, hys, hw⟩ | ⟨rest, hxs, hzs⟩
  · cases rest with
    | nil =>
      rw [List.append_nil] at hys
      exact Or.inl ⟨[], by rw [hys, List.append_nil], hw.symm⟩
    | cons d rest =>
      rw [hw]
      exact Or.inr ⟨d, rest, hys, rfl⟩
  · exact Or.inl ⟨rest, hxs, hzs⟩

namespace Alike

variable {w w' : List Char}

theorem symm (h : Alike w w') : Alike w' w := by
  cases h with
  | mark hd w w' => exact mark hd w' w
  | heredoc w w' => exact heredoc w' w
  | closeTag w w' => exact closeTag w' w

theorem exists_head (h : Alike w w') :
    ∃ d ∈ openers, w.head? = some d ∧ w'.head? = some d := by
  cases h with
  | @mark d hd w w' => exact ⟨d, List.mem_append_left ['<', '?'] hd, rfl, rfl⟩
  | heredoc w w' => exact ⟨'<', by decide, rfl, rfl⟩
  | closeTag w w' => exact ⟨'?', by decide, rfl, rfl⟩

theorem ne_nil (h : Alike w w') : w ≠ [] := by
  rintro rfl
  cases h

theorem head?_append (h : Alike w w') (xs : List Char) : (xs ++ w').head? = (xs ++ w).head? := by
  cases xs with
  | nil =>
    obtain ⟨d, _, hw, hw'⟩ := h.exists_head
    rw [List.nil_append, List.nil_append, hw, hw']
  | cons x xs => rfl

theorem isPrefixOf_needle (h : Alike w w') {s : List Char} (hs : s ∈ needles) :
    s.isPrefixOf w' = s.isPrefixOf w := by
  simp only [needles, List.mem_cons, List.not_mem_nil, or_false] at hs
  cases h with
  | mark hd w w' =>
    simp only [List.mem_cons, List.not_mem_nil, or_false] at hd
    rcases hd with rfl | rfl | rfl | rfl | rfl <;>
      rcases hs with rfl | rfl | rfl | rfl | rfl | rfl | rfl | rfl | rfl | rfl | rfl | rfl <;>
      simp [List.isPrefixOf]
  | heredoc w w' =>
    rcases hs with rfl | rfl | rfl | rfl | rfl | rfl | rfl | rfl | rfl | rfl | rfl | rfl <;>
      simp [List.isPrefixOf]
  | closeTag w w' =>
    rcases hs with rfl | rfl | rfl | rfl | rfl | rfl | rfl | rfl | rfl | rfl | rfl | rfl <;>
      simp [List.isPrefixOf]

theorem isPrefixOf_append (h : Alike w w') {s : List Char} (hs : s ∈ needles) (xs : List Char) :
    s.isPrefixOf (xs ++ w') = s.isPrefixOf (xs ++ w) :=
  isPrefixOf_append_congr (fun _ ht => h.isPrefixOf_needle (mem_needles_of_suffix hs ht)) xs

theorem endsLineComment_append (h : Alike w w') (xs : List Char) :
    endsLineComment (xs ++ w') = endsLineComment (xs ++ w) := by
  unfold endsLineComment
  rw [h.head?_append, h.isPrefixOf_append (by decide)]

end Alike

/-- The letters of an opening tag end before a character that is none of them. -/
theorem length_of_take_php {xs v : List Char} {d : Char} (hd : d.toLower ≠ 'p' ∧ d.toLower ≠ 'h')
    (hv : v.head? = some d) (h : ((xs ++ v).take 3).map Char.toLower = ['p', 'h', 'p']) :
    3 ≤ xs.length := by
  obtain ⟨z, rfl⟩ := exists_cons_of_head? hv
  match xs with
  | [] => simp [hd.1] at h
  | [a] => simp [hd.2] at h
  | [a, b] => simp [hd.1] at h
  | a :: b :: c :: xs => exact Nat.le_add_left 3 xs.length

/-! ## Forms that are closed

Nothing behind the end of an attribute, a literal in quotes or a block comment plays a part. -/

section

variable {c : Char} {xs w : List Char} {kind : TokenKind} {n : Nat}

theorem attr_lexeme_append (h : CodeForm.attr.lexeme c (xs ++ w) = .ok (kind, n))
    (hle : n ≤ xs.length) (w' : List Char) : CodeForm.attr.lexeme c (xs ++ w') = .ok (kind, n) := by
  obtain ⟨k, hk, hn⟩ := exists_of_map_ok h
  cases hn
  obtain ⟨x, xs, rfl⟩ := List.exists_cons_of_length_pos (Nat.lt_of_lt_of_le (Nat.succ_pos k) hle)
  have hk : attributeLength 0 none (xs ++ w) = .ok k := hk
  show (attributeLength 0 none (xs ++ w')).map _ = _
  rw [append_eq_take_append (Nat.le_of_succ_le_succ hle) w w',
    attributeLength_take (show (none : Option Char) ≠ some '\\' from nofun) hk]
  rfl

theorem quoted_lexeme_append (h : CodeForm.quoted.lexeme c (xs ++ w) = .ok (kind, n))
    (hquote : CodeForm.quoted.Guard c (xs ++ w)) (hle : n ≤ xs.length) (w' : List Char) :
    CodeForm.quoted.lexeme c (xs ++ w') = .ok (kind, n) := by
  obtain ⟨rfl, hlength⟩ := of_closed h
  have hescape : c ≠ '\\' := by
    rcases hquote with rfl | rfl | rfl <;> decide
  show closed .quoted .string (quotedLength c (xs ++ w')) = _
  rw [append_eq_take_append hle w w', quotedLength_take hescape hlength]
  rfl

theorem blockComment_lexeme_append (h : CodeForm.blockComment.lexeme c (xs ++ w) = .ok (kind, n))
    (hle : n ≤ xs.length) {w' : List Char}
    (hdoc : CodeForm.isDoc (xs ++ w') = CodeForm.isDoc (xs ++ w)) :
    CodeForm.blockComment.lexeme c (xs ++ w') = .ok (kind, n) := by
  obtain ⟨hkind, hlength⟩ := of_closed h
  obtain ⟨k, hk, rfl⟩ := Option.map_eq_some_iff.1 hlength
  obtain ⟨x, xs, rfl⟩ := List.exists_cons_of_length_pos (Nat.lt_of_lt_of_le (Nat.succ_pos k) hle)
  have hk : lengthThrough ['*', '/'] (xs ++ w) = some k := hk
  show closed (if CodeForm.isDoc (x :: xs ++ w') = true then _ else _) .comment
    ((lengthThrough ['*', '/'] (xs ++ w')).map (· + 1)) = _
  rw [hdoc, append_eq_take_append (Nat.le_of_succ_le_succ hle) w w',
    lengthThrough_take hk _ (List.cons_ne_nil _ _), hkind]
  rfl

end

/-! ## Heredocs in front of such texts -/

/-- The text has gone on behind `<<<` to one of the quotes around the label. -/
def OpensLabel (quote : Char) (xs : List Char) : Prop :=
  ∃ blanks, (∀ c ∈ blanks, isIndent c = true)
    ∧ (xs = blanks ∨ ∃ label, (∀ c ∈ label, isNameChar c = true) ∧ xs = blanks ++ quote :: label)

/-- A character that a part does not hold stands behind the part. -/
theorem append_skip {ys zs xs rest : List Char} {d : Char} (hd : d ∉ ys)
    (h : ys ++ zs = xs ++ d :: rest) : ∃ xs', xs = ys ++ xs' ∧ zs = xs' ++ d :: rest := by
  rcases append_split h.symm with ⟨xs', hxs, hzs⟩ | ⟨d', rest', hys, hd'⟩
  · exact ⟨xs', hxs, hzs⟩
  · cases hd'
    exact absurd (hys ▸ List.mem_append_right xs List.mem_cons_self) hd

/-- A header that goes on behind a place with a mark goes on with one of its quotes. -/
theorem HeredocHeader.opensLabel (h : HeredocHeader) {xs rest : List Char} {d : Char}
    (hd : d ∈ openers) (hchars : h.chars = xs ++ d :: rest) :
    h.quote = some d ∧ OpensLabel d xs := by
  have hindent : d ∉ h.blanks := not_mem_of_mem_openers (by decide) hd h.isIndent_blanks
  have hname : d ∉ h.label := not_mem_of_mem_openers (by decide) hd h.isNameChar_label
  have hbreak : d ∉ h.lineBreak := by
    rcases h.lineBreak_eq with heq | heq <;> rw [heq] <;> rintro hmem <;>
      simp only [List.mem_cons, List.not_mem_nil, or_false] at hmem
    · subst hmem
      exact absurd hd (by decide)
    · rcases hmem with rfl | rfl <;> exact absurd hd (by decide)
  obtain ⟨xs, rfl, hquoted⟩ := append_skip hindent hchars
  cases hquote : h.quote with
  | none =>
    rw [hquote] at hquoted
    obtain ⟨xs, rfl, hend⟩ := append_skip hname hquoted
    rw [Option.toList_none, List.nil_append] at hend
    exact absurd (hend ▸ List.mem_append_right xs List.mem_cons_self) hbreak
  | some q =>
    rw [hquote] at hquoted
    cases xs with
    | nil =>
      cases hquoted
      exact ⟨rfl, h.blanks, h.isIndent_blanks, Or.inl (List.append_nil _)⟩
    | cons x xs =>
      obtain ⟨rfl, hlabel⟩ := List.cons.inj hquoted
      obtain ⟨xs, rfl, hend⟩ := append_skip hname hlabel
      cases xs with
      | nil =>
        cases hend
        refine ⟨rfl, h.blanks, h.isIndent_blanks, Or.inr ⟨h.label, h.isNameChar_label, ?_⟩⟩
        rw [List.append_nil]
      | cons x xs =>
        have hend : h.lineBreak = xs ++ d :: rest := (List.cons.inj hend).2
        exact absurd (hend ▸ List.mem_append_right xs List.mem_cons_self) hbreak

namespace Alike

variable {w w' : List Char}

/-- No header comes up by a change behind a place. -/
theorem heredocHeader?_eq_none (h : Alike w w') {xs : List Char}
    (hquote : ∀ q, q = '\'' ∨ q = '"' → w.head? = some q → ¬ OpensLabel q xs)
    (hnone : heredocHeader? (xs ++ w) = none) : heredocHeader? (xs ++ w') = none := by
  rw [Option.eq_none_iff_forall_ne_some]
  rintro ⟨label, body⟩ hsome
  obtain ⟨header, rfl, hchars⟩ := heredocHeader?_eq_some_iff.1 hsome
  rcases append_split hchars with ⟨rest, rfl, rfl⟩ | ⟨d, rest, hheader, hd⟩
  · -- the header would have been there before
    rw [List.append_assoc, header.read_chars] at hnone
    cases hnone
  · obtain ⟨d', hopen, hw, hw'⟩ := h.exists_head
    cases hd.symm.trans hw'
    obtain ⟨hheaderQuote, hopens⟩ := header.opensLabel hopen hheader
    exact hquote d (header.quote_eq d hheaderQuote) hw hopens

theorem closingLength?_append (h : Alike w w') {label : List Char} (hl : IsLabel label)
    (xs : List Char) : closingLength? label (xs ++ w') = closingLength? label (xs ++ w) := by
  have hone {w w' : List Char} (h : Alike w w') (n : Nat)
      (hn : closingLength? label (xs ++ w) = some n) : closingLength? label (xs ++ w') = some n := by
    obtain ⟨blanks, after, hblanks, hline, hword, rfl⟩ := hl.closingLength?_eq_some_iff.1 hn
    rw [← List.append_assoc] at hline
    rcases append_split hline with ⟨rest, rfl, rfl⟩ | ⟨d, rest, hfront, hd⟩
    · refine hl.closingLength?_eq_some_iff.2 ⟨blanks, rest ++ w', hblanks, ?_, ?_, rfl⟩
      · rw [List.append_assoc, List.append_assoc]
      · rw [h.head?_append]
        exact hword
    · obtain ⟨d', hopen, hw, _⟩ := h.exists_head
      cases hd.symm.trans hw
      have hmem : d ∈ blanks ++ label := hfront ▸ List.mem_append_right xs List.mem_cons_self
      rcases List.mem_append.1 hmem with hmem | hmem
      · exact absurd hmem (not_mem_of_mem_openers (by decide) hopen hblanks)
      · exact absurd hmem (not_mem_of_mem_openers (by decide) hopen hl.isNameChar)
  rw [Option.ext_iff]
  exact fun n => ⟨hone h.symm n, hone h n⟩

/-- A heredoc in front of a place stays what it is. -/
theorem heredocLength_eq_some (h : Alike w w') {xs : List Char} {n : Nat}
    (hlength : heredocLength (xs ++ w) = .ok (some n)) (hle : n ≤ xs.length) :
    heredocLength (xs ++ w') = .ok (some n) := by
  obtain ⟨header, body, k, hcs, hk, rfl⟩ := heredocLength_eq_some_iff.1 hlength
  rcases append_split hcs with ⟨rest, rfl, rfl⟩ | ⟨d, rest, hfront, _⟩
  · refine heredocLength_eq_some_iff.2 ⟨header, rest ++ w', k, List.append_assoc _ _ _, ?_, rfl⟩
    rw [List.length_append] at hle
    exact header.isLabel.heredocBodyLength_congr
      (fun ys => h.closingLength?_append header.isLabel ys) hk (by omega)
  · rw [hfront, List.length_append, List.length_cons] at hle
    omega

/-! ## Tokens in front of such texts -/

/-- An opening angle is the first of three. -/
theorem of_angle (h : Alike w w') (hw : w.head? = some '<') :
    ∃ z, w' = '<' :: '<' :: '<' :: z := by
  cases h with
  | mark hd w w' =>
    cases hw
    exact absurd hd (by decide)
  | heredoc w w' => exact ⟨w', rfl⟩
  | closeTag w w' => cases hw

theorem codeForm_append (h : Alike w w') (c : Char) (xs : List Char) :
    codeForm c (xs ++ w') = codeForm c (xs ++ w) := by
  unfold codeForm
  rw [h.head?_append, h.isPrefixOf_append (by decide)]

/-- A comment in front of a place documents something or not, as before. -/
theorem isDoc_append (h : Alike w w') (xs : List Char) :
    CodeForm.isDoc (xs ++ w') = CodeForm.isDoc (xs ++ w) := by
  unfold CodeForm.isDoc
  rw [h.isPrefixOf_append (by decide), h.isPrefixOf_append (by decide)]

/-- A header that was missed behind `<<` is missed again, if the place lies before it. -/
theorem heredocHeader?_drop_append (h : Alike w w') {xs : List Char}
    (hangles : ['<', '<'].isPrefixOf (xs ++ w) = true)
    (hnone : heredocHeader? ((xs ++ w).drop 2) = none)
    (hheader : ∀ ys, xs = '<' :: '<' :: ys →
      heredocHeader? (ys ++ w) = none → heredocHeader? (ys ++ w') = none) :
    heredocHeader? ((xs ++ w').drop 2) = none := by
  obtain ⟨z, hz⟩ := List.isPrefixOf_iff_prefix.1 hangles
  match xs, hz with
  | [], hz =>
    obtain ⟨z', rfl⟩ := h.of_angle (congrArg List.head? hz).symm
    rfl
  | [x], hz =>
    obtain ⟨z', rfl⟩ := h.of_angle (congrArg List.head? (List.cons.inj hz).2).symm
    rfl
  | x :: y :: ys, hz =>
    obtain ⟨rfl, htail⟩ := List.cons.inj hz
    obtain ⟨rfl, _⟩ := List.cons.inj htail
    exact hheader ys rfl hnone

/-- What `<<` opens in front of a place stays a heredoc or none. -/
theorem heredoc_append (h : Alike w w') {c : Char} {xs : List Char} {kind : TokenKind} {n : Nat}
    (hlexeme : CodeForm.heredoc.lexeme c (xs ++ w) = .ok (kind, n)) (hle : n ≤ xs.length)
    (hangles : ['<', '<'].isPrefixOf (xs ++ w) = true)
    (hheader : ∀ ys, xs = '<' :: '<' :: ys →
      heredocHeader? (ys ++ w) = none → heredocHeader? (ys ++ w') = none) :
    CodeForm.heredoc.lexeme c (xs ++ w') = .ok (kind, n) := by
  obtain ⟨found, hfound, hn⟩ := exists_of_map_ok hlexeme
  cases found with
  | some k =>
    cases hn
    match xs, hle with
    | x :: y :: ys, hle =>
      have hfound : heredocLength (ys ++ w) = .ok (some k) := hfound
      show (heredocLength (ys ++ w')).map _ = _
      rw [h.heredocLength_eq_some hfound (Nat.le_of_add_le_add_right hle)]
      rfl
  | none =>
    cases hn
    have hnone := h.heredocHeader?_drop_append hangles (heredocLength_eq_none_iff.1 hfound) hheader
    show (heredocLength ((xs ++ w').drop 2)).map _ = _
    rw [heredocLength_eq_none_iff.2 hnone]
    rfl

/-- **A token in front of a place stays what it is**, unless a header comes up in it. -/
theorem codeLexeme_append (h : Alike w w') {c : Char} {xs : List Char} {kind : TokenKind} {n : Nat}
    (hlexeme : codeLexeme c (xs ++ w) = .ok (kind, n)) (hle : n ≤ xs.length)
    (hheader : c = '<' → ∀ ys, xs = '<' :: '<' :: ys →
      heredocHeader? (ys ++ w) = none → heredocHeader? (ys ++ w') = none) :
    codeLexeme c (xs ++ w') = .ok (kind, n) := by
  have hrun {p : Char → Bool} (hp : ((xs ++ w).takeWhile p).length ≤ xs.length) :
      ((xs ++ w').takeWhile p).length = ((xs ++ w).takeWhile p).length :=
    length_takeWhile_congr (h.head?_append []).symm hp
  have hguard := guard_codeForm c (xs ++ w)
  rw [codeLexeme_eq] at hlexeme ⊢
  rw [h.codeForm_append]
  cases hform : codeForm c (xs ++ w) <;> rw [hform] at hlexeme hguard
  case blank | word | number | «variable» =>
    cases hlexeme
    exact congrArg (fun n => Except.ok (_, n)) (hrun hle)
  case closeTag | separator | mark => exact hlexeme
  case attr => exact attr_lexeme_append hlexeme hle w'
  case lineComment =>
    cases hlexeme
    exact congrArg (fun n => Except.ok (_, n))
      (lengthBefore_congr h.ne_nil (fun ys => (h.endsLineComment_append ys).symm) hle)
  case blockComment => exact blockComment_lexeme_append hlexeme hle (h.isDoc_append xs)
  case quoted => exact quoted_lexeme_append hlexeme hguard hle w'
  case heredoc => exact h.heredoc_append hlexeme hle hguard.2 (hheader hguard.1)

/-- No letter of an opening tag comes from behind the place. -/
theorem take_php (h : Alike w w') (xs : List Char) :
    ((xs ++ w').take 3).map Char.toLower = ['p', 'h', 'p']
      ↔ ((xs ++ w).take 3).map Char.toLower = ['p', 'h', 'p'] := by
  obtain ⟨d, hd, hw, hw'⟩ := h.exists_head
  have hletters : (openers.all fun d => decide (d.toLower ≠ 'p' ∧ d.toLower ≠ 'h')) = true := by
    decide
  have hletter := of_decide_eq_true (List.all_eq_true.1 hletters d hd)
  by_cases hxs : 3 ≤ xs.length
  · rw [List.take_append_of_le_length hxs, List.take_append_of_le_length hxs]
  · exact ⟨fun hphp => absurd (length_of_take_php hletter hw' hphp) hxs,
      fun hphp => absurd (length_of_take_php hletter hw hphp) hxs⟩

theorem startsTag_append (h : Alike w w') (xs : List Char) :
    startsTag (xs ++ w') = startsTag (xs ++ w) :=
  h.isPrefixOf_append (by decide) xs

theorem htmlLexeme_append (h : Alike w w') {c : Char} {xs : List Char}
    (hle : (htmlLexeme c (xs ++ w)).2 ≤ xs.length) :
    htmlLexeme c (xs ++ w') = htmlLexeme c (xs ++ w) := by
  have htag : startsTag (c :: (xs ++ w')) = startsTag (c :: (xs ++ w)) := h.startsTag_append (c :: xs)
  unfold htmlLexeme at hle ⊢
  rw [htag]
  split
  · next hopen =>
    rw [if_pos hopen] at hle
    cases xs with
    | nil =>
      -- the tag would reach beyond the place
      split at hle
      · exact absurd hle (by decide)
      split at hle
      · exact absurd hle (by decide)
      · exact absurd hle (by decide)
    | cons x xs =>
      show (if ((xs ++ w').take 3).map Char.toLower = _ then _
        else if (xs ++ w').head? = _ then _ else _) = _
      simp only [h.take_php, h.head?_append]
      rfl
  · next hopen =>
    rw [if_neg hopen] at hle
    rw [lengthBefore_congr h.ne_nil (fun ys => (h.startsTag_append ys).symm) hle]

end Alike

/-! ## Runs in front of such texts -/

/-- An angle that no two others follow is a mark. -/
theorem codeLexeme_angle {cs : List Char} (h : ¬ ['<', '<'].isPrefixOf cs = true) :
    codeLexeme '<' cs = .ok (.mark, 0) := by
  have hform : codeForm '<' cs = .mark := by
    show (if '<' = '<' ∧ ['<', '<'].isPrefixOf cs = true then CodeForm.heredoc else _) = _
    rw [if_neg fun hangles => h hangles.2]
    rfl
  rw [codeLexeme_eq, hform]
  rfl

/-- Blanks are passed over as one token. -/
theorem Reads.of_blanks {blanks : List Char} (hblanks : ∀ c ∈ blanks, isIndent c = true)
    {c : Char} {cs w : List Char} {ps : List (TokenKind × List Char)} {m : Mode}
    (h : Reads .code (blanks ++ c :: cs) ps m w) (hc : Text.isAsciiBlank c = false)
    (hw : w.length ≤ cs.length) : ∃ qs, Reads .code (c :: cs) qs m w := by
  cases blanks with
  | nil => exact ⟨ps, h⟩
  | cons b blanks =>
    have hblank : ∀ c ∈ b :: blanks, Text.isAsciiBlank c = true := fun c hc => by
      have hindent := hblanks c hc
      simp only [isIndent, Bool.or_eq_true, beq_iff_eq] at hindent
      rcases hindent with rfl | rfl <;> rfl
    have hlexeme : lexeme .code b (blanks ++ c :: cs) = .ok (.blank, blanks.length) :=
      lexeme_blanks (hblank b List.mem_cons_self) (fun c hc => hblank c (List.mem_cons_of_mem b hc))
        (show (c :: cs).head?.any Text.isAsciiBlank = false from hc)
    rw [List.cons_append] at h
    obtain ⟨kind, n, qs, hlexeme', -, -, h⟩ := h.cons_inv
      (by rw [List.length_append, List.length_cons]; omega)
    cases hlexeme.symm.trans hlexeme'
    rw [List.drop_left] at h
    exact ⟨qs, h⟩

/-- Three angles, blanks and a quote with a label behind it are no tokens in front of a place in the
literal that the quote opens. -/
theorem not_reads_of_label {q : Char} (hq : q = '\'' ∨ q = '"') {blanks label w : List Char}
    (hblanks : ∀ c ∈ blanks, isIndent c = true) (hlabel : ∀ c ∈ label, isNameChar c = true)
    {ps : List (TokenKind × List Char)} {m : Mode} :
    ¬ Reads .code ('<' :: '<' :: (blanks ++ q :: (label ++ w))) ps m w := by
  have hlength : (blanks ++ q :: (label ++ w)).length = blanks.length + 1 + label.length + w.length := by
    simp only [List.length_append, List.length_cons]
    omega
  have hhead (rest : List Char) : blanks ++ q :: (label ++ w) ≠ '<' :: rest := by
    intro heq
    cases blanks with
    | nil =>
      cases heq
      revert hq
      decide
    | cons b blanks =>
      cases heq
      exact absurd (hblanks '<' List.mem_cons_self) (by decide)
  have hangles : ¬ ['<', '<'].isPrefixOf ('<' :: (blanks ++ q :: (label ++ w))) = true := fun h => by
    obtain ⟨z, hz⟩ := List.isPrefixOf_iff_prefix.1 h
    exact hhead z (List.cons.inj hz).2.symm
  have hangle : ¬ ['<', '<'].isPrefixOf (blanks ++ q :: (label ++ w)) = true := fun h => by
    obtain ⟨z, hz⟩ := List.isPrefixOf_iff_prefix.1 h
    exact hhead ('<' :: z) hz.symm
  intro h
  -- the angles are marks
  obtain ⟨kind, n, qs, hlexeme, -, -, h⟩ := h.cons_inv (by rw [List.length_cons, hlength]; omega)
  cases hlexeme.symm.trans (codeLexeme_angle hangles)
  obtain ⟨kind, n, qs, hlexeme, -, -, h⟩ := Reads.cons_inv h (by rw [hlength]; omega)
  cases hlexeme.symm.trans (codeLexeme_angle hangle)
  obtain ⟨qs, h⟩ := Reads.of_blanks hblanks h (by rcases hq with rfl | rfl <;> rfl)
    (by rw [List.length_append]; omega)
  -- the literal reaches behind the label
  obtain ⟨kind, n, qs, hlexeme, -, hle, -⟩ := h.cons_inv
    (by rw [List.length_append]; exact Nat.le_add_left _ _)
  have hquoted : codeForm q (label ++ w) = .quoted := by
    rcases hq with rfl | rfl <;> rfl
  have hlexeme : codeLexeme q (label ++ w) = .ok (kind, n) := hlexeme
  rw [codeLexeme_eq, hquoted] at hlexeme
  have hlong := lt_quotedLength (fun c hc => ?_) (of_closed hlexeme).2
  · rw [List.length_append] at hle
    omega
  · have hname := hlabel c hc
    refine ⟨?_, ?_⟩
    · rintro rfl
      rcases hq with rfl | rfl <;> exact absurd hname (by decide)
    · rintro rfl
      exact absurd hname (by decide)

/-- **What stands before a place is cut into the same pieces**, whichever of two texts that begin alike
stands behind it. -/
theorem Reads.swap {w w' : List Char} (h : Alike w w') {m m' : Mode} {u : List Char}
    {ps : List (TokenKind × List Char)} (hreads : Reads m (u ++ w) ps m' w)
    (hu : ∀ q, q = '\'' ∨ q = '"' → w.head? = some q →
      ∀ blanks, (∀ c ∈ blanks, isIndent c = true) → ¬ ['<', '<', '<'] ++ blanks <:+ u) :
    Reads m (u ++ w') ps m' w' := by
  induction ps generalizing m u with
  | nil =>
    obtain ⟨rfl, hw⟩ := hreads.nil_inv
    obtain rfl : u = [] := List.append_left_eq_self.1 hw.symm
    exact .stop
  | cons p ps ih =>
    cases u with
    | nil =>
      obtain ⟨d, z, rfl⟩ := List.exists_cons_of_ne_nil h.ne_nil
      cases hreads with
      | cut _ hrest =>
        have hle := hrest.length_le
        rw [List.length_drop, List.length_cons] at hle
        omega
    | cons c u =>
      rw [List.cons_append] at hreads
      obtain ⟨kind, n, qs, hlexeme, hps, hle, hrest⟩ := hreads.cons_inv
        (by rw [List.length_append]; exact Nat.le_add_left _ _)
      cases hps
      rw [List.length_append] at hle
      have hn : n ≤ u.length := Nat.le_of_add_le_add_right hle
      have hlexeme' : lexeme m c (u ++ w') = .ok (kind, n) := by
        cases m with
        | html =>
          have hhtml : htmlLexeme c (u ++ w) = (kind, n) := Except.ok.inj hlexeme
          show Except.ok (htmlLexeme c (u ++ w')) = _
          rw [h.htmlLexeme_append (by rw [hhtml]; exact hn), hhtml]
        | code =>
          refine h.codeLexeme_append hlexeme hn fun hc ys hys hnone => ?_
          subst hc hys
          refine h.heredocHeader?_eq_none (fun q hq hw hopens => ?_) hnone
          obtain ⟨blanks, hblanks, rfl | ⟨label, hlabel, rfl⟩⟩ := hopens
          · exact hu q hq hw ys hblanks (List.suffix_refl _)
          · -- the angle would be a mark, and what follows no tokens
            have hmark : codeLexeme '<' ('<' :: '<' :: (blanks ++ q :: label) ++ w) = .ok (.mark, 0) := by
              rw [codeLexeme_eq]
              show (heredocLength _).map _ = _
              rw [List.cons_append, List.cons_append, List.drop_succ_cons, List.drop_succ_cons,
                List.drop_zero, heredocLength_eq_none_iff.2 hnone]
              rfl
            cases hlexeme.symm.trans hmark
            rw [List.drop_zero, List.cons_append, List.cons_append, List.append_assoc,
              List.cons_append] at hrest
            exact not_reads_of_label hq hblanks hlabel hrest
      rw [List.drop_append_of_le_length hn] at hrest
      have htail := ih hrest fun q hq hw blanks hblanks hsuffix =>
        hu q hq hw blanks hblanks (hsuffix.trans ((List.drop_suffix n u).trans (List.suffix_cons c u)))
      rw [← List.drop_append_of_le_length hn] at htail
      have hcut := Reads.cut hlexeme' htail
      have htake : (u ++ w).take n = (u ++ w').take n := by
        rw [List.take_append_of_le_length hn, List.take_append_of_le_length hn]
      rwa [← htake] at hcut

end Source
end Conformance
