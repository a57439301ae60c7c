import Conformance.Proofs.Source.HeredocPositions

/-!
# `Proofs.Source.TokenPositions`: where one token ends

The bytes in front decide on the same sort of token as the characters in front, test by test, and
the token ends behind the characters that it takes. Outside of code and in code alike no access fails.
-/

namespace Conformance
namespace Source
namespace Bytes

variable {bs : List UInt8} {pos line : Nat} {c : Char} {cs : List Char}

/-! ## Kinds and places -/

/-- A token of characters as a token of bytes: where it ends instead of how long it is. -/
def located (line pos : Nat) (c : Char) (cs : List Char) :
    Except Literal (TokenKind × Nat) → Except Fault (TokenKind × Nat)
  | .ok (kind, n) => .ok (kind, after pos (c :: cs) (n + 1))
  | .error what => .error (.unterminated { what, line })

theorem located_ite {p q : Prop} [Decidable p] [Decidable q] {x y : Except Fault (TokenKind × Nat)}
    {r s : Except Literal (TokenKind × Nat)} (hpq : p ↔ q) (hpos : q → x = located line pos c cs r)
    (hneg : ¬ q → y = located line pos c cs s) :
    (if p then x else y) = located line pos c cs (if q then r else s) := by
  by_cases hq : q
  · rw [if_pos hq, if_pos (hpq.2 hq), hpos hq]
  · rw [if_neg hq, if_neg fun hp => hq (hpq.1 hp), hneg hq]

theorem located_map (kind : TokenKind) (k : Nat) (r : Except Literal Nat) :
    located line pos c cs (r.map fun n => (kind, n + k))
      = (reach line (after pos (c :: cs) (k + 1)) (cs.drop k) r).map fun i => (kind, i) := by
  cases r with
  | error what => rfl
  | ok n =>
    show Except.ok (kind, after pos (c :: cs) (n + k + 1)) = Except.ok (kind, after _ (cs.drop k) n)
    rw [Nat.add_assoc, Nat.add_comm, after_add]
    rfl

theorem located_mark (kind : TokenKind) (hc : c.toNat < 0x80) :
    located line pos c cs (.ok (kind, 0)) = .ok (kind, pos + 1) := by
  show Except.ok (kind, after pos (c :: cs) 1) = _
  rw [after_cons_ascii pos hc, after_zero]

theorem after_two {d : Char} (pos : Nat) (hc : c.toNat < 0x80) (hd : d.toNat < 0x80) (cs : List Char) :
    after pos (c :: d :: cs) 2 = pos + 2 := by
  rw [after_cons_ascii pos hc, after_cons_ascii _ hd, after_zero]

/-! ## Tests in code -/

/-- A class of bytes holds of the first byte where the class of characters does of the character. -/
theorem SameClass.first {p : UInt8 → Bool} {q : Char → Bool} (hclass : SameClass p q) {b : UInt8}
    {ys : List UInt8} (h : encode (c :: cs) = b :: ys) : p b = q c := by
  have hhead := hclass.head (c :: cs)
  rwa [h] at hhead

theorem first_eq_iff {d : Char} (hd : d.toNat < 0x80) {b : UInt8} {ys : List UInt8}
    (h : encode (c :: cs) = b :: ys) : b = byte d ↔ c = d := by
  have hfirst := (sameClass_byte hd).first h
  rwa [Bool.eq_iff_iff, beq_iff_eq, beq_iff_eq] at hfirst

theorem isPrefixOf_pair_iff {d e : Char} :
    [d, e].isPrefixOf (c :: cs) = true ↔ c = d ∧ cs.head? = some e := by
  cases cs with
  | nil => simp [List.isPrefixOf]
  | cons c' cs =>
    simp only [List.isPrefixOf, Bool.and_true, Bool.and_eq_true, beq_iff_eq, List.head?_cons,
      Option.some_inj]
    exact and_congr eq_comm eq_comm

theorem startsWith_pair_iff {d e : Char} (hd : d.toNat < 0x80) (he : e.toNat < 0x80) :
    startsWith [d, e] (encode (c :: cs)) = true ↔ c = d ∧ cs.head? = some e := by
  rw [startsWith_encode (by simp [IsAscii, hd, he]), isPrefixOf_pair_iff]

theorem startsWith_heredoc_iff :
    startsWith ['<', '<', '<'] (encode (c :: cs)) = true
      ↔ c = '<' ∧ ['<', '<'].isPrefixOf cs = true := by
  rw [startsWith_encode (by decide), List.isPrefixOf, Bool.and_eq_true, beq_iff_eq, eq_comm]

theorem variable_iff {b : UInt8} {ys : List UInt8} (h : encode (c :: cs) = b :: ys) :
    b = byte '$' ∧ (encode (c :: cs))[1]?.any isNameStart = true
      ↔ c = '$' ∧ cs.head?.any Source.isNameStart = true := by
  rw [first_eq_iff (by decide) h]
  refine and_congr_right fun hc => ?_
  subst hc
  rw [encode_cons_ascii (by decide), List.getElem?_cons_succ, ← List.head?_eq_getElem?,
    sameClass_nameStart.head]

/-! ## Sorts of tokens in code -/

theorem eatWhile_located {p : UInt8 → Bool} {q : Char → Bool} (hclass : SameClass p q)
    (h : InFront bs pos (c :: cs)) (hc : q c = true) (kind : TokenKind) :
    .ok (kind, eatWhile p bs pos)
      = located line pos c cs (.ok (kind, (cs.takeWhile q).length)) := by
  rw [eatWhile_eq hclass h, List.takeWhile_cons_of_pos hc]
  rfl

theorem closeTag_located (hc : c = '?' ∧ cs.head? = some '>') :
    .ok (.closeTag, pos + 2) = located line pos c cs (.ok (.closeTag, 1)) := by
  obtain ⟨rfl, hnext⟩ := hc
  obtain ⟨rest, rfl⟩ := exists_cons_of_head? hnext
  exact congrArg (fun i => Except.ok (_, i)) (after_two pos (by decide) (by decide) rest).symm

theorem attribute_located (h : InFront bs pos (c :: cs)) (hc : c = '#' ∧ cs.head? = some '[') :
    ((attributeEnd bs line 1 (pos + 2)).map fun i => (TokenKind.attr, i))
      = located line pos c cs
          ((attributeLength 0 none (cs.drop 1)).map fun n => (.attr, n + 1)) := by
  obtain ⟨rfl, hnext⟩ := hc
  obtain ⟨rest, rfl⟩ := exists_cons_of_head? hnext
  have hinner : InFront bs (pos + 2) rest := (h.tail_ascii (by decide)).tail_ascii (by decide)
  rw [located_map, after_two pos (by decide) (by decide), attributeEnd_eq 0 hinner]
  rfl

theorem lineComment_located (h : InFront bs pos (c :: cs)) (hc : c = '#' ∨ c = '/') :
    .ok (.comment, lineCommentEnd bs pos)
      = located line pos c cs (.ok (.comment, lengthBefore endsLineComment cs)) := by
  have hgoes : endsLineComment (c :: cs) = false := by rcases hc with rfl | rfl <;> rfl
  rw [lineCommentEnd_eq h, lengthBefore, if_neg (by rw [hgoes]; exact Bool.false_ne_true)]
  rfl

theorem blockComment_located (h : InFront bs pos (c :: cs)) (hc : c = '/' ∧ cs.head? = some '*') :
    blockCommentEnd bs line pos
      = located line pos c cs
          (closed (if CodeForm.isDoc cs then .docComment else .comment) .comment
            ((lengthThrough ['*', '/'] (cs.drop 1)).map (· + 1))) := by
  obtain ⟨rfl, hnext⟩ := hc
  obtain ⟨cs, rfl⟩ := exists_cons_of_head? hnext
  have htext : InFront (encode ('/' :: '*' :: cs)) 0 ('/' :: '*' :: cs) := ⟨Nat.zero_le _, rfl⟩
  have hbody := ((htext.tail_ascii (by decide)).tail_ascii (by decide)).bytesFrom_eq
  unfold blockCommentEnd
  rw [h.bytesFrom_eq]
  dsimp only [bind, Except.bind]
  rw [hbody]
  dsimp only
  rw [startsWith_encode (by decide), startsWith_encode (by decide),
    find_encode (by decide) (by decide), List.drop_one, List.tail_cons, lengthThrough_eq]
  generalize hn : lengthBefore ['*', '/'].isPrefixOf cs = n
  by_cases hlt : n < cs.length
  · rw [if_pos hlt, if_pos hlt]
    subst hn
    obtain ⟨rest, hrest⟩ := exists_drop_lengthBefore hlt
    show Except.ok (_, pos + 2 + (encode _).length + 2)
      = Except.ok (_, after pos ('/' :: '*' :: cs) (_ + 2 + 1 + 1))
    rw [after_cons_ascii pos (by decide), after_cons_ascii _ (by decide), after_add, hrest]
    exact congrArg (fun i => Except.ok (_, i)) (after_two _ (by decide) (by decide) rest).symm
  · rw [if_neg hlt, if_neg hlt]
    rfl

theorem quoted_located (h : InFront bs pos (c :: cs)) (hc : c = '\'' ∨ c = '"' ∨ c = '\x60')
    {b : UInt8} {ys : List UInt8} (hb : encode (c :: cs) = b :: ys) :
    ((quotedEnd bs line b (pos + 1)).map fun i => (TokenKind.quoted, i))
      = located line pos c cs (closed .quoted .string (quotedLength c cs)) := by
  have hascii : c.toNat < 0x80 := by rcases hc with rfl | rfl | rfl <;> decide
  have hescape : c ≠ '\\' := by rcases hc with rfl | rfl | rfl <;> decide
  rw [closed_eq, (first_eq_iff hascii hb).2 rfl]
  show _ = located line pos c cs ((orOpen _ _).map fun n => (TokenKind.quoted, n + 0))
  rw [located_map, after_cons_ascii pos hascii, after_zero,
    quotedEnd_eq hascii hescape (h.tail_ascii hascii)]
  rfl

theorem heredoc_located (h : InFront bs pos (c :: cs))
    (hc : c = '<' ∧ ['<', '<'].isPrefixOf cs = true) :
    ((heredocEnd bs line pos).map fun
      | some i => (TokenKind.heredoc, i)
      | none => (.mark, pos + 1))
      = located line pos c cs ((heredocLength (cs.drop 2)).map fun
          | some n => (.heredoc, n + 2)
          | none => (.mark, 0)) := by
  obtain ⟨rfl, hnext⟩ := hc
  obtain ⟨cs, rfl⟩ := List.isPrefixOf_iff_prefix.1 hnext
  rw [List.drop_left' (by rfl)]
  have hinner : InFront bs (pos + 3) cs :=
    ((h.tail_ascii (by decide)).tail_ascii (by decide)).tail_ascii (by decide)
  rw [heredocEnd_eq hinner]
  cases heredocLength cs with
  | error what => rfl
  | ok found =>
    cases found with
    | none => exact (located_mark .mark (by decide)).symm
    | some n =>
      show Except.ok (TokenKind.heredoc, after (pos + 3) cs n)
        = Except.ok (.heredoc, after pos ('<' :: '<' :: '<' :: cs) (n + 1 + 1 + 1))
      rw [after_cons_ascii pos (by decide), after_cons_ascii _ (by decide),
        after_cons_ascii _ (by decide)]

theorem variable_located (h : InFront bs pos (c :: cs)) (hc : c = '$') :
    .ok (.variable, eatWhile isNameByte bs (pos + 1))
      = located line pos c cs (.ok (.variable, (cs.takeWhile isNameChar).length)) := by
  subst hc
  rw [eatWhile_eq sameClass_nameByte (h.tail_ascii (by decide)),
    ← after_cons_ascii pos (by decide : '$'.toNat < 0x80)]
  rfl

theorem codeToken_eq (h : InFront bs pos (c :: cs)) :
    codeToken bs line pos = located line pos c cs (codeLexeme c cs) := by
  obtain ⟨b, ys, hb⟩ : ∃ b ys, encode (c :: cs) = b :: ys := by
    obtain ⟨b, ys, hbytes, _⟩ := exists_utf8EncodeChar c
    exact ⟨b, ys ++ encode cs, by rw [encode_cons, hbytes]; rfl⟩
  have hbyte : byteAt (encode (c :: cs)) 0 = .ok b := by rw [hb]; rfl
  have hpair {d e : Char} (hd : d.toNat < 0x80) (he : e.toNat < 0x80) :
      startsWith [d, e] (encode (c :: cs)) = true ↔ c = d ∧ cs.head? = some e :=
    startsWith_pair_iff hd he
  unfold codeToken codeLexeme
  rw [h.bytesFrom_eq]
  show Except.bind (byteAt (encode (c :: cs)) 0) _ = _
  rw [hbyte]
  show (if isBlank b = true then _ else _) = _
  -- both sides test for the same sorts in the same order
  refine located_ite (by rw [sameClass_blank.first hb])
    (fun hc => eatWhile_located sameClass_blank h hc .blank) fun _ => ?_
  refine located_ite (hpair (by decide) (by decide)) closeTag_located fun _ => ?_
  refine located_ite (hpair (by decide) (by decide)) (attribute_located h) fun _ => ?_
  refine located_ite (or_congr (first_eq_iff (by decide) hb) (hpair (by decide) (by decide)))
    (fun hc => lineComment_located h (hc.imp_right And.left)) fun _ => ?_
  refine located_ite (hpair (by decide) (by decide)) (blockComment_located h) fun _ => ?_
  refine located_ite (or_congr (first_eq_iff (by decide) hb)
    (or_congr (first_eq_iff (by decide) hb) (first_eq_iff (by decide) hb)))
    (fun hc => quoted_located h hc hb) fun _ => ?_
  refine located_ite startsWith_heredoc_iff (heredoc_located h) fun _ => ?_
  refine located_ite (variable_iff hb) (fun hc => variable_located h hc.1) fun _ => ?_
  refine located_ite (by rw [sameClass_nameStart.first hb])
    (fun hc => eatWhile_located sameClass_nameByte h (isNameChar_of_isNameStart hc) .word)
    fun hname => ?_
  -- beyond ASCII every character starts a word
  have hascii : c.toNat < 0x80 := by
    refine Nat.lt_of_not_le fun hc => hname ?_
    rw [Source.isNameStart, decide_eq_true hc, Bool.or_true]
  refine located_ite (by rw [sameClass_digit.first hb])
    (fun hc => eatWhile_located sameClass_number h ?_ .number) fun _ => ?_
  · rw [isNumberChar, Char.isAlphanum, hc, Bool.or_true]
    rfl
  exact located_ite (first_eq_iff (by decide) hb)
    (fun _ => (located_mark .separator hascii).symm) fun _ => (located_mark .mark hascii).symm

/-! ## Outside of code -/

theorem toLower_of_high (hc : 0x80 ≤ c.toNat) : c.toLower = c := by
  refine dif_neg fun hrange => ?_
  exact absurd (Nat.le_trans hc hrange.2) (by decide)

theorem foldByte_byte (hc : c.toNat < 0x80) : foldByte (byte c) = byte c.toLower :=
  of_ascii (P := fun c => foldByte (byte c) = byte c.toLower) (by decide +kernel) c hc

theorem foldByte_high {b : UInt8} (hb : 0x80 ≤ b) : foldByte b = b :=
  of_high (P := fun b => foldByte b = b) (by decide +kernel) b hb

theorem toLower_lt (hc : c.toNat < 0x80) : c.toLower.toNat < 0x80 :=
  of_ascii (P := fun c => c.toLower.toNat < 0x80) (by decide +kernel) c hc

/-- The bytes in front are those of a word up to case exactly if the characters are. -/
theorem map_foldByte_take_iff (ds : List Char) (h : IsAscii ds) (cs : List Char) :
    ((encode cs).take ds.length).map foldByte = ds.map byte
      ↔ (cs.take ds.length).map Char.toLower = ds := by
  induction ds generalizing cs with
  | nil => simp
  | cons d ds ih =>
    have hd := h d List.mem_cons_self
    cases cs with
    | nil => exact ⟨nofun, nofun⟩
    | cons c cs =>
      rw [List.length_cons, List.take_succ_cons, List.map_cons, List.map_cons, List.cons.injEq]
      by_cases hc : c.toNat < 0x80
      · rw [encode_cons_ascii hc, List.take_succ_cons, List.map_cons, List.cons.injEq,
          foldByte_byte hc, byte_inj (toLower_lt hc) hd, ih fun e he => h e (List.mem_cons_of_mem d he)]
      · have hc := Nat.le_of_not_lt hc
        obtain ⟨b, ys, hbytes, hb, _⟩ := exists_of_high hc
        rw [encode_cons, hbytes, List.cons_append, List.take_succ_cons, List.map_cons,
          List.cons.injEq, foldByte_high hb, toLower_of_high hc]
        exact iff_of_false (fun heq => ne_byte_of_high hb hd heq.1) fun heq => ne_of_high hc hd heq.1

/-- Such characters are one byte each. -/
theorem length_encode_of_map_toLower {cs ds : List Char} (h : IsAscii ds)
    (heq : cs.map Char.toLower = ds) : (encode cs).length = cs.length := by
  have hascii : IsAscii cs := by
    intro c hc
    refine Nat.lt_of_not_le fun hhigh => ?_
    have hmem := h c.toLower (heq ▸ List.mem_map_of_mem hc)
    rw [toLower_of_high hhigh] at hmem
    omega
  rw [encode_ascii hascii, List.length_map]

/-- A character that is no letter is no folded letter either. -/
theorem toLower_eq_iff {d : Char} (h : ∀ n < 0x80, (Char.ofNat n).toLower = d ↔ Char.ofNat n = d) :
    c.toLower = d ↔ c = d := by
  by_cases hc : c.toNat < 0x80
  · exact of_ascii (P := fun c => c.toLower = d ↔ c = d) h c hc
  · rw [toLower_of_high (Nat.le_of_not_lt hc)]

/-- Behind the two characters of an opening tag. -/
theorem startsTag_iff : startsTag (c :: cs) = true ↔ c = '<' ∧ ∃ rest, cs = '?' :: rest := by
  rw [startsTag, isPrefixOf_pair_iff]
  refine and_congr_right fun _ => ⟨exists_cons_of_head?, ?_⟩
  rintro ⟨rest, rfl⟩
  rfl

/-- The bytes in front are those of the long opening tag. -/
theorem longTag_iff (c : Char) (cs : List Char) :
    (5 ≤ (encode (c :: cs)).length
        ∧ ((encode (c :: cs)).take 5).map foldByte = ['<', '?', 'p', 'h', 'p'].map byte)
      ↔ startsTag (c :: cs) = true ∧ ((cs.drop 1).take 3).map Char.toLower = ['p', 'h', 'p'] := by
  have hfold : ((encode (c :: cs)).take 5).map foldByte = ['<', '?', 'p', 'h', 'p'].map byte
      ↔ ((c :: cs).take 5).map Char.toLower = ['<', '?', 'p', 'h', 'p'] :=
    map_foldByte_take_iff ['<', '?', 'p', 'h', 'p'] (by decide) (c :: cs)
  have hlength (heq : ((encode (c :: cs)).take 5).map foldByte = ['<', '?', 'p', 'h', 'p'].map byte) :
      5 ≤ (encode (c :: cs)).length := by
    have hmin : min 5 (encode (c :: cs)).length = 5 := by
      rw [← List.length_take, ← List.length_map (f := foldByte), heq]
      rfl
    omega
  rw [and_iff_right_of_imp hlength, hfold, startsTag_iff]
  cases cs with
  | nil =>
    constructor
    · exact fun heq => nomatch (List.cons.inj heq).2
    · rintro ⟨⟨_, _, hnil⟩, _⟩
      cases hnil
  | cons d ds =>
    rw [List.take_succ_cons, List.take_succ_cons, List.map_cons, List.map_cons, List.cons.injEq,
      List.cons.injEq, toLower_eq_iff (by decide), toLower_eq_iff (by decide), ← and_assoc]
    refine and_congr_left fun _ => and_congr_right fun _ => ?_
    exact ⟨fun hd => ⟨ds, hd ▸ rfl⟩, fun ⟨_, heq⟩ => (List.cons.inj heq).1⟩

theorem openTagLength?_tag (rest : List Char) :
    openTagLength? (encode ('<' :: '?' :: rest))
      = some (if (rest.take 3).map Char.toLower = ['p', 'h', 'p'] then 5
          else if rest.head? = some '=' then 3 else 2) := by
  have hshort : startsWith ['<', '?'] (encode ('<' :: '?' :: rest)) = true :=
    startsWith_encode (by decide) _
  have hecho : startsWith ['<', '?', '='] (encode ('<' :: '?' :: rest)) = true
      ↔ rest.head? = some '=' := by
    rw [startsWith_encode (by decide)]
    show (['?', '='].isPrefixOf ('?' :: rest)) = true ↔ _
    rw [isPrefixOf_pair_iff, and_iff_right rfl]
  have hlongTag := longTag_iff '<' ('?' :: rest)
  unfold openTagLength?
  by_cases hlong : (rest.take 3).map Char.toLower = ['p', 'h', 'p']
  · rw [if_pos (hlongTag.2 ⟨rfl, hlong⟩), if_pos hlong]
  rw [if_neg fun heq => hlong (hlongTag.1 heq).2, if_neg hlong]
  by_cases hequals : rest.head? = some '='
  · rw [if_pos (hecho.2 hequals), if_pos hequals]
  · rw [if_neg fun heq => hequals (hecho.1 heq), if_pos hshort, if_neg hequals]

theorem openTagLength?_html (h : startsTag (c :: cs) = false) :
    openTagLength? (encode (c :: cs)) = none := by
  have hshort : startsWith ['<', '?'] (encode (c :: cs)) = false :=
    (startsWith_encode (by decide) _).trans h
  have hecho : startsWith ['<', '?', '='] (encode (c :: cs)) = false := by
    rw [startsWith_encode (by decide), Bool.eq_false_iff, Ne, List.isPrefixOf_iff_prefix]
    intro hprefix
    have htag : startsTag (c :: cs) = true :=
      List.isPrefixOf_iff_prefix.2 ((List.prefix_append ['<', '?'] ['=']).trans hprefix)
    rw [htag] at h
    cases h
  unfold openTagLength?
  rw [if_neg fun heq => absurd (((longTag_iff c cs).1 heq).1.symm.trans h) nofun, hshort, hecho]
  rfl

/-- Where the tag ends that begins with `<?`. -/
theorem after_tag {rest : List Char} :
    located line pos '<' ('?' :: rest) (.ok (htmlLexeme '<' ('?' :: rest)))
      = .ok (.openTag, pos + if (rest.take 3).map Char.toLower = ['p', 'h', 'p'] then 5
          else if rest.head? = some '=' then 3 else 2) := by
  have hlexeme : htmlLexeme '<' ('?' :: rest)
      = if (rest.take 3).map Char.toLower = ['p', 'h', 'p'] then (.openTag, 4)
        else if rest.head? = some '=' then (.openTag, 2) else (.openTag, 1) := if_pos rfl
  have hafter (n : Nat) : after pos ('<' :: '?' :: rest) (n + 2) = after (pos + 2) rest n := by
    rw [after_cons_ascii pos (by decide), after_cons_ascii _ (by decide)]
  rw [hlexeme]
  by_cases hlong : (rest.take 3).map Char.toLower = ['p', 'h', 'p']
  · rw [if_pos hlong, if_pos hlong]
    have hbytes := length_encode_of_map_toLower (by decide) hlong
    have hlength : (rest.take 3).length = 3 := by
      rw [← List.length_map (f := Char.toLower), hlong]
      rfl
    show Except.ok (_, after pos ('<' :: '?' :: rest) (3 + 2)) = _
    rw [hafter, after, hbytes, hlength]
  rw [if_neg hlong, if_neg hlong]
  by_cases hequals : rest.head? = some '='
  · rw [if_pos hequals, if_pos hequals]
    obtain ⟨rest, rfl⟩ := exists_cons_of_head? hequals
    show Except.ok (_, after pos ('<' :: '?' :: '=' :: rest) (1 + 2)) = _
    rw [hafter, after_cons_ascii _ (by decide), after_zero]
  · rw [if_neg hequals, if_neg hequals]
    show Except.ok (_, after pos ('<' :: '?' :: rest) (0 + 2)) = _
    rw [hafter, after_zero]

theorem htmlToken_eq (h : InFront bs pos (c :: cs)) :
    htmlToken bs pos = located line pos c cs (.ok (htmlLexeme c cs)) := by
  unfold htmlToken
  rw [h.bytesFrom_eq]
  dsimp only [bind, Except.bind]
  by_cases htag : startsTag (c :: cs) = true
  · obtain ⟨rfl, rest, rfl⟩ := startsTag_iff.1 htag
    rw [openTagLength?_tag, after_tag]
  · rw [openTagLength?_html (Bool.eq_false_iff.2 htag), find_encode (by decide) (by decide),
      htmlLexeme, if_neg htag]
    have hlength : lengthBefore ['<', '?'].isPrefixOf (c :: cs) = lengthBefore startsTag cs + 1 := by
      rw [lengthBefore]
      exact if_neg htag
    rw [hlength]
    by_cases hlt : lengthBefore startsTag cs + 1 < (c :: cs).length
    · rw [if_pos hlt]
      rfl
    · rw [if_neg hlt]
      show Except.ok (_, bs.length) = Except.ok (_, after pos (c :: cs) _)
      rw [after, List.take_of_length_le (Nat.le_of_not_lt hlt), h.length_eq]

/-- **The next token in bytes is the next token in characters**, and no access fails on the way. -/
theorem token_eq (mode : Mode) (h : InFront bs pos (c :: cs)) :
    token mode bs line pos = located line pos c cs (lexeme mode c cs) := by
  cases mode with
  | html => exact htmlToken_eq h
  | code => exact codeToken_eq h

end Bytes
end Source
end Conformance
