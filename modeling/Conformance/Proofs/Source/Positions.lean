import Conformance.Proofs.Source.Encoding
import Conformance.Proofs.Source.Heredocs

/-!
# `Proofs.Source.Positions`: where the movements over bytes end

Each movement starts in front of some characters and ends behind as many of them as the length says that
`Source.Lexeme` computes of these characters. No movement ends inside a character: what it looks
for is in ASCII, and the bytes of another character are passed one by one, also those behind the byte that a
backslash protects. Nothing is asked for outside of the text, and no bracket is closed that was not open.
-/

namespace Conformance
namespace Source
namespace Bytes

variable {bs : List UInt8} {pos line : Nat} {c : Char} {cs : List Char}

/-! ## Over one character -/

/-- Bytes beyond ASCII are passed one by one where each of them is. -/
theorem skip_high {β : Type} {f : Nat → β} {ys zs : List UInt8}
    (hstep : ∀ pos b zs, bs.drop pos = b :: zs → 0x80 ≤ b → f pos = f (pos + 1))
    (hys : ∀ b ∈ ys, 0x80 ≤ b) (h : bs.drop pos = ys ++ zs) : f pos = f (pos + ys.length) := by
  induction ys generalizing pos with
  | nil => rfl
  | cons b ys ih =>
    have hnext : bs.drop (pos + 1) = ys ++ zs := drop_add_of_drop_eq [b] h
    rw [hstep pos b (ys ++ zs) h (hys b List.mem_cons_self),
      ih (fun b' hb' => hys b' (List.mem_cons_of_mem b hb')) hnext, List.length_cons]
    exact congrArg f (by omega)

/-- So is a character beyond ASCII. -/
theorem InFront.skip {β : Type} {f : Nat → β} (h : InFront bs pos (c :: cs)) (hc : 0x80 ≤ c.toNat)
    (hstep : ∀ pos b zs, bs.drop pos = b :: zs → 0x80 ≤ b → f pos = f (pos + 1)) :
    f pos = f (pos + (String.utf8EncodeChar c).length) :=
  skip_high hstep (utf8EncodeChar_of_high hc) (h.drop.trans (encode_cons c cs))

theorem getElem_of_drop_eq_cons {b : UInt8} {ys : List UInt8} (hlt : pos < bs.length)
    (h : bs.drop pos = b :: ys) : bs[pos] = b := by
  have hdrop := List.drop_eq_getElem_cons hlt
  rw [h] at hdrop
  exact (List.cons.inj hdrop).1.symm

/-! ## To a stop -/

/-- A stop for bytes and a stop for characters that see the same of a text. -/
structure SameStops (stop : List UInt8 → Bool) (stop' : List Char → Bool) : Prop where
  ascii : ∀ c cs, c.toNat < 0x80 → stop (byte c :: encode cs) = stop' (c :: cs)
  high : ∀ b ys, 0x80 ≤ b → ∀ c cs, 0x80 ≤ c.toNat → stop (b :: ys) = stop' (c :: cs)

theorem SameClass.stops {p : UInt8 → Bool} {q : Char → Bool} (h : SameClass p q) :
    SameStops (·.head?.any p) (·.head?.any q) where
  ascii c _ hc := h.ascii c hc
  high b _ hb c _ hc := h.high b hb c hc

theorem isPrefixOf_high {d : Char} {ds : List Char} (hd : d.toNat < 0x80) (hc : 0x80 ≤ c.toNat) :
    (d :: ds).isPrefixOf (c :: cs) = false := by
  rw [List.isPrefixOf, beq_eq_false_iff_ne.2 (ne_of_high hc hd).symm, Bool.false_and]

theorem sameStops_startsWith {d : Char} {ds : List Char} (h : IsAscii (d :: ds)) :
    SameStops (startsWith (d :: ds)) (d :: ds).isPrefixOf where
  ascii c cs hc := by rw [← encode_cons_ascii hc, startsWith_encode h]
  high b ys hb c cs hc := by
    have hd := h d List.mem_cons_self
    rw [startsWith_high hd hb, isPrefixOf_high hd hc]

theorem SameStops.not {s : List UInt8 → Bool} {t : List Char → Bool} (h : SameStops s t) :
    SameStops (!s ·) (!t ·) where
  ascii c cs hc := congrArg (!·) (h.ascii c cs hc)
  high b ys hb c cs hc := congrArg (!·) (h.high b ys hb c cs hc)

theorem SameStops.or {s s' : List UInt8 → Bool} {t t' : List Char → Bool} (h : SameStops s t)
    (h' : SameStops s' t') : SameStops (fun ys => s ys || s' ys) (fun cs => t cs || t' cs) where
  ascii c cs hc := by rw [h.ascii c cs hc, h'.ascii c cs hc]
  high b ys hb c cs hc := by rw [h.high b ys hb c cs hc, h'.high b ys hb c cs hc]

theorem advance_of_length_le {stop : List UInt8 → Bool} (h : bs.length ≤ pos) :
    advance stop bs pos = pos := by
  rw [advance, if_neg (Nat.not_lt_of_le h)]

theorem advance_of_drop_eq_cons {stop : List UInt8 → Bool} {b : UInt8} {ys : List UInt8}
    (h : bs.drop pos = b :: ys) :
    advance stop bs pos = if stop (b :: ys) then pos else advance stop bs (pos + 1) := by
  rw [advance, if_pos (lt_of_drop_eq_cons h), h]

theorem advance_eq {stop : List UInt8 → Bool} {stop' : List Char → Bool} (hstop : SameStops stop stop')
    (h : InFront bs pos cs) : advance stop bs pos = after pos cs (lengthBefore stop' cs) := by
  induction cs generalizing pos with
  | nil => exact advance_of_length_le h.length_le_of_nil
  | cons c cs ih =>
    rw [lengthBefore]
    by_cases hc : c.toNat < 0x80
    · rw [advance_of_drop_eq_cons (h.drop_ascii hc), hstop.ascii c cs hc]
      split
      · rfl
      · rw [ih (h.tail_ascii hc), after_cons_ascii pos hc]
    · have hc := Nat.le_of_not_lt hc
      split
      · next hstops =>
        -- the first byte of the character stops already
        obtain ⟨b, ys, hbytes, hb, _⟩ := exists_of_high hc
        have hdrop : bs.drop pos = b :: (ys ++ encode cs) := by
          rw [h.drop, encode_cons, hbytes]
          rfl
        rw [advance_of_drop_eq_cons hdrop, hstop.high b _ hb c cs hc, if_pos hstops, after_zero]
      · next hstops =>
        -- no byte of the character stops
        have hskip := h.skip (f := advance stop bs) hc fun pos b zs hdrop hb => by
          rw [advance_of_drop_eq_cons hdrop, hstop.high b zs hb c cs hc, if_neg hstops]
        rw [hskip, ih h.tail, after_cons]

theorem lengthBefore_not_head (p : Char → Bool) (cs : List Char) :
    lengthBefore (fun rest => !rest.head?.any p) cs = (cs.takeWhile p).length := by
  induction cs with
  | nil => rfl
  | cons c cs ih =>
    rw [lengthBefore, List.takeWhile_cons, ih]
    show (if (!p c) = true then 0 else _) = _
    cases p c <;> rfl

theorem eatWhile_eq {p : UInt8 → Bool} {q : Char → Bool} (hclass : SameClass p q)
    (h : InFront bs pos cs) : eatWhile p bs pos = after pos cs (cs.takeWhile q).length := by
  rw [eatWhile, advance_eq hclass.stops.not h, lengthBefore_not_head]

theorem drop_length_takeWhile (q : Char → Bool) (cs : List Char) :
    cs.drop (cs.takeWhile q).length = cs.dropWhile q :=
  (congrArg (List.drop (cs.takeWhile q).length) List.takeWhile_append_dropWhile.symm).trans
    List.drop_left

/-- Behind the characters of a class. -/
theorem InFront.dropWhile {p : UInt8 → Bool} {q : Char → Bool} (hclass : SameClass p q)
    (h : InFront bs pos cs) : InFront bs (eatWhile p bs pos) (cs.dropWhile q) := by
  rw [eatWhile_eq hclass h, ← drop_length_takeWhile]
  exact h.move _

theorem sameStops_endsLineComment :
    SameStops (fun rest => rest.head? == some (byte '\n') || startsWith ['?', '>'] rest)
      endsLineComment where
  ascii c cs hc := ((sameClass_byte (by decide)).stops.or (sameStops_startsWith (by decide))).ascii c cs hc
  high b ys hb c cs hc :=
    ((sameClass_byte (by decide)).stops.or (sameStops_startsWith (by decide))).high b ys hb c cs hc

theorem lineCommentEnd_eq (h : InFront bs pos cs) :
    lineCommentEnd bs pos = after pos cs (lengthBefore endsLineComment cs) :=
  advance_eq sameStops_endsLineComment h

/-! ## To a mark -/

theorem find_high {d : Char} {ds : List Char} (hd : d.toNat < 0x80) {ys zs : List UInt8}
    (hys : ∀ b ∈ ys, 0x80 ≤ b) :
    find ((d :: ds).map byte) (ys ++ zs) = (find ((d :: ds).map byte) zs).map (· + ys.length) := by
  induction ys with
  | nil => exact Option.map_id'.symm
  | cons b ys ih =>
    have hb : ((d :: ds).map byte).isPrefixOf (b :: (ys ++ zs)) = false :=
      startsWith_high hd (hys b List.mem_cons_self) _
    rw [List.cons_append, find, hb, if_neg Bool.false_ne_true,
      ih fun b' hb' => hys b' (List.mem_cons_of_mem b hb'), Option.map_map]
    rfl

/-- The first place of a mark in ASCII, in characters and in bytes. -/
theorem find_encode {needle : List Char} (hneedle : needle ≠ []) (hascii : IsAscii needle)
    (cs : List Char) :
    find (needle.map byte) (encode cs)
      = if lengthBefore (needle.isPrefixOf ·) cs < cs.length then
          some (encode (cs.take (lengthBefore (needle.isPrefixOf ·) cs))).length
        else none := by
  induction cs with
  | nil => rfl
  | cons c cs ih =>
    have hprefix := startsWith_encode hascii (c :: cs)
    unfold lengthBefore
    by_cases hc : c.toNat < 0x80
    · rw [encode_cons_ascii hc, startsWith] at hprefix
      rw [encode_cons_ascii hc, find, hprefix]
      split
      · exact (if_pos (Nat.zero_lt_succ _)).symm
      · rw [ih, List.length_cons, List.take_succ_cons, encode_cons_ascii hc, List.length_cons]
        simp only [Nat.add_lt_add_iff_right]
        split <;> rfl
    · have hc := Nat.le_of_not_lt hc
      obtain ⟨d, ds, rfl⟩ := List.exists_cons_of_ne_nil hneedle
      have hd := hascii d List.mem_cons_self
      rw [encode_cons, find_high hd (utf8EncodeChar_of_high hc), ih, isPrefixOf_high hd hc,
        if_neg Bool.false_ne_true, List.length_cons, List.take_succ_cons, encode_cons,
        List.length_append]
      simp only [Nat.add_lt_add_iff_right]
      split
      · rw [Option.map_some, Nat.add_comm]
      · rfl

theorem lengthThrough_eq (closing cs : List Char) :
    lengthThrough closing cs
      = if lengthBefore closing.isPrefixOf cs < cs.length then
          some (lengthBefore closing.isPrefixOf cs + closing.length)
        else none := by
  induction cs with
  | nil => rfl
  | cons c cs ih =>
    rw [lengthThrough, lengthBefore, ih]
    split
    · rw [Nat.zero_add]
      exact (if_pos (Nat.zero_lt_succ _)).symm
    · simp only [List.length_cons, Nat.add_lt_add_iff_right]
      split
      · rw [Option.map_some, Nat.add_right_comm]
      · rfl

/-- At its first place the mark stands. -/
theorem exists_drop_lengthBefore {needle cs : List Char}
    (h : lengthBefore needle.isPrefixOf cs < cs.length) :
    ∃ rest, cs.drop (lengthBefore needle.isPrefixOf cs) = needle ++ rest := by
  rcases stop_drop_lengthBefore needle.isPrefixOf cs with hnil | hprefix
  · exact absurd (List.drop_eq_nil_iff.1 hnil) (Nat.not_le_of_lt h)
  · obtain ⟨rest, hrest⟩ := List.isPrefixOf_iff_prefix.1 hprefix
    exact ⟨rest, hrest.symm⟩

/-! ## Literals -/

/-- A form that some length closes, if there is one. -/
def orOpen (what : Literal) : Option Nat → Except Literal Nat
  | some n => .ok n
  | none => .error what

theorem closed_eq (kind : TokenKind) (what : Literal) (length : Option Nat) :
    closed kind what length = (orOpen what length).map fun n => (kind, n) := by
  cases length <;> rfl

/-- A length of characters in front as the position behind them. -/
def reach (line pos : Nat) (cs : List Char) : Except Literal Nat → Except Fault Nat
  | .ok n => .ok (after pos cs n)
  | .error what => .error (.unterminated { what, line })

theorem reach_cons (line pos : Nat) (c : Char) (cs : List Char) (r : Except Literal Nat) :
    reach line pos (c :: cs) (r.map (· + 1))
      = reach line (pos + (String.utf8EncodeChar c).length) cs r := by
  cases r with
  | error what => rfl
  | ok n => exact congrArg Except.ok (after_cons pos c cs n)

theorem reach_cons_ascii (line pos : Nat) {c : Char} (hc : c.toNat < 0x80) (cs : List Char)
    (r : Except Literal Nat) :
    reach line pos (c :: cs) (r.map (· + 1)) = reach line (pos + 1) cs r := by
  rw [reach_cons, utf8EncodeChar_of_ascii hc]
  rfl

theorem reach_drop (line pos : Nat) (cs : List Char) (n : Nat) (r : Except Literal Nat) :
    reach line pos cs (r.map (· + n)) = reach line (after pos cs n) (cs.drop n) r := by
  cases r with
  | error what => rfl
  | ok m =>
    show Except.ok (after pos cs (m + n)) = _
    rw [Nat.add_comm m n, after_add]
    rfl

theorem orOpen_map (what : Literal) (length : Option Nat) (f : Nat → Nat) :
    orOpen what (length.map f) = (orOpen what length).map f := by
  cases length <;> rfl

theorem quotedEnd_of_length_le {quote : UInt8} (h : bs.length ≤ pos) :
    quotedEnd bs line quote pos = .error (.unterminated { what := .string, line }) := by
  rw [quotedEnd, dif_neg (Nat.not_lt_of_le h)]

theorem quotedEnd_of_drop_eq_cons {quote b : UInt8} {ys : List UInt8} (h : bs.drop pos = b :: ys) :
    quotedEnd bs line quote pos
      = if b = byte '\\' then quotedEnd bs line quote (pos + 2)
        else if b = quote then .ok (pos + 1)
        else quotedEnd bs line quote (pos + 1) := by
  rw [quotedEnd, dif_pos (lt_of_drop_eq_cons h), getElem_of_drop_eq_cons _ h]

theorem quotedEnd_high {quote : Char} (hquote : quote.toNat < 0x80) {b : UInt8} {ys : List UInt8}
    (h : bs.drop pos = b :: ys) (hb : 0x80 ≤ b) :
    quotedEnd bs line (byte quote) pos = quotedEnd bs line (byte quote) (pos + 1) := by
  rw [quotedEnd_of_drop_eq_cons h, if_neg (ne_byte_of_high hb (by decide)),
    if_neg (ne_byte_of_high hb hquote)]

/-- What a backslash protects is passed over as a whole. -/
theorem quotedEnd_protected {quote : Char} (hquote : quote.toNat < 0x80)
    (h : InFront bs pos (c :: cs)) :
    quotedEnd bs line (byte quote) (pos + 1)
      = quotedEnd bs line (byte quote) (pos + (String.utf8EncodeChar c).length) := by
  obtain ⟨b, ys, hbytes, hys⟩ := exists_utf8EncodeChar c
  have hdrop : bs.drop (pos + 1) = ys ++ encode cs := by
    refine drop_add_of_drop_eq [b] ?_
    rw [h.drop, encode_cons, hbytes]
    rfl
  have hskip := skip_high (f := quotedEnd bs line (byte quote))
    (fun _ _ _ hdrop hb => quotedEnd_high hquote hdrop hb) hys hdrop
  rw [hskip, hbytes, List.length_cons]
  exact congrArg (quotedEnd bs line (byte quote)) (by omega)

theorem quotedEnd_plain {quote : Char} (hquote : quote.toNat < 0x80) (h : InFront bs pos (c :: cs))
    (hescape : c ≠ '\\') (hc : c ≠ quote) :
    quotedEnd bs line (byte quote) pos
      = quotedEnd bs line (byte quote) (pos + (String.utf8EncodeChar c).length) := by
  by_cases hascii : c.toNat < 0x80
  · rw [quotedEnd_of_drop_eq_cons (h.drop_ascii hascii),
      if_neg fun heq => hescape ((byte_inj hascii (by decide)).1 heq),
      if_neg fun heq => hc ((byte_inj hascii hquote).1 heq), utf8EncodeChar_of_ascii hascii]
    rfl
  · exact h.skip (f := quotedEnd bs line (byte quote)) (Nat.le_of_not_lt hascii)
      fun _ _ _ hdrop hb => quotedEnd_high hquote hdrop hb

/-- **A literal ends behind the quote that no backslash protects.** -/
theorem quotedEnd_eq {quote : Char} (hquote : quote.toNat < 0x80) (hescape : quote ≠ '\\')
    (h : InFront bs pos cs) :
    quotedEnd bs line (byte quote) pos
      = reach line pos cs (orOpen .string (quotedLength quote cs)) := by
  induction cs using quotedLength.induct quote generalizing pos with
  | case1 => exact quotedEnd_of_length_le h.length_le_of_nil
  | case2 c cs ih =>
    -- two bytes on, the position may lie inside the protected character
    have hbackslash : '\\'.toNat < 0x80 := by decide
    have hnext := h.tail_ascii hbackslash
    have hlength : quotedLength quote ('\\' :: c :: cs)
        = ((quotedLength quote cs).map (· + 1)).map (· + 1) := by
      rw [quotedLength, Option.map_map]
      rfl
    rw [quotedEnd_of_drop_eq_cons (h.drop_ascii hbackslash), if_pos rfl,
      quotedEnd_protected hquote hnext, ih hnext.tail, hlength, orOpen_map, orOpen_map,
      reach_cons_ascii line pos hbackslash, reach_cons]
  | case3 cs hplain =>
    rw [quotedEnd_of_drop_eq_cons (h.drop_ascii hquote),
      if_neg fun heq => hescape ((byte_inj hquote (by decide)).1 heq), if_pos rfl,
      quotedLength.eq_3 _ _ _ hplain, if_pos rfl]
    exact congrArg Except.ok (after_cons_ascii pos hquote cs 0).symm
  | case4 c cs hplain hc ih =>
    rw [quotedLength.eq_3 _ _ _ hplain, if_neg hc, orOpen_map, reach_cons]
    by_cases hbackslash : c = '\\'
    · -- a backslash at the very end protects nothing
      subst hbackslash
      cases cs with
      | cons d ds => exact absurd rfl (hplain d ds rfl)
      | nil =>
        have hend := (h.tail_ascii (by decide)).length_le_of_nil
        rw [quotedEnd_of_drop_eq_cons (h.drop_ascii (by decide)), if_pos rfl,
          quotedEnd_of_length_le (Nat.le_succ_of_le hend)]
        rfl
    · rw [quotedEnd_plain hquote h hbackslash hc, ih h.tail]

/-! ## Attributes -/

/-- Inside of a literal an attribute reads on to its quote, and then behind it. -/
theorem attributeLength_some (depth : Nat) {quote : Char} (hquote : quote ≠ '\\') (cs : List Char) :
    attributeLength depth (some quote) cs
      = (orOpen .string (quotedLength quote cs)).bind fun n =>
          (attributeLength depth none (cs.drop n)).map (· + n) := by
  cases hlength : quotedLength quote cs with
  | none => exact attributeLength_of_open depth hlength
  | some n =>
    obtain ⟨body, v, hbody, rfl, rfl⟩ := exists_escaped_of_quotedLength hquote hlength
    have hdrop : (body ++ quote :: v).drop (body.length + 1) = v := by
      rw [← List.drop_drop, List.drop_left, List.drop_one, List.tail_cons]
    rw [attributeLength_escaped hquote hbody]
    show _ = (attributeLength depth none ((body ++ quote :: v).drop (body.length + 1))).map _
    rw [hdrop]

theorem attributeEnd_of_length_le {depth : Nat} (h : bs.length ≤ pos) :
    attributeEnd bs line depth pos = .error (.unterminated { what := .attr, line }) := by
  rw [attributeEnd, dif_neg (Nat.not_lt_of_le h)]

theorem attributeEnd_of_drop_eq_cons {depth : Nat} {b : UInt8} {ys : List UInt8}
    (h : bs.drop pos = b :: ys) :
    attributeEnd bs line depth pos
      = if b = byte '[' then attributeEnd bs line (depth + 1) (pos + 1)
        else if b = byte ']' then
          if depth = 0 then .error .outside
          else if depth = 1 then .ok (pos + 1)
          else attributeEnd bs line (depth - 1) (pos + 1)
        else if isQuote b then
          match quotedEnd bs line b (pos + 1) with
          | .ok pos' => if pos < pos' then attributeEnd bs line depth pos' else .error .stuck
          | .error f => .error f
        else attributeEnd bs line depth (pos + 1) := by
  have hlt := lt_of_drop_eq_cons h
  obtain rfl := getElem_of_drop_eq_cons hlt h
  rw [attributeEnd]
  exact dif_pos hlt

theorem isQuote_byte (hc : c.toNat < 0x80) : isQuote (byte c) = true ↔ c = '\'' ∨ c = '"' := by
  rw [isQuote, Bool.or_eq_true, beq_iff_eq, beq_iff_eq, byte_inj hc (by decide),
    byte_inj hc (by decide)]

theorem isQuote_high {b : UInt8} (hb : 0x80 ≤ b) : isQuote b = false :=
  of_high (P := fun b => isQuote b = false) (by decide +kernel) b hb

theorem attributeEnd_plain {depth : Nat} (h : InFront bs pos (c :: cs)) (hopen : c ≠ '[')
    (hclose : c ≠ ']') (hquote : ¬ (c = '\'' ∨ c = '"')) :
    attributeEnd bs line depth pos
      = attributeEnd bs line depth (pos + (String.utf8EncodeChar c).length) := by
  by_cases hascii : c.toNat < 0x80
  · rw [attributeEnd_of_drop_eq_cons (h.drop_ascii hascii),
      if_neg fun heq => hopen ((byte_inj hascii (by decide)).1 heq),
      if_neg fun heq => hclose ((byte_inj hascii (by decide)).1 heq),
      if_neg fun heq => hquote ((isQuote_byte hascii).1 heq), utf8EncodeChar_of_ascii hascii]
    rfl
  · refine h.skip (f := attributeEnd bs line depth) (Nat.le_of_not_lt hascii)
      fun _ _ _ hdrop hb => ?_
    rw [attributeEnd_of_drop_eq_cons hdrop, if_neg (ne_byte_of_high hb (by decide)),
      if_neg (ne_byte_of_high hb (by decide)), isQuote_high hb, if_neg Bool.false_ne_true]

/-- **An attribute ends behind the bracket that closes it.** The brackets that are open are those inside
of the attribute and its own. -/
theorem attributeEnd_eq {pos : Nat} {cs : List Char} (depth : Nat) (h : InFront bs pos cs) :
    attributeEnd bs line (depth + 1) pos = reach line pos cs (attributeLength depth none cs) := by
  match cs, h with
  | [], h =>
    rw [attributeLength]
    exact attributeEnd_of_length_le h.length_le_of_nil
  | c :: cs, h =>
    rw [attributeLength_none]
    -- a literal is passed at once, so the recursion is on the length of the text
    by_cases hopen : c = '['
    · subst hopen
      rw [attributeEnd_of_drop_eq_cons (h.drop_ascii (by decide)), if_pos rfl, if_pos rfl,
        reach_cons_ascii line pos (by decide), attributeEnd_eq (depth + 1) (h.tail_ascii (by decide))]
    by_cases hclose : c = ']'
    · subst hclose
      rw [attributeEnd_of_drop_eq_cons (h.drop_ascii (by decide)), if_neg (by decide), if_pos rfl,
        if_neg hopen, if_pos rfl, if_neg (Nat.succ_ne_zero depth)]
      cases depth with
      | zero => exact congrArg Except.ok (after_cons_ascii pos (by decide) cs 0).symm
      | succ depth =>
        show (if depth + 1 + 1 = 1 then _ else _) = reach line pos (']' :: cs) (Except.map _ _)
        rw [if_neg (by omega), reach_cons_ascii line pos (by decide)]
        exact attributeEnd_eq depth (h.tail_ascii (by decide))
    by_cases hquote : c = '\'' ∨ c = '"'
    · have hascii : c.toNat < 0x80 := by rcases hquote with rfl | rfl <;> decide
      have hescape : c ≠ '\\' := by rcases hquote with rfl | rfl <;> decide
      have hnext := h.tail_ascii hascii
      rw [attributeEnd_of_drop_eq_cons (h.drop_ascii hascii),
        if_neg fun heq => hopen ((byte_inj hascii (by decide)).1 heq),
        if_neg fun heq => hclose ((byte_inj hascii (by decide)).1 heq),
        if_pos ((isQuote_byte hascii).2 hquote), quotedEnd_eq hascii hescape hnext, if_neg hopen,
        if_neg hclose, if_pos hquote, reach_cons_ascii line pos hascii, attributeLength_some depth hescape]
      cases quotedLength c cs with
      | none => rfl
      | some n =>
        have hlt : pos < after (pos + 1) cs n := Nat.lt_of_succ_le (Nat.le_add_right _ _)
        show (if pos < after (pos + 1) cs n then _ else _) = reach line (pos + 1) cs (Except.map _ _)
        rw [if_pos hlt, reach_drop]
        exact attributeEnd_eq depth (hnext.move n)
    · rw [if_neg hopen, if_neg hclose, if_neg hquote, reach_cons,
        attributeEnd_plain h hopen hclose hquote, attributeEnd_eq depth h.tail]
termination_by cs.length
decreasing_by all_goals simp only [List.length_cons, List.length_drop]; omega

end Bytes
end Source
end Conformance
