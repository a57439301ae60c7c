import Conformance.Proofs.Source.Forms
import Conformance.Proofs.Source.Positions

/-!
# `Proofs.Source.HeredocPositions`: where the movements over a heredoc end

The label of a heredoc is the one mark that is compared beyond ASCII. Bytes that begin with those of the
label begin with its characters, since no character's bytes begin with those of another, and what follows them
is the first byte of a character. So the same lines close, and lines are the same, being cut at line feeds.
The header is taken apart at the same places, piece by piece, or is missed at the same piece.
-/

namespace Conformance
namespace Source
namespace Bytes

variable {bs : List UInt8} {pos line : Nat} {cs label : List Char}

/-! ## Lines of the body -/

/-- The lines of a body are passed over one by one. -/
theorem heredocBodyLength_lineBreak (label cs : List Char) :
    heredocBodyLength label false cs
      = if lengthBefore ['\n'].isPrefixOf cs < cs.length then
          (heredocBodyLength label true (cs.drop (lengthBefore ['\n'].isPrefixOf cs + 1))).map
            (· + (lengthBefore ['\n'].isPrefixOf cs + 1))
        else none := by
  induction cs with
  | nil => rfl
  | cons c cs ih =>
    have hstop : ['\n'].isPrefixOf (c :: cs) = (c == '\n') := by
      rw [List.isPrefixOf, List.isPrefixOf_nil_left, Bool.and_true, Bool.beq_comm]
    show (heredocBodyLength label (c == '\n') cs).map (· + 1) = _
    rw [lengthBefore, hstop]
    cases c == '\n' with
    | true =>
      rw [if_pos rfl]
      exact (if_pos (Nat.zero_lt_succ _)).symm
    | false =>
      rw [ih, if_neg Bool.false_ne_true]
      simp only [List.length_cons, Nat.add_lt_add_iff_right, List.drop_succ_cons]
      split
      · rw [Option.map_map]
        rfl
      · rfl

/-- The label closes the line in front, in characters and in bytes. -/
theorem closes_eq (label : List Char) (h : InFront bs pos cs) :
    ((encode label).isPrefixOf (encode cs) && !bs[pos + (encode label).length]?.any isNameByte)
      = (label.isPrefixOf cs && !(cs.drop label.length).head?.any isNameChar) := by
  rw [isPrefixOf_encode]
  cases hprefix : label.isPrefixOf cs with
  | false => rfl
  | true =>
    obtain ⟨rest, rfl⟩ := List.isPrefixOf_iff_prefix.1 hprefix
    have hmove := (h.move label.length).any sameClass_nameByte
    rw [after, List.take_left] at hmove
    rw [hmove]

/-- The line break that is first in front. -/
theorem lineBreak_eq {n : Nat} (h : InFront bs pos cs) (hn : n = lengthBefore ['\n'].isPrefixOf cs)
    (hlt : n < cs.length) :
    InFront bs (after pos cs n + 1) (cs.drop (n + 1)) ∧ after pos cs (n + 1) = after pos cs n + 1 := by
  have hmove := h.move n
  subst hn
  obtain ⟨rest, hrest⟩ := exists_drop_lengthBefore hlt
  have hdrop : cs.drop (lengthBefore ['\n'].isPrefixOf cs + 1) = rest := by
    rw [← List.drop_drop, hrest]
    rfl
  rw [hrest] at hmove
  rw [hdrop, after_add, hrest]
  exact ⟨hmove.tail_ascii (by decide), after_cons_ascii _ (by decide) rest 0⟩

/-- **The body of a heredoc ends behind the first label that closes it.** -/
theorem closingEnd_eq {pos : Nat} {cs : List Char} (label : List Char) (h : InFront bs pos cs) :
    closingEnd bs (encode label) line pos
      = reach line pos cs (orOpen .heredoc (heredocBodyLength label true cs)) := by
  match cs, h with
  | [], h =>
    rw [closingEnd, if_neg (Nat.not_lt_of_le h.length_le_of_nil)]
    rfl
  | c :: cs, h =>
    -- one line: its blanks, the label as a word, and else the line feed that ends it
    have hword := h.dropWhile sameClass_indent
    rw [closingEnd, if_pos h.lt_of_cons]
    dsimp only
    rw [hword.bytesFrom_eq, h.bytesFrom_eq]
    dsimp only [bind, Except.bind]
    rw [closes_eq label hword, show [byte '\n'] = ['\n'].map byte from rfl,
      find_encode (by decide) (by decide)]
    by_cases hcloses : (label.isPrefixOf ((c :: cs).dropWhile Source.isIndent)
        && !(((c :: cs).dropWhile Source.isIndent).drop label.length).head?.any isNameChar) = true
    · have hlength : closingLength? label (c :: cs)
          = some (((c :: cs).takeWhile Source.isIndent).length + label.length) := if_pos hcloses
      have htake : ((c :: cs).dropWhile Source.isIndent).take label.length = label :=
        List.prefix_iff_eq_take.1 (List.isPrefixOf_iff_prefix.1 (Bool.and_eq_true_iff.1 hcloses).1)
          |>.symm
      rw [if_pos hcloses, heredocBodyLength, if_pos rfl, hlength]
      show _ = Except.ok (after pos (c :: cs) (_ + _))
      rw [after_add, ← eatWhile_eq sameClass_indent h, drop_length_takeWhile, after, htake]
    · have hnone : closingLength? label (c :: cs) = none := if_neg hcloses
      rw [if_neg hcloses, IsLabel.heredocBodyLength_of_none hnone, heredocBodyLength_lineBreak]
      -- the next line is shorter, and it is there that the search goes on
      generalize hn : lengthBefore ['\n'].isPrefixOf (c :: cs) = n
      by_cases hlt : n < (c :: cs).length
      · obtain ⟨hnext, hafter⟩ := lineBreak_eq h hn.symm hlt
        rw [if_pos hlt, if_pos hlt, orOpen_map, reach_drop, hafter]
        exact closingEnd_eq label hnext
      · rw [if_neg hlt, if_neg hlt]
        rfl
termination_by cs.length
decreasing_by all_goals simp only [List.length_drop, List.length_cons]; omega

/-! ## The header -/

theorem labelQuote?_ascii {q : Char} (h : labelQuote? cs = some q) : q.toNat < 0x80 := by
  rcases of_labelQuote? h with rfl | rfl <;> decide

theorem rel_bind {α β α' β' : Type} {r : α → β → Prop} {r' : α' → β' → Prop} {a : Option α}
    {b : Option β} {f : α → Option α'} {g : β → Option β'} (h : Option.Rel r a b)
    (hf : ∀ x y, r x y → Option.Rel r' (f x) (g y)) : Option.Rel r' (a.bind f) (b.bind g) := by
  cases h with
  | none => exact .none
  | some hr => exact hf _ _ hr

theorem labelQuote?_cons (c : Char) (cs : List Char) :
    labelQuote? (c :: cs) = if c = '\'' ∨ c = '"' then some c else none := by
  unfold labelQuote?
  split
  · next heq => cases heq; rfl
  · next heq => cases heq; rfl
  · next hsingle hdouble =>
    refine (if_neg ?_).symm
    rintro (rfl | rfl)
    · exact hsingle cs rfl
    · exact hdouble cs rfl

theorem filter_isQuote (h : InFront bs pos cs) :
    bs[pos]?.filter isQuote = (labelQuote? cs).map byte := by
  rw [h.getElem?_eq]
  cases cs with
  | nil => rfl
  | cons c cs =>
    rw [labelQuote?_cons]
    by_cases hc : c.toNat < 0x80
    · rw [encode_cons_ascii hc, List.head?_cons, Option.filter_some]
      by_cases hquote : c = '\'' ∨ c = '"'
      · rw [if_pos hquote, if_pos ((isQuote_byte hc).2 hquote)]
        rfl
      · rw [if_neg hquote, if_neg fun hbyte => hquote ((isQuote_byte hc).1 hbyte)]
        rfl
    · obtain ⟨b, ys, hbytes, hb, _⟩ := exists_of_high (Nat.le_of_not_lt hc)
      have hquote : ¬ (c = '\'' ∨ c = '"') := by
        rintro (rfl | rfl) <;> exact hc (by decide)
      rw [if_neg hquote, encode_cons, hbytes, List.cons_append, List.head?_cons, Option.filter_some,
        isQuote_high hb]
      rfl

/-- A quote that has to stand in front is taken or missed. -/
theorem over?_rel (quote : Option Char) (hquote : ∀ q, quote = some q → q.toNat < 0x80)
    (h : InFront bs pos cs) :
    Option.Rel (InFront bs) (over? bs (quote.map byte) pos) (dropQuote? quote cs) := by
  cases quote with
  | none => exact .some h
  | some q =>
    have hiff := h.getElem?_eq_some_iff (hquote q rfl)
    show Option.Rel _ (if _ then _ else _) (if _ then _ else _)
    by_cases hhead : cs.head? = some q
    · obtain ⟨rest, rfl⟩ := exists_cons_of_head? hhead
      rw [if_pos hhead, if_pos (hiff.2 hhead)]
      exact .some (h.tail_ascii (hquote q rfl))
    · rw [if_neg hhead, if_neg fun heq => hhead (hiff.1 heq)]
      exact .none

theorem dropLineBreak?_eq_dropQuote? (cs : List Char) :
    dropLineBreak? cs
      = dropQuote? (some '\n') (if cs.head? = some '\r' then cs.drop 1 else cs) := by
  unfold dropLineBreak?
  split
  · rfl
  · rfl
  · next hreturn hbreak =>
    refine (if_neg fun hhead => ?_).symm
    obtain ⟨rest, hrest⟩ := exists_cons_of_head? hhead
    split at hrest
    · next hcs =>
      obtain ⟨rest', rfl⟩ := exists_cons_of_head? hcs
      exact hreturn rest (congrArg ('\r' :: ·) hrest)
    · exact hbreak rest hrest

theorem overLineBreak?_rel (h : InFront bs pos cs) :
    Option.Rel (InFront bs) (overLineBreak? bs pos) (dropLineBreak? cs) := by
  rw [overLineBreak?, dropLineBreak?_eq_dropQuote?]
  have hfeed : ∀ q, some '\n' = some q → q.toNat < 0x80 := by
    intro q hq
    cases hq
    decide
  refine over?_rel (some '\n') hfeed ?_
  have hreturn := h.getElem?_eq_some_iff (d := '\r') (by decide)
  by_cases hhead : cs.head? = some '\r'
  · obtain ⟨rest, rfl⟩ := exists_cons_of_head? hhead
    rw [if_pos hhead, if_pos (hreturn.2 hhead)]
    exact h.tail_ascii (by decide)
  · rw [if_neg hhead, if_neg fun heq => hhead (hreturn.1 heq)]
    exact h

/-- Behind a part of the text in front. -/
theorem InFront.pos_eq {pos' : Nat} {chars rest : List Char} (h : InFront bs pos (chars ++ rest))
    (h' : InFront bs pos' rest) : pos' = after pos (chars ++ rest) chars.length := by
  have hlength := h.length_eq
  have hlength' := h'.length_eq
  rw [encode_append, List.length_append] at hlength
  rw [after, List.take_left]
  omega

/-- The place of the label, behind an optional quote. -/
theorem InFront.behindQuote (h : InFront bs pos cs) :
    ∃ named, dropQuote? (labelQuote? cs) cs = some named
      ∧ InFront bs (if ((labelQuote? cs).map byte).isSome then pos + 1 else pos) named := by
  cases cs with
  | nil => exact ⟨[], rfl, h⟩
  | cons c cs =>
    rw [labelQuote?_cons]
    split
    · next hquote =>
      refine ⟨cs, if_pos rfl, h.tail_ascii ?_⟩
      rcases hquote with rfl | rfl <;> decide
    · exact ⟨c :: cs, rfl, h⟩

theorem heredocHeader?_of_dropQuote? {named : List Char}
    (h : dropQuote? (labelQuote? (cs.dropWhile Source.isIndent)) (cs.dropWhile Source.isIndent)
      = some named) :
    heredocHeader? cs
      = if named.head?.any Source.isNameStart then
          ((dropQuote? (labelQuote? (cs.dropWhile Source.isIndent)) (named.dropWhile isNameChar)).bind
            dropLineBreak?).map fun body => (named.takeWhile isNameChar, body)
        else none := by
  unfold heredocHeader?
  dsimp only
  rw [h, Option.map_bind]
  show (if _ then Option.bind _ _ else none) = _
  split
  · refine congrArg (Option.bind _) (funext fun rest => ?_)
    show Option.bind _ _ = Option.map _ (dropLineBreak? rest)
    cases dropLineBreak? rest <;> rfl
  · rfl

/-- A heredoc has a header in bytes exactly if it has one in characters, and then the same body. -/
theorem heredocEnd_cases (line : Nat) (h : InFront bs (pos + 3) cs) :
    (heredocHeader? cs = none ∧ heredocEnd bs line pos = .ok none)
      ∨ ∃ label body pos', heredocHeader? cs = some (label, body) ∧ InFront bs pos' body
          ∧ heredocEnd bs line pos = (closingEnd bs (encode label) line pos').map some := by
  have hblanks := h.dropWhile sameClass_indent
  obtain ⟨named, hnamed, hlabel⟩ := hblanks.behindQuote
  rw [heredocHeader?_of_dropQuote? hnamed]
  unfold heredocEnd
  dsimp only
  rw [filter_isQuote hblanks, hlabel.any sameClass_nameStart]
  -- the places that both have found so far are all that matters from here on
  generalize hquote : labelQuote? (cs.dropWhile Source.isIndent) = quote at hlabel
  generalize (if (quote.map byte).isSome then _ else _) = start at hlabel
  have hstop := hlabel.dropWhile sameClass_nameByte
  have hbetween := hlabel.bytesBetween_eq (named.takeWhile isNameChar).length
  rw [← eatWhile_eq sameClass_nameByte hlabel,
    ← List.prefix_iff_eq_take.1 (List.takeWhile_prefix isNameChar)] at hbetween
  rw [hbetween]
  have hrel : Option.Rel (InFront bs)
      ((over? bs (quote.map byte) (eatWhile isNameByte bs start)).bind (overLineBreak? bs))
      ((dropQuote? quote (named.dropWhile isNameChar)).bind dropLineBreak?) :=
    rel_bind (over?_rel quote (fun q hq => labelQuote?_ascii (hquote.trans hq)) hstop)
      fun _ _ hafter => overLineBreak?_rel hafter
  by_cases hname : named.head?.any Source.isNameStart = true
  · rw [if_pos hname, if_pos hname]
    generalize (over? bs _ _).bind _ = found at hrel
    generalize Option.bind _ dropLineBreak? = found' at hrel
    cases hrel with
    | none => exact Or.inl ⟨rfl, rfl⟩
    | some hbody => exact Or.inr ⟨_, _, _, rfl, hbody, rfl⟩
  · rw [if_neg hname, if_neg hname]
    exact Or.inl ⟨rfl, rfl⟩

/-- **A heredoc is found and ends where its header and its body say.** -/
theorem heredocEnd_eq (h : InFront bs (pos + 3) cs) :
    heredocEnd bs line pos
      = match heredocLength cs with
        | .ok none => .ok none
        | .ok (some n) => .ok (some (after (pos + 3) cs n))
        | .error what => .error (.unterminated { what, line }) := by
  rcases heredocEnd_cases line h with
    ⟨hnone, hend⟩ | ⟨label, body, pos', hheader, hbody, hend⟩
  · rw [heredocLength_eq_none_iff.2 hnone, hend]
  · obtain ⟨header, rfl, rfl⟩ := heredocHeader?_eq_some_iff.1 hheader
    rw [hend, closingEnd_eq _ hbody, heredocLength_chars]
    cases heredocBodyLength header.label true body with
    | none => rfl
    | some n =>
      show Except.ok (some (after pos' body n)) = Except.ok (some (after (pos + 3) _ (_ + n)))
      rw [after_add, ← h.pos_eq hbody, List.drop_left]

end Bytes
end Source
end Conformance
