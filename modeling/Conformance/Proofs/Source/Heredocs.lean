import Conformance.Proofs.Source.Lengths

/-!
# `Proofs.Source.Heredocs`: the two forms that frame a heredoc

A heredoc opens with a header, which names a label, and ends behind the first line that the label closes.
Both are read by dropping characters; here they are forms, `HeredocHeader` and `ClosesLine`, and the
reading finds exactly these. The first closing line ends the body whatever stands behind it.
-/

namespace Conformance
namespace Source

/-! ## Classes of characters -/

theorem takeWhile_append_stop {p : Char → Bool} {xs ys : List Char} (hxs : ∀ c ∈ xs, p c = true)
    (hys : ys.head?.any p = false) : (xs ++ ys).takeWhile p = xs := by
  rw [List.takeWhile_append_of_pos hxs]
  cases ys with
  | nil => rw [List.takeWhile_nil, List.append_nil]
  | cons d ys =>
    rw [List.takeWhile_cons_of_neg (by simpa using hys), List.append_nil]

theorem dropWhile_append_stop {p : Char → Bool} {xs ys : List Char} (hxs : ∀ c ∈ xs, p c = true)
    (hys : ys.head?.any p = false) : (xs ++ ys).dropWhile p = ys := by
  rw [List.dropWhile_append_of_pos hxs]
  cases ys with
  | nil => rfl
  | cons d ys => exact List.dropWhile_cons_of_neg (by simpa using hys)

theorem isNameChar_of_isNameStart {c : Char} (h : isNameStart c = true) : isNameChar c = true := by
  rw [isNameChar, h, Bool.true_or]

theorem not_isIndent_of_isNameChar {c : Char} (h : isNameChar c = true) : isIndent c = false := by
  rw [Bool.eq_false_iff]
  intro hindent
  simp only [isIndent, Bool.or_eq_true, beq_iff_eq] at hindent
  rcases hindent with rfl | rfl <;> revert h <;> decide

/-! ## Headers -/

/-- The rest of the line that `<<<` opens: blanks, a label, which may stand in quotes, and a line
break. -/
structure HeredocHeader where
  blanks : List Char
  quote : Option Char
  label : List Char
  lineBreak : List Char
  isIndent_blanks : ∀ c ∈ blanks, isIndent c = true
  quote_eq : ∀ q, quote = some q → q = '\'' ∨ q = '"'
  start_label : label.head?.any isNameStart = true
  isNameChar_label : ∀ c ∈ label, isNameChar c = true
  lineBreak_eq : lineBreak = ['\n'] ∨ lineBreak = ['\r', '\n']

/-- The characters of the header. -/
def HeredocHeader.chars (h : HeredocHeader) : List Char :=
  h.blanks ++ (h.quote.toList ++ (h.label ++ (h.quote.toList ++ h.lineBreak)))

namespace HeredocHeader

variable (h : HeredocHeader)

theorem exists_label : ∃ c cs, h.label = c :: cs ∧ isNameStart c = true := by
  have hstart := h.start_label
  cases hlabel : h.label with
  | nil => rw [hlabel] at hstart; cases hstart
  | cons c cs =>
    rw [hlabel] at hstart
    exact ⟨c, cs, rfl, hstart⟩

/-- What stands behind the blanks is no blank. -/
theorem not_isIndent_head (z : List Char) :
    (h.quote.toList ++ (h.label ++ z)).head?.any isIndent = false := by
  cases hquote : h.quote with
  | none =>
    obtain ⟨c, cs, hlabel, hc⟩ := h.exists_label
    rw [hlabel]
    exact not_isIndent_of_isNameChar (isNameChar_of_isNameStart hc)
  | some q => rcases h.quote_eq q hquote with rfl | rfl <;> rfl

/-- What stands behind the label does not continue it. -/
theorem not_isNameChar_head (z : List Char) :
    (h.quote.toList ++ (h.lineBreak ++ z)).head?.any isNameChar = false := by
  cases hquote : h.quote with
  | none => rcases h.lineBreak_eq with hbreak | hbreak <;> rw [hbreak] <;> rfl
  | some q => rcases h.quote_eq q hquote with rfl | rfl <;> rfl

theorem labelQuote?_eq (z : List Char) :
    labelQuote? (h.quote.toList ++ (h.label ++ z)) = h.quote := by
  cases hquote : h.quote with
  | none =>
    obtain ⟨c, cs, hlabel, hc⟩ := h.exists_label
    rw [hlabel]
    show labelQuote? (c :: (cs ++ z)) = none
    unfold labelQuote?
    split
    · next heq => cases heq; cases hc
    · next heq => cases heq; cases hc
    · rfl
  | some q => rcases h.quote_eq q hquote with rfl | rfl <;> rfl

theorem dropQuote?_eq (q : Option Char) (z : List Char) : dropQuote? q (q.toList ++ z) = some z := by
  cases q with
  | none => rfl
  | some q => exact if_pos rfl

theorem dropLineBreak?_eq (z : List Char) : dropLineBreak? (h.lineBreak ++ z) = some z := by
  rcases h.lineBreak_eq with hbreak | hbreak <;> rw [hbreak] <;> rfl

/-- A header reads as its label. -/
theorem read_chars (body : List Char) : heredocHeader? (h.chars ++ body) = some (h.label, body) := by
  have hlabel : (h.label ++ (h.quote.toList ++ (h.lineBreak ++ body))).head?.any isNameStart = true := by
    obtain ⟨c, cs, hlabel, hc⟩ := h.exists_label
    rw [hlabel]
    exact hc
  unfold heredocHeader? chars
  simp only [List.append_assoc]
  rw [dropWhile_append_stop h.isIndent_blanks (h.not_isIndent_head _), labelQuote?_eq]
  show (dropQuote? h.quote _).bind _ = _
  rw [dropQuote?_eq, Option.bind_some, if_pos hlabel,
    dropWhile_append_stop h.isNameChar_label (h.not_isNameChar_head _),
    takeWhile_append_stop h.isNameChar_label (h.not_isNameChar_head _)]
  show (dropQuote? h.quote _).bind _ = _
  rw [dropQuote?_eq, Option.bind_some]
  show (dropLineBreak? _).bind _ = _
  rw [dropLineBreak?_eq]
  rfl

end HeredocHeader

theorem eq_of_dropQuote? {q : Option Char} {cs rest : List Char} (h : dropQuote? q cs = some rest) :
    cs = q.toList ++ rest := by
  cases q with
  | none => exact Option.some.inj h
  | some q =>
    dsimp only [dropQuote?] at h
    split at h
    · next hhead =>
      cases cs with
      | nil => cases hhead
      | cons c cs =>
        cases hhead
        cases h
        rfl
    · cases h

theorem eq_of_dropLineBreak? {cs rest : List Char} (h : dropLineBreak? cs = some rest) :
    ∃ lineBreak, (lineBreak = ['\n'] ∨ lineBreak = ['\r', '\n']) ∧ cs = lineBreak ++ rest := by
  unfold dropLineBreak? at h
  split at h
  · cases h; exact ⟨['\r', '\n'], Or.inr rfl, rfl⟩
  · cases h; exact ⟨['\n'], Or.inl rfl, rfl⟩
  · cases h

theorem of_labelQuote? {cs : List Char} {q : Char} (h : labelQuote? cs = some q) :
    q = '\'' ∨ q = '"' := by
  unfold labelQuote? at h
  split at h
  · cases h; exact Or.inl rfl
  · cases h; exact Or.inr rfl
  · cases h

/-- **What the reading of a header finds** is a header. -/
theorem heredocHeader?_eq_some_iff {cs label body : List Char} :
    heredocHeader? cs = some (label, body)
      ↔ ∃ h : HeredocHeader, h.label = label ∧ cs = h.chars ++ body := by
  constructor
  · intro hread
    unfold heredocHeader? at hread
    obtain ⟨inner, hinner, hread⟩ := Option.bind_eq_some_iff.1 hread
    split at hread
    · next hstart =>
      obtain ⟨rest, hrest, hread⟩ := Option.bind_eq_some_iff.1 hread
      obtain ⟨body', hbody, hread⟩ := Option.bind_eq_some_iff.1 hread
      cases hread
      obtain ⟨lineBreak, hbreak, rfl⟩ := eq_of_dropLineBreak? hbody
      refine ⟨{
        blanks := cs.takeWhile isIndent
        quote := labelQuote? (cs.dropWhile isIndent)
        label := inner.takeWhile isNameChar
        lineBreak
        isIndent_blanks := fun c hc => by simpa using List.all_eq_true.1 List.all_takeWhile c hc
        quote_eq := fun q hq => of_labelQuote? hq
        start_label := ?_
        isNameChar_label := fun c hc => by simpa using List.all_eq_true.1 List.all_takeWhile c hc
        lineBreak_eq := hbreak }, rfl, ?_⟩
      · cases inner with
        | nil => cases hstart
        | cons c cs =>
          rw [List.takeWhile_cons_of_pos (isNameChar_of_isNameStart hstart)]
          exact hstart
      · -- the parts put together again
        have hlabel : inner = inner.takeWhile isNameChar ++ inner.dropWhile isNameChar :=
          List.takeWhile_append_dropWhile.symm
        have hblanks : cs = cs.takeWhile isIndent ++ cs.dropWhile isIndent :=
          List.takeWhile_append_dropWhile.symm
        rw [eq_of_dropQuote? hrest] at hlabel
        rw [eq_of_dropQuote? hinner, hlabel] at hblanks
        simp only [HeredocHeader.chars, List.append_assoc]
        exact hblanks
    · cases hread
  · rintro ⟨h, rfl, rfl⟩
    exact h.read_chars body

/-! ## Lines that close -/

/-- The label stands at the start of the line as a whole word, with no more than blanks before it. -/
def ClosesLine (label line : List Char) : Prop :=
  ∃ blanks after, (∀ c ∈ blanks, isIndent c = true) ∧ line = blanks ++ (label ++ after)
    ∧ after.head?.any isNameChar = false

/-- A word that can close a heredoc. -/
structure IsLabel (label : List Char) : Prop where
  ne_nil : label ≠ []
  isNameChar : ∀ c ∈ label, isNameChar c = true

theorem HeredocHeader.isLabel (h : HeredocHeader) : IsLabel h.label where
  ne_nil hnil := by
    obtain ⟨c, cs, hlabel, _⟩ := h.exists_label
    rw [hlabel] at hnil
    cases hnil
  isNameChar := h.isNameChar_label

namespace IsLabel

variable {label : List Char} (hl : IsLabel label)
include hl

theorem not_isIndent_head (z : List Char) : (label ++ z).head?.any isIndent = false := by
  cases label with
  | nil => exact absurd rfl hl.ne_nil
  | cons c cs => exact not_isIndent_of_isNameChar (hl.isNameChar c List.mem_cons_self)

theorem newline_not_mem : '\n' ∉ label := fun hmem => by
  have := hl.isNameChar '\n' hmem
  revert this
  decide

/-- What the reading finds at the start of a line. -/
theorem closingLength?_eq_some_iff {line : List Char} {n : Nat} :
    closingLength? label line = some n
      ↔ ∃ blanks after, (∀ c ∈ blanks, isIndent c = true) ∧ line = blanks ++ (label ++ after)
        ∧ after.head?.any Source.isNameChar = false ∧ n = blanks.length + label.length := by
  unfold closingLength?
  constructor
  · intro h
    dsimp only at h
    split at h
    · next hcloses =>
      simp only [Bool.and_eq_true, Bool.not_eq_true', List.isPrefixOf_iff_prefix] at hcloses
      obtain ⟨⟨after, hafter⟩, hword⟩ := hcloses
      rw [← hafter, List.drop_left] at hword
      refine ⟨line.takeWhile isIndent, after, ?_, ?_, hword, (Option.some.inj h).symm⟩
      · exact fun c hc => by simpa using List.all_eq_true.1 List.all_takeWhile c hc
      · rw [hafter, List.takeWhile_append_dropWhile]
    · cases h
  · rintro ⟨blanks, after, hblanks, rfl, hword, rfl⟩
    dsimp only
    rw [dropWhile_append_stop hblanks (hl.not_isIndent_head after),
      takeWhile_append_stop hblanks (hl.not_isIndent_head after), List.drop_left,
      List.isPrefixOf_iff_prefix.2 (List.prefix_append label after), hword]
    rfl

theorem closingLength?_eq_none_iff {line : List Char} :
    closingLength? label line = none ↔ ¬ ClosesLine label line := by
  rw [Option.eq_none_iff_forall_ne_some]
  constructor
  · rintro h ⟨blanks, after, hblanks, hline, hword⟩
    exact h _ (hl.closingLength?_eq_some_iff.2 ⟨blanks, after, hblanks, hline, hword, rfl⟩)
  · intro h n hn
    obtain ⟨blanks, after, hblanks, hline, hword, _⟩ := hl.closingLength?_eq_some_iff.1 hn
    exact h ⟨blanks, after, hblanks, hline, hword⟩

/-- Only the line itself decides. -/
theorem not_closesLine_append {line : List Char} (h : ¬ ClosesLine label line)
    (z : List Char) : ¬ ClosesLine label (line ++ '\n' :: z) := by
  rintro ⟨blanks, after, hblanks, heq, hword⟩
  rw [← List.append_assoc] at heq
  have hnone : '\n' ∉ blanks ++ label := by
    intro hmem
    rcases List.mem_append.1 hmem with hmem | hmem
    · exact absurd (hblanks '\n' hmem) (by decide)
    · exact hl.newline_not_mem hmem
  rcases List.append_eq_append_iff.1 heq with ⟨rest, hrest, hafter⟩ | ⟨rest, hrest, hafter⟩
  · -- the word ends with the line
    cases rest with
    | nil =>
      refine h ⟨blanks, [], hblanks, ?_, rfl⟩
      rw [List.append_nil, ← hrest.trans (List.append_nil line)]
    | cons c rest =>
      cases hafter
      exact hnone (hrest ▸ List.mem_append_right line List.mem_cons_self)
  · refine h ⟨blanks, rest, hblanks, hrest.trans (List.append_assoc _ _ _), ?_⟩
    cases rest with
    | nil => rfl
    | cons c rest =>
      rw [hafter] at hword
      exact hword

omit hl in
/-- Inside a line nothing closes. -/
theorem heredocBodyLength_inside {line : List Char} (hline : '\n' ∉ line) (z : List Char) :
    heredocBodyLength label false (line ++ '\n' :: z)
      = (heredocBodyLength label true z).map (· + (line.length + 1)) := by
  induction line with
  | nil => rfl
  | cons c line ih =>
    rw [List.mem_cons, not_or] at hline
    obtain ⟨hc, hline⟩ := hline
    have hfalse : (c == '\n') = false := beq_eq_false_iff_ne.2 (Ne.symm hc)
    show (heredocBodyLength label (c == '\n') (line ++ '\n' :: z)).map _ = _
    rw [hfalse, ih hline, Option.map_map]
    rfl

omit hl in
/-- Where nothing closes, the start of a line is like the rest of it. -/
theorem heredocBodyLength_of_none {cs : List Char} (h : closingLength? label cs = none) :
    heredocBodyLength label true cs = heredocBodyLength label false cs := by
  cases cs with
  | nil => rfl
  | cons c cs =>
    rw [heredocBodyLength, if_pos rfl, h]
    rfl

/-- A line that does not close is passed over. -/
theorem heredocBodyLength_line {line : List Char} (hline : '\n' ∉ line)
    (h : ¬ ClosesLine label line) (z : List Char) :
    heredocBodyLength label true (line ++ '\n' :: z)
      = (heredocBodyLength label true z).map (· + (line.length + 1)) := by
  rw [heredocBodyLength_of_none (hl.closingLength?_eq_none_iff.2 (hl.not_closesLine_append h z)),
    heredocBodyLength_inside hline]

/-- **The first line that the label closes ends the body.** -/
theorem heredocBodyLength_lines {lines : List (List Char)} {blanks v : List Char}
    (hlines : ∀ line ∈ lines, '\n' ∉ line ∧ ¬ ClosesLine label line)
    (hblanks : ∀ c ∈ blanks, isIndent c = true) (hv : v.head?.any Source.isNameChar = false) :
    heredocBodyLength label true (lines.flatMap (· ++ ['\n']) ++ (blanks ++ (label ++ v)))
      = some ((lines.flatMap (· ++ ['\n'])).length + (blanks.length + label.length)) := by
  induction lines with
  | nil =>
    have hcloses := hl.closingLength?_eq_some_iff.2 ⟨blanks, v, hblanks, rfl, hv, rfl⟩
    rw [List.flatMap_nil, List.nil_append, List.length_nil, Nat.zero_add]
    cases hcs : blanks ++ (label ++ v) with
    | nil =>
      have hnil := (List.append_eq_nil_iff.1 (List.append_eq_nil_iff.1 hcs).2).1
      exact absurd hnil hl.ne_nil
    | cons c cs =>
      rw [hcs] at hcloses
      rw [heredocBodyLength, if_pos rfl, hcloses]
  | cons line lines ih =>
    obtain ⟨hline, hnone⟩ := hlines line List.mem_cons_self
    rw [List.flatMap_cons, List.append_assoc, List.append_assoc, List.singleton_append,
      hl.heredocBodyLength_line hline hnone,
      ih fun line' hmem => hlines line' (List.mem_cons_of_mem line hmem), Option.map_some,
      List.length_append, List.length_append, List.length_singleton]
    exact congrArg some (by omega)

theorem heredocBodyLength_bounds {atLineStart : Bool} {cs : List Char} {n : Nat}
    (h : heredocBodyLength label atLineStart cs = some n) :
    1 ≤ n ∧ n ≤ cs.length ∧ (cs.drop n).head?.any Source.isNameChar = false := by
  induction cs generalizing atLineStart n with
  | nil => cases h
  | cons c cs ih =>
    unfold heredocBodyLength at h
    split at h
    · next k hk =>
      cases h
      split at hk
      · obtain ⟨blanks, after, _, hline, hword, rfl⟩ := hl.closingLength?_eq_some_iff.1 hk
        have hpos := List.length_pos_iff.2 hl.ne_nil
        rw [hline, ← List.append_assoc, ← List.length_append, List.drop_left]
        simp only [List.length_append]
        exact ⟨by omega, by omega, hword⟩
      · cases hk
    · obtain ⟨n, hn, rfl⟩ := Option.map_eq_some_iff.1 h
      obtain ⟨_, hhigh, hword⟩ := ih hn
      exact ⟨by omega, Nat.succ_le_succ hhigh, hword⟩

omit hl in
/-- A body that goes on inside a line ends on a later one. -/
theorem newline_mem_of_heredocBodyLength {cs : List Char} {n : Nat}
    (h : heredocBodyLength label false cs = some n) : '\n' ∈ cs.take n := by
  induction cs generalizing n with
  | nil => cases h
  | cons c cs ih =>
    rw [heredocBodyLength, if_neg Bool.false_ne_true] at h
    obtain ⟨k, hk, rfl⟩ := Option.map_eq_some_iff.1 h
    rw [List.take_succ_cons]
    by_cases hc : c = '\n'
    · rw [hc]
      exact List.mem_cons_self
    · have hfalse : (c == '\n') = false := beq_eq_false_iff_ne.2 hc
      rw [hfalse] at hk
      exact List.mem_cons_of_mem c (ih hk)

omit hl in
/-- What closes a line closes it whatever the next lines are. -/
theorem closesLine_append {line : List Char} (h : ClosesLine label line) (z : List Char) :
    ClosesLine label (line ++ '\n' :: z) := by
  obtain ⟨blanks, after, hblanks, rfl, hword⟩ := h
  refine ⟨blanks, after ++ '\n' :: z, hblanks, ?_, ?_⟩
  · rw [List.append_assoc, List.append_assoc]
  · cases after with
    | nil => rfl
    | cons c after => exact hword

/-- A line that ends in front of a place does not close because of what stands behind the place. -/
theorem closingLength?_of_newline {xs w w' : List Char} (hxs : '\n' ∈ xs)
    (h : closingLength? label (xs ++ w) = none) : closingLength? label (xs ++ w') = none := by
  obtain ⟨line, rest, rfl⟩ := List.append_of_mem hxs
  rw [hl.closingLength?_eq_none_iff, List.append_assoc, List.cons_append] at h ⊢
  exact hl.not_closesLine_append (fun hcloses => h (closesLine_append hcloses _)) _

/-- Nothing behind the closing label plays a part, unless it makes the label longer. -/
theorem heredocBodyLength_take {atLineStart : Bool} {cs w : List Char} {n : Nat}
    (h : heredocBodyLength label atLineStart cs = some n)
    (hw : w.head?.any Source.isNameChar = false) :
    heredocBodyLength label atLineStart (cs.take n ++ w) = some n := by
  induction cs generalizing atLineStart n with
  | nil => cases h
  | cons c cs ih =>
    rw [heredocBodyLength] at h
    split at h
    · next k hk =>
      cases h
      split at hk
      · next hstart =>
        obtain ⟨blanks, after, hblanks, hline, _, rfl⟩ := hl.closingLength?_eq_some_iff.1 hk
        have htake : (c :: cs).take (blanks.length + label.length) = blanks ++ label := by
          rw [hline, ← List.append_assoc, ← List.length_append, List.take_left]
        have hlines : ∀ line ∈ ([] : List (List Char)), '\n' ∉ line ∧ ¬ ClosesLine label line := nofun
        have hcloses := heredocBodyLength_lines hl hlines hblanks hw
        rw [htake, List.append_assoc, hstart]
        simpa using hcloses
      · cases hk
    · next hnone =>
      obtain ⟨k, hk, rfl⟩ := Option.map_eq_some_iff.1 h
      have hline : (if atLineStart = true then closingLength? label (c :: (cs.take k ++ w)) else none)
          = none := by
        split
        · next hstart =>
          rw [if_pos hstart] at hnone
          have hbreak : '\n' ∈ c :: cs.take k := by
            by_cases hc : c = '\n'
            · rw [hc]
              exact List.mem_cons_self
            · have hfalse : (c == '\n') = false := beq_eq_false_iff_ne.2 hc
              rw [hfalse] at hk
              exact List.mem_cons_of_mem c (newline_mem_of_heredocBodyLength hk)
          rw [← List.cons_append]
          refine hl.closingLength?_of_newline (w := cs.drop k) hbreak ?_
          rw [List.cons_append, List.take_append_drop]
          exact hnone
        · rfl
      rw [List.take_succ_cons, List.cons_append, heredocBodyLength, hline, ih hk]
      rfl

/-- Texts that agree on what closes a line agree on the body in front of them. -/
theorem heredocBodyLength_congr {atLineStart : Bool} {xs w w' : List Char} {n : Nat}
    (hcloses : ∀ ys, closingLength? label (ys ++ w') = closingLength? label (ys ++ w))
    (h : heredocBodyLength label atLineStart (xs ++ w) = some n) (hle : n ≤ xs.length) :
    heredocBodyLength label atLineStart (xs ++ w') = some n := by
  induction xs generalizing atLineStart n with
  | nil => exact absurd hle (Nat.not_le_of_lt (hl.heredocBodyLength_bounds h).1)
  | cons c xs ih =>
    have hline : closingLength? label (c :: (xs ++ w')) = closingLength? label (c :: (xs ++ w)) :=
      hcloses (c :: xs)
    rw [List.cons_append, heredocBodyLength] at h ⊢
    rw [hline]
    split
    · next k hk =>
      rw [hk] at h
      exact h
    · next hk =>
      rw [hk] at h
      obtain ⟨n, hn, rfl⟩ := Option.map_eq_some_iff.1 h
      rw [ih hn (Nat.le_of_succ_le_succ hle)]
      rfl

end IsLabel

/-! ## Whole heredocs -/

/-- A text opens a heredoc exactly if a header is in front, and then the body decides. -/
theorem heredocLength_chars (h : HeredocHeader) (body : List Char) :
    heredocLength (h.chars ++ body)
      = match heredocBodyLength h.label true body with
        | some n => .ok (some (h.chars.length + n))
        | none => .error .heredoc := by
  unfold heredocLength
  rw [h.read_chars]
  dsimp only
  cases heredocBodyLength h.label true body with
  | none => rfl
  | some n =>
    show Except.ok (some (_ - _ + n)) = Except.ok (some (_ + n))
    rw [List.length_append, Nat.add_sub_cancel]

theorem heredocLength_eq_some_iff {cs : List Char} {n : Nat} :
    heredocLength cs = .ok (some n)
      ↔ ∃ (h : HeredocHeader) (body : List Char) (k : Nat), cs = h.chars ++ body
        ∧ heredocBodyLength h.label true body = some k ∧ n = h.chars.length + k := by
  constructor
  · intro hread
    cases hheader : heredocHeader? cs with
    | none =>
      unfold heredocLength at hread
      rw [hheader] at hread
      cases hread
    | some found =>
      obtain ⟨label, body⟩ := found
      obtain ⟨h, rfl, rfl⟩ := heredocHeader?_eq_some_iff.1 hheader
      rw [heredocLength_chars] at hread
      split at hread
      · next k hk =>
        cases hread
        exact ⟨h, body, k, rfl, hk, rfl⟩
      · cases hread
  · rintro ⟨h, body, k, rfl, hk, rfl⟩
    rw [heredocLength_chars, hk]

theorem heredocLength_eq_none_iff {cs : List Char} :
    heredocLength cs = .ok none ↔ heredocHeader? cs = none := by
  unfold heredocLength
  cases heredocHeader? cs with
  | none => exact ⟨fun _ => rfl, fun _ => rfl⟩
  | some found =>
    dsimp only
    split <;> exact ⟨nofun, nofun⟩

/-- Only a body that does not end makes a heredoc fail. -/
theorem of_heredocLength_error {cs : List Char} {what : Literal} (h : heredocLength cs = .error what) :
    what = .heredoc ∧ ∃ (header : HeredocHeader) (body : List Char), cs = header.chars ++ body
      ∧ heredocBodyLength header.label true body = none := by
  cases hheader : heredocHeader? cs with
  | none =>
    rw [heredocLength_eq_none_iff.2 hheader] at h
    cases h
  | some found =>
    obtain ⟨label, body⟩ := found
    obtain ⟨header, rfl, rfl⟩ := heredocHeader?_eq_some_iff.1 hheader
    rw [heredocLength_chars] at h
    split at h
    · cases h
    · next hnone =>
      cases h
      exact ⟨rfl, header, body, rfl, hnone⟩

/-- A heredoc stays inside the text, and behind it no word goes on. -/
theorem heredocLength_bounds {cs : List Char} {n : Nat} (h : heredocLength cs = .ok (some n)) :
    n ≤ cs.length ∧ (cs.drop n).head?.any isNameChar = false := by
  obtain ⟨header, body, k, rfl, hk, rfl⟩ := heredocLength_eq_some_iff.1 h
  obtain ⟨_, hle, hword⟩ := header.isLabel.heredocBodyLength_bounds hk
  rw [List.length_append, ← List.drop_drop, List.drop_left]
  exact ⟨Nat.add_le_add_left hle _, hword⟩

/-- Nothing behind a heredoc plays a part, unless it makes the closing label longer. -/
theorem heredocLength_take {cs w : List Char} {n : Nat} (h : heredocLength cs = .ok (some n))
    (hw : w.head?.any isNameChar = false) : heredocLength (cs.take n ++ w) = .ok (some n) := by
  obtain ⟨header, body, k, rfl, hk, rfl⟩ := heredocLength_eq_some_iff.1 h
  refine heredocLength_eq_some_iff.2 ⟨header, body.take k ++ w, k, ?_, ?_, rfl⟩
  · rw [List.take_length_add_append, List.append_assoc]
  · exact header.isLabel.heredocBodyLength_take hk hw

end Source
end Conformance
