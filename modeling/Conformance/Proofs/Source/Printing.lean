import Conformance.Proofs.Source.Encoding
import Conformance.Proofs.Source.Insertion

/-!
# `Proofs.Source.Printing`: tokens that are printed are read back

A token of code is a word, a variable, a number, a separator, a mark or a quoted literal, and each is
written in its own form (`CodeText`). Tokens are printed behind an opening tag, with a space in front of
each. Reading undoes printing (`tokens_print`): the space ends every word and number in front of it, it
completes none of the pairs and triples of marks that open or close something, and no token of code begins
with a blank, so it stays a token of its own.
-/

namespace Conformance
namespace Source

/-! ## The forms of tokens in code -/

/-- The characters of ASCII that are tokens of their own: no blanks, letters, digits or underscores, no
separator, and none that opens a literal or, alone, a comment. -/
def isMarkChar (c : Char) : Bool :=
  c.toNat < 0x80 && !Text.isAsciiBlank c && !c.isAlphanum
    && !(['_', '\\', '#', '\'', '"', '\x60'].contains c)

/-- How the tokens of each kind are written. -/
inductive CodeText : TokenKind → List Char → Prop where
  | word {c : Char} {cs : List Char} (hstart : isNameStart c = true)
      (hchars : ∀ d ∈ cs, isNameChar d = true) : CodeText .word (c :: cs)
  | «variable» {c : Char} {cs : List Char} (hstart : isNameStart c = true)
      (hchars : ∀ d ∈ cs, isNameChar d = true) : CodeText .variable ('$' :: c :: cs)
  | number {c : Char} {cs : List Char} (hdigit : c.isDigit = true)
      (hchars : ∀ d ∈ cs, isNumberChar d = true) : CodeText .number (c :: cs)
  | separator : CodeText .separator ['\\']
  | mark {c : Char} (hmark : isMarkChar c = true) : CodeText .mark [c]
  | quoted {quote : Char} {body : List Char} (hquote : quote = '\'' ∨ quote = '"' ∨ quote = '\x60')
      (hbody : Escaped quote body) : CodeText .quoted (quote :: (body ++ [quote]))

/-- A token of code, as it is written. -/
structure CodeToken where
  kind : TokenKind
  chars : List Char
  isText : CodeText kind chars

namespace CodeToken

/-- The characters of some tokens, with a space in front of each. -/
def spaced (ts : List CodeToken) : List Char :=
  ts.flatMap fun t => ' ' :: t.chars

/-- A source text with some tokens behind an opening tag, and a space in front of each. -/
def print (ts : List CodeToken) : String :=
  String.ofList ("<?php".toList ++ spaced ts)

/-- What such a source text is made of behind the tag: each token, and a blank in front of it. -/
def spacedPieces (ts : List CodeToken) : List (TokenKind × List Char) :=
  ts.flatMap fun t => [(.blank, [' ']), (t.kind, t.chars)]

/-- What such a source text is made of. -/
def pieces (ts : List CodeToken) : List (TokenKind × List Char) :=
  (.openTag, "<?php".toList) :: spacedPieces ts

end CodeToken

/-! ## In front of a space -/

/-- A text that is at its end or goes on with a space. -/
def EndsOrSpace (v : List Char) : Prop :=
  v = [] ∨ ∃ w, v = ' ' :: w

variable {c : Char} {cs v : List Char} {kind : TokenKind}

theorem EndsOrSpace.head?_ne (h : EndsOrSpace v) {d : Char} (hd : d ≠ ' ') : v.head? ≠ some d := by
  rcases h with rfl | ⟨w, rfl⟩
  · simp
  · simpa using hd.symm

/-- No class of characters without the space goes on. -/
theorem EndsOrSpace.head?_any (h : EndsOrSpace v) {p : Char → Bool} (hp : p ' ' = false) :
    v.head?.any p = false := by
  rcases h with rfl | ⟨w, rfl⟩
  · simp
  · simpa using hp

/-- A run of characters that a space is none of ends there. -/
theorem EndsOrSpace.length_takeWhile (h : EndsOrSpace v) {p : Char → Bool} (hp : p ' ' = false)
    (hcs : ∀ d ∈ cs, p d = true) : ((cs ++ v).takeWhile p).length = cs.length := by
  rw [takeWhile_append_stop hcs (h.head?_any hp)]

/-! ## The sort of a token -/

/-- A character that is no blank and begins no comment, literal, variable or pair of marks belongs to a
word, a number, a separator or a mark. -/
theorem codeForm_of_class {p : Char → Bool} (hp : ('$' :: (openers ++ asciiBlanks)).any p = false)
    (hc : p c = true) :
    codeForm c cs = if isNameStart c then .word else if c.isDigit then .number
      else if c = '\\' then .separator else .mark := by
  have hne : ∀ d ∈ '$' :: (openers ++ asciiBlanks), c ≠ d := by
    rintro d hd rfl
    rw [List.any_eq_true.2 ⟨c, hd, hc⟩] at hp
    cases hp
  have hblank : Text.isAsciiBlank c = false := by
    rw [Bool.eq_false_iff]
    intro hblank
    exact hne c (List.mem_cons_of_mem _ (List.mem_append_right _ (mem_asciiBlanks hblank))) rfl
  unfold codeForm
  simp only [hblank, hne '$' (by decide), hne '?' (by decide), hne '#' (by decide), hne '/' (by decide),
    hne '\'' (by decide), hne '"' (by decide), hne '\x60' (by decide), hne '<' (by decide), false_and,
    false_or, Bool.false_eq_true, if_false]

theorem codeForm_word (hstart : isNameStart c = true) : codeForm c cs = .word := by
  rw [codeForm_of_class (by decide) hstart, if_pos hstart]

theorem codeForm_number (hdigit : c.isDigit = true) : codeForm c cs = .number := by
  have hascii : c.toNat < 0x80 := by
    have hrange := Char.isDigit_iff_toNat.1 hdigit
    have hnine : '9'.toNat = 57 := by decide
    omega
  have hstart : isNameStart c = false :=
    Bytes.of_ascii (P := fun c => c.isDigit = true → isNameStart c = false) (by decide) c hascii hdigit
  rw [codeForm_of_class (by decide) hdigit, hstart, if_pos hdigit]
  simp

/-- In front of a space, and at the end of a text, no mark begins anything longer. -/
theorem codeForm_mark (hmark : isMarkChar c = true) (hv : EndsOrSpace v) : codeForm c v = .mark := by
  have hascii : c.toNat < 0x80 := by
    simp only [isMarkChar, Bool.and_eq_true, decide_eq_true_eq] at hmark
    exact hmark.1.1.1
  have halone : codeForm c [] = .mark :=
    Bytes.of_ascii (P := fun c => isMarkChar c = true → codeForm c [] = .mark) (by decide) c hascii hmark
  by_cases hangle : c = '<'
  · subst hangle
    rcases hv with rfl | ⟨w, rfl⟩
    · exact halone
    · rfl
  · rw [← halone]
    refine codeForm_eq_nil hangle (fun h => ?_) (fun h => ?_) (fun h => ?_) (fun h => ?_) fun h => ?_
    · exact hv.head?_ne (by decide) h.2
    · exact hv.head?_ne (by decide) h.2
    · exact hv.head?_ne (by decide) h.2
    · exact hv.head?_ne (by decide) h.2
    · rw [hv.head?_any (by decide)] at h
      cases h.2

/-! ## One token -/

/-- **A token of code is read as it is written**, up to the space behind it. -/
theorem CodeText.reads {l : List Char} (h : CodeText kind l) (hv : EndsOrSpace v) :
    Reads .code (l ++ v) [(kind, l)] .code v := by
  cases h with
  | @word c cs hstart hchars =>
    refine Reads.singleton_iff.2 ⟨c, cs, rfl, ?_, rfl⟩
    show codeLexeme c (cs ++ v) = _
    rw [codeLexeme_eq, codeForm_word hstart]
    simp only [CodeForm.lexeme, hv.length_takeWhile (by decide) hchars]
  | @«variable» c cs hstart hchars =>
    refine Reads.singleton_iff.2 ⟨'$', c :: cs, rfl, ?_, rfl⟩
    have hall : ∀ d ∈ c :: cs, isNameChar d = true :=
      List.forall_mem_cons.2 ⟨isNameChar_of_isNameStart hstart, hchars⟩
    have hform : codeForm '$' (c :: cs ++ v) = .variable := by
      show (if '$' = '$' ∧ isNameStart c = true then CodeForm.variable else _) = _
      rw [if_pos ⟨rfl, hstart⟩]
    show codeLexeme '$' (c :: cs ++ v) = _
    rw [codeLexeme_eq, hform]
    simp only [CodeForm.lexeme, hv.length_takeWhile (by decide) hall]
  | @number c cs hdigit hchars =>
    refine Reads.singleton_iff.2 ⟨c, cs, rfl, ?_, rfl⟩
    show codeLexeme c (cs ++ v) = _
    rw [codeLexeme_eq, codeForm_number hdigit]
    simp only [CodeForm.lexeme, hv.length_takeWhile (by decide) hchars]
  | separator => exact Reads.singleton_iff.2 ⟨'\\', [], rfl, rfl, rfl⟩
  | @mark c hmark =>
    refine Reads.singleton_iff.2 ⟨c, [], rfl, ?_, rfl⟩
    show codeLexeme c v = _
    rw [codeLexeme_eq, codeForm_mark hmark hv]
    rfl
  | quoted hquote hbody => exact reads_quoted hquote hbody

/-- No token of code begins with a blank. -/
theorem CodeText.head?_not_blank {l : List Char} (h : CodeText kind l) (v : List Char) :
    (l ++ v).head?.any Text.isAsciiBlank = false := by
  have hreads : Reads .code (l ++ []) [(kind, l)] .code [] := h.reads (Or.inl rfl)
  obtain ⟨c, cs, rfl, hlexeme, -⟩ := Reads.singleton_iff.1 hreads
  have hkind : kind ∈ (codeForm c (cs ++ [])).kinds := kind_mem_kinds hlexeme
  rw [Bool.eq_false_iff]
  intro hblank
  have hform : codeForm c (cs ++ []) = .blank := by
    unfold codeForm
    rw [if_pos (by simpa using hblank)]
  rw [hform] at hkind
  -- there is no form for blanks
  cases List.mem_singleton.1 hkind
  cases h

/-! ## All tokens -/

namespace CodeToken

theorem endsOrSpace_spaced (ts : List CodeToken) : EndsOrSpace (spaced ts) := by
  cases ts with
  | nil => exact Or.inl rfl
  | cons t ts => exact Or.inr ⟨t.chars ++ spaced ts, rfl⟩

/-- **Behind the tag the tokens are read one after the other**, with a blank in front of each. -/
theorem reads_spaced (ts : List CodeToken) : Reads .code (spaced ts) (spacedPieces ts) .code [] := by
  induction ts with
  | nil => exact .stop
  | cons t ts ih =>
    have htoken : Reads .code (t.chars ++ spaced ts) [(t.kind, t.chars)] .code (spaced ts) :=
      t.isText.reads (endsOrSpace_spaced ts)
    have hblank : Reads .code ([' '] ++ (t.chars ++ spaced ts)) [(.blank, [' '])] .code
        (t.chars ++ spaced ts) := by
      have hnone : ∀ c ∈ ([] : List Char), Text.isAsciiBlank c = true := by simp
      refine Reads.singleton_iff.2 ⟨' ', [], rfl, ?_, rfl⟩
      exact lexeme_blanks rfl hnone (t.isText.head?_not_blank (spaced ts))
    exact hblank.trans (htoken.trans ih)

end CodeToken

/-- **Reading undoes printing.** The tokens of a printed text are its opening tag and then, for one token
after the other, a blank and the token itself, with the kind and the text that were printed. -/
theorem tokens_print (ts : List CodeToken) :
    tokens (CodeToken.print ts) = .ok (placedFrom 1 (CodeToken.pieces ts)) := by
  have htag : lexeme .html '<' ("?php".toList ++ CodeToken.spaced ts) = .ok (.openTag, 4) := rfl
  have hreads : Reads (initialMode ("<?php".toList ++ CodeToken.spaced ts))
      ("<?php".toList ++ CodeToken.spaced ts) (CodeToken.pieces ts) .code [] :=
    .cut htag (CodeToken.reads_spaced ts)
  unfold tokens CodeToken.print
  rw [String.toList_ofList, tokensFrom_of_reads hreads, tokensFrom]
  show Except.ok (placedFrom 1 (CodeToken.pieces ts) ++ []) = _
  rw [List.append_nil]

end Source
end Conformance
