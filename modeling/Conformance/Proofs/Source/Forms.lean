import Conformance.Proofs.Source.Heredocs

/-!
# `Proofs.Source.Forms`: the forms of tokens in code

In code the first character of a token and the one or two behind it decide what sort of token it is, and
the sort decides how far the token reaches. `codeForm` is the first decision and `CodeForm.lexeme` the
second, so that a statement about all tokens has one case for each sort. What is known of the characters
in front, once the sort is, is `CodeForm.Guard`. No token reaches beyond the text.
-/

namespace Conformance
namespace Source

/-- The sorts of tokens in code. -/
inductive CodeForm where
  | blank
  | closeTag
  | attr
  | lineComment
  | blockComment
  | quoted
  | heredoc
  | variable
  | word
  | number
  | separator
  | mark
  deriving DecidableEq, Repr

/-- The sort of the token that begins with `c`. -/
def codeForm (c : Char) (cs : List Char) : CodeForm :=
  if Text.isAsciiBlank c then .blank
  else if c = '?' ∧ cs.head? = some '>' then .closeTag
  else if c = '#' ∧ cs.head? = some '[' then .attr
  else if c = '#' ∨ (c = '/' ∧ cs.head? = some '/') then .lineComment
  else if c = '/' ∧ cs.head? = some '*' then .blockComment
  else if c = '\'' ∨ c = '"' ∨ c = '\x60' then .quoted
  else if c = '<' ∧ ['<', '<'].isPrefixOf cs then .heredoc
  else if c = '$' ∧ cs.head?.any isNameStart then .variable
  else if isNameStart c then .word
  else if c.isDigit then .number
  else if c = '\\' then .separator
  else .mark

namespace CodeForm

/-- What the characters in front are like, where it matters for the length of the token. -/
def Guard (c : Char) (cs : List Char) : CodeForm → Prop
  | closeTag => c = '?' ∧ cs.head? = some '>'
  | attr => c = '#' ∧ cs.head? = some '['
  | lineComment => c = '#' ∨ (c = '/' ∧ cs.head? = some '/')
  | blockComment => c = '/' ∧ cs.head? = some '*'
  | quoted => c = '\'' ∨ c = '"' ∨ c = '\x60'
  | heredoc => c = '<' ∧ ['<', '<'].isPrefixOf cs = true
  | _ => True

/-- Whether a comment that starts with `/` and these characters documents something. -/
def isDoc (cs : List Char) : Bool :=
  ['*', '*'].isPrefixOf cs && !(['*', '*', '/'].isPrefixOf cs)

/-- The token of each sort: its kind and its length after the first character. -/
def lexeme (c : Char) (cs : List Char) : CodeForm → Except Literal (TokenKind × Nat)
  | blank => .ok (.blank, (cs.takeWhile Text.isAsciiBlank).length)
  | closeTag => .ok (.closeTag, 1)
  | attr => (attributeLength 0 none (cs.drop 1)).map fun n => (.attr, n + 1)
  | lineComment => .ok (.comment, lengthBefore endsLineComment cs)
  | blockComment =>
    closed (if isDoc cs then .docComment else .comment) .comment
      ((lengthThrough ['*', '/'] (cs.drop 1)).map (· + 1))
  | quoted => closed .quoted .string (quotedLength c cs)
  | heredoc =>
    (heredocLength (cs.drop 2)).map fun
      | some n => (.heredoc, n + 2)
      | none => (.mark, 0)
  | .variable => .ok (.variable, (cs.takeWhile isNameChar).length)
  | word => .ok (.word, (cs.takeWhile isNameChar).length)
  | number => .ok (.number, (cs.takeWhile isNumberChar).length)
  | separator => .ok (.separator, 0)
  | mark => .ok (.mark, 0)

end CodeForm

theorem guard_ite {c : Char} {cs : List Char} {p : Prop} [Decidable p] {form form' : CodeForm}
    (h : p → form.Guard c cs) (h' : form'.Guard c cs) : (if p then form else form').Guard c cs := by
  by_cases hp : p
  · rw [if_pos hp]
    exact h hp
  · rw [if_neg hp]
    exact h'

theorem guard_codeForm (c : Char) (cs : List Char) : (codeForm c cs).Guard c cs := by
  unfold codeForm
  refine guard_ite (fun _ => trivial) ?_
  refine guard_ite id (guard_ite id (guard_ite id (guard_ite id (guard_ite id (guard_ite id ?_)))))
  exact guard_ite (fun _ => trivial) (guard_ite (fun _ => trivial) (guard_ite (fun _ => trivial)
    (guard_ite (fun _ => trivial) trivial)))

/-- **The next token in code is the token of its sort.** -/
theorem codeLexeme_eq (c : Char) (cs : List Char) :
    codeLexeme c cs = (codeForm c cs).lexeme c cs := by
  unfold codeLexeme codeForm
  simp only [apply_ite (CodeForm.lexeme c cs)]
  rfl

/-- Three angles open a heredoc, or the first of them is a mark. -/
theorem codeLexeme_heredoc (cs : List Char) :
    codeLexeme '<' ('<' :: '<' :: cs) = (heredocLength cs).map fun
      | some n => (.heredoc, n + 2)
      | none => (.mark, 0) := by
  have hform : codeForm '<' ('<' :: '<' :: cs) = .heredoc := rfl
  rw [codeLexeme_eq, hform]
  rfl

/-! ## Tokens stay inside the text -/

theorem of_closed {kind kind' : TokenKind} {what : Literal} {length : Option Nat} {n : Nat}
    (h : closed kind what length = .ok (kind', n)) : kind' = kind ∧ length = some n := by
  cases length with
  | none => cases h
  | some k =>
    cases h
    exact ⟨rfl, rfl⟩

theorem of_closed_error {kind : TokenKind} {what what' : Literal} {length : Option Nat}
    (h : closed kind what length = .error what') : what' = what ∧ length = none := by
  cases length with
  | none =>
    cases h
    exact ⟨rfl, rfl⟩
  | some k => cases h

theorem exists_cons_of_head? {cs : List Char} {d : Char} (h : cs.head? = some d) :
    ∃ rest, cs = d :: rest := by
  cases cs with
  | nil => cases h
  | cons d' rest =>
    cases h
    exact ⟨rest, rfl⟩

theorem codeLexeme_le {c : Char} {cs : List Char} {kind : TokenKind} {n : Nat}
    (h : codeLexeme c cs = .ok (kind, n)) : n ≤ cs.length := by
  have htake (p : Char → Bool) : (cs.takeWhile p).length ≤ cs.length :=
    (List.takeWhile_prefix p).length_le
  have hguard := guard_codeForm c cs
  rw [codeLexeme_eq] at h
  cases hform : codeForm c cs <;> rw [hform] at h hguard
  case blank | word | number | «variable» =>
    cases h
    exact htake _
  case separator | mark =>
    cases h
    exact Nat.zero_le _
  case closeTag =>
    cases h
    obtain ⟨rest, rfl⟩ := exists_cons_of_head? hguard.2
    exact Nat.succ_le_succ (Nat.zero_le _)
  case attr =>
    obtain ⟨rest, rfl⟩ := exists_cons_of_head? hguard.2
    obtain ⟨k, hk, hn⟩ := exists_of_map_ok h
    cases hn
    exact Nat.succ_le_succ (attributeLength_le hk)
  case lineComment =>
    cases h
    exact lengthBefore_le endsLineComment cs
  case blockComment =>
    obtain ⟨rest, rfl⟩ := exists_cons_of_head? hguard.2
    obtain ⟨k, hk, rfl⟩ := Option.map_eq_some_iff.1 (of_closed h).2
    exact Nat.succ_le_succ (lengthThrough_bounds hk).2
  case quoted => exact (quotedLength_le (of_closed h).2).2
  case heredoc =>
    obtain ⟨rest, rfl⟩ := List.isPrefixOf_iff_prefix.1 hguard.2
    obtain ⟨found, hfound, hn⟩ := exists_of_map_ok h
    cases found with
    | none =>
      cases hn
      exact Nat.zero_le _
    | some k =>
      cases hn
      exact Nat.add_le_add_right (heredocLength_bounds hfound).1 2

/-- The kinds of the tokens of a sort. -/
def CodeForm.kinds : CodeForm → List TokenKind
  | blank => [.blank]
  | closeTag => [.closeTag]
  | attr => [.attr]
  | lineComment => [.comment]
  | blockComment => [.comment, .docComment]
  | quoted => [.quoted]
  | heredoc => [.heredoc, .mark]
  | .variable => [.variable]
  | word => [.word]
  | number => [.number]
  | separator => [.separator]
  | mark => [.mark]

theorem kind_mem_kinds {c : Char} {cs : List Char} {kind : TokenKind} {n : Nat}
    (h : codeLexeme c cs = .ok (kind, n)) : kind ∈ (codeForm c cs).kinds := by
  rw [codeLexeme_eq] at h
  cases hform : codeForm c cs <;> rw [hform] at h
  case attr =>
    obtain ⟨_, _, hn⟩ := exists_of_map_ok h
    cases hn
    exact List.mem_singleton_self _
  case blockComment =>
    rw [(of_closed h).1]
    split
    · exact List.mem_cons_of_mem _ (List.mem_singleton_self _)
    · exact List.mem_cons_self
  case quoted =>
    rw [(of_closed h).1]
    exact List.mem_singleton_self _
  case heredoc =>
    obtain ⟨found, _, hn⟩ := exists_of_map_ok h
    cases found with
    | none =>
      cases hn
      exact List.mem_cons_of_mem _ (List.mem_singleton_self _)
    | some k =>
      cases hn
      exact List.mem_cons_self
  all_goals
    cases h
    exact List.mem_singleton_self _

theorem htmlLexeme_kind (c : Char) (cs : List Char) :
    (htmlLexeme c cs).1 = .openTag ∨ (htmlLexeme c cs).1 = .html := by
  unfold htmlLexeme
  split
  · split
    · exact Or.inl rfl
    split <;> exact Or.inl rfl
  · exact Or.inr rfl

theorem htmlLexeme_le (c : Char) (cs : List Char) : (htmlLexeme c cs).2 ≤ cs.length := by
  unfold htmlLexeme
  split
  · next htag =>
    obtain ⟨rest, hrest⟩ := List.isPrefixOf_iff_prefix.1 htag
    obtain ⟨rfl, rfl⟩ := List.cons.inj hrest
    split
    · next hphp =>
      -- three letters follow
      have hthree : min 3 rest.length = 3 := by
        have := congrArg List.length hphp
        rwa [List.length_map, List.length_take] at this
      show 4 ≤ rest.length + 1
      omega
    split
    · next hecho =>
      obtain ⟨rest', rfl⟩ := exists_cons_of_head? (show rest.head? = some '=' from hecho)
      exact Nat.succ_le_succ (Nat.succ_le_succ (Nat.zero_le _))
    · exact Nat.succ_le_succ (Nat.zero_le _)
  · exact lengthBefore_le startsTag cs

/-- **No token reaches beyond the text.** -/
theorem lexeme_le {m : Mode} {c : Char} {cs : List Char} {kind : TokenKind} {n : Nat}
    (h : lexeme m c cs = .ok (kind, n)) : n ≤ cs.length := by
  cases m with
  | html =>
    have hle := htmlLexeme_le c cs
    rwa [Except.ok.inj h] at hle
  | code => exact codeLexeme_le h

end Source
end Conformance
