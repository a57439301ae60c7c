import Conformance.Proofs.Source.Pieces

/-!
# `Proofs.Source.Shapes`: what the reader sees of a token

The reader passes over trivia, never looks at the line of a token, and of a literal sees only that it is
one. What is left of a token is its `shape`. The outline of a text depends on nothing but the shapes of its
significant tokens, and these are the same on whatever line the text begins.
-/

namespace Conformance
namespace Source

/-! ## Shapes -/

/-- The token without its line and, if it is a literal, without its text. -/
def Token.shape (t : Token) : Token :=
  match t.kind with
  | .quoted => { kind := .quoted, text := "", line := 0 }
  | .heredoc => { kind := .heredoc, text := "", line := 0 }
  | _ => t.unplaced

/-- The shapes of the tokens that are no trivia. -/
def shapes (ts : List Token) : List Token := (ts.filter (!·.isTrivia)).map Token.shape

theorem shapes_append (ts us : List Token) : shapes (ts ++ us) = shapes ts ++ shapes us := by
  unfold shapes
  rw [List.filter_append, List.map_append]

/-- A literal in quotes or a heredoc. -/
def Token.IsLiteral (t : Token) : Prop := t.kind = .quoted ∨ t.kind = .heredoc

theorem Token.shape_cases (t : Token) :
    t.IsLiteral ∧ t.shape.IsLiteral ∨ t.shape = t.unplaced := by
  unfold shape IsLiteral
  cases t.kind with
  | quoted => exact Or.inl ⟨Or.inl rfl, Or.inl rfl⟩
  | heredoc => exact Or.inl ⟨Or.inr rfl, Or.inr rfl⟩
  | _ => exact Or.inr rfl

namespace Token.IsLiteral

variable {t : Token} (h : t.IsLiteral)
include h

theorem isWord_eq (w : String) : t.isWord w = false := by
  rcases h with h | h <;> rw [isWord, h] <;> rfl

theorem isMark_eq (c : Char) : t.isMark c = false := by
  rcases h with h | h <;> rw [isMark, h] <;> rfl

theorem isNamePart_eq : t.isNamePart = false := by
  rcases h with h | h <;> rw [isNamePart, h] <;> rfl

theorem endsStatement_eq : t.endsStatement = false := by
  unfold endsStatement
  rw [h.isMark_eq]
  rcases h with h | h <;> rw [h] <;> rfl

theorem kind_ne_word : (t.kind == .word) = false := by
  rcases h with h | h <;> rw [h] <;> rfl

end Token.IsLiteral

namespace Reader

section

variable {t : Token} (h : t.IsLiteral) (r : Reader)
include h

theorem memberStep_literal (index : Nat) :
    r.memberStep index t = { r with member := { r.member with awaitsName := false } } := by
  unfold memberStep
  rw [h.isMark_eq, h.endsStatement_eq, bne, h.kind_ne_word, h.isMark_eq]
  rfl

theorem idleStep_literal (p : Option Token) :
    r.idleStep p t = match r.frames.head? with
      | some (.body _) => { r with member := { r.member with awaitsName := false } }
      | _ => { r with pending := {} } := by
  unfold idleStep
  rw [h.isMark_eq, if_neg Bool.false_ne_true]
  have houtside : (if t.isMark '{' then { r with frames := .block :: r.frames, pending := {} }
      else if !r.atDeclarationScope || t.kind != .word then { r with pending := {} }
      else r.wordStep p t) = { r with pending := {} } := by
    rw [h.isMark_eq, bne, h.kind_ne_word, Bool.not_false, Bool.or_true]
    rfl
  cases r.frames.head? with
  | none => exact houtside
  | some frame =>
    cases frame with
    | body index => exact memberStep_literal h r index
    | scope => exact houtside
    | block => exact houtside

theorem importNameStep_literal (i : Import) :
    r.importNameStep i t = { (r.commit i).1 with phase := .idle } := by
  unfold importNameStep
  rw [h.isWord_eq, h.isNamePart_eq, h.isMark_eq, h.isMark_eq, h.isMark_eq]
  rfl

end

/-- One literal is as good as another. -/
theorem step_literal {t t' : Token} (h : t.IsLiteral) (h' : t'.IsLiteral) (r : Reader)
    (p : Option Token) : r.step p t = r.step p t' := by
  unfold step
  cases r.phase with
  | idle => exact (idleStep_literal h r p).trans (idleStep_literal h' r p).symm
  | scopeName text =>
    unfold scopeStep
    rw [h.isNamePart_eq, h'.isNamePart_eq, h.isMark_eq, h'.isMark_eq]
    rfl
  | importing i =>
    unfold importStep
    dsimp only
    rw [h.endsStatement_eq, h'.endsStatement_eq, h.isMark_eq, h'.isMark_eq, h.isWord_eq,
      h'.isWord_eq, h.isWord_eq, h'.isWord_eq, importNameStep_literal h r i,
      importNameStep_literal h' r i, importNameStep_literal h, importNameStep_literal h']
  | typeName kind modifiers =>
    dsimp only
    rw [h.kind_ne_word, h'.kind_ne_word]
    exact (idleStep_literal h _ p).trans (idleStep_literal h' _ p).symm
  | header index clause name =>
    unfold headerStep
    rw [h.isWord_eq, h'.isWord_eq, h.isWord_eq, h'.isWord_eq, h.isNamePart_eq, h'.isNamePart_eq,
      h.isMark_eq, h'.isMark_eq, h.isMark_eq, h'.isMark_eq]
    rfl

/-- Of the token before, a step asks only whether it makes an expression. -/
theorem step_previous {p p' : Option Token} (h : inExpression p = inExpression p') (r : Reader)
    (t : Token) : r.step p t = r.step p' t := by
  unfold step idleStep wordStep keywordStep
  rw [h]

theorem inExpression_shape (p : Option Token) :
    inExpression (p.map Token.shape) = inExpression p := by
  cases p with
  | none => rfl
  | some p =>
    rcases p.shape_cases with ⟨h, h'⟩ | h
    · show (p.shape.isMark ':' || p.shape.isMark '>' || p.shape.isWord "new")
        = (p.isMark ':' || p.isMark '>' || p.isWord "new")
      rw [h.isMark_eq, h.isMark_eq, h.isWord_eq, h'.isMark_eq, h'.isMark_eq, h'.isWord_eq]
    · rw [Option.map_some, h]
      rfl

/-- A literal is read by its kind. -/
theorem step_shape (r : Reader) (p : Option Token) (t : Token) :
    r.step (p.map Token.shape) t.shape = r.step p t := by
  rw [step_previous (inExpression_shape p)]
  rcases t.shape_cases with ⟨h, h'⟩ | h
  · exact step_literal h' h r p
  · rw [h]
    exact (step_previous (by cases p <;> rfl) r _).trans (step_unplaced r p t)

theorem walk_shape (r : Reader) (p : Option Token) (ts : List Token) :
    walk none r (p.map Token.shape) (ts.map Token.shape) = walk none r p ts := by
  induction ts generalizing r p with
  | nil => rfl
  | cons t ts ih =>
    rw [List.map_cons, walk_cons, walk_cons, step_shape]
    exact ih (r.step p t) (some t)

end Reader

/-- **The outline depends on the shapes of the significant tokens.** -/
theorem Outline.ofTokens_eq (file : String) (ts : List Token) :
    ofTokens file none ts = ofReader none (Reader.walk none { file } none (shapes ts)) := by
  unfold ofTokens shapes
  rw [← Reader.walk_shape { file } none (ts.filter _)]
  rfl

/-! ## Shapes of pieces -/

theorem shapes_placedFrom (line line' : Nat) (ps : List (TokenKind × List Char)) :
    shapes (placedFrom line ps) = shapes (placedFrom line' ps) := by
  induction ps generalizing line line' with
  | nil => rfl
  | cons p ps ih =>
    have hone : shapes [placed line p] = shapes [placed line' p] := by
      obtain ⟨kind, text⟩ := p
      cases kind <;> rfl
    show shapes ([placed line p] ++ _) = shapes ([placed line' p] ++ _)
    rw [shapes_append, shapes_append, hone, ih]

/-- The shapes of the significant tokens of a text, if it can be read. -/
def shapesFrom (m : Mode) (cs : List Char) : Option (List Token) :=
  (tokensFrom m 1 cs).toOption.map shapes

/-- **The line on which a text begins plays no part.** -/
theorem shapes_tokensFrom (m : Mode) (line : Nat) (cs : List Char) :
    (tokensFrom m line cs).toOption.map shapes = shapesFrom m cs := by
  -- where the reading succeeds on one line, it succeeds on any other
  have hplaced {line : Nat} {ts : List Token} (h : tokensFrom m line cs = .ok ts) (line' : Nat) :
      ∃ ts', tokensFrom m line' cs = .ok ts' ∧ shapes ts' = shapes ts := by
    obtain ⟨ps, m', hreads, rfl⟩ := reads_of_tokensFrom h
    refine ⟨placedFrom line' ps, ?_, shapes_placedFrom line' line ps⟩
    rw [tokensFrom_of_reads hreads, tokensFrom]
    exact congrArg Except.ok (List.append_nil _)
  unfold shapesFrom
  cases h : tokensFrom m line cs with
  | ok ts =>
    obtain ⟨ts', hts', hshapes⟩ := hplaced h 1
    rw [hts']
    exact congrArg some hshapes.symm
  | error e =>
    cases h' : tokensFrom m 1 cs with
    | error e' => rfl
    | ok ts' =>
      obtain ⟨ts, hts, _⟩ := hplaced h' line
      rw [h] at hts
      cases hts

theorem shapesFrom_of_reads {m m' : Mode} {cs rest : List Char} {ps : List (TokenKind × List Char)}
    (h : Reads m cs ps m' rest) :
    shapesFrom m cs = (shapesFrom m' rest).map (shapes (placedFrom 1 ps) ++ ·) := by
  rw [← shapes_tokensFrom m' (1 + (ps.flatMap Prod.snd).count '\n')]
  unfold shapesFrom
  rw [tokensFrom_of_reads h]
  cases tokensFrom m' (1 + (ps.flatMap Prod.snd).count '\n') rest with
  | error e => rfl
  | ok ts => exact congrArg some (shapes_append _ ts)

theorem Outline.ofSource_toOption (file : String) (cs : List Char) :
    (ofSource file (String.ofList cs)).toOption
      = (shapesFrom (initialMode cs) cs).map fun ts =>
          ofReader none (Reader.walk none { file } none ts) := by
  unfold ofSource tokens shapesFrom
  rw [String.toList_ofList]
  cases tokensFrom (initialMode cs) 1 cs with
  | error e => rfl
  | ok ts => exact congrArg some (ofTokens_eq file ts)

end Source
end Conformance
