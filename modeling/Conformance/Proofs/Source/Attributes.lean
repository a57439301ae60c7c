import Conformance.Proofs.Source.Brackets
import Conformance.Proofs.Source.Pieces

/-!
# `Proofs.Source.Attributes`: an attribute is one token

The language skips quoted literals and comments in an attribute and lets all other brackets nest;
`AttributeText` gives its texts in this way. The reading skips the literals only: it takes the characters
of a comment as they come. The two agree on every text whose comments are themselves texts inside of an
attribute, with balanced brackets and closed literals. `tokens_attribute` says that such an attribute is
cut off as one token, which no declaration depends on. A comment with a single bracket is the exception.
-/

namespace Conformance
namespace Source

/-- **The comments of the language.** Those that end with their line are given with the line break. -/
inductive IsComment : List Char → Prop where
  | block {body : List Char} (hbody : ¬ ['*', '/'] <:+: body ++ ['*']) :
      IsComment ('/' :: '*' :: (body ++ ['*', '/']))
  | line {opener body : List Char} (hopener : opener = ['#'] ∨ opener = ['/', '/'])
      (hattr : ¬ ['#', '['] <+: opener ++ body) (hbody : '\n' ∉ body) :
      IsComment (opener ++ body ++ ['\n'])

/-- The text in front begins with the mark of a comment. -/
def BeginsComment (cs : List Char) : Prop :=
  ['/', '*'] <+: cs ∨ ['/', '/'] <+: cs ∨ (['#'] <+: cs ∧ ¬ ['#', '['] <+: cs)

/-- **The text of an attribute** as the language has it: behind `n` open inner brackets it closes them
all. Literals and comments are skipped; `allowed` says which comments there may be. -/
inductive AttributeText (allowed : List Char → Prop) : Nat → List Char → Prop where
  | nil : AttributeText allowed 0 []
  | opening {n : Nat} {cs : List Char} (h : AttributeText allowed (n + 1) cs) :
      AttributeText allowed n ('[' :: cs)
  | closing {n : Nat} {cs : List Char} (h : AttributeText allowed n cs) :
      AttributeText allowed (n + 1) (']' :: cs)
  | quoted {n : Nat} {quote : Char} {body cs : List Char} (hquote : quote = '\'' ∨ quote = '"')
      (hbody : Escaped quote body) (h : AttributeText allowed n cs) :
      AttributeText allowed n (quote :: (body ++ quote :: cs))
  | comment {n : Nat} {text cs : List Char} (htext : IsComment text) (hallowed : allowed text)
      (h : AttributeText allowed n cs) : AttributeText allowed n (text ++ cs)
  | plain {n : Nat} {c : Char} {cs : List Char} (hc : c ∉ ['[', ']', '\'', '"'])
      (hcomment : ¬ BeginsComment (c :: cs)) (h : AttributeText allowed n cs) :
      AttributeText allowed n (c :: cs)

/-- The characters of an attribute with this text. -/
def attributeChars (body : List Char) : List Char := '#' :: '[' :: (body ++ [']'])

namespace AttributeText

variable {allowed : List Char → Prop} {n : Nat} {xs cs : List Char}

/-- Characters that mean nothing of their own. -/
theorem append_plain (hxs : (xs.all fun c => c ∉ ['[', ']', '\'', '"', '/', '#']) = true)
    (h : AttributeText allowed n cs) : AttributeText allowed n (xs ++ cs) := by
  induction xs with
  | nil => exact h
  | cons c xs ih =>
    rw [List.all_cons, Bool.and_eq_true, decide_eq_true_iff] at hxs
    obtain ⟨hc, hrest⟩ := hxs
    simp only [List.mem_cons, List.not_mem_nil, or_false, not_or] at hc
    obtain ⟨hopen, hclose, hsingle, hdouble, hslash, hhash⟩ := hc
    apply AttributeText.plain
    · simp [hopen, hclose, hsingle, hdouble]
    · simp [BeginsComment, Ne.symm hslash, Ne.symm hhash]
    · exact ih hrest

/-- **The reading agrees with the language** on a text whose comments are inside of the attribute by its
own rules. -/
theorem inAttribute (h : AttributeText (InAttribute 0 0) n cs) : InAttribute n 0 cs := by
  induction h with
  | nil => exact .nil
  | opening _ ih => exact .opening ih
  | closing _ ih => exact .closing ih
  | quoted hquote hbody _ ih => exact .quoted hquote hbody ih
  | @comment n text cs _ hallowed _ ih =>
    -- what is balanced by itself is so inside of more brackets, too
    have htext : InAttribute n n text := by
      have hmore := hallowed.add_open n
      rwa [Nat.zero_add] at hmore
    exact htext.append ih
  | plain hc _ _ ih => exact .plain hc ih

end AttributeText

/-- **What is read as one attribute** is a text that its brackets and literals leave balanced. -/
theorem reads_attribute_iff {body v : List Char} :
    Reads .code (attributeChars body ++ v) [(.attr, attributeChars body)] .code v
      ↔ InAttribute 0 0 body := by
  have hlexeme : lexeme .code '#' ('[' :: (body ++ [']']) ++ v)
      = (attributeLength 0 none (body ++ ']' :: v)).map fun n => (.attr, n + 1) := by
    show codeLexeme '#' ('[' :: (body ++ [']'] ++ v)) = _
    have hform : codeForm '#' ('[' :: (body ++ [']'] ++ v)) = .attr := rfl
    rw [codeLexeme_eq, hform, List.append_assoc]
    rfl
  have hlength : ('[' :: (body ++ [']'])).length = body.length + 1 + 1 := by simp
  unfold attributeChars
  rw [Reads.singleton_iff, ← attributeLength_eq_ok_iff (v := v)]
  constructor
  · rintro ⟨c, cs, heq, hread, _⟩
    obtain ⟨rfl, rfl⟩ := List.cons.inj heq
    rw [hlexeme, hlength] at hread
    obtain ⟨n, hn, heq⟩ := exists_of_map_ok hread
    rw [hn, Nat.succ.inj (congrArg Prod.snd heq)]
  · intro h
    refine ⟨'#', _, rfl, ?_, rfl⟩
    rw [hlexeme, hlength, h]
    rfl

/-- Trivia add nothing to an outline. -/
theorem Outline.ofTokens_trivia (file : String) {t : Token} (ht : t.isTrivia = true) (ts us : List Token) :
    ofTokens file none (ts ++ t :: us) = ofTokens file none (ts ++ us) := by
  unfold ofTokens
  rw [List.filter_append, List.filter_append, List.filter_cons_of_neg (by simp [ht])]

/-- **Attributes are consumed whole.** In code let `#[` be followed by a text in which the brackets
balance, literals and comments apart, and by `]`; each comment in it has balanced brackets and closed
literals itself. Then one token covers it all, and the declarations of the file are those of the tokens
in front of it and behind it. -/
theorem tokens_attribute {ps : List (TokenKind × List Char)} {u body v : List Char}
    (hplace : StandsInCode ps u (attributeChars body ++ v))
    (hbody : AttributeText (InAttribute 0 0) 0 body) :
    let source := String.ofList (u ++ (attributeChars body ++ v))
    let behind := tokensFrom .code (lineBehind (u ++ attributeChars body)) v
    tokens source = (behind.map fun ts => placedFrom 1 ps
        ++ { kind := .attr, text := String.ofList (attributeChars body), line := lineBehind u } :: ts)
      ∧ ∀ file, Outline.ofSource file source
        = behind.map fun ts => Outline.ofTokens file none (placedFrom 1 ps ++ ts) := by
  intro source behind
  have htoken : tokens source = behind.map fun ts => placedFrom 1 ps
      ++ { kind := .attr, text := String.ofList (attributeChars body), line := lineBehind u } :: ts :=
    hplace.tokens_token (reads_attribute_iff.2 hbody.inAttribute)
  refine ⟨htoken, ?_⟩
  intro file
  unfold Outline.ofSource
  rw [htoken]
  cases behind with
  | error e => rfl
  | ok ts => exact congrArg Except.ok (Outline.ofTokens_trivia file rfl _ ts)

/-- Brackets in a literal and in a comment of an attribute. -/
theorem tokens_attribute_of_route :
    let body := "Route('/a[b]') /* [see] */".toList
    let v := "\nclass A\x7b\x7d".toList
    let ps := [(.openTag, "<?php".toList), (.blank, ['\n'])]
    let source := "<?php\n#[Route('/a[b]') /* [see] */]\nclass A\x7b\x7d"
    StandsInCode ps "<?php\n".toList (attributeChars body ++ v) ∧ AttributeText (InAttribute 0 0) 0 body
      ∧ tokens source = ((tokensFrom .code 2 v).map fun ts =>
          placedFrom 1 ps ++ { kind := .attr, text := "#[Route('/a[b]') /* [see] */]", line := 2 } :: ts)
      ∧ ∀ file, Outline.ofSource file source
          = (tokensFrom .code 2 v).map fun ts => Outline.ofTokens file none (placedFrom 1 ps ++ ts) := by
  intro body v ps source
  have hplace : StandsInCode ps "<?php\n".toList (attributeChars body ++ v) := standsInCode_behind_tag rfl
  have hbody : AttributeText (InAttribute 0 0) 0 body := by
    have hparts : body = "Route(".toList ++ '\'' :: ("/a[b]".toList ++ '\'' :: (") ".toList
        ++ ('/' :: '*' :: (" [see] ".toList ++ ['*', '/']) ++ []))) := rfl
    have hcomment : InAttribute 0 0 ('/' :: '*' :: (" [see] ".toList ++ ['*', '/'])) := by
      have hword : InAttribute 1 1 "see".toList := .of_plain rfl
      have hinner : InAttribute 0 0 ('[' :: ("see".toList ++ [']'])) :=
        .opening (hword.append (.closing .nil))
      have hfront : InAttribute 0 0 ['/', '*', ' '] := .of_plain rfl
      have hbehind : InAttribute 0 0 [' ', '*', '/'] := .of_plain rfl
      exact hfront.append (hinner.append hbehind)
    rw [hparts]
    apply AttributeText.append_plain rfl
    apply AttributeText.quoted (Or.inl rfl) (Escaped.of_all rfl)
    apply AttributeText.append_plain rfl
    exact .comment (.block (not_infix_of_lengthThrough (List.cons_ne_nil _ _) rfl)) hcomment .nil
  have hsource : String.ofList ("<?php\n".toList ++ (attributeChars body ++ v)) = source := by
    decide +kernel
  have htext : String.ofList (attributeChars body) = "#[Route('/a[b]') /* [see] */]" := by
    decide +kernel
  have hline : lineBehind "<?php\n".toList = 2 ∧ lineBehind ("<?php\n".toList ++ attributeChars body) = 2 := by
    decide +kernel
  have hread := tokens_attribute hplace hbody
  dsimp only at hread
  rw [hsource, htext, hline.1, hline.2] at hread
  exact ⟨hplace, hbody, hread⟩

/-- A comment with single brackets: for the language it is skipped, and one class is declared. The
reading ends the attribute in the comment and finds another class there. -/
theorem attribute_ends_in_comment :
    let body := "A /* ] class Fake \x7b\x7d [ */".toList
    let source := "<?php\n#[A /* ] class Fake \x7b\x7d [ */]\nclass Real \x7b\x7d"
    AttributeText (fun _ => True) 0 body
      ∧ source.toList = "<?php\n".toList ++ (attributeChars body ++ "\nclass Real \x7b\x7d".toList)
      ∧ (tokens source).toOption.map (·.filter (·.kind == .attr)) = some [⟨.attr, "#[A /* ]", 2⟩]
      ∧ (Outline.ofSource "A.php" source).toOption.map (·.declarations)
        = some [(.cls, "Fake"), (.cls, "Real")] := by
  intro body source
  refine ⟨?_, by decide +kernel, by decide +kernel, by decide +kernel⟩
  have hparts : body = ['A', ' ']
      ++ ('/' :: '*' :: (" ] class Fake \x7b\x7d [ ".toList ++ ['*', '/']) ++ []) := rfl
  rw [hparts]
  apply AttributeText.append_plain rfl
  exact .comment (.block (not_infix_of_lengthThrough (List.cons_ne_nil _ _) rfl)) trivial .nil

end Source
end Conformance
