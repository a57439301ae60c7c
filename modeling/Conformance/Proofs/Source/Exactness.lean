import Conformance.Proofs.Source.Imports

/-!
# `Proofs.Source.Exactness`: the outline of a well-formed file is exact

From statements to files: the reader walks over the statements of a section, over the sections, and
so over a whole script. The main result is `Outline.ofSource_script`: whatever trivia stands between
the tokens of a script, the outline of the file lists the types that the script declares.
-/

namespace Conformance
namespace Source
namespace Reader

variable {r : Reader} {p : Option Token} {file : String} {depth : Nat} {scope : List Identifier}
  {imports : Imports} {found : List TypeInfo}

/-! ## Statements -/

theorem getLast?_append_or (ts us : List Token) (p : Option Token) :
    (ts ++ us).getLast?.or p = us.getLast?.or (ts.getLast?.or p) := by
  rw [List.getLast?_append, Option.or_assoc]

/-- Behind a mark that ends a statement no expression goes on. -/
theorem inExpression_concat_mark {ts : List Token} {c : Char} (hc : c ∈ [';', '{', '}']) :
    inExpression ((ts ++ [Token.ofMark c]).getLast?.or p) = false := by
  rw [List.getLast?_concat]
  show ((Token.ofMark c).isMark ':' || (Token.ofMark c).isMark '>' || (Token.ofMark c).isWord "new")
    = false
  simp only [List.mem_cons, List.not_mem_nil, or_false] at hc
  rw [Token.isMark_ofMark, Token.isMark_ofMark, Token.isWord_ofMark]
  rcases hc with rfl | rfl | rfl <;> decide

/-- A statement ends in a semicolon or in a brace. -/
theorem inExpression_item (i : Item) : inExpression (i.tokens.getLast?.or p) = false := by
  cases i with
  | use u =>
    show inExpression (u.tokens.getLast?.or p) = false
    rw [u.tokens_toStatement]
    exact inExpression_concat_mark (by simp)
  | type d =>
    have htokens : d.tokens = (d.headTokens ++ d.clauseTokens ++ Token.ofMark '{' :: d.body)
        ++ [Token.ofMark '}'] := by
      simp [Declaration.tokens]
    show inExpression (d.tokens.getLast?.or p) = false
    rw [htokens]
    exact inExpression_concat_mark (by simp)

/-- **The statements of a section** add what they declare, one after the other. -/
theorem walk_items (items : List Item) (h : Resting r file depth scope imports found)
    (hprev : inExpression p = false) :
    ∃ imports', Resting (walk none r p (Item.allTokens items)) file depth scope imports'
        (found ++ Item.declarations file scope imports items)
      ∧ inExpression ((Item.allTokens items).getLast?.or p) = false := by
  induction items generalizing r p imports found with
  | nil =>
    refine ⟨imports, ?_, hprev⟩
    rw [Item.declarations, List.append_nil]
    exact h
  | cons i items ih =>
    have htokens : Item.allTokens (i :: items) = i.tokens ++ Item.allTokens items := rfl
    rw [htokens, walk_append, getLast?_append_or]
    cases i with
    | use u => exact ih (walk_use h u) (inExpression_item (.use u))
    | type d =>
      obtain ⟨imports', hrest, hlast⟩ := ih (walk_declaration h hprev d) (inExpression_item (.type d))
      refine ⟨imports', ?_, hlast⟩
      rw [Item.declarations, List.append_cons]
      exact hrest

/-! ## Namespaces -/

theorem step_namespace (h : Resting r file depth scope imports found) (k : Keyword "namespace") :
    r.step p (Token.ofWord k.text) = { r with phase := .scopeName "" } := by
  have hnamespace : (Token.ofWord k.text).isWord "namespace" = true := k.spells
  rw [step_of_not_modifier h.phase h.all_scope k (fun m => by cases m <;> decide)]
  unfold keywordStep
  simp only
  rw [hnamespace, ← h.pending]
  rfl

/-- The reader in the name of a namespace. -/
def scoping (r : Reader) (n : String) : Reader := { r with phase := .scopeName n }

/-- The name of a namespace is collected. -/
theorem walk_scoping (q : Qualified) :
    walk none (scoping r "") p q.tokens = scoping r (joined q.parts) := by
  have hstep : ∀ n p' t, n ≠ "" → t.isNamePart = true →
      (scoping r n).step p' t = scoping r (n ++ t.text) ∧ n ++ t.text ≠ "" := by
    intro n p' t hn ht
    refine ⟨?_, fun hempty => hn (String.append_eq_empty_iff.1 hempty).1⟩
    have hsome : n.isEmpty = false := by
      rw [Bool.eq_false_iff]
      exact fun hempty => hn (String.isEmpty_iff.1 hempty)
    show scopeStep (scoping r n) n t = _
    unfold scopeStep
    rw [ht, hsome]
    rfl
  have hfirst : (scoping r "").step p (Token.ofWord q.first.text) = scoping r q.first.text := by
    show scoping r ("" ++ q.first.text) = _
    rw [String.empty_append]
  have hsome : q.first.text ≠ "" := by
    obtain ⟨c, cs, hcs⟩ := q.first.toIdentifier.exists_cons
    intro hempty
    rw [hempty] at hcs
    cases hcs
  have htext : q.first.text ++ String.join ((segmentTokens q.rest).map Token.text)
      = joined q.parts := by
    rw [← join_qualified]
    show _ = String.join (q.first.text :: (segmentTokens q.rest).map Token.text)
    rw [String.join_cons]
  unfold Qualified.tokens
  rw [walk_cons, hfirst, walk_collect hstep (segmentTokens q.rest)
    (fun t ht => (isPlainPart_segmentTokens q.rest t ht).1) q.first.text hsome, htext]

/-- A semicolon behind the name of a namespace begins a section without imports. -/
theorem resting_scoping_end (h : Resting r file depth scope imports found) (ps : List Identifier) :
    Resting ((scoping r (joined ps)).step p (Token.ofMark ';')) file depth ps [] found := by
  have hstep : (scoping r (joined ps)).step p (Token.ofMark ';')
      = { r with phase := .idle, scope := Text.trim (joined ps), imports := [] } := by
    show scopeStep (scoping r (joined ps)) (joined ps) (Token.ofMark ';') = _
    unfold scopeStep
    simp only [Token.isNamePart_ofMark, Token.isMark_ofMark]
    rfl
  rw [hstep]
  exact ⟨h.file, rfl, h.pending, h.frames, trim_joined ps, by simp, rfl, h.found⟩

/-- A brace there opens one. -/
theorem resting_scoping_open (h : Resting r file depth scope imports found) (ps : List Identifier) :
    Resting ((scoping r (joined ps)).step p (Token.ofMark '{')) file (depth + 1) ps [] found := by
  have hstep : (scoping r (joined ps)).step p (Token.ofMark '{')
      = { r with
          phase := .idle, scope := Text.trim (joined ps), imports := []
          frames := .scope :: r.frames } := by
    show scopeStep (scoping r (joined ps)) (joined ps) (Token.ofMark '{') = _
    unfold scopeStep
    simp only [Token.isNamePart_ofMark, Token.isMark_ofMark]
    rfl
  rw [hstep]
  refine ⟨h.file, rfl, h.pending, ?_, trim_joined ps, by simp, rfl, h.found⟩
  show Frame.scope :: r.frames = List.replicate (depth + 1) .scope
  rw [h.frames]
  rfl

/-- The brace that closes a namespace forgets its name and its imports. -/
theorem resting_close (h : Resting r file (depth + 1) scope imports found) :
    Resting (r.step p (Token.ofMark '}')) file depth [] [] found := by
  have hstep : r.step p (Token.ofMark '}') = r.closeFrame := by
    unfold step
    rw [h.phase]
    rfl
  have hclose : r.closeFrame
      = { r with
          pending := {}, member := {}, frames := List.replicate depth .scope, scope := ""
          imports := [] } := by
    unfold closeFrame
    rw [h.frames]
    rfl
  rw [hstep, hclose]
  exact ⟨h.file, h.phase, rfl, rfl, joined_nil.symm, by simp, rfl, h.found⟩

/-! ## Sections -/

theorem inExpression_mark (c : Char) (hc : c ∈ [';', '{', '}']) :
    inExpression (some (Token.ofMark c)) = false :=
  @inExpression_concat_mark none [] c hc

/-- A namespace that ends where the next one begins. -/
theorem walk_openSection (s : OpenSection) (h : Resting r file 0 scope imports found) :
    ∃ imports', Resting (walk none r p s.tokens) file 0 s.scope.parts imports'
      (found ++ Item.declarations file s.scope.parts [] s.items) := by
  obtain ⟨imports', hitems, _⟩ := walk_items s.items
    (@resting_scoping_end r (s.scope.tokens.getLast?.or (some (Token.ofWord s.keyword.text)))
      file 0 scope imports found h s.scope.parts) (inExpression_mark ';' (by simp))
  refine ⟨imports', ?_⟩
  unfold OpenSection.tokens
  rw [walk_cons, step_namespace h, walk_append]
  show Resting (walk none (walk none (scoping r "") _ s.scope.tokens) _ _) _ _ _ _ _
  rw [walk_scoping, walk_cons]
  exact hitems

theorem walk_openSections (sections : List OpenSection) (h : Resting r file 0 scope imports found) :
    ∃ scope' imports', Resting (walk none r p (sections.flatMap OpenSection.tokens)) file 0 scope'
      imports' (found ++ sections.flatMap fun s => Item.declarations file s.scope.parts [] s.items) := by
  induction sections generalizing r p scope imports found with
  | nil =>
    refine ⟨scope, imports, ?_⟩
    rw [List.flatMap_nil, List.flatMap_nil, List.append_nil]
    exact h
  | cons s sections ih =>
    obtain ⟨imports₁, hsection⟩ := @walk_openSection r p file scope imports found s h
    obtain ⟨scope', imports', hrest⟩ := @ih _ (s.tokens.getLast?.or p) _ _ _ hsection
    refine ⟨scope', imports', ?_⟩
    rw [List.flatMap_cons, walk_append, List.flatMap_cons, ← List.append_assoc]
    exact hrest

/-- A namespace in braces, and what is behind it in the global namespace. -/
theorem walk_bracedSection (s : BracedSection) (h : Resting r file 0 [] imports found) :
    ∃ imports', Resting (walk none r p s.tokens) file 0 [] imports'
      (found ++ (Item.declarations file (s.scope.toList.flatMap Qualified.parts) [] s.items
        ++ Item.declarations file [] [] s.after)) := by
  have hname (q : Option Token) :
      walk none (scoping r "") q (s.scope.toList.flatMap Qualified.tokens)
        = scoping r (joined (s.scope.toList.flatMap Qualified.parts)) := by
    cases s.scope with
    | none => rw [Option.toList_none, List.flatMap_nil, List.flatMap_nil, joined_nil]; rfl
    | some scope =>
      rw [Option.toList_some, List.flatMap_singleton, List.flatMap_singleton, walk_scoping]
  obtain ⟨imports₁, hitems, _⟩ := walk_items s.items
    (@resting_scoping_open r ((s.scope.toList.flatMap Qualified.tokens).getLast?.or
      (some (Token.ofWord s.keyword.text))) file 0 [] imports found h
      (s.scope.toList.flatMap Qualified.parts)) (inExpression_mark '{' (by simp))
  obtain ⟨imports', hafter, _⟩ := walk_items s.after
    (@resting_close _ ((Item.allTokens s.items).getLast?.or (some (Token.ofMark '{'))) _ _ _ _ _ hitems)
    (inExpression_mark '}' (by simp))
  refine ⟨imports', ?_⟩
  unfold BracedSection.tokens
  rw [walk_cons, step_namespace h, walk_append]
  show Resting (walk none (walk none (scoping r "") _ _) _ _) _ _ _ _ _
  rw [hname, walk_cons, walk_append, walk_cons, ← List.append_assoc]
  exact hafter

theorem walk_bracedSections (sections : List BracedSection) (h : Resting r file 0 [] imports found) :
    ∃ imports', Resting (walk none r p (sections.flatMap BracedSection.tokens)) file 0 [] imports'
      (found ++ sections.flatMap fun s =>
        Item.declarations file (s.scope.toList.flatMap Qualified.parts) [] s.items
          ++ Item.declarations file [] [] s.after) := by
  induction sections generalizing r p imports found with
  | nil =>
    refine ⟨imports, ?_⟩
    rw [List.flatMap_nil, List.flatMap_nil, List.append_nil]
    exact h
  | cons s sections ih =>
    obtain ⟨imports₁, hsection⟩ := @walk_bracedSection r p file imports found s h
    obtain ⟨imports', hrest⟩ := @ih _ (s.tokens.getLast?.or p) _ _ hsection
    refine ⟨imports', ?_⟩
    rw [List.flatMap_cons, walk_append, List.flatMap_cons, ← List.append_assoc]
    exact hrest

/-! ## Files -/

theorem resting_start (file : String) : Resting { file } file 0 [] [] [] :=
  ⟨rfl, rfl, rfl, rfl, joined_nil.symm, by simp, rfl, rfl⟩

/-- A walk over a whole script finds what it declares. -/
theorem walk_script (script : Script) (file : String) :
    (walk none { file } none script.tokens).types.toList.map TypeInfo.withoutMethods
      = script.declarations file := by
  cases script with
  | plain lead sections =>
    obtain ⟨imports₁, hlead, _⟩ := @walk_items _ none _ _ _ _ _ lead (resting_start file) rfl
    obtain ⟨_, _, hsections⟩ := @walk_openSections _ ((Item.allTokens lead).getLast?.or none) _ _ _ _
      sections hlead
    show (walk none { file } none (Item.allTokens lead ++ _)).types.toList.map _ = _
    rw [walk_append, hsections.found]
    rfl
  | braced lead sections =>
    obtain ⟨imports₁, hlead, _⟩ := @walk_items _ none _ _ _ _ _ lead (resting_start file) rfl
    obtain ⟨_, hsections⟩ := @walk_bracedSections _ ((Item.allTokens lead).getLast?.or none) _ _ _
      sections hlead
    show (walk none { file } none (Item.allTokens lead ++ _)).types.toList.map _ = _
    rw [walk_append, hsections.found]
    rfl

end Reader

namespace Outline

/-- **The outline of a well-formed file is exact.** If the tokens of a source text, trivia apart, are
those of a script, its outline lists the types that the script declares, in the order of the file:
each with its qualified name and its modifiers, and with its supertypes resolved. -/
theorem ofSource_script {script : Script} {source : String} {ts : List Token} (file : String)
    (htokens : tokens source = .ok ts)
    (hscript : (ts.filter (!·.isTrivia)).map Token.unplaced = script.tokens.map Token.unplaced) :
    ∃ o, ofSource file source = .ok o
      ∧ o.types.map TypeInfo.withoutMethods = script.declarations file := by
  have hwalk : Reader.walk none { file } none (ts.filter (!·.isTrivia))
      = Reader.walk none { file } none script.tokens := by
    rw [← Reader.walk_unplaced { file } none (ts.filter _), hscript, Reader.walk_unplaced]
  refine ⟨ofTokens file none ts, ?_, ?_⟩
  · unfold ofSource
    rw [htokens]
    rfl
  · unfold ofTokens
    rw [hwalk]
    exact Reader.walk_script script file

/-- A class in a namespace that extends an imported class and implements an interface of its own
namespace. -/
def userScript : Script :=
  .plain [] [{
    keyword := {}
    scope := { first := { text := "App" } }
    items := [
      .use (.list {} { first := (false, {
        target := { first := { text := "Lib" }, rest := [{ text := "Base" }] }
        rename := some ({}, { text := "Model" }) }) }),
      .type {
        modifiers := [⟨.final, { text := "FINAL" }⟩]
        kind := .cls
        keyword := {}
        name := { text := "User" }
        extended := some { keyword := {}, names := { first := .plain { first := { text := "model" } } } }
        implemented := some { keyword := {}, names := { first := .plain { first := { text := "Named" } } } }
        single := by simp
        balanced := ⟨by simp [marks], rfl⟩ }] }]

/-- A source text of this script. -/
def userSource : String :=
  "<?php namespace App; use Lib\\Base as Model; // models
  FINAL class User extends model implements Named {}"

/-- The namespace and the import of a file are applied. -/
theorem ofSource_script_of_user :
    ∃ o, ofSource "user.php" userSource = .ok o
      ∧ o.types.map TypeInfo.withoutMethods
        = [{ name := "App\\User", kind := .cls, isFinal := true, file := some "user.php"
             parent := some "Lib\\Base", interfaces := ["App\\Named"] }] := by
  have hdeclared : userScript.declarations "user.php"
      = [{ name := "App\\User", kind := .cls, isFinal := true, file := some "user.php"
           parent := some "Lib\\Base", interfaces := ["App\\Named"] }] := by decide
  have htokens : (tokens userSource).toOption.map
      (fun ts => (ts.filter (!·.isTrivia)).map Token.unplaced)
        = some (userScript.tokens.map Token.unplaced) := by decide +kernel
  rw [← hdeclared]
  cases hts : tokens userSource with
  | error e => rw [hts] at htokens; cases htokens
  | ok ts =>
    rw [hts] at htokens
    exact ofSource_script "user.php" hts (Option.some.inj htokens)

end Outline
end Source
end Conformance
