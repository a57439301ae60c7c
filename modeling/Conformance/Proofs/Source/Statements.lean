import Conformance.Proofs.Source.Detection
import Mathlib.Data.List.Induction

/-!
# `Proofs.Source.Statements`: statements that declare nothing

Most statements of a file are expressions, and a reader between declarations has to get past them
without an effect. What keeps keywords in them apart from declarations is the token in front. For
`class`, `interface` and `trait` the reader looks at it. For `namespace` and `use` it does not, so
`$node->namespace = 1;` forgets the namespace of the file and `f($node->use, T);` imports `T`.

`Reader.walk_expression` says how far an expression without braces is inert. It adds no type, opens and
closes no brace and leaves the reader between statements, whatever words are in it, as long as those
that declare types stand behind operators. It keeps the namespace and the imports, too, if in it the
word `namespace` only begins relative names and the word `use` only names a method that is called.
-/

namespace Conformance
namespace Source

/-! ## Expressions -/

/-- Whether the token is the keyword of a type declaration. -/
def Token.declares (t : Token) : Bool :=
  t.kind == .word && (TypeKind.ofKeyword? t.text).isSome

/-- **The tokens of an expression**: no braces, and keywords of type declarations only behind
operators. -/
structure IsExpression (ts : List Token) : Prop where
  flat : ∀ t ∈ ts, t.isMark '{' = false ∧ t.isMark '}' = false
  guarded : ∀ a t b, ts = a ++ t :: b → t.declares = true → endsInOperator a = true

/-- The words `namespace` and `use` have other meanings than at the beginning of a statement: the first
begins a relative name, the second names a method that is called. -/
structure IsInert (ts : List Token) : Prop where
  relative : ∀ a t b, ts = a ++ t :: b → t.isWord "namespace" = true →
    b.head?.any (·.kind == .separator) = true
  called : ∀ a t b, ts = a ++ t :: b → t.isWord "use" = true → b.head?.any (·.isMark '(') = true

/-- A statement about all places of a list can be tested place by place. -/
theorem forall_split_iff {α : Type} {P : List α → α → List α → Prop} {ts : List α} :
    (∀ a t b, ts = a ++ t :: b → P a t b)
      ↔ ∀ i, (h : i < ts.length) → P (ts.take i) ts[i] (ts.drop (i + 1)) := by
  constructor
  · intro hall i hi
    apply hall
    rw [← List.drop_eq_getElem_cons hi, List.take_append_drop]
  · rintro hall a t b rfl
    have hplace := hall a.length (by simp)
    simpa using hplace

instance (ts : List Token) : Decidable (IsExpression ts) :=
  decidable_of_iff ((∀ t ∈ ts, t.isMark '{' = false ∧ t.isMark '}' = false)
      ∧ ∀ i, (h : i < ts.length) → ts[i].declares = true → endsInOperator (ts.take i) = true)
    ⟨fun h => ⟨h.1, forall_split_iff.2 h.2⟩, fun h => ⟨h.flat, forall_split_iff.1 h.guarded⟩⟩

instance (ts : List Token) : Decidable (IsInert ts) :=
  decidable_of_iff ((∀ i, (h : i < ts.length) → ts[i].isWord "namespace" = true →
        (ts.drop (i + 1)).head?.any (·.kind == .separator) = true)
      ∧ ∀ i, (h : i < ts.length) → ts[i].isWord "use" = true →
        (ts.drop (i + 1)).head?.any (·.isMark '(') = true)
    ⟨fun h => ⟨forall_split_iff.2 h.1, forall_split_iff.2 h.2⟩,
      fun h => ⟨forall_split_iff.1 h.relative, forall_split_iff.1 h.called⟩⟩

/-- The phases in which no type is declared. -/
def Phase.declaresNoType : Phase → Bool
  | typeName .. => false
  | header .. => false
  | _ => true

namespace Reader

variable {r r' : Reader} {p : Option Token} {t : Token} {ts : List Token}

/-! ## One token between statements -/

/-- What a token between statements begins. -/
def phaseBehind (t : Token) : Phase :=
  if t.isWord "namespace" then .scopeName ""
  else if t.isWord "use" then .importing {}
  else .idle

theorem phaseBehind_cases (t : Token) :
    t.isWord "namespace" = true ∧ phaseBehind t = .scopeName ""
    ∨ t.isWord "use" = true ∧ phaseBehind t = .importing {}
    ∨ phaseBehind t = .idle := by
  unfold phaseBehind
  split
  · next h => exact Or.inl ⟨h, rfl⟩
  · split
    · next h => exact Or.inr (Or.inl ⟨h, rfl⟩)
    · exact Or.inr (Or.inr rfl)

theorem phaseBehind_of_kind (h : t.kind ≠ .word) : phaseBehind t = .idle := by
  unfold phaseBehind
  rw [t.isWord_of_kind h, t.isWord_of_kind h]
  rfl

/-- **A token of an expression** begins at most a namespace or an import. -/
theorem step_between (hidle : r.phase = .idle) (hscope : r.atDeclarationScope = true)
    (ho : t.isMark '{' = false) (hc : t.isMark '}' = false)
    (hguard : t.declares = true → inExpression p = true) :
    ∃ pending, r.step p t = { r with phase := phaseBehind t, pending }
      ∧ (phaseBehind t = .idle ∨ pending = {}) := by
  have hkeep (pending : TypeModifiers) :
      ({ r with pending } : Reader) = { r with phase := .idle, pending } := by rw [← hidle]
  rw [step_idle hidle, idleStep_scope (atDeclarationScope_iff.1 hscope) ho hc]
  unfold phaseBehind
  split
  · next hword =>
    unfold wordStep
    split
    · next h =>
      rw [t.isWord_of_isWord h, t.isWord_of_isWord h]
      exact ⟨_, hkeep _, Or.inl rfl⟩
    · split
      · next h =>
        rw [t.isWord_of_isWord h, t.isWord_of_isWord h]
        exact ⟨_, hkeep _, Or.inl rfl⟩
      · split
        · next h =>
          rw [t.isWord_of_isWord h, t.isWord_of_isWord h]
          exact ⟨_, hkeep _, Or.inl rfl⟩
        · unfold keywordStep
          dsimp only
          split
          · exact ⟨{}, rfl, Or.inr rfl⟩
          · split
            · exact ⟨{}, rfl, Or.inr rfl⟩
            · split
              · next kind hkind =>
                -- a keyword of a declaration stands behind an operator
                have hdeclares : t.declares = true := by
                  unfold Token.declares
                  rw [hword, hkind]
                  rfl
                rw [hguard hdeclares, if_pos rfl]
                exact ⟨{}, hkeep _, Or.inl rfl⟩
              · exact ⟨{}, hkeep _, Or.inl rfl⟩
  · next hword =>
    rw [t.isWord_of_kind hword, t.isWord_of_kind hword]
    exact ⟨{}, hkeep _, Or.inl rfl⟩

/-- The separator of a relative name declares no namespace. -/
theorem step_relative (hphase : r.phase = .scopeName "") (ht : t.kind = .separator) :
    r.step p t = { r with phase := .idle } := by
  unfold step
  rw [hphase]
  show r.scopeStep "" t = _
  unfold scopeStep Token.isNamePart
  rw [ht]
  rfl

/-- The parenthesis of a call imports nothing. -/
theorem step_called (hphase : r.phase = .importing {}) (ht : t.isMark '(' = true) :
    r.step p t = { r with phase := .idle } := by
  unfold step
  rw [hphase]
  show r.importStep {} t = _
  unfold importStep
  rw [ht]
  rfl

/-- A token of an inert expression gives up what the token `u` in front of it began. -/
theorem step_behind {u : Token} (hphase : r.phase = phaseBehind u) (hscope : r.atDeclarationScope = true)
    (ho : t.isMark '{' = false) (hc : t.isMark '}' = false)
    (hguard : t.declares = true → inExpression p = true)
    (hrelative : u.isWord "namespace" = true → t.kind = .separator)
    (hcalled : u.isWord "use" = true → t.isMark '(' = true) :
    ∃ pending, r.step p t = { r with phase := phaseBehind t, pending } := by
  rcases phaseBehind_cases u with ⟨hnamespace, hu⟩ | ⟨huse, hu⟩ | hu
  · have ht := hrelative hnamespace
    have hword : t.kind ≠ .word := by simp [ht]
    rw [phaseBehind_of_kind hword, step_relative (hphase.trans hu) ht]
    exact ⟨r.pending, rfl⟩
  · have ht := hcalled huse
    have hword : t.kind ≠ .word := by
      intro hword
      simp [Token.isMark_of_word hword] at ht
    rw [phaseBehind_of_kind hword, step_called (hphase.trans hu) ht]
    exact ⟨r.pending, rfl⟩
  · obtain ⟨pending, hstep, _⟩ := step_between (hphase.trans hu) hscope ho hc hguard
    exact ⟨pending, hstep⟩

/-! ## Inside of an expression -/

/-- The reader is somewhere in an expression that began at `r`: what it may have changed is the
namespace and the imports. -/
inductive Amid (r : Reader) : Reader → Prop where
  | mk (phase : Phase) (scope : String) (imports : List (String × String)) (pending : TypeModifiers)
      (hphase : phase.declaresNoType = true) (hpending : phase = .idle ∨ pending = {}) :
      Amid r { r with phase, scope, imports, pending }

/-- A token of an expression leads to no type and to no brace. -/
theorem Amid.step (h : Amid r r') (hscope : r.atDeclarationScope = true) (ho : t.isMark '{' = false)
    (hc : t.isMark '}' = false) (hguard : t.declares = true → inExpression p = true) :
    Amid r (r'.step p t) := by
  cases h with
  | mk phase scope imports pending hphase hpending =>
    cases phase with
    | idle =>
      obtain ⟨pending', hstep, hpending'⟩ :=
        @step_between { r with phase := .idle, scope, imports, pending } p t rfl hscope ho hc hguard
      rw [hstep]
      refine .mk (phaseBehind t) scope imports pending' ?_ hpending'
      unfold phaseBehind
      split
      · rfl
      · split <;> rfl
    | scopeName text =>
      have hnone : pending = {} := hpending.resolve_left (by simp)
      show Amid r (scopeStep _ text t)
      unfold scopeStep
      rw [ho, if_neg Bool.false_ne_true]
      split
      · split
        · exact .mk .idle scope imports pending rfl (Or.inl rfl)
        · exact .mk (.scopeName (text ++ t.text)) scope imports pending rfl (Or.inr hnone)
      · exact .mk .idle (Text.trim text) [] pending rfl (Or.inl rfl)
    | importing i =>
      have hnone : pending = {} := hpending.resolve_left (by simp)
      have going (j : Import) (imports' : List (String × String)) :
          Amid r { r with phase := .importing j, scope, imports := imports', pending } :=
        .mk (.importing j) scope imports' pending rfl (Or.inr hnone)
      have ended (imports' : List (String × String)) :
          Amid r { r with phase := .idle, scope, imports := imports', pending } :=
        .mk .idle scope imports' pending rfl (Or.inl rfl)
      have named (j : Import) :
          Amid r (importNameStep { r with phase := .importing i, scope, imports, pending } j t) := by
        unfold importNameStep
        rw [ho, hc, if_neg Bool.false_ne_true, Bool.or_false]
        dsimp only
        rw [commit_eq]
        split
        · exact going _ imports
        · split
          · split
            · exact going _ imports
            · exact going _ imports
          · split
            · exact going _ _
            · exact ended _
      show Amid r (importStep _ i t)
      unfold importStep
      split
      · split
        · exact ended imports
        · exact going i imports
      · split
        · exact named i
        · split
          · exact ended imports
          · split
            · exact going _ imports
            · exact named _
    | typeName kind modifiers => cases hphase
    | header i c n => cases hphase

/-- A semicolon ends whatever was begun. -/
theorem Amid.step_semicolon (h : Amid r r') (hidle : r.phase = .idle) (hscope : r.atDeclarationScope = true)
    (ht : t.isMark ';' = true) :
    ∃ scope imports, r'.step p t = { r with scope, imports, pending := {} } := by
  rw [← step_unplaced, Token.unplaced_of_isMark ht]
  cases h with
  | mk phase scope imports pending hphase hpending =>
    cases phase with
    | idle =>
      refine ⟨scope, imports, ?_⟩
      have hstep := @idleStep_scope { r with phase := .idle, scope, imports, pending }
        (p.map Token.unplaced) (Token.ofMark ';') (atDeclarationScope_iff.1 hscope) (by simp) (by simp)
      rw [step_idle rfl, hstep, ← hidle]
      rfl
    | scopeName text =>
      refine ⟨Text.trim text, [], ?_⟩
      obtain rfl : pending = {} := hpending.resolve_left (by simp)
      show scopeStep _ text (Token.ofMark ';') = _
      unfold scopeStep
      rw [Token.isNamePart_ofMark, ← hidle]
      simp
    | importing i =>
      obtain rfl : pending = {} := hpending.resolve_left (by simp)
      have named (j : Import) : ∃ imports', importNameStep
          { r with phase := .importing i, scope, imports, pending := {} } j (Token.ofMark ';')
            = { r with scope, imports := imports', pending := {} } := by
        have hend (b : Reader) :
            importNameStep b j (Token.ofMark ';') = { (b.commit j).1 with phase := .idle } := by
          unfold importNameStep
          simp
        rw [hend, commit_eq, ← hidle]
        exact ⟨_, rfl⟩
      show ∃ scope' imports', importStep _ i (Token.ofMark ';') = _
      unfold importStep
      split
      · exact ⟨scope, imports, by rw [← hidle]; rfl⟩
      · split
        · exact ⟨scope, named i⟩
        · simp only [Token.isMark_ofMark, Token.isWord_ofMark]
          exact ⟨scope, named _⟩
    | typeName kind modifiers => cases hphase
    | header i c n => cases hphase

/-! ## Whole expressions -/

theorem inExpression_of_operator (h : endsInOperator ts = true) :
    inExpression (ts.getLast?.or p) = true := by
  have hlast := inExpression_getLast? ts
  rw [h, Bool.true_or] at hlast
  cases hts : ts.getLast? with
  | none => rw [hts] at hlast; cases hlast
  | some t =>
    rw [hts] at hlast
    exact hlast

/-- A keyword of a declaration that is in an expression is read as part of it. -/
theorem inExpression_of_declares (h : IsExpression ts) {a b : List Token} (hts : ts = a ++ t :: b)
    (ht : t.declares = true) : inExpression (a.getLast?.or p) = true := by
  apply inExpression_of_operator
  exact h.guarded a t b hts ht

theorem walk_concat (r : Reader) (p : Option Token) (ts : List Token) (t : Token) :
    walk none r p (ts ++ [t]) = (walk none r p ts).step (ts.getLast?.or p) t := by
  rw [walk_append]
  rfl

section
variable (h : IsExpression ts) (hidle : r.phase = .idle) (hscope : r.atDeclarationScope = true)
include h hidle hscope

/-- Anywhere in an expression no type and no brace has come in. -/
theorem amid_walk (a b : List Token) (hts : ts = a ++ b) : Amid r (walk none r p a) := by
  -- from the front to the back: whether a token is a keyword depends on what is in front of it
  induction a using List.reverseRecOn generalizing b with
  | nil =>
    have hstart := Amid.mk (r := r) .idle r.scope r.imports r.pending rfl (Or.inl rfl)
    rwa [← hidle] at hstart
  | append_singleton a t ih =>
    rw [List.append_assoc, List.singleton_append] at hts
    obtain ⟨ho, hc⟩ := h.flat t (by simp [hts])
    rw [walk_concat]
    apply (ih (t :: b) hts).step hscope ho hc
    intro ht
    exact inExpression_of_declares h hts ht

/-- The phase behind tokens that are inert depends on the last one only. -/
theorem inert_walk (hinert : IsInert ts) (a b : List Token) (hts : ts = a ++ b) :
    ∃ pending, walk none r p a = { r with phase := a.getLast?.elim .idle phaseBehind, pending } := by
  induction a using List.reverseRecOn generalizing b with
  | nil =>
    refine ⟨r.pending, ?_⟩
    show r = { r with phase := .idle }
    rw [← hidle]
  | append_singleton a t ih =>
    rw [List.append_assoc, List.singleton_append] at hts
    obtain ⟨ho, hc⟩ := h.flat t (by simp [hts])
    obtain ⟨pending, hwalk⟩ := ih (t :: b) hts
    have hguard : t.declares = true → inExpression (a.getLast?.or p) = true := by
      intro ht
      exact inExpression_of_declares h hts ht
    rw [walk_concat, hwalk, List.getLast?_concat, Option.elim_some]
    cases hlast : a.getLast? with
    | none =>
      rw [hlast] at hguard
      obtain ⟨pending', hstep, _⟩ :=
        @step_between { r with phase := .idle, pending } _ t rfl hscope ho hc hguard
      exact ⟨pending', hstep⟩
    | some u =>
      obtain ⟨a', rfl⟩ := List.getLast?_eq_some_iff.1 hlast
      rw [List.append_assoc, List.singleton_append] at hts
      rw [hlast] at hguard
      -- what the token in front began is given up by this one
      apply @step_behind { r with phase := phaseBehind u, pending } _ t u rfl hscope ho hc hguard
      · intro hu
        simpa using hinert.relative a' u (t :: b) hts hu
      · intro hu
        simpa using hinert.called a' u (t :: b) hts hu

/-- **Expression statements.** Between declarations let an expression be followed by a semicolon.
Behind it the reader is between declarations again, and but for its namespace and its imports it is the
reader from before, with nothing pending. If the words `namespace` and `use` are inert in the
expression, it has the namespace and the imports from before, too. -/
theorem walk_expression {semicolon : Token} (hsemicolon : semicolon.isMark ';' = true) :
    (∃ scope imports, walk none r p (ts ++ [semicolon]) = { r with scope, imports, pending := {} })
    ∧ (IsInert ts → walk none r p (ts ++ [semicolon]) = { r with pending := {} }) := by
  constructor
  · rw [walk_concat]
    exact (amid_walk h hidle hscope ts [] (by simp)).step_semicolon hidle hscope hsemicolon
  · intro hinert
    obtain ⟨pending, hwalk⟩ := @inert_walk r p ts h hidle hscope hinert ts [] (by simp)
    have hphase : ts.getLast?.elim .idle phaseBehind = .idle := by
      cases hlast : ts.getLast? with
      | none => rfl
      | some u =>
        -- the last word has nothing behind it
        obtain ⟨a, rfl⟩ := List.getLast?_eq_some_iff.1 hlast
        rw [Option.elim_some]
        rcases phaseBehind_cases u with ⟨hnamespace, _⟩ | ⟨huse, _⟩ | hnone
        · simpa using hinert.relative a u [] rfl hnamespace
        · simpa using hinert.called a u [] rfl huse
        · exact hnone
    have hmark := Token.unplaced_of_isMark hsemicolon
    have hstep := @idleStep_scope { r with phase := .idle, pending }
      ((ts.getLast?.or p).map Token.unplaced) (Token.ofMark ';') (atDeclarationScope_iff.1 hscope) (by simp)
      (by simp)
    rw [walk_concat, hwalk, hphase, ← step_unplaced, hmark, step_idle rfl, hstep, ← hidle]
    rfl

end

/-- The reader in a file of the namespace `App`. -/
def inApp : Reader := behind "a.php" [.ofWord "namespace", .ofWord "App", .ofMark ';']

/-- The call `$app->use(User::class)`. -/
def methodCall : List Token :=
  [⟨.variable, "$app", 1⟩, .ofMark '-', .ofMark '>', .ofWord "use", .ofMark '(', .ofWord "User", .ofMark ':',
    .ofMark ':', .ofWord "class", .ofMark ')']

/-- A method and a constant whose names are keywords are no harm. -/
theorem walk_expression_of_methodCall :
    IsExpression methodCall ∧ IsInert methodCall ∧ inApp.scope = "App"
      ∧ walk none inApp none (methodCall ++ [.ofMark ';']) = { inApp with pending := {} } := by
  have hexpression : IsExpression methodCall := by decide +kernel
  have hinert : IsInert methodCall := by decide +kernel
  have hwalk := @walk_expression inApp none methodCall hexpression (by decide +kernel) (by decide +kernel)
    (.ofMark ';') (by decide)
  exact ⟨hexpression, hinert, by decide +kernel, hwalk.2 hinert⟩

/-- The assignment `$node->namespace = 1`. -/
def memberAssignment : List Token :=
  [⟨.variable, "$node", 1⟩, .ofMark '-', .ofMark '>', .ofWord "namespace", .ofMark '=', ⟨.number, "1", 1⟩]

/-- The call `f($node->use, T)`. -/
def memberArgument : List Token :=
  [.ofWord "f", .ofMark '(', ⟨.variable, "$node", 1⟩, .ofMark '-', .ofMark '>', .ofWord "use", .ofMark ',',
    .ofWord "T", .ofMark ')']

/-- Members that are called `namespace` and `use` stand behind operators, and the namespace of the file is
lost all the same, or a name is imported. -/
theorem member_keywords_not_inert :
    inApp.phase = .idle ∧ inApp.atDeclarationScope = true ∧ inApp.scope = "App" ∧ inApp.imports = []
      ∧ IsExpression memberAssignment ∧ IsExpression memberArgument
      ∧ (∀ a t b, memberAssignment = a ++ t :: b → t.isWord "namespace" = true ∨ t.isWord "use" = true →
          endsInOperator a = true)
      ∧ (∀ a t b, memberArgument = a ++ t :: b → t.isWord "namespace" = true ∨ t.isWord "use" = true →
          endsInOperator a = true)
      ∧ (walk none inApp none (memberAssignment ++ [.ofMark ';'])).scope = ""
      ∧ (walk none inApp none (memberArgument ++ [.ofMark ';'])).imports = [("t", "T")] := by
  refine ⟨by decide +kernel, by decide +kernel, by decide +kernel, by decide +kernel, by decide +kernel,
    by decide +kernel, ?_, ?_, by decide +kernel, by decide +kernel⟩
  · rw [forall_split_iff]
    decide +kernel
  · rw [forall_split_iff]
    decide +kernel

end Reader
end Source
end Conformance
