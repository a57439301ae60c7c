import Conformance.Proofs.Source.Declarations
import Conformance.Proofs.Source.Declared
import Conformance.Proofs.Source.Pieces

/-!
# `Proofs.Source.Detection`: where declarations are found

Between statements a keyword `class`, `interface` or `trait` with a name behind it declares a type,
unless the keyword is part of an expression: behind `::`, `->` and `?->` it is a member, and behind
`new` it begins an anonymous class. The reader looks at one token only, and takes any colon and any
closing angle for the end of an operator. `Outline.declarations_behind_keyword` says what comes of
that: nothing is found behind an operator, and a type is found everywhere else, but for keywords
behind a lone colon or a lone angle, which are passed over as if they stood behind an operator.
-/

namespace Conformance

/-- The last part of a qualified name is the name that was qualified. -/
theorem TypeName.shortPart_qualify (scope : String) {name : String}
    (h : TypeName.separator ∉ name.toList) :
    TypeName.shortPart (TypeName.bare (TypeName.qualify scope name)) = name := by
  have hne : ∀ c ∈ name.toList, (c == TypeName.separator) = false := by
    intro c hc
    rw [beq_eq_false_iff_ne]
    rintro rfl
    exact h hc
  have hbare : name.toList.dropWhile (· == TypeName.separator) = name.toList := by
    cases hname : name.toList with
    | nil => rfl
    | cons c cs => simp [hne c (by simp [hname])]
  have hshort (front : List Char) :
      ((front ++ name.toList).reverse.takeWhile (· != TypeName.separator)).reverse
        = (front.reverse.takeWhile (· != TypeName.separator)).reverse ++ name.toList := by
    rw [List.reverse_append, List.takeWhile_append_of_pos]
    · simp
    · intro c hc
      simp [bne, hne c (List.mem_reverse.1 hc)]
  -- in front of the name there is nothing or a text that ends in a separator
  obtain ⟨front, hfront, hlist⟩ : ∃ front : List Char,
      front.reverse.takeWhile (· != TypeName.separator) = []
      ∧ (TypeName.bare (TypeName.qualify scope name)).toList = front ++ name.toList := by
    unfold TypeName.bare TypeName.qualify
    rw [String.toList_ofList]
    split
    · exact ⟨[], rfl, hbare⟩
    · rw [String.toList_append, String.toList_append, List.append_assoc, List.dropWhile_append]
      split
      · exact ⟨[], rfl, by simp [hbare]⟩
      · exact ⟨scope.toList.dropWhile (· == TypeName.separator) ++ [TypeName.separator],
          by simp, by simp⟩
  unfold TypeName.shortPart
  rw [hlist, hshort, hfront, List.reverse_nil, List.nil_append, String.ofList_toList]

namespace Source

/-! ## Operators in front of a word -/

/-- Whether two tokens are the marks of `::` or of `->`. -/
def formOperator (a b : Token) : Bool :=
  a.isMark ':' && b.isMark ':' || a.isMark '-' && b.isMark '>'

/-- Whether tokens end in an operator behind which a word is no keyword: `::`, `->`, with a question
mark in front or without, or `new`. -/
def endsInOperator (ts : List Token) : Bool :=
  match ts.reverse with
  | [] => false
  | b :: before => b.isWord "new" || before.head?.any (formOperator · b)

/-- Whether tokens end in a colon or an angle that is no end of such an operator. -/
def endsInLoneMark (ts : List Token) : Bool :=
  !endsInOperator ts && ts.getLast?.any fun t => t.isMark ':' || t.isMark '>'

/-- **The reader takes lone colons and angles for operators.** -/
theorem inExpression_getLast? (ts : List Token) :
    Reader.inExpression ts.getLast? = (endsInOperator ts || endsInLoneMark ts) := by
  unfold endsInLoneMark endsInOperator Reader.inExpression
  rw [← List.head?_reverse]
  cases ts.reverse with
  | nil => rfl
  | cons b before =>
    -- an operator of two marks ends in one of the marks that the reader looks for
    have hmarks : before.head?.any (formOperator · b) = true →
        (b.isMark ':' || b.isMark '>') = true := by
      intro h
      obtain ⟨a, _, ha⟩ := (Option.any_eq_true _ _).1 h
      unfold formOperator at ha
      simp only [Bool.or_eq_true, Bool.and_eq_true] at ha ⊢
      exact ha.imp And.right And.right
    show (b.isMark ':' || b.isMark '>' || b.isWord "new")
      = (b.isWord "new" || before.head?.any (formOperator · b)
        || !(b.isWord "new" || before.head?.any (formOperator · b)) && (b.isMark ':' || b.isMark '>'))
    cases b.isWord "new" with
    | true => simp
    | false =>
      cases hoperator : before.head?.any (formOperator · b) with
      | true => simp [hmarks hoperator]
      | false => simp

namespace Reader

variable {r r' : Reader} {p : Option Token} {t : Token}

/-! ## Declarations only add up -/

/-- A change that keeps what a view shows of an element. -/
theorem map_modify_of_forall {α β : Type} {f : α → α} {g : α → β} (h : ∀ a, g (f a) = g a)
    (l : List α) (i : Nat) : (l.modify i f).map g = l.map g := by
  apply List.ext_getElem?
  intro j
  rw [List.getElem?_map, List.getElem?_map, List.getElem?_modify]
  cases l[j]? with
  | none => rfl
  | some a =>
    by_cases hij : i = j
    · simp [hij, h a]
    · simp [hij]

/-- The kind and the short name of each type so far. -/
def declared (r : Reader) : List (TypeKind × String) :=
  (Outline.ofReader none r).declarations

theorem declared_flushName (r : Reader) (i : Nat) (c : Clause) (n : String) :
    (r.flushName i c n).declared = r.declared := by
  unfold flushName
  split
  · rfl
  · show (r.types.modify i _).toList.map _ = r.types.toList.map _
    rw [Array.toList_modify]
    apply map_modify_of_forall
    intro info
    unfold addSupertype TypeInfo.addInterface TypeInfo.shortName
    split
    · rfl
    · split <;> rfl
    · rfl
    · split <;> rfl

theorem declared_openType (r : Reader) (kind : TypeKind) (modifiers : TypeModifiers) {name : String}
    (h : TypeName.separator ∉ name.toList) :
    (r.openType kind modifiers name).declared = r.declared ++ [(kind, name)] := by
  have hshort : (r.opening kind modifiers name).shortName = name := TypeName.shortPart_qualify r.scope h
  show (r.openType kind modifiers name).types.toList.map _ = r.types.toList.map _ ++ _
  rw [types_openType, Array.toList_push, List.map_append, List.map_singleton, hshort]
  rfl

/-- A move forgets no declaration. -/
theorem declared_move (hm : Move t r r') : r.declared <+: r'.declared := by
  have hflush (i : Nat) (c : Clause) (n : String) : r.declared <+: (r.flushName i c n).declared := by
    rw [declared_flushName]
  cases hm with
  | declare kind modifiers hr ht =>
    show r.types.toList.map _ <+: (r.openType kind modifiers t.text).types.toList.map _
    rw [types_openType, Array.toList_push, List.map_append]
    exact List.prefix_append _ _
  | header i c c' n n' hr types hs =>
    rcases hs with rfl | rfl
    · exact List.prefix_refl _
    · exact hflush i c n
  | headerEnd i c n hr => exact hflush i c n
  | enterBody i c n hr => exact hflush i c n
  | method i hf member =>
    show r.types.toList.map _ <+: (r.types.modify i _).toList.map _
    rw [Array.toList_modify, map_modify_of_forall]
    · intro info
      rfl
  | _ => exact List.prefix_refl _

theorem declared_walk (r : Reader) (p : Option Token) (ts : List Token) :
    r.declared <+: (walk none r p ts).declared := by
  induction ts generalizing r p with
  | nil => exact List.prefix_refl _
  | cons t ts ih => exact (declared_move (step_move r p t)).trans (ih (r.step p t) (some t))

/-! ## Keywords between statements -/

/-- A keyword of a declaration between statements, in any spelling. -/
theorem step_type_keyword {kind : TypeKind} (hidle : r.phase = .idle)
    (hscope : r.atDeclarationScope = true) (ht : t.kind = .word)
    (hkind : TypeKind.ofKeyword? t.text = some kind) :
    r.step p t
      = if inExpression p then { r with pending := {} }
        else { r with pending := {}, phase := .typeName kind r.pending } := by
  have hspells : Text.sameFolded t.text kind.keyword = true := by
    unfold TypeKind.ofKeyword? at hkind
    have hfound := List.find?_some hkind
    rw [Text.sameFolded_iff] at hfound ⊢
    exact hfound.symm
  have hword : t.unplaced = Token.ofWord t.text := by
    unfold Token.unplaced Token.ofWord
    rw [ht]
  have hprevious : inExpression (p.map Token.unplaced) = inExpression p := by
    cases p <;> rfl
  rw [← step_unplaced, hword,
    step_keyword hidle (atDeclarationScope_iff.1 hscope) { text := t.text, spells := hspells }, hprevious]

/-- Between statements no token is the name of a type or of a method. -/
theorem declared_of_idle (hidle : r.phase = .idle) (hscope : r.atDeclarationScope = true)
    (hm : Move t r r') : r'.declared = r.declared := by
  cases hm with
  | declare kind modifiers hr ht => rw [hidle] at hr; cases hr
  | header i c c' n n' hr types hs => rw [hidle] at hr; cases hr
  | headerEnd i c n hr => rw [hidle] at hr; cases hr
  | enterBody i c n hr => rw [hidle] at hr; cases hr
  | method i hf member =>
    have hbody := atDeclarationScope_iff.1 hscope _ (List.mem_of_head? hf)
    cases hbody
  | _ => rfl

/-- **A keyword and a name between statements** declare a type unless the keyword seems to be part of
an expression. -/
theorem declared_keyword {kind : TypeKind} {n : Token} (hidle : r.phase = .idle)
    (hscope : r.atDeclarationScope = true) (ht : t.kind = .word)
    (hkind : TypeKind.ofKeyword? t.text = some kind) (hn : n.kind = .word)
    (hname : TypeName.separator ∉ n.text.toList) :
    (walk none r p [t, n]).declared
      = if inExpression p then r.declared else r.declared ++ [(kind, n.text)] := by
  rw [walk_cons, walk_cons, step_type_keyword hidle hscope ht hkind]
  show (step _ _ n).declared = _
  split
  · exact @declared_of_idle { r with pending := {} } _ n hidle hscope (step_move _ (some t) n)
  · show (if n.kind == .word then _ else _ : Reader).declared = _
    rw [hn]
    exact declared_openType _ kind r.pending hname

end Reader

namespace Outline

open Reader

/-- **Where declarations are found.** Between statements let a keyword `class`, `interface` or `trait`
in any spelling be followed by a name, with trivia between them. The name is declared if and only if the
keyword does not stand behind `::`, `->`, `?->` or `new`, nor behind a lone colon or angle; otherwise
nothing is. What is found is never lost, whatever follows. -/
theorem declarations_behind_keyword (file : String) {u w : List Token} {k n : Token} {kind : TypeKind}
    (hidle : (behind file u).phase = .idle) (hscope : (behind file u).atDeclarationScope = true)
    (hk : k.kind = .word) (hkind : TypeKind.ofKeyword? k.text = some kind)
    (hw : ∀ t ∈ w, t.isTrivia = true) (hn : n.kind = .word)
    (hname : TypeName.separator ∉ n.text.toList) :
    ((ofTokens file none (u ++ k :: (w ++ [n]))).declarations
        = (ofTokens file none u).declarations ++ [(kind, n.text)]
      ↔ endsInOperator (u.filter (!·.isTrivia)) = false
        ∧ endsInLoneMark (u.filter (!·.isTrivia)) = false)
    ∧ ((ofTokens file none (u ++ k :: (w ++ [n]))).declarations = (ofTokens file none u).declarations
      ↔ endsInOperator (u.filter (!·.isTrivia)) = true
        ∨ endsInLoneMark (u.filter (!·.isTrivia)) = true)
    ∧ ∀ v, (ofTokens file none (u ++ k :: (w ++ [n]))).declarations
      <+: (ofTokens file none (u ++ k :: (w ++ n :: v))).declarations := by
  have hseen {t : Token} (ht : t.kind = .word) : t.isTrivia = false := by
    unfold Token.isTrivia
    rw [ht]
  have hpair : (k :: (w ++ [n])).filter (!·.isTrivia) = [k, n] := by
    have hnone : w.filter (!·.isTrivia) = [] := by
      simpa [List.filter_eq_nil_iff] using hw
    simp [hseen hk, hseen hn, hnone]
  have hread : (ofTokens file none (u ++ k :: (w ++ [n]))).declarations
      = if endsInOperator (u.filter (!·.isTrivia)) || endsInLoneMark (u.filter (!·.isTrivia))
        then (ofTokens file none u).declarations
        else (ofTokens file none u).declarations ++ [(kind, n.text)] := by
    show (behind file (u ++ k :: (w ++ [n]))).declared = _
    rw [behind_append, hpair, declared_keyword hidle hscope hk hkind hn hname]
    unfold lastSeen
    rw [inExpression_getLast?]
    rfl
  refine ⟨?_, ?_, fun v => ?_⟩
  · rw [hread]
    cases endsInOperator (u.filter (!·.isTrivia)) <;>
      cases endsInLoneMark (u.filter (!·.isTrivia)) <;> simp
  · rw [hread]
    cases endsInOperator (u.filter (!·.isTrivia)) <;>
      cases endsInLoneMark (u.filter (!·.isTrivia)) <;> simp
  · have hcut : u ++ k :: (w ++ n :: v) = (u ++ k :: (w ++ [n])) ++ v := by simp
    rw [hcut]
    show (behind file _).declared <+: (behind file ((u ++ k :: (w ++ [n])) ++ v)).declared
    rw [behind_append file (u ++ k :: (w ++ [n])) v]
    exact declared_walk _ _ _

/-- What stands in front of the second keyword in `echo User::class; FINAL Class User {}`. -/
def beforeUser : List Token :=
  [⟨.openTag, "<?php", 1⟩, ⟨.blank, " ", 1⟩, ⟨.word, "echo", 1⟩, ⟨.blank, " ", 1⟩, ⟨.word, "User", 1⟩,
    ⟨.mark, ":", 1⟩, ⟨.mark, ":", 1⟩, ⟨.word, "class", 1⟩, ⟨.mark, ";", 1⟩, ⟨.blank, " ", 1⟩,
    ⟨.word, "FINAL", 1⟩, ⟨.blank, " ", 1⟩]

/-- The first keyword of the text is a member, the second one declares a class. -/
theorem declarations_behind_keyword_of_user :
    ∃ w v, tokens "<?php echo User::class; FINAL Class /* here */ User {}"
        = .ok (beforeUser ++ ⟨.word, "Class", 1⟩ :: (w ++ ⟨.word, "User", 1⟩ :: v))
      ∧ (∀ t ∈ w, t.isTrivia = true)
      ∧ (ofTokens "a.php" none (beforeUser ++ ⟨.word, "Class", 1⟩ :: (w ++ [⟨.word, "User", 1⟩]))).declarations
        = [(.cls, "User")] := by
  have htokens : tokens "<?php echo User::class; FINAL Class /* here */ User {}"
      = .ok (beforeUser ++ ⟨.word, "Class", 1⟩ :: ([⟨.blank, " ", 1⟩, ⟨.comment, "/* here */", 1⟩,
        ⟨.blank, " ", 1⟩] ++ ⟨.word, "User", 1⟩
          :: [⟨.blank, " ", 1⟩, ⟨.mark, "\x7b", 1⟩, ⟨.mark, "\x7d", 1⟩])) := by
    decide +kernel
  have hname := @separator_not_mem_of_tokens _ _ ⟨.word, "User", 1⟩ htokens (by simp) rfl
  obtain ⟨hfound, _, _⟩ := @declarations_behind_keyword "a.php" beforeUser
    [⟨.blank, " ", 1⟩, ⟨.comment, "/* here */", 1⟩, ⟨.blank, " ", 1⟩] ⟨.word, "Class", 1⟩ ⟨.word, "User", 1⟩
    .cls (by decide +kernel) (by decide +kernel) rfl (by decide) (by decide) rfl hname
  refine ⟨_, _, htokens, by decide, ?_⟩
  rw [hfound.2 (by decide +kernel)]
  decide +kernel

/-- Behind the colon of an alternative `if` a class is declared, but it is not found. -/
theorem declarations_behind_colon :
    ∃ u w v, tokens "<?php if ($x): class A {} endif;"
        = .ok (u ++ ⟨.word, "class", 1⟩ :: (w ++ ⟨.word, "A", 1⟩ :: v))
      ∧ (behind "a.php" u).phase = .idle ∧ (behind "a.php" u).atDeclarationScope = true
      ∧ (∀ t ∈ w, t.isTrivia = true)
      ∧ endsInOperator (u.filter (!·.isTrivia)) = false
      ∧ (ofTokens "a.php" none (u ++ ⟨.word, "class", 1⟩ :: (w ++ ⟨.word, "A", 1⟩ :: v))).declarations = [] := by
  refine ⟨[⟨.openTag, "<?php", 1⟩, ⟨.blank, " ", 1⟩, ⟨.word, "if", 1⟩, ⟨.blank, " ", 1⟩, ⟨.mark, "(", 1⟩,
    ⟨.variable, "$x", 1⟩, ⟨.mark, ")", 1⟩, ⟨.mark, ":", 1⟩, ⟨.blank, " ", 1⟩], [⟨.blank, " ", 1⟩],
    [⟨.blank, " ", 1⟩, ⟨.mark, "\x7b", 1⟩, ⟨.mark, "\x7d", 1⟩, ⟨.blank, " ", 1⟩, ⟨.word, "endif", 1⟩,
      ⟨.mark, ";", 1⟩], ?_⟩
  decide +kernel

end Outline
end Source
end Conformance
