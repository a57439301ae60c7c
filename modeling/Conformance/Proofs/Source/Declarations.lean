import Conformance.Proofs.Source.Blocks
import Conformance.Proofs.Source.Coherence
import Conformance.Proofs.Source.Headers

/-!
# `Proofs.Source.Declarations`: reading the declaration of a type

Between statements the reader is `Resting`: it is idle, only namespaces are open, and its namespace,
imports and types are those of the statements behind it. A declaration is read in three parts, its
modifiers and its keyword, its header, and its body, in which the reader has the finished type and a
stack of blocks (`inside`). `walk_declaration` puts them together: the reader rests again behind the
declaration, with one more type, which is `Declaration.info` but for its methods.
-/

namespace Conformance
namespace Source

/-- The modifiers that the reader takes along. -/
def Declaration.flags (d : Declaration) : TypeModifiers where
  isAbstract := d.modifiers.any (·.1 == .abstract)
  isFinal := d.modifiers.any (·.1 == .final)

namespace Reader

variable {b r : Reader} {p : Option Token} {t : Token} {info : TypeInfo}

/-! ## The beginning of a declaration -/

/-- At declaration scope all that is not a word is passed over, braces apart. -/
theorem idleStep_scope (hf : ∀ f ∈ r.frames, f = .scope) (hopen : t.isMark '{' = false)
    (hclose : t.isMark '}' = false) :
    r.idleStep p t = if t.kind = .word then r.wordStep p t else { r with pending := {} } := by
  have hbody (i : Nat) : r.frames.head? ≠ some (.body i) := by
    intro hhead
    have := hf _ (List.mem_of_head? hhead)
    cases this
  unfold idleStep
  rw [hopen, hclose, atDeclarationScope_iff.2 hf, if_neg Bool.false_ne_true]
  split
  · next i hi => exact absurd hi (hbody i)
  · by_cases hword : t.kind = .word
    · simp [hword]
    · simp [hword]

/-- At declaration scope a word is read as such. -/
theorem step_word {s : String} (hp : r.phase = .idle) (hf : ∀ f ∈ r.frames, f = .scope) :
    r.step p (Token.ofWord s) = r.wordStep p (Token.ofWord s) := by
  rw [step_idle hp, idleStep_scope hf rfl rfl]
  exact if_pos rfl

/-- What a modifier adds to the modifiers before it. -/
def addModifier (ms : TypeModifiers) (m : TypeModifier) : TypeModifiers where
  isAbstract := m == .abstract || ms.isAbstract
  isFinal := m == .final || ms.isFinal

theorem step_modifier (hp : r.phase = .idle) (hf : ∀ f ∈ r.frames, f = .scope)
    (m : (m : TypeModifier) × Keyword m.word) :
    r.step p (Token.ofWord m.2.text) = { r with pending := addModifier r.pending m.1 } := by
  rw [step_word hp hf]
  unfold wordStep
  rw [Token.isWord_ofWord, Token.isWord_ofWord, Token.isWord_ofWord, m.2.sameFolded, m.2.sameFolded,
    m.2.sameFolded]
  obtain ⟨m, k⟩ := m
  cases m with
  | abstract =>
    have hword : Text.sameFolded TypeModifier.abstract.word "abstract" = true := by decide
    rw [hword]
    rfl
  | final =>
    have hword : Text.sameFolded TypeModifier.final.word "abstract" = false := by decide
    have hword' : Text.sameFolded TypeModifier.final.word "final" = true := by decide
    rw [hword, hword']
    rfl
  | readonly =>
    have hword : Text.sameFolded TypeModifier.readonly.word "abstract" = false := by decide
    have hword' : Text.sameFolded TypeModifier.readonly.word "final" = false := by decide
    have hword'' : Text.sameFolded TypeModifier.readonly.word "readonly" = true := by decide
    rw [hword, hword', hword'']
    rfl

theorem walk_modifiers (hp : r.phase = .idle) (hf : ∀ f ∈ r.frames, f = .scope)
    (ms : List ((m : TypeModifier) × Keyword m.word)) :
    walk none r p (ms.map fun m => Token.ofWord m.2.text)
      = { r with pending := (ms.map Sigma.fst).foldl addModifier r.pending } := by
  induction ms generalizing r p with
  | nil => rfl
  | cons m ms ih =>
    rw [List.map_cons, walk_cons, step_modifier hp hf]
    exact @ih { r with pending := addModifier r.pending m.1 } (some (Token.ofWord m.2.text)) hp hf

theorem foldl_addModifier (ms : List TypeModifier) (start : TypeModifiers) :
    ms.foldl addModifier start
      = { isAbstract := start.isAbstract || ms.any (· == .abstract)
          isFinal := start.isFinal || ms.any (· == .final) } := by
  induction ms generalizing start with
  | nil => simp
  | cons m ms ih =>
    rw [List.foldl_cons, ih, List.any_cons, List.any_cons]
    unfold addModifier
    rw [Bool.or_comm (m == .abstract), Bool.or_comm (m == .final), Bool.or_assoc, Bool.or_assoc]

theorem ofKeyword?_keyword {kind : TypeKind} (k : Keyword kind.keyword) :
    TypeKind.ofKeyword? k.text = some kind := by
  have hsame (other : TypeKind) :
      Text.sameFolded other.keyword k.text = Text.sameFolded other.keyword kind.keyword := by
    unfold Text.sameFolded
    rw [Text.sameFolded_iff.1 k.spells]
  unfold TypeKind.ofKeyword?
  rw [funext hsame]
  cases kind <;> decide

/-- A word that is no modifier begins a construct. -/
theorem step_of_not_modifier {word : String} (hp : r.phase = .idle) (hf : ∀ f ∈ r.frames, f = .scope)
    (k : Keyword word) (hk : ∀ m : TypeModifier, Text.sameFolded word m.word = false) :
    r.step p (Token.ofWord k.text) = r.keywordStep p (Token.ofWord k.text) := by
  have hother (m : TypeModifier) : (Token.ofWord k.text).isWord m.word = false := by
    rw [Token.isWord_ofWord, k.sameFolded]
    exact hk m
  have habstract : (Token.ofWord k.text).isWord "abstract" = false := hother .abstract
  have hfinal : (Token.ofWord k.text).isWord "final" = false := hother .final
  have hreadonly : (Token.ofWord k.text).isWord "readonly" = false := hother .readonly
  rw [step_word hp hf]
  unfold wordStep
  rw [habstract, hfinal, hreadonly]
  rfl

/-- The keyword of a declaration takes the modifiers in front of it along. In an expression it is no
keyword. -/
theorem step_keyword {kind : TypeKind} (hp : r.phase = .idle) (hf : ∀ f ∈ r.frames, f = .scope)
    (k : Keyword kind.keyword) :
    r.step p (Token.ofWord k.text)
      = if inExpression p then { r with pending := {} }
        else { r with pending := {}, phase := .typeName kind r.pending } := by
  have hnamespace : (Token.ofWord k.text).isWord "namespace" = false := by
    rw [Token.isWord_ofWord, k.sameFolded]
    cases kind <;> decide
  have huse : (Token.ofWord k.text).isWord "use" = false := by
    rw [Token.isWord_ofWord, k.sameFolded]
    cases kind <;> decide
  have hkind : TypeKind.ofKeyword? (Token.ofWord k.text).text = some kind := ofKeyword?_keyword k
  rw [step_of_not_modifier hp hf k (fun m => by cases kind <;> cases m <;> decide)]
  unfold keywordStep
  simp only
  rw [hnamespace, huse, hkind]
  rfl

/-! ## Bodies -/

/-- The reader in the body of the type `info`, with `depth` blocks open in it. -/
def inside (b : Reader) (info : TypeInfo) (depth : Nat) (m : MemberModifiers) : Reader :=
  { b with
    types := b.types.push info
    frames := List.replicate depth .block ++ .body b.types.size :: b.frames
    member := m }

theorem modify_types_inside (f : TypeInfo → TypeInfo) (depth : Nat) (m : MemberModifiers) :
    { inside b info depth m with
      types := (inside b info depth m).types.modify b.types.size f } = inside b (f info) depth m := by
  show ({ inside b info depth m with types := (b.types.push info).modify b.types.size f } : Reader) = _
  rw [modify_push]
  rfl

/-- A token directly in the body. Only a method name changes the type. -/
theorem memberStep_inside (info : TypeInfo) (m : MemberModifiers) (hclose : t.isMark '}' = false) :
    ∃ info' m', (inside b info 0 m).memberStep b.types.size t = inside b info' (depthAfter 0 t) m'
      ∧ info'.withoutMethods = info.withoutMethods := by
  unfold memberStep depthAfter
  rw [hclose, if_neg Bool.false_ne_true]
  split
  · -- the brace of a block
    exact ⟨info, {}, rfl, rfl⟩
  split
  · -- the end of a member
    exact ⟨info, {}, rfl, rfl⟩
  split
  · -- no word
    split
    · exact ⟨info, m, rfl, rfl⟩
    · exact ⟨info, { m with awaitsName := false }, rfl, rfl⟩
  split
  · -- the name of a method
    refine ⟨info.addMethod (declaredMethod info.kind m t.text), { m with awaitsName := false }, ?_, rfl⟩
    exact modify_types_inside (fun i => i.addMethod (declaredMethod i.kind m t.text)) 0
      { m with awaitsName := false }
  · exact ⟨info, readModifier m t, rfl, rfl⟩

/-- A token inside a body leaves its type alone but for the methods. -/
theorem step_inside (hidle : b.phase = .idle) (hpend : b.pending = {}) (info : TypeInfo)
    (m : MemberModifiers) {depth : Nat} (hclose : t.isMark '}' = true → 0 < depth) :
    ∃ info' m', (inside b info depth m).step p t = inside b info' (depthAfter depth t) m'
      ∧ info'.withoutMethods = info.withoutMethods := by
  have hkeep (d : Nat) (m : MemberModifiers) :
      ({ inside b info d m with pending := {} } : Reader) = inside b info d m := by
    rw [← hpend]
    rfl
  have hphase : (inside b info depth m).phase = .idle := hidle
  cases depth with
  | zero =>
    have hnot : t.isMark '}' = false := by
      rw [Bool.eq_false_iff]
      exact fun h => Nat.lt_irrefl 0 (hclose h)
    rw [step_idle hphase]
    unfold idleStep
    rw [hnot]
    exact memberStep_inside info m hnot
  | succ depth =>
    rw [@step_block (inside b info (depth + 1) m) p t (inside b info depth m).frames hphase rfl]
    unfold depthAfter
    split
    · -- the innermost block is closed
      exact ⟨info, {}, hkeep depth {}, rfl⟩
    · split
      · exact ⟨info, m, hkeep (depth + 2) m, rfl⟩
      · exact ⟨info, m, hkeep (depth + 1) m, rfl⟩

/-- Tokens that close no more blocks than are open. -/
theorem walk_inside (hidle : b.phase = .idle) (hpend : b.pending = {}) (ts : List Token)
    (info : TypeInfo) (m : MemberModifiers) {depth : Nat} (hopen : StaysInside depth ts) :
    ∃ info' depth' m', walk none (inside b info depth m) p ts = inside b info' depth' m'
      ∧ depth' + marks '}' ts = depth + marks '{' ts
      ∧ info'.withoutMethods = info.withoutMethods := by
  induction ts generalizing info m depth p with
  | nil => exact ⟨info, depth, m, rfl, rfl, rfl⟩
  | cons t ts ih =>
    obtain ⟨info₁, m₁, hstep, hinfo₁⟩ := @step_inside b p t hidle hpend info m depth hopen.close_pos
    have hdepth := depthAfter_eq hopen.close_pos
    obtain ⟨info', depth', m', hwalk, hdepth', hinfo⟩ := @ih (some t) info₁ m₁ _ hopen.tail
    refine ⟨info', depth', m', ?_, ?_, hinfo.trans hinfo₁⟩
    · rw [walk_cons, hstep, hwalk]
    · rw [marks_cons '}' t ts, marks_cons '{' t ts]
      omega

/-- **A body leaves its type alone** but for the methods, and its last brace closes it. -/
theorem walk_body (hidle : b.phase = .idle) (hpend : b.pending = {}) (info : TypeInfo)
    {body : List Token} (hbody : Balanced body) :
    ∃ info', walk none (inside b info 0 {}) p (body ++ [Token.ofMark '}'])
        = { b with
            types := b.types.push info', member := {}, completed := b.completed + 1 }
      ∧ info'.withoutMethods = info.withoutMethods := by
  -- all blocks are closed behind the body, so the last brace closes the body itself
  obtain ⟨info', depth, m, hwalk, hdepth, hinfo⟩ :=
    @walk_inside b p hidle hpend body info {} 0 hbody.staysInside
  have hzero : depth = 0 := by
    have := hbody.2
    omega
  subst hzero
  refine ⟨info', ?_, hinfo⟩
  have hphase : (inside b info' 0 m).phase = .idle := hidle
  rw [walk_append, hwalk, walk_cons]
  unfold step
  rw [hphase]
  show ({ b with
    pending := {}, types := b.types.push info', member := {}, completed := b.completed + 1 } : Reader) = _
  rw [← hpend]

/-! ## Whole declarations -/

/-- **The reader between two statements.** Its namespace and imports are those of the section, with
`depth` namespaces open in braces, and `found` are the types so far, the methods apart. -/
structure Resting (r : Reader) (file : String) (depth : Nat) (scope : List Identifier)
    (imports : Imports) (found : List TypeInfo) : Prop where
  file : r.file = file
  phase : r.phase = .idle
  pending : r.pending = {}
  frames : r.frames = List.replicate depth .scope
  scope : r.scope = joined scope
  targets : ∀ e ∈ imports, e.2 ≠ []
  imports : r.imports = importTable imports
  found : r.types.toList.map TypeInfo.withoutMethods = found

section
variable {file : String} {depth : Nat} {scope : List Identifier} {imports : Imports}
  {found : List TypeInfo}

theorem Resting.all_scope (h : Resting r file depth scope imports found) :
    ∀ f ∈ r.frames, f = .scope := by
  intro f hf
  rw [h.frames] at hf
  exact List.eq_of_mem_replicate hf

/-- The reader once a type was declared: the namespace of the first one is kept. -/
def opened (r : Reader) : Reader := { r with firstScope := some (r.firstScope.getD r.scope) }

/-- Only classes keep their modifiers. -/
theorem openType_flags (h : Resting r file depth scope imports found) (d : Declaration) :
    r.openType d.kind d.flags d.name.text
      = heading r.opened (d.headInfo file scope) .outside "" := by
  have hname : TypeName.bare (TypeName.qualify r.scope d.name.text) = joined (scope ++ [d.name]) := by
    rw [h.scope, ← joined_singleton, qualify_joined scope (List.cons_ne_nil d.name []), bare_joined]
  have hfile := h.file
  unfold openType TypeInfo.named Declaration.headInfo Declaration.isClassWith Declaration.flags
  rw [hname]
  cases hk : d.kind with
  | cls => rw [← hfile]; rfl
  | interface => rw [← hfile]; rfl
  | trait => rw [← hfile]; rfl

/-- The modifiers in front of a keyword leave it a keyword. -/
theorem inExpression_modifiers (hprev : inExpression p = false)
    (ms : List ((m : TypeModifier) × Keyword m.word)) :
    inExpression ((ms.map fun m => Token.ofWord m.2.text).getLast?.or p) = false := by
  cases hlast : ms.getLast? with
  | none =>
    rw [List.getLast?_map, hlast]
    exact hprev
  | some m =>
    rw [List.getLast?_map, hlast]
    show ((Token.ofWord m.2.text).isMark ':' || (Token.ofWord m.2.text).isMark '>'
      || (Token.ofWord m.2.text).isWord "new") = false
    rw [Token.isMark_ofWord, Token.isMark_ofWord, Token.isWord_ofWord, m.2.sameFolded]
    cases m.1 <;> decide

/-- The modifiers, the keyword and the name open the header of the type. -/
theorem walk_headTokens (h : Resting r file depth scope imports found)
    (hprev : inExpression p = false) (d : Declaration) :
    walk none r p d.headTokens = heading r.opened (d.headInfo file scope) .outside "" := by
  have hkey := @step_keyword { r with pending := (d.modifiers.map Sigma.fst).foldl addModifier r.pending }
    ((d.modifiers.map fun m => Token.ofWord m.2.text).getLast?.or p) d.kind h.phase h.all_scope d.keyword
  have hflags : (d.modifiers.map Sigma.fst).foldl addModifier r.pending = d.flags := by
    rw [h.pending, foldl_addModifier, List.any_map, List.any_map]
    rfl
  have hpend : ({ r with pending := {} } : Reader) = r := by
    rw [← h.pending]
  unfold Declaration.headTokens
  rw [inExpression_modifiers hprev d.modifiers, if_neg Bool.false_ne_true] at hkey
  rw [walk_append, walk_modifiers h.phase h.all_scope, walk_cons, hkey]
  show openType { r with pending := {} } d.kind ((d.modifiers.map Sigma.fst).foldl addModifier r.pending)
    d.name.text = _
  rw [hflags, hpend, openType_flags h d]

/-- **A declaration adds its type**, and the reader rests again. -/
theorem walk_declaration (h : Resting r file depth scope imports found)
    (hprev : inExpression p = false) (d : Declaration) :
    Resting (walk none r p d.tokens) file depth scope imports
      (found ++ [d.info file scope imports]) := by
  have hidle : r.opened.phase = .idle := h.phase
  have hpend : r.opened.pending = {} := h.pending
  have hresolve (m : ClassName) : r.opened.resolve m.text = joined (m.resolve scope imports) :=
    resolve_text h.scope h.imports h.targets m
  obtain ⟨info, c, n, hclauses, henter⟩ := @walk_heading_clauses r.opened
    (d.headTokens.getLast?.or p) (d.headInfo file scope) d
  rw [Declaration.foldl_clauses hresolve] at henter
  -- the brace enters the last name, and the type is complete
  have hbrace (p' : Option Token) : (heading r.opened info c n).step p' (Token.ofMark '{')
      = inside r.opened (d.info file scope imports) 0 {} := by
    show (heading r.opened info c n).headerStep r.opened.types.size c n (Token.ofMark '{') = _
    unfold headerStep
    rw [flushName_heading, henter]
    simp only [Token.isWord_ofMark, Token.isNamePart_ofMark, Token.isMark_ofMark]
    show ({ inside r.opened (d.info file scope imports) 0 {} with phase := .idle } : Reader) = _
    rw [← hidle]
    rfl
  obtain ⟨info', hbody, hinfo⟩ := @walk_body r.opened (some (Token.ofMark '{')) hidle hpend
    (d.info file scope imports) d.body d.balanced
  have hwalk : walk none r p d.tokens = { r.opened with
      types := r.opened.types.push info', member := {}
      completed := r.opened.completed + 1 } := by
    unfold Declaration.tokens
    rw [walk_append, walk_append, walk_headTokens h hprev, hclauses, walk_cons, hbrace, hbody]
  rw [hwalk]
  refine ⟨h.file, h.phase, h.pending, h.frames, h.scope, h.targets, h.imports, ?_⟩
  show (r.types.push info').toList.map TypeInfo.withoutMethods = _
  rw [Array.toList_push, List.map_append, h.found, List.map_singleton, hinfo]
  rfl

end

end Reader
end Source
end Conformance
