import Conformance.Proofs.Source.Declarations
import Conformance.Proofs.Source.UseStatements

/-!
# `Proofs.Source.Imports`: reading an import statement

In an import statement the reader is `collecting` a name, perhaps behind the common beginning of a
group, and a local name for it. A comma, a closing brace or the end of the statement enters what was
collected. `walk_statement` says for every import statement that walking over it puts the imports that are
read in front of the others and changes nothing else; `walk_use` is what becomes of it for the statements
of a `Script`, which have no marks.
-/

namespace Conformance
namespace Source

/-! ## The ends of names -/

theorem ImportName.parts_eq (n : ImportName) :
    ∃ init, n.parts = init ++ [n.last.toIdentifier] := by
  unfold ImportName.parts ImportName.last
  cases hlast : n.rest.getLast? with
  | none =>
    rw [List.getLast?_eq_none_iff] at hlast
    rw [hlast]
    exact ⟨[], rfl⟩
  | some s =>
    obtain ⟨front, hfront⟩ := List.getLast?_eq_some_iff.1 hlast
    rw [hfront]
    exact ⟨(n.first :: front).map ImportPart.toIdentifier, by simp⟩

theorem ImportName.parts_ne_nil (n : ImportName) : n.parts ≠ [] := List.cons_ne_nil _ _

/-- The text of a name ends in its last part, and what is in front ends in a separator. -/
theorem toList_joined_concat (ps : List Identifier) (q : Identifier) :
    (joined (ps ++ [q])).toList.reverse = q.text.toList.reverse
      ++ if ps = [] then [] else TypeName.separator :: (joined ps).toList.reverse := by
  by_cases hps : ps = []
  · simp [hps]
  · rw [joined_append hps (List.cons_ne_nil q []), if_neg hps]
    simp

theorem shortPart_joined (ps : List Identifier) (q : Identifier) :
    TypeName.shortPart (joined (ps ++ [q])) = q.text := by
  have hall : ∀ c ∈ q.text.toList.reverse, (c != TypeName.separator) = true :=
    fun c hc => q.ne_separator c (List.mem_reverse.1 hc)
  unfold TypeName.shortPart
  rw [toList_joined_concat, List.takeWhile_append_of_pos hall]
  split <;> simp

/-- The name of a group without the separator in front of its brace. -/
theorem withoutTrailingSeparators_joined (start : String) (n : ImportName) :
    Reader.withoutTrailingSeparators
        (start ++ joined n.parts ++ String.singleton TypeName.separator)
      = start ++ joined n.parts := by
  obtain ⟨init, hinit⟩ := n.parts_eq
  obtain ⟨c, cs, hcs⟩ : ∃ c cs, n.last.text.toList.reverse = c :: cs := by
    obtain ⟨c, cs, hcs⟩ := n.last.toIdentifier.exists_cons
    cases hrev : n.last.text.toList.reverse with
    | nil => rw [List.reverse_eq_nil_iff.1 hrev] at hcs; cases hcs
    | cons d ds => exact ⟨d, ds, rfl⟩
  have hc : (c == TypeName.separator) = false := by
    have hmem : c ∈ n.last.text.toList := List.mem_reverse.1 (by rw [hcs]; exact List.mem_cons_self)
    simpa using n.last.toIdentifier.ne_separator c hmem
  have hrev : ∃ rest, (start ++ joined n.parts).toList.reverse = c :: rest := by
    rw [String.toList_append, List.reverse_append, hinit, toList_joined_concat, hcs]
    exact ⟨_, rfl⟩
  obtain ⟨rest, hrest⟩ := hrev
  apply String.toList_injective
  unfold Reader.withoutTrailingSeparators
  rw [String.toList_ofList, String.toList_append, List.reverse_append, hrest]
  simp only [String.toList_singleton, List.reverse_singleton, List.singleton_append]
  rw [List.dropWhile_cons_of_pos (by simp), List.dropWhile_cons_of_neg (by simp [hc]), ← hrest,
    List.reverse_reverse]

/-! ## The tokens of names -/

/-- A token that belongs to a name in an import statement. -/
def IsImportPart (t : Token) : Prop := t.isNamePart = true ∧ t.isWord "as" = false

theorem isImportPart_ofSeparator : IsImportPart Token.ofSeparator := ⟨rfl, rfl⟩

theorem isImportPart_part (p : ImportPart) : IsImportPart (Token.ofWord p.text) := ⟨rfl, p.not_as⟩

theorem isImportPart_name (n : ImportName) : ∀ t ∈ n.tokens, IsImportPart t := by
  intro t ht
  rcases List.mem_cons.1 ht with rfl | ht
  · exact isImportPart_part n.first
  · obtain ⟨i, hi, ht⟩ := List.mem_flatMap.1 ht
    obtain ⟨p, _, rfl⟩ := List.mem_map.1 hi
    simp only [List.mem_cons, List.not_mem_nil, or_false] at ht
    rcases ht with rfl | rfl
    · exact isImportPart_ofSeparator
    · exact isImportPart_part p

theorem join_name (n : ImportName) : String.join (n.tokens.map Token.text) = joined n.parts :=
  join_parts n.first.toIdentifier (n.rest.map ImportPart.toIdentifier)

/-- The separator in front of a name, if there is one. -/
def rootMark (rooted : Bool) : String :=
  if rooted then String.singleton TypeName.separator else ""

theorem isImportPart_separatorIf (rooted : Bool) : ∀ t ∈ separatorIf rooted, IsImportPart t := by
  intro t ht
  cases rooted with
  | false => cases ht
  | true =>
    rw [List.mem_singleton.1 ht]
    exact isImportPart_ofSeparator

theorem join_separatorIf (rooted : Bool) :
    String.join ((separatorIf rooted).map Token.text) = rootMark rooted := by
  cases rooted <;> rfl

theorem bare_rootMark (rooted : Bool) (ps : List Identifier) :
    TypeName.bare (rootMark rooted ++ joined ps) = joined ps := by
  cases rooted with
  | false =>
    show TypeName.bare ("" ++ joined ps) = _
    rw [String.empty_append, bare_joined]
  | true =>
    have hdrop : TypeName.bare (String.singleton TypeName.separator ++ joined ps)
        = TypeName.bare (joined ps) := by
      unfold TypeName.bare
      rw [String.toList_append, String.toList_singleton, List.singleton_append,
        List.dropWhile_cons_of_pos (by simp)]
    exact hdrop.trans (bare_joined ps)

theorem isEmpty_rootMark_joined (rooted : Bool) (n : ImportName) :
    (rootMark rooted ++ joined n.parts).isEmpty = false := by
  have hjoined := isEmpty_joined_cons n.first.toIdentifier (n.rest.map ImportPart.toIdentifier)
  rw [Bool.eq_false_iff] at hjoined ⊢
  intro hempty
  rw [String.isEmpty_iff, String.append_eq_empty_iff] at hempty
  exact hjoined (String.isEmpty_iff.2 hempty.2)

/-- A mark in front of a name makes its first part longer. -/
theorem joined_glue (m : OtherMark) (n : ImportName) :
    m.keyword.text ++ joined n.parts
      = joined ({ n with first := m.glue n.first } : ImportName).parts := by
  apply String.toList_injective
  unfold ImportName.parts
  rw [String.toList_append, List.map_cons, List.map_cons, toList_joined_cons, toList_joined_cons,
    ← List.append_assoc]
  show _ = (m.keyword.text ++ n.first.text).toList ++ _
  rw [String.toList_append]

/-- What ends a statement belongs to no name and is no other mark. -/
theorem Token.of_endsStatement {t : Token} (h : t.endsStatement = true) :
    t.isNamePart = false ∧ (∀ w, t.isWord w = false) ∧ ∀ c, c ≠ ';' → t.isMark c = false := by
  unfold endsStatement at h
  rw [Bool.or_eq_true, beq_iff_eq] at h
  rcases h with hmark | hkind
  · have hunplaced := unplaced_of_isMark hmark
    have hkind : t.kind = .mark := congrArg Token.kind hunplaced
    refine ⟨by rw [isNamePart, hkind]; rfl, t.isWord_of_kind (by simp [hkind]), ?_⟩
    intro c hc
    rw [isMark_of_isMark hmark, beq_eq_false_iff_ne]
    exact hc.symm
  · refine ⟨by rw [isNamePart, hkind]; rfl, t.isWord_of_kind (by simp [hkind]), ?_⟩
    intro c _
    rw [isMark, hkind]
    rfl

namespace Reader

variable {b r : Reader} {p : Option Token} {t : Token} {g : Option String} {n : String}
  {a : Option String}

/-! ## Collecting a name -/

/-- A statement behind its first word, with the name `n` in the group `g` and its local name. -/
def statement (g : Option String) (n : String) (a : Option String) : Import where
  group := g
  target := n
  localName := a
  inAlias := a.isSome
  started := true

/-- The reader in such a statement. -/
def collecting (b : Reader) (g : Option String) (n : String) (a : Option String) : Reader :=
  { b with phase := .importing (statement g n a) }

/-- The reader with the collected name entered. -/
def entered (b : Reader) (g : Option String) (n : String) (a : Option String) : Reader :=
  (b.commit (statement g n a)).1

/-- The reader with these imports in front of its own. -/
def withImports (b : Reader) (es : Imports) : Reader :=
  { b with imports := importTable es ++ b.imports }

theorem withImports_withImports (b : Reader) (es es' : Imports) :
    (b.withImports es).withImports es' = b.withImports (es' ++ es) := by
  unfold withImports importTable
  rw [List.map_append, List.append_assoc]

theorem phase_entered (b : Reader) (g : Option String) (n : String) (a : Option String) :
    (entered b g n a).phase = b.phase := by
  unfold entered commit
  dsimp only
  split <;> rfl

theorem entered_nothing (b : Reader) (g : Option String) (a : Option String) :
    entered b g "" a = b := rfl

/-- Entering what was collected and making room for the next name. -/
theorem commit_collecting :
    (collecting b g n a).commit (statement g n a)
      = ({ entered b g n a with phase := (collecting b g n a).phase }, statement g "" none) := by
  unfold entered commit
  dsimp only
  split <;> rfl

theorem step_collecting_part (ht : IsImportPart t) :
    (collecting b g n none).step p t = collecting b g (n ++ t.text) none := by
  obtain ⟨hpart, has⟩ := ht
  show importNameStep (collecting b g n none) (statement g n none) t = _
  unfold importNameStep
  rw [has, hpart]
  rfl

theorem step_collecting_comma :
    (collecting b g n a).step p (Token.ofMark ',') = collecting (entered b g n a) g "" none := by
  show importNameStep (collecting b g n a) (statement g n a) (Token.ofMark ',') = _
  unfold importNameStep
  rw [commit_collecting]
  simp only [Token.isWord_ofMark, Token.isNamePart_ofMark, Token.isMark_ofMark]
  rfl

theorem step_collecting_close :
    (collecting b g n a).step p (Token.ofMark '}') = collecting (entered b g n a) g "" none := by
  show importNameStep (collecting b g n a) (statement g n a) (Token.ofMark '}') = _
  unfold importNameStep
  rw [commit_collecting]
  simp only [Token.isWord_ofMark, Token.isNamePart_ofMark, Token.isMark_ofMark]
  rfl

theorem step_collecting_open :
    (collecting b none n none).step p (Token.ofMark '{')
      = collecting b (some (withoutTrailingSeparators n)) "" none := by
  show importNameStep (collecting b none n none) (statement none n none) (Token.ofMark '{') = _
  unfold importNameStep
  simp only [Token.isWord_ofMark, Token.isNamePart_ofMark, Token.isMark_ofMark]
  rfl

/-- The end of the statement enters the last name. -/
theorem step_collecting_end (hidle : b.phase = .idle) (ht : t.endsStatement = true) :
    (collecting b g n a).step p t = entered b g n a := by
  obtain ⟨hpart, hword, hmark⟩ := Token.of_endsStatement ht
  have hphase : ({ entered b g n a with phase := .idle } : Reader) = entered b g n a := by
    rw [← hidle, ← phase_entered b g n a]
  show importNameStep (collecting b g n a) (statement g n a) t = _
  unfold importNameStep
  rw [commit_collecting, hword, hpart, hmark '{' (by decide), hmark ',' (by decide),
    hmark '}' (by decide)]
  exact hphase

/-! ## Entries -/

theorem walk_collecting {ts : List Token} (hts : ∀ t ∈ ts, IsImportPart t) :
    walk none (collecting b g n none) p ts
      = collecting b g (n ++ String.join (ts.map Token.text)) none :=
  @walk_plain (fun m => collecting b g m none) IsImportPart (fun _ _ _ ht => step_collecting_part ht) ts
    hts n p

theorem walk_rename (k : Keyword "as") (name : ImportPart) :
    walk none (collecting b g n none) p [Token.ofWord k.text, Token.ofWord name.text]
      = collecting b g n (some name.text) := by
  have has : (collecting b g n none).step p (Token.ofWord k.text)
      = { b with phase := .importing { statement g n none with inAlias := true } } := by
    show importNameStep (collecting b g n none) (statement g n none) (Token.ofWord k.text) = _
    unfold importNameStep
    rw [Token.isWord_ofWord, k.spells]
    rfl
  rw [walk_cons, has, walk_cons]
  show importNameStep _ { statement g n none with inAlias := true } (Token.ofWord name.text) = _
  unfold importNameStep
  rw [Token.isWord_ofWord, name.not_as]
  rfl

/-- What is collected of an entry. -/
def collectingEntry (b : Reader) (g : Option String) (e : Bool × ImportEntry) : Reader :=
  collecting b g (rootMark e.1 ++ joined e.2.target.parts) (e.2.rename.map (·.2.text))

theorem walk_entry (e : ImportEntry) :
    walk none (collecting b g n none) p e.tokens
      = collecting b g (n ++ joined e.target.parts) (e.rename.map (·.2.text)) := by
  unfold ImportEntry.tokens ImportEntry.renameTokens
  rw [walk_append, walk_collecting (isImportPart_name e.target), join_name]
  cases e.rename with
  | none => rfl
  | some rename =>
    obtain ⟨k, name⟩ := rename
    exact walk_rename k name

theorem walk_rootedEntry (e : Bool × ImportEntry) :
    walk none (collecting b g "" none) p (rootedTokens e) = collectingEntry b g e := by
  unfold rootedTokens
  rw [walk_append, walk_collecting (isImportPart_separatorIf e.1), join_separatorIf, String.empty_append,
    walk_entry]
  rfl

/-- The mark of an entry is collected as a part of its name. -/
theorem walk_groupEntry (e : GroupEntry) :
    walk none (collecting b g "" none) p e.tokens = collectingEntry b g (false, e.asRead) := by
  unfold GroupEntry.tokens GroupEntry.asRead collectingEntry
  cases e.mark with
  | none =>
    -- without a mark the entry is collected like one of a list
    show walk none (collecting b g "" none) p e.entry.tokens = _
    rw [walk_entry]
    rfl
  | some m =>
    have hmark : IsImportPart m.token := by
      refine ⟨rfl, ?_⟩
      unfold OtherMark.token
      rw [Token.isWord_ofWord, m.keyword.sameFolded]
      cases m.sort <;> decide
    show walk none (collecting b g "" none) p (m.token :: e.entry.tokens) = _
    rw [walk_cons, step_collecting_part hmark, walk_entry]
    show collecting b g ("" ++ m.keyword.text ++ _) _ = collecting b g ("" ++ _) _
    rw [String.append_assoc, joined_glue]

/-- The name that an entry gets is the one behind `as` or the last part of its target. -/
theorem localName_entry (pre : List Identifier) (e : ImportEntry) :
    (e.rename.map (·.2.text)).getD (TypeName.shortPart (joined (pre ++ e.target.parts)))
      = e.name.text := by
  unfold ImportEntry.name
  cases e.rename with
  | none =>
    obtain ⟨init, hinit⟩ := e.target.parts_eq
    rw [hinit, ← List.append_assoc]
    exact shortPart_joined (pre ++ init) e.target.last.toIdentifier
  | some rename => rfl

variable {pre : List Identifier}

/-- Entering what was collected of an entry, whose full target is the one that is meant. -/
theorem entered_entry {e : Bool × ImportEntry}
    (hfull : ∀ a, Import.fullTarget (statement g (rootMark e.1 ++ joined e.2.target.parts) a)
      = joined (pre ++ e.2.target.parts)) :
    entered b g (rootMark e.1 ++ joined e.2.target.parts) (e.2.rename.map (·.2.text))
      = b.withImports [e.2.imported pre] := by
  have hsome : (statement g (rootMark e.1 ++ joined e.2.target.parts)
      (e.2.rename.map (·.2.text))).target.isEmpty = false := isEmpty_rootMark_joined e.1 e.2.target
  have hname : (statement g (rootMark e.1 ++ joined e.2.target.parts)
      (e.2.rename.map (·.2.text))).localName.getD
        (TypeName.shortPart (joined (pre ++ e.2.target.parts))) = e.2.name.text :=
    localName_entry pre e.2
  unfold entered commit
  dsimp only
  rw [hfull, hsome, if_neg Bool.false_ne_true, hname]
  rfl

section Entries

-- things that are written in one way and collected as entries
variable {α : Type} {write : α → List Token} {entry : α → Bool × ImportEntry}
  (hwrite : ∀ (e : α) (b : Reader) (g : Option String) (p : Option Token),
    walk none (collecting b g "" none) p (write e) = collectingEntry b g (entry e))
include hwrite

/-- The entries behind the first one. The last one stays collected, so the result is stated for the
moment at which it will have been entered. -/
theorem walk_entries_rest {es : List α}
    (hfull : ∀ e ∈ es, ∀ a, Import.fullTarget
      (statement g (rootMark (entry e).1 ++ joined (entry e).2.target.parts) a)
        = joined (pre ++ (entry e).2.target.parts)) :
    ∃ b' n' a', walk none (collecting b g n a) p (Listing.restTokens write es)
        = collecting b' g n' a'
      ∧ b'.phase = b.phase
      ∧ entered b' g n' a'
        = (entered b g n a).withImports (es.map fun e => (entry e).2.imported pre).reverse := by
  induction es generalizing b n a p with
  | nil => exact ⟨b, n, a, rfl, rfl, rfl⟩
  | cons e es ih =>
    obtain ⟨b', n', a', hwalk, hphase, hentered⟩ :=
      @ih (entered b g n a) ((Token.ofMark ',' :: write e).getLast?.or p)
        (rootMark (entry e).1 ++ joined (entry e).2.target.parts)
        ((entry e).2.rename.map (·.2.text)) (fun u hu => hfull u (List.mem_cons_of_mem e hu))
    refine ⟨b', n', a', ?_, hphase.trans (phase_entered b g n a), ?_⟩
    · have htokens : Listing.restTokens write (e :: es)
          = (Token.ofMark ',' :: write e) ++ Listing.restTokens write es := rfl
      rw [htokens, walk_append, walk_cons, step_collecting_comma, hwrite]
      exact hwalk
    · rw [hentered, entered_entry (hfull e List.mem_cons_self), withImports_withImports,
        List.map_cons, List.reverse_cons]

/-- The entries of a statement or of its group. -/
theorem walk_entries {l : Listing α}
    (hfull : ∀ e ∈ l.all, ∀ a, Import.fullTarget
      (statement g (rootMark (entry e).1 ++ joined (entry e).2.target.parts) a)
        = joined (pre ++ (entry e).2.target.parts)) :
    ∃ b' n' a', walk none (collecting b g "" none) p (l.tokens write) = collecting b' g n' a'
      ∧ b'.phase = b.phase
      ∧ entered b' g n' a' = b.withImports (l.all.map fun e => (entry e).2.imported pre).reverse := by
  obtain ⟨b', n', a', hwalk, hphase, hentered⟩ :=
    @walk_entries_rest b ((write l.first).getLast?.or p) g
      (rootMark (entry l.first).1 ++ joined (entry l.first).2.target.parts)
      ((entry l.first).2.rename.map (·.2.text)) pre α write entry hwrite
      l.rest (fun e he => hfull e (List.mem_cons_of_mem l.first he))
  refine ⟨b', n', a', ?_, hphase, ?_⟩
  · unfold Listing.tokens
    rw [walk_append, hwrite]
    exact hwalk
  · rw [hentered, entered_entry (hfull l.first List.mem_cons_self), withImports_withImports]
    unfold Listing.all
    rw [List.map_cons, List.reverse_cons]

end Entries

/-! ## Statements -/

/-- The keyword begins a statement. -/
theorem step_use (hidle : r.phase = .idle) (hf : ∀ f ∈ r.frames, f = .scope) (k : Keyword "use") :
    r.step p (Token.ofWord k.text) = { r with phase := .importing {}, pending := {} } := by
  have hnamespace : (Token.ofWord k.text).isWord "namespace" = false := by
    rw [Token.isWord_ofWord, k.sameFolded]
    decide
  have huse : (Token.ofWord k.text).isWord "use" = true := k.spells
  rw [step_of_not_modifier hidle hf k (fun m => by cases m <;> decide)]
  unfold keywordStep
  simp only
  rw [hnamespace, huse]
  rfl

/-- A statement that imports functions or constants is passed over. -/
theorem walk_other (hidle : r.phase = .idle) (mark : OtherMark) {rest : List Token} {stop : Token}
    (hrest : ∀ t ∈ rest, t.endsStatement = false) (hstop : stop.endsStatement = true) :
    walk none { r with phase := .importing {} } p (mark.token :: (rest ++ [stop])) = r := by
  -- the state in which everything is skipped, from the mark to the end of the statement
  let skipping : Reader := { r with phase := .importing { started := true, ignored := true } }
  have hmark : ({ r with phase := .importing {} } : Reader).step p mark.token = skipping := by
    have hword : (mark.token.isWord "function" || mark.token.isWord "const") = true := by
      unfold OtherMark.token
      rw [Token.isWord_ofWord, Token.isWord_ofWord, mark.keyword.sameFolded, mark.keyword.sameFolded]
      cases mark.sort <;> decide
    show importStep { r with phase := .importing {} } {} mark.token = _
    unfold importStep
    rw [hword]
    rfl
  have hskip (q : Option Token) : walk none skipping q rest = skipping := by
    induction rest generalizing q with
    | nil => rfl
    | cons t ts ih =>
      have ht : skipping.step q t = skipping := by
        show importStep skipping { started := true, ignored := true } t = _
        unfold importStep
        rw [hrest t List.mem_cons_self]
        rfl
      rw [walk_cons, ht]
      apply ih
      intro u hu
      exact hrest u (List.mem_cons_of_mem t hu)
  have hend (q : Option Token) : skipping.step q stop = r := by
    show importStep skipping { started := true, ignored := true } stop = _
    unfold importStep
    rw [hstop, ← hidle]
    rfl
  rw [walk_cons, hmark, walk_append, hskip, walk_cons, hend]
  rfl

/-- Behind the keyword a name is collected at once. -/
theorem walk_start {us : List Token} (ht : IsImportPart t) (hfunction : t.isWord "function" = false)
    (hconst : t.isWord "const" = false) :
    walk none { r with phase := .importing {} } p (t :: us)
      = walk none (collecting r none "" none) p (t :: us) := by
  have hparen : t.isMark '(' = false := by
    have hpart := ht.1
    unfold Token.isNamePart at hpart
    unfold Token.isMark
    rw [Bool.or_eq_true, beq_iff_eq, beq_iff_eq] at hpart
    rcases hpart with hk | hk <;> rw [hk] <;> rfl
  have hfirst : ({ r with phase := .importing {} } : Reader).step p t
      = (collecting r none "" none).step p t := by
    rw [step_collecting_part ht]
    show importStep { r with phase := .importing {} } {} t = _
    unfold importStep
    rw [hparen, hfunction, hconst]
    show importNameStep { r with phase := .importing {} } { started := true } t = _
    unfold importNameStep
    rw [ht.2, ht.1]
    rfl
  rw [walk_cons, walk_cons, hfirst]

/-- The same behind a name that no mark begins. -/
theorem walk_start_name {rooted : Bool} {name : ImportName}
    (hfirst : rooted = true ∨ name.first.isMark = false) (us : List Token) :
    walk none { r with phase := .importing {} } p (separatorIf rooted ++ name.tokens ++ us)
      = walk none (collecting r none "" none) p (separatorIf rooted ++ name.tokens ++ us) := by
  cases rooted with
  | true => exact walk_start isImportPart_ofSeparator rfl rfl
  | false =>
    have hmark := hfirst.resolve_left Bool.false_ne_true
    unfold ImportPart.isMark at hmark
    rw [Bool.or_eq_false_iff] at hmark
    exact walk_start (isImportPart_part name.first) hmark.1 hmark.2

theorem fullTarget_list (rooted : Bool) (ps : List Identifier) :
    Import.fullTarget (statement none (rootMark rooted ++ joined ps) a) = joined ([] ++ ps) :=
  bare_rootMark rooted ps

theorem fullTarget_group (rooted : Bool) (common target : ImportName) :
    Import.fullTarget (statement (some (rootMark rooted ++ joined common.parts))
      (rootMark false ++ joined target.parts) a) = joined (common.parts ++ target.parts) := by
  show TypeName.bare (rootMark rooted ++ joined common.parts ++ String.singleton TypeName.separator
    ++ ("" ++ joined target.parts)) = _
  rw [String.empty_append, String.append_assoc, String.append_assoc,
    ← bare_rootMark rooted (common.parts ++ target.parts),
    joined_append common.parts_ne_nil target.parts_ne_nil, String.append_assoc]

/-- A list of names: each is entered where it ends. -/
theorem walk_list (hidle : r.phase = .idle) {entries : Listing (Bool × ImportEntry)} {stop : Token}
    (hfirst : entries.first.1 = true ∨ entries.first.2.target.first.isMark = false)
    (hstop : stop.endsStatement = true) :
    walk none { r with phase := .importing {} } p (entries.tokens rootedTokens ++ [stop])
      = r.withImports (entries.all.map fun e => e.2.imported []).reverse := by
  obtain ⟨b, n, a, hwalk, hphase, hentered⟩ :=
    @walk_entries r p none [] _ rootedTokens id (fun e _ _ _ => walk_rootedEntry e) entries
      (fun e _ a => fullTarget_list e.1 e.2.target.parts)
  have htokens : entries.tokens rootedTokens ++ [stop]
      = separatorIf entries.first.1 ++ entries.first.2.target.tokens
        ++ (entries.first.2.renameTokens ++ (Listing.restTokens rootedTokens entries.rest ++ [stop])) := by
    simp [Listing.tokens, rootedTokens, ImportEntry.tokens]
  rw [htokens, walk_start_name hfirst, ← htokens, walk_append, hwalk, walk_cons,
    step_collecting_end (hphase.trans hidle) hstop]
  show entered b none n a = _
  rw [hentered]
  rfl

/-- The comma behind the last entry of a group and the brace that closes it. -/
theorem walk_group_end (comma : Bool) :
    walk none (collecting b g n a) p (groupEnd comma) = collecting (entered b g n a) g "" none := by
  cases comma with
  | false =>
    show walk none (collecting b g n a) p [Token.ofMark '}'] = _
    rw [walk_cons, step_collecting_close]
    rfl
  | true =>
    show walk none (collecting b g n a) p [Token.ofMark ',', Token.ofMark '}'] = _
    rw [walk_cons, step_collecting_comma, walk_cons, step_collecting_close, entered_nothing]
    rfl

/-- A group of names with a common beginning. -/
theorem walk_group (hidle : r.phase = .idle) {rooted : Bool} {common : ImportName}
    {entries : Listing GroupEntry} (comma : Bool) {stop : Token}
    (hfirst : rooted = true ∨ common.first.isMark = false) (hstop : stop.endsStatement = true) :
    walk none { r with phase := .importing {} } p
        (separatorIf rooted ++ common.tokens ++ [Token.ofSeparator]
          ++ Token.ofMark '{' :: (entries.tokens GroupEntry.tokens ++ groupEnd comma) ++ [stop])
      = r.withImports (entries.all.map fun e => e.asRead.imported common.parts).reverse := by
  have hparts : ∀ t ∈ separatorIf rooted ++ common.tokens ++ [Token.ofSeparator], IsImportPart t := by
    intro t ht
    simp only [List.mem_append, List.mem_singleton] at ht
    rcases ht with (ht | ht) | rfl
    · exact isImportPart_separatorIf rooted t ht
    · exact isImportPart_name common t ht
    · exact isImportPart_ofSeparator
  have htext : String.join ((separatorIf rooted ++ common.tokens ++ [Token.ofSeparator]).map Token.text)
      = rootMark rooted ++ joined common.parts ++ String.singleton TypeName.separator := by
    rw [List.map_append, List.map_append, String.join_append, String.join_append, join_separatorIf,
      join_name]
    rfl
  obtain ⟨b, n, a, hwalk, _, hentered⟩ :=
    @walk_entries r (some (Token.ofMark '{')) (some (rootMark rooted ++ joined common.parts))
      common.parts _ GroupEntry.tokens (fun e => (false, e.asRead)) (fun e _ _ _ => walk_groupEntry e)
      entries (fun e _ a => fullTarget_group rooted common e.asRead.target)
  -- the beginning with its separator, the entries, what closes the group, and the end
  have htokens : separatorIf rooted ++ common.tokens ++ [Token.ofSeparator]
        ++ Token.ofMark '{' :: (entries.tokens GroupEntry.tokens ++ groupEnd comma) ++ [stop]
      = separatorIf rooted ++ common.tokens ++ ([Token.ofSeparator]
        ++ Token.ofMark '{' :: (entries.tokens GroupEntry.tokens ++ (groupEnd comma ++ [stop]))) := by
    simp
  rw [htokens, walk_start_name hfirst, ← List.append_assoc, walk_append, walk_collecting hparts, htext,
    String.empty_append, walk_cons, step_collecting_open, withoutTrailingSeparators_joined, walk_append,
    hwalk, walk_append, walk_group_end, hentered, walk_cons, step_collecting_end (by exact hidle) hstop,
    entered_nothing]
  rfl

/-- **A statement puts the imports that are read in front of the others** and changes nothing else,
except that modifiers in front of it are forgotten. -/
theorem walk_statement (hidle : r.phase = .idle) (hf : ∀ f ∈ r.frames, f = .scope) (u : ImportStatement)
    {stop : Token} (hstop : stop.endsStatement = true) :
    walk none r p (u.tokens ++ [stop]) = { r with pending := {} }.withImports u.read.reverse := by
  have hstart : ({ r with pending := {} } : Reader).phase = .idle := hidle
  cases u with
  | other k mark rest hrest =>
    show walk none r p (Token.ofWord k.text :: (mark.token :: (rest ++ [stop]))) = _
    rw [walk_cons, step_use hidle hf k]
    exact walk_other hstart mark hrest hstop
  | list k entries hfirst =>
    show walk none r p (Token.ofWord k.text :: (entries.tokens rootedTokens ++ [stop])) = _
    rw [walk_cons, step_use hidle hf k]
    exact walk_list hstart hfirst hstop
  | group k rooted common entries comma hfirst =>
    unfold ImportStatement.tokens
    rw [List.cons_append, walk_cons, step_use hidle hf k]
    exact walk_group hstart comma hfirst hstop

end Reader

/-! ## The statements of a script -/

def Segment.toImportPart (s : Segment) : ImportPart :=
  { s.toIdentifier with not_as := s.not_reserved (by simp [reservedWords]) }

theorem Segment.isMark_toImportPart (s : Segment) : s.toImportPart.isMark = false := by
  have hfunction := s.not_reserved (w := "function") (by simp [reservedWords])
  have hconst := s.not_reserved (w := "const") (by simp [reservedWords])
  unfold ImportPart.isMark
  rw [Bool.or_eq_false_iff]
  exact ⟨hfunction, hconst⟩

namespace Qualified

def toImportName (q : Qualified) : ImportName where
  first := q.first.toImportPart
  rest := q.rest.map Segment.toImportPart

theorem parts_toImportName (q : Qualified) : q.toImportName.parts = q.parts := by
  simp [toImportName, ImportName.parts, parts, Segment.toImportPart]

theorem tokens_toImportName (q : Qualified) : q.toImportName.tokens = q.tokens := by
  unfold tokens ImportName.tokens toImportName
  rw [segmentTokens_eq, List.map_map]
  rfl

end Qualified

namespace Entry

def toImportEntry (e : Entry) : ImportEntry where
  target := e.target.toImportName
  rename := e.rename.map fun rename => (rename.1, rename.2.toImportPart)

theorem tokens_toImportEntry (e : Entry) : e.toImportEntry.tokens = e.tokens := by
  unfold ImportEntry.tokens ImportEntry.renameTokens tokens toImportEntry
  rw [Qualified.tokens_toImportName]
  cases e.rename <;> rfl

theorem imported_toImportEntry (pre : List Identifier) (e : Entry) :
    e.toImportEntry.imported pre = (e.name, pre ++ e.target.parts) := by
  have hname : e.toImportEntry.name = e.name := by
    unfold ImportEntry.name name ImportName.last toImportEntry Qualified.toImportName
    cases e.rename with
    | none =>
      dsimp only [Option.map_none]
      rw [List.getLast?_map]
      cases e.target.rest.getLast? <;> rfl
    | some rename => rfl
  unfold ImportEntry.imported
  rw [hname, ← Qualified.parts_toImportName]
  rfl

end Entry

/-- The things that are listed, each in another form. -/
def Listing.map {α β : Type} (f : α → β) (l : Listing α) : Listing β where
  first := f l.first
  rest := l.rest.map f

theorem Listing.tokens_map {α β : Type} {f : α → β} {write : β → List Token} {write' : α → List Token}
    (h : ∀ a, write (f a) = write' a) (l : Listing α) : (l.map f).tokens write = l.tokens write' := by
  unfold tokens restTokens map
  rw [List.flatMap_map, h]
  simp only [h]

namespace Use

def toRooted (e : Bool × Entry) : Bool × ImportEntry := (e.1, e.2.toImportEntry)

def toUnmarked (e : Entry) : GroupEntry where
  entry := e.toImportEntry

/-- The statement among all import statements. -/
def toStatement : Use → ImportStatement
  | list use entries =>
    .list use (entries.map toRooted) <| by
      right
      show entries.first.2.target.first.toImportPart.isMark = false
      exact entries.first.2.target.first.isMark_toImportPart
  | group use rooted common entries trailingComma =>
    .group use rooted common.toImportName (entries.map toUnmarked) trailingComma <| by
      right
      show common.first.toImportPart.isMark = false
      exact common.first.isMark_toImportPart

theorem tokens_toStatement (u : Use) : u.tokens = u.toStatement.tokens ++ [Token.ofMark ';'] := by
  cases u with
  | list k entries =>
    have hentry (e : Bool × Entry) : rootedTokens (toRooted e) = separatorIf e.1 ++ e.2.tokens := by
      rw [← Entry.tokens_toImportEntry]
      rfl
    show _ = Token.ofWord k.text :: (entries.map toRooted).tokens rootedTokens ++ [Token.ofMark ';']
    rw [Listing.tokens_map hentry]
    rfl
  | group k rooted common entries comma =>
    have hentry (e : Entry) : (toUnmarked e).tokens = e.tokens := by
      rw [← Entry.tokens_toImportEntry]
      rfl
    show _ = Token.ofWord k.text :: ((separatorIf rooted ++ common.toImportName.tokens ++ [Token.ofSeparator])
      ++ Token.ofMark '{' :: ((entries.map toUnmarked).tokens GroupEntry.tokens ++ groupEnd comma))
      ++ [Token.ofMark ';']
    rw [Listing.tokens_map hentry, Qualified.tokens_toImportName]
    simp [tokens, groupEnd]

theorem read_toStatement (u : Use) : u.toStatement.read = u.imports := by
  cases u with
  | list k entries =>
    simp [toStatement, ImportStatement.read, imports, Listing.map, Listing.all, toRooted,
      Entry.imported_toImportEntry]
  | group k rooted common entries comma =>
    simp [toStatement, ImportStatement.read, imports, Listing.map, Listing.all, toUnmarked,
      GroupEntry.asRead, Entry.imported_toImportEntry, Qualified.parts_toImportName]

end Use

/-- **A statement of a script puts its imports in front of the others**, and the reader rests again. -/
theorem Reader.walk_use {r : Reader} {p : Option Token} {file : String} {depth : Nat}
    {scope : List Identifier} {imports : Imports} {found : List TypeInfo}
    (h : Resting r file depth scope imports found) (u : Use) :
    Resting (walk none r p u.tokens) file depth scope (u.imports.reverse ++ imports) found := by
  have hpending : ({ r with pending := {} } : Reader) = r := by rw [← h.pending]
  have hwalk : walk none r p u.tokens = r.withImports u.imports.reverse := by
    rw [u.tokens_toStatement, walk_statement h.phase h.all_scope u.toStatement rfl, u.read_toStatement,
      hpending]
  have hparts (q : Qualified) : q.parts ≠ [] := List.cons_ne_nil _ _
  have htargets : ∀ e ∈ u.imports, e.2 ≠ [] := by
    intro e he
    cases u with
    | list k entries =>
      obtain ⟨entry, _, rfl⟩ := List.mem_map.1 he
      exact hparts entry.2.target
    | group k rooted common entries comma =>
      obtain ⟨entry, _, rfl⟩ := List.mem_map.1 he
      exact List.append_ne_nil_of_left_ne_nil (hparts common) entry.target.parts
  rw [hwalk]
  refine ⟨h.file, h.phase, h.pending, h.frames, h.scope, ?_, ?_, h.found⟩
  · intro e he
    rcases List.mem_append.1 he with he | he
    · exact htargets e (List.mem_reverse.1 he)
    · exact h.targets e he
  · show importTable u.imports.reverse ++ r.imports = importTable (u.imports.reverse ++ imports)
    rw [h.imports]
    unfold importTable
    rw [List.map_append]

end Source
end Conformance
