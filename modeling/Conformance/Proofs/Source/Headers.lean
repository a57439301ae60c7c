import Conformance.Proofs.Source.Walk

/-!
# `Proofs.Source.Headers`: reading the supertypes of a type

In the header of a type the reader has the type so far and a name that is still being collected. Such
a `heading` is built on the reader `b` from before the declaration, so what the header leaves alone
can be read off. `walk_heading_clauses` says that walking over the clauses enters their names one
after the other, and `foldl_clauses` that this makes the type that the declaration stands for.
-/

namespace Conformance

theorem TypeName.same_comm (a b : String) : same a b = same b a := by
  unfold same
  rw [Bool.eq_iff_iff, beq_iff_eq, beq_iff_eq]
  exact eq_comm

namespace Source
namespace Reader

variable {b r : Reader} {p : Option Token} {t : Token} {info : TypeInfo} {c : Clause} {n : String}

/-! ## Headers -/

/-- The reader in the header of a type: `b` is the reader before it, `info` the type without the
name `n` that is being collected. -/
def heading (b : Reader) (info : TypeInfo) (c : Clause) (n : String) : Reader :=
  { b with types := b.types.push info, phase := .header b.types.size c n }

/-- The type with the collected name in it. -/
def enter (b : Reader) (c : Clause) (n : String) (info : TypeInfo) : TypeInfo :=
  if n.isEmpty then info else addSupertype c (b.resolve n) info

theorem modify_push {α : Type} (xs : Array α) (x : α) (f : α → α) :
    (xs.push x).modify xs.size f = xs.push (f x) := by
  apply Array.ext'
  rw [Array.toList_modify, Array.toList_push, List.modify_eq_take_drop, ← Array.length_toList,
    List.take_left, List.drop_left, Array.toList_push]
  rfl

theorem flushName_heading :
    (heading b info c n).flushName b.types.size c n = heading b (enter b c n info) c n := by
  unfold flushName enter
  split
  · rfl
  · show ({ heading b info c n with types := (b.types.push info).modify b.types.size _ } : Reader) = _
    rw [modify_push]
    rfl

theorem step_heading_part (ht : IsPlainPart t) :
    (heading b info c n).step p t = heading b info c (n ++ t.text) := by
  obtain ⟨hpart, hwords⟩ := ht
  show (heading b info c n).headerStep b.types.size c n t = _
  unfold headerStep
  rw [hwords "extends" (by simp), hwords "implements" (by simp), hpart]
  rfl

theorem step_heading_comma :
    (heading b info c n).step p (Token.ofMark ',') = heading b (enter b c n info) c "" := by
  show (heading b info c n).headerStep b.types.size c n (Token.ofMark ',') = _
  unfold headerStep
  rw [flushName_heading]
  rfl

theorem step_heading_extends (k : Keyword "extends") :
    (heading b info c n).step p (Token.ofWord k.text)
      = heading b (enter b c n info) .extending "" := by
  show (heading b info c n).headerStep b.types.size c n (Token.ofWord k.text) = _
  unfold headerStep
  rw [flushName_heading, Token.isWord_ofWord, k.sameFolded]
  rfl

theorem step_heading_implements (k : Keyword "implements") :
    (heading b info c n).step p (Token.ofWord k.text)
      = heading b (enter b c n info) .implementing "" := by
  have hext : Text.sameFolded "implements" "extends" = false := by decide
  show (heading b info c n).headerStep b.types.size c n (Token.ofWord k.text) = _
  unfold headerStep
  rw [flushName_heading, Token.isWord_ofWord, Token.isWord_ofWord, k.sameFolded, k.sameFolded, hext]
  rfl

theorem walk_heading_name (m : ClassName) :
    walk none (heading b info c n) p m.tokens = heading b info c (n ++ m.text) := by
  rw [walk_plain (fun _ _ _ ht => step_heading_part ht) m.tokens (isPlainPart_className m) n p,
    join_className]

/-- The names behind the first one of a clause. The last one stays collected, so the result is
stated for the moment at which it will have been entered. -/
theorem walk_heading_rest (ms : List ClassName) :
    ∃ info' n', walk none (heading b info c n) p (Listing.restTokens ClassName.tokens ms)
        = heading b info' c n'
      ∧ enter b c n' info' = ms.foldl (fun i m => enter b c m.text i) (enter b c n info) := by
  induction ms generalizing info n p with
  | nil => exact ⟨info, n, rfl, rfl⟩
  | cons m ms ih =>
    obtain ⟨info', n', hwalk, henter⟩ := @ih ((Token.ofMark ',' :: m.tokens).getLast?.or p)
      (enter b c n info) m.text
    refine ⟨info', n', ?_, henter⟩
    have htokens : Listing.restTokens ClassName.tokens (m :: ms)
        = (Token.ofMark ',' :: m.tokens) ++ Listing.restTokens ClassName.tokens ms := rfl
    rw [htokens, walk_append, walk_cons, step_heading_comma, walk_heading_name, String.empty_append]
    exact hwalk

/-- The names of a clause, which its keyword has opened. -/
theorem walk_heading_names (l : Listing ClassName) :
    ∃ info' n', walk none (heading b info c "") p (l.tokens ClassName.tokens) = heading b info' c n'
      ∧ enter b c n' info' = l.all.foldl (fun i m => enter b c m.text i) info := by
  unfold Listing.tokens
  rw [walk_append, walk_heading_name, String.empty_append]
  obtain ⟨info', n', hwalk, henter⟩ :=
    @walk_heading_rest b (l.first.tokens.getLast?.or p) info c l.first.text l.rest
  exact ⟨info', n', hwalk, henter⟩

/-- A clause that may be there: its keyword enters what was collected before. -/
theorem walk_heading_clause {word : String} {c' : Clause}
    (hkey : ∀ (k : Keyword word) p info c n, (heading b info c n).step p (Token.ofWord k.text)
      = heading b (enter b c n info) c' "") (s : Option (Supertypes word)) :
    ∃ info' c'' n', walk none (heading b info c n) p (s.toList.flatMap Supertypes.tokens)
        = heading b info' c'' n'
      ∧ enter b c'' n' info'
        = (s.toList.flatMap (·.names.all)).foldl (fun i m => enter b c' m.text i)
          (enter b c n info) := by
  cases s with
  | none => exact ⟨info, c, n, rfl, rfl⟩
  | some s =>
    obtain ⟨info', n', hwalk, henter⟩ :=
      @walk_heading_names b (some (Token.ofWord s.keyword.text)) (enter b c n info) c' s.names
    refine ⟨info', c', n', ?_, ?_⟩
    · show walk none (heading b info c n) p (s.tokens ++ []) = _
      rw [List.append_nil]
      unfold Supertypes.tokens
      rw [walk_cons, hkey, hwalk]
    · show _ = (s.names.all ++ []).foldl _ _
      rw [List.append_nil, henter]

/-- Both clauses of a header. -/
theorem walk_heading_clauses (d : Declaration) :
    ∃ info' c' n', walk none (heading b info .outside "") p d.clauseTokens = heading b info' c' n'
      ∧ enter b c' n' info'
        = d.implementedNames.foldl (fun i m => enter b .implementing m.text i)
          (d.extendedNames.foldl (fun i m => enter b .extending m.text i) info) := by
  obtain ⟨info₁, c₁, n₁, hwalk₁, henter₁⟩ :=
    @walk_heading_clause b p info .outside "" "extends" .extending
      (fun k _ _ _ _ => step_heading_extends k) d.extended
  obtain ⟨info₂, c₂, n₂, hwalk₂, henter₂⟩ :=
    @walk_heading_clause b ((d.extended.toList.flatMap Supertypes.tokens).getLast?.or p) info₁ c₁ n₁
      "implements" .implementing (fun k _ _ _ _ => step_heading_implements k) d.implemented
  refine ⟨info₂, c₂, n₂, ?_, ?_⟩
  · unfold Declaration.clauseTokens
    rw [walk_append, hwalk₁, hwalk₂]
  · rw [henter₂, henter₁]
    rfl

/-! ## The supertypes of a header -/

theorem isEmpty_text (m : ClassName) : m.text.isEmpty = false := by
  have hne : m.text.toList ≠ [] := by
    have hjoined (q : Qualified) : (joined q.parts).toList ≠ [] := by
      obtain ⟨c, cs, hcs, _⟩ := joined_cons_head q.first.toIdentifier
        (q.rest.map Segment.toIdentifier)
      show (joined (q.first.toIdentifier :: q.rest.map _)).toList ≠ []
      rw [hcs]
      exact List.cons_ne_nil c cs
    cases m with
    | plain q => exact hjoined q
    | full q => simp [ClassName.text]
    | relative k q => simp [ClassName.text]
  rw [Bool.eq_false_iff]
  intro hempty
  rw [String.isEmpty_iff] at hempty
  rw [hempty] at hne
  exact hne rfl

/-- Entering the names of a clause is adding what they mean, one after the other. -/
theorem foldl_enter {meaning : ClassName → String} (hm : ∀ m : ClassName, b.resolve m.text = meaning m)
    (ms : List ClassName) (info : TypeInfo) :
    ms.foldl (fun i m => enter b c m.text i) info
      = (ms.map meaning).foldl (fun i s => addSupertype c s i) info := by
  rw [List.foldl_map]
  congr 1
  funext i m
  unfold enter
  rw [isEmpty_text, hm]
  rfl

/-- Adding interfaces one after the other keeps each of them once. -/
theorem foldl_addInterface {names : List String} (hbare : ∀ s ∈ names, TypeName.bare s = s)
    (info : TypeInfo) :
    names.foldl TypeInfo.addInterface info
      = { info with interfaces := List.eraseDupsBy.loop TypeName.same names info.interfaces.reverse } := by
  induction names generalizing info with
  | nil => simp [List.eraseDupsBy.loop]
  | cons s names ih =>
    have hrest : ∀ u ∈ names, TypeName.bare u = u := fun u hu => hbare u (List.mem_cons_of_mem s hu)
    have hcomm : (TypeName.same · s) = TypeName.same s :=
      funext fun u => TypeName.same_comm u s
    have hany : info.interfaces.any (TypeName.same · s)
        = info.interfaces.reverse.any (TypeName.same s) := by
      rw [List.any_reverse, hcomm]
    -- one step of both: an interface that is there already is left out
    rw [List.foldl_cons, ih hrest, List.eraseDupsBy.loop]
    unfold TypeInfo.addInterface
    rw [hany, hbare s List.mem_cons_self]
    cases info.interfaces.reverse.any (TypeName.same s) with
    | true => rfl
    | false => simp

theorem foldl_implementing (names : List String) (info : TypeInfo) :
    names.foldl (fun i s => addSupertype .implementing s i) info
      = names.foldl TypeInfo.addInterface info := rfl

theorem foldl_extending_interface (names : List String) {info : TypeInfo}
    (hk : info.kind = .interface) :
    names.foldl (fun i s => addSupertype .extending s i) info
      = names.foldl TypeInfo.addInterface info := by
  induction names generalizing info with
  | nil => rfl
  | cons s names ih =>
    have hadd : addSupertype .extending s info = info.addInterface s := by
      unfold addSupertype
      rw [hk]
    have hkind : (info.addInterface s).kind = .interface := by
      unfold TypeInfo.addInterface
      split <;> exact hk
    rw [List.foldl_cons, List.foldl_cons, hadd, ih hkind]

theorem addSupertype_extending {info : TypeInfo} (hk : info.kind ≠ .interface) (s : String) :
    addSupertype .extending s info = { info with parent := some s } := by
  unfold addSupertype
  cases h : info.kind with
  | interface => exact absurd h hk
  | cls => rfl
  | trait => rfl

end Reader

namespace Declaration

/-- What is known of a type before its clauses. -/
def headInfo (file : String) (scope : List Identifier) (d : Declaration) : TypeInfo where
  name := joined (scope ++ [d.name])
  kind := d.kind
  isAbstract := d.isClassWith .abstract
  isFinal := d.isClassWith .final
  file := some file

/-- A type that is no interface extends one type or none. -/
theorem extendedNames_of_single (d : Declaration) (hk : d.kind ≠ .interface) :
    d.extendedNames = d.extendedNames.head?.toList := by
  have hsingle := d.single hk
  unfold extendedNames
  cases hext : d.extended with
  | none => rfl
  | some s =>
    have hrest : s.names.rest = [] := hsingle s (by rw [hext]; rfl)
    show s.names.all ++ [] = (s.names.all ++ []).head?.toList
    unfold Listing.all
    rw [hrest]
    rfl

/-- **The clauses make up the supertypes**: entering the names of both clauses one after the other
gives the type that is declared. -/
theorem foldl_clauses {b : Reader} {file : String} {scope : List Identifier} {imports : Imports}
    (hresolve : ∀ m : ClassName, b.resolve m.text = joined (m.resolve scope imports))
    (d : Declaration) :
    d.implementedNames.foldl (fun i m => Reader.enter b .implementing m.text i)
      (d.extendedNames.foldl (fun i m => Reader.enter b .extending m.text i)
        (d.headInfo file scope)) = d.info file scope imports := by
  have hbare (ms : List ClassName) :
      ∀ s ∈ ms.map (fun m => joined (m.resolve scope imports)), TypeName.bare s = s := by
    intro s hs
    obtain ⟨m, _, rfl⟩ := List.mem_map.1 hs
    exact bare_joined _
  rw [Reader.foldl_enter hresolve, Reader.foldl_enter hresolve, Reader.foldl_implementing]
  by_cases hk : d.kind = .interface
  · -- what an interface extends are interfaces too, in front of the others
    have hkind : (d.headInfo file scope).kind = .interface := hk
    rw [Reader.foldl_extending_interface _ hkind, ← List.foldl_append, ← List.map_append,
      Reader.foldl_addInterface (hbare _)]
    have hbeq : (d.kind == .interface) = true := by simpa using hk
    unfold info
    rw [hbeq]
    rfl
  · -- of the one type that is extended, if any, the parent is made
    have hkind : (d.headInfo file scope).kind ≠ .interface := hk
    have hbeq : (d.kind == .interface) = false := by simpa using hk
    rw [extendedNames_of_single d hk]
    unfold info
    rw [hbeq]
    cases hext : d.extendedNames.head? with
    | none => exact Reader.foldl_addInterface (hbare _) _
    | some m =>
      show List.foldl TypeInfo.addInterface
        (Reader.addSupertype .extending (joined (m.resolve scope imports)) (d.headInfo file scope))
        _ = _
      rw [Reader.addSupertype_extending hkind]
      exact Reader.foldl_addInterface (hbare _) _

end Declaration

end Source
end Conformance
