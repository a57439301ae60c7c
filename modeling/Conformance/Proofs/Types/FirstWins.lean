import Mathlib.Data.List.Forall2
import Mathlib.Data.List.Induction
import Conformance.Proofs.Project.Reading

/-!
# `Proofs.Types.FirstWins`: the first type of a name stays

Types are inserted one after the other, and a type whose name is taken is left out. An index decides
this by a table of folded names, a registry by comparing with every type it holds: both come to the
same (`Index.registry_ofList`), because two names have one key exactly if they agree letter by letter
(`TypeName.same_iff_agree`). Whatever the sequence of insertions, what stays is `newNames`, the types
that agree in name with none before them, and a look-up gives the first type of the sequence that has
the name. `Index.ofList_first_wins` puts this together and says it of the registry of a survey.
-/

namespace Conformance

/-! ## Agreement of names, letter by letter -/

namespace TypeName

/-- Two names agree: behind the separators in front they are equally long, and the letters in one
place differ at most in ASCII case. -/
def Agree (a b : String) : Prop :=
  List.Forall₂ (fun c d => c.toLower = d.toLower) (bare a).toList (bare b).toList

/-- **Names have one key exactly if they agree.** -/
theorem same_iff_agree (a b : String) : same a b = true ↔ Agree a b := by
  have hkey (name : String) : (key name).toList = (bare name).toList.map Char.toLower :=
    Text.toList_foldCase (bare name)
  rw [same_iff, ← String.toList_inj, hkey, hkey]
  unfold Agree
  rw [← List.forall₂_map_left_iff (f := Char.toLower) (R := fun c d => c = Char.toLower d),
    ← List.forall₂_map_right_iff (f := Char.toLower) (R := fun c d => c = d), List.forall₂_eq_eq_eq]

theorem same_trans {a b c : String} (hab : same a b = true) (hbc : same b c = true) :
    same a c = true :=
  same_iff.2 ((same_iff.1 hab).trans (same_iff.1 hbc))

theorem same_symm {a b : String} (h : same a b = true) : same b a = true :=
  same_iff.2 (same_iff.1 h).symm

end TypeName

/-! ## What stays -/

/-- The types of a list that agree in name with none of those in front of them. -/
def newNames (ts : List TypeInfo) : List TypeInfo :=
  (ts.zipIdx.filter fun p =>
    (ts.take p.2).all fun u => !TypeName.same u.name p.1.name).map Prod.fst

/-- One more type stays if its name is new. -/
theorem newNames_concat (ts : List TypeInfo) (t : TypeInfo) :
    newNames (ts ++ [t])
      = if ts.any (fun u => TypeName.same u.name t.name) then newNames ts
        else newNames ts ++ [t] := by
  have hfront : ts.zipIdx.filter (fun p =>
        ((ts ++ [t]).take p.2).all fun u => !TypeName.same u.name p.1.name)
      = ts.zipIdx.filter fun p => (ts.take p.2).all fun u => !TypeName.same u.name p.1.name := by
    refine List.filter_congr fun p hp => ?_
    have hlt : p.2 < ts.length :=
      (List.getElem?_eq_some_iff.1 (List.mem_zipIdx_iff_getElem?.1 hp)).1
    rw [List.take_append_of_le_length (Nat.le_of_lt hlt)]
  have hlast : ([t].zipIdx ts.length).filter (fun p =>
        ((ts ++ [t]).take p.2).all fun u => !TypeName.same u.name p.1.name)
      = if ts.any (fun u => TypeName.same u.name t.name) then [] else [(t, ts.length)] := by
    rw [List.zipIdx_singleton, List.filter_singleton, List.take_left, ← List.not_any_eq_all_not]
    cases ts.any fun u => TypeName.same u.name t.name <;> rfl
  unfold newNames
  rw [List.zipIdx_append, Nat.zero_add, List.filter_append, hfront, hlast, List.map_append]
  split
  · exact List.append_nil _
  · rfl

/-- What has the name of a type has every name that the type has. -/
theorem any_of_any_same {ts : List TypeInfo} {a b : String}
    (h : ts.any (fun t => TypeName.same t.name a) = true) (hab : TypeName.same a b = true) :
    ts.any (fun t => TypeName.same t.name b) = true := by
  simp only [List.any_eq_true] at h ⊢
  obtain ⟨t, ht, hta⟩ := h
  exact ⟨t, ht, TypeName.same_trans hta hab⟩

/-- What was left out has the name of something that stays. -/
theorem any_newNames (ts : List TypeInfo) (name : String) :
    (newNames ts).any (fun t => TypeName.same t.name name)
      = ts.any (fun t => TypeName.same t.name name) := by
  induction ts using List.reverseRecOn with
  | nil => rfl
  | append_singleton ts t ih =>
    rw [newNames_concat, List.any_append]
    by_cases h : ts.any (fun u => TypeName.same u.name t.name) = true
    · rw [if_pos h, ih]
      by_cases htn : TypeName.same t.name name = true
      · rw [any_of_any_same h htn, Bool.true_or]
      · simp [htn]
    · rw [if_neg h, List.any_append, ih]

/-- The first type of a name stays, so looking among those that stay finds it. -/
theorem find?_newNames (ts : List TypeInfo) (name : String) :
    (newNames ts).find? (fun t => TypeName.same t.name name)
      = ts.find? (fun t => TypeName.same t.name name) := by
  induction ts using List.reverseRecOn with
  | nil => rfl
  | append_singleton ts t ih =>
    rw [newNames_concat, List.find?_append]
    by_cases h : ts.any (fun u => TypeName.same u.name t.name) = true
    · rw [if_pos h, ih]
      by_cases htn : TypeName.same t.name name = true
      · rw [Option.or_of_isSome (List.find?_isSome.2 (List.any_eq_true.1 (any_of_any_same h htn)))]
      · simp [htn]
    · rw [if_neg h, List.find?_append, ih]

/-! ## Registries -/

namespace Registry

theorem ext {r r' : Registry} (h : r.types = r'.types) : r = r' := by
  cases r
  cases r'
  cases h
  rfl

/-- A name denotes one type of a registry. -/
theorem eq_of_same {r : Registry} {t u : TypeInfo} (ht : t ∈ r.types) (hu : u ∈ r.types)
    (h : TypeName.same t.name u.name = true) : t = u := by
  refine List.Pairwise.forall_of_forall_of_flip
    (R := fun a b : TypeInfo => TypeName.same a.name b.name = true → a = b)
    (fun _ _ _ => rfl) (r.distinct.imp fun hab hsame => ?_) (r.distinct.imp fun hab hsame => ?_)
    ht hu h
  · rw [hab] at hsame
    cases hsame
  · rw [TypeName.same_symm hsame] at hab
    cases hab

theorem get?_eq_some_iff {r : Registry} {name : String} {t : TypeInfo} :
    r.get? name = some t ↔ t ∈ r.types ∧ TypeName.same t.name name = true := by
  have hfound {u : TypeInfo} (hu : r.get? name = some u) :
      u ∈ r.types ∧ TypeName.same u.name name = true := by
    have hsame := List.find?_some hu
    exact ⟨List.mem_of_find?_eq_some hu, hsame⟩
  refine ⟨hfound, ?_⟩
  rintro ⟨ht, hname⟩
  cases hget : r.get? name with
  | none =>
    have hnone := List.find?_eq_none.1 hget t ht
    exact absurd hname hnone
  | some u =>
    obtain ⟨hu, hun⟩ := hfound hget
    have hut : TypeName.same u.name t.name = true :=
      TypeName.same_trans hun (TypeName.same_symm hname)
    rw [eq_of_same hu ht hut]

theorem get?_eq_none_iff {r : Registry} {name : String} :
    r.get? name = none ↔ ∀ t ∈ r.types, TypeName.same t.name name = false := by
  unfold get?
  rw [List.find?_eq_none]
  simp only [Bool.not_eq_true]

theorem insert_fst (r : Registry) (t : TypeInfo) : (r.insert t).1 = !r.contains t.name := by
  unfold insert
  split
  · next h => rw [h]; rfl
  · next h => rw [Bool.not_eq_true _ |>.mp h]; rfl

theorem types_insert (r : Registry) (t : TypeInfo) :
    (r.insert t).2.types = if r.contains t.name then r.types else r.types ++ [t] := by
  unfold insert
  split <;> rfl

theorem ofList_concat (ts : List TypeInfo) (t : TypeInfo) :
    ofList (ts ++ [t]) = ((ofList ts).insert t).2 := by
  simp [ofList, insertAll]

/-- **A registry keeps the first type of each name.** -/
theorem types_ofList (ts : List TypeInfo) : (ofList ts).types = newNames ts := by
  induction ts using List.reverseRecOn with
  | nil => rfl
  | append_singleton ts t ih =>
    rw [ofList_concat, types_insert, newNames_concat]
    unfold contains
    rw [ih, any_newNames]

end Registry

/-! ## Insertion into an index -/

namespace Index

/-- An index looks up what a search through its types finds. -/
theorem get?_eq (x : Index) (name : String) : x.get? name = x.registry.get? name := by
  have hplaces := x.places_iff (TypeName.key name)
  unfold get?
  split
  · next place hplace =>
    obtain ⟨t, ht, hkey⟩ := (hplaces place).1 hplace
    obtain ⟨hlt, rfl⟩ := Array.getElem?_eq_some_iff.1 ht
    exact (x.registry.get?_eq_some_iff.2 ⟨Array.getElem_mem_toList hlt, TypeName.same_iff.2 hkey⟩).symm
  · next hnone =>
    symm
    rw [Registry.get?_eq_none_iff]
    intro t ht
    obtain ⟨place, hlt, rfl⟩ := List.getElem_of_mem ht
    rw [Bool.eq_false_iff, Ne, TypeName.same_iff]
    intro hkey
    have hsome := (hplaces place).2 ⟨_, Array.getElem?_eq_getElem hlt, hkey⟩
    rw [hnone] at hsome
    cases hsome

theorem contains_eq (x : Index) (name : String) : x.contains name = x.registry.contains name := by
  have hindex : x.contains name = (x.get? name).isSome := by
    unfold contains Table.contains get?
    split
    · next hplace => exact congrArg Option.isSome hplace
    · next hnone => exact congrArg Option.isSome hnone
  rw [hindex, get?_eq]
  exact List.isSome_find?

/-- An index takes in what a search through its types admits. -/
theorem insert_eq (x : Index) (t : TypeInfo) :
    (x.insert t).1 = (x.registry.insert t).1
    ∧ (x.insert t).2.registry = (x.registry.insert t).2 := by
  have hcontains := x.contains_eq t.name
  unfold insert Registry.insert
  by_cases h : x.contains t.name = true
  · rw [dif_pos h, dif_pos (hcontains ▸ h)]
    exact ⟨rfl, rfl⟩
  · rw [dif_neg h, dif_neg (hcontains ▸ h)]
    exact ⟨rfl, Registry.ext (Array.toList_push ..)⟩

theorem ofList_concat (ts : List TypeInfo) (t : TypeInfo) :
    ofList (ts ++ [t]) = ((ofList ts).insert t).2 := by
  unfold ofList
  rw [List.foldl_append]
  rfl

/-- **An index of some types makes their registry**, without a search for any of them. -/
theorem registry_ofList (ts : List TypeInfo) : (ofList ts).registry = Registry.ofList ts := by
  induction ts using List.reverseRecOn with
  | nil => rfl
  | append_singleton ts t ih =>
    rw [ofList_concat, Registry.ofList_concat, (insert_eq _ t).2, ih]

/-- Every type in front of it decides whether a type is taken in. -/
theorem insert_ofList (ts : List TypeInfo) (t : TypeInfo) :
    ((ofList ts).insert t).1 = !ts.any fun u => TypeName.same u.name t.name := by
  rw [(insert_eq _ t).1, registry_ofList, Registry.insert_fst]
  unfold Registry.contains
  rw [Registry.types_ofList, any_newNames]

end Index

/-! ## Sequences of insertions -/

namespace Index

/-- **The first type of each name stays**, for every sequence of insertions into an empty index. Names
are compared letter by letter. The index lists the types that agree in name with none inserted before
them, in the order of insertion, so no two of them agree. An insertion answers whether the type is one
of these. Places lead from the key of a name into the list, to the one type that has the key. A look-up
gives the first type of the sequence that has the name. In this way a survey makes a registry of the
types of the environment, if it takes them in, the supplied types, and the first declaration of every
source file that can be read. -/
theorem ofList_first_wins :
    (∀ a b, TypeName.same a b = true ↔ TypeName.Agree a b)
    ∧ (∀ ts : List TypeInfo,
      (ofList ts).types.toList = newNames ts
      ∧ (newNames ts).Pairwise (fun t u => TypeName.same t.name u.name = false)
      ∧ (∀ t, (ofList ts).insert t = (ts.all (fun u => !TypeName.same u.name t.name), ofList (ts ++ [t]))
        ∧ newNames (ts ++ [t]) = newNames ts ++ if ((ofList ts).insert t).1 then [t] else [])
      ∧ (∀ key place, (ofList ts).places.get? key = some place
        ↔ ∃ _ : place < (ofList ts).types.size, TypeName.key (ofList ts).types[place].name = key)
      ∧ ∀ name, (ofList ts).get? name = ts.find? (fun t => TypeName.same t.name name)
        ∧ ((ofList ts).contains name = true ↔ ∃ t ∈ ts, TypeName.same t.name name = true))
    ∧ (∀ (s : Survey) (fs : FileSystem) (roots : List Path),
      (s.registry fs roots).types = newNames ((if s.withEnvironment then Environment.types else [])
        ++ s.supplied ++ (s.files fs roots).filterMap Survey.typeOf?)
      ∧ ∀ name, (s.registry fs roots).get? name
        = (s.found (s.files fs roots)).find? fun t => TypeName.same t.name name)
    ∧ ∀ f t, Survey.typeOf? f = some t ↔ ∃ text outline, f.text? = some text
      ∧ Source.Outline.ofSource f.path.text text = .ok outline ∧ outline.types.head? = some t := by
  have htypes (ts : List TypeInfo) : (ofList ts).types.toList = newNames ts := by
    rw [← Registry.types_ofList, ← registry_ofList]
    rfl
  have hget (ts : List TypeInfo) (name : String) :
      (ofList ts).registry.get? name = ts.find? fun t => TypeName.same t.name name := by
    unfold Registry.get?
    rw [← find?_newNames ts, ← htypes ts]
    rfl
  refine ⟨TypeName.same_iff_agree, fun ts => ⟨htypes ts, ?_, fun t => ⟨?_, ?_⟩, fun key place => ?_,
    fun name => ⟨?_, ?_⟩⟩, fun s fs roots => ⟨htypes _, hget _⟩, fun f t => ?_⟩
  · rw [← htypes]
    exact (ofList ts).distinct
  · rw [ofList_concat, ← List.not_any_eq_all_not, ← insert_ofList]
  · rw [newNames_concat, insert_ofList]
    cases ts.any fun u => TypeName.same u.name t.name <;> simp
  · rw [(ofList ts).places_iff]
    simp only [Array.getElem?_eq_some_iff]
    constructor
    · rintro ⟨_, ⟨hlt, rfl⟩, hkey⟩
      exact ⟨hlt, hkey⟩
    · rintro ⟨hlt, hkey⟩
      exact ⟨_, ⟨hlt, rfl⟩, hkey⟩
  · rw [get?_eq, hget]
  · rw [contains_eq, ← List.any_eq_true, ← any_newNames, ← htypes]
    rfl
  · rw [Survey.typeOf?_eq, Option.bind_eq_some_iff]
    simp only [SourceFile.outline?_eq_some_iff]
    constructor
    · rintro ⟨outline, ⟨text, htext, houtline⟩, ht⟩
      exact ⟨text, outline, htext, houtline, ht⟩
    · rintro ⟨text, outline, htext, houtline, ht⟩
      exact ⟨outline, ⟨text, htext, houtline⟩, ht⟩

end Index
end Conformance
