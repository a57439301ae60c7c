import Conformance.Proofs.Source.Detection

/-!
# `Proofs.Source.WellFormed`: what every declared type is like

A type is read bit by bit: its name opens the declaration, each supertype of the header is entered when
its name is complete, each method when its name comes. Headers and bodies may be malformed in any way,
clauses may come twice and in any order, and a name may have separators wherever they were written. What
is `WellFormed` about a type is true when its declaration is opened and is kept by a supertype that is
entered and by a method that is added, so it holds of every type of every source text that has tokens
(`Outline.wellFormed_of_tokens`).
-/

namespace Conformance

/-- A name without a separator in front. -/
def TypeName.IsBare (name : String) : Prop := name.toList.head? ≠ some TypeName.separator

namespace TypeInfo

open Source (Token Outline tokens)

/-- **A well-formed type of a file** in which the tokens `ts` were read. -/
structure WellFormed (file : String) (ts : List Token) (info : TypeInfo) : Prop where
  file_eq : info.file = some file
  isInternal_eq : info.isInternal = false
  isBare_name : TypeName.IsBare info.name
  /-- The last part of the name is a word that was read. -/
  shortName_mem : ∃ t ∈ ts, t.kind = .word ∧ t.text = info.shortName
  /-- Only classes have modifiers. -/
  unmodified : info.kind ≠ .cls → info.isAbstract = false ∧ info.isFinal = false
  /-- An interface has no parent class, and its methods have no bodies. -/
  interface : info.kind = .interface → info.parent = none ∧ ∀ m ∈ info.methods, m.isAbstract = true
  /-- No interface is named twice. -/
  distinct : info.interfaces.Pairwise fun a b => TypeName.same a b = false
  isBare_interfaces : ∀ i ∈ info.interfaces, TypeName.IsBare i
  constructors : ∀ m ∈ info.methods, m.isConstructor = true ↔ Text.foldCase m.name = "__construct"

variable {file : String} {ts : List Token} {info : TypeInfo}

/-! ## What a reader does to a type -/

/-- A declaration is opened: the word behind its keyword becomes the last part of the name. -/
theorem wellFormed_opening {r : Source.Reader} (hfile : r.file = file) (kind : TypeKind)
    (modifiers : Source.TypeModifiers) {t : Token} (ht : t ∈ ts) (hword : t.kind = .word)
    (hname : TypeName.separator ∉ t.text.toList) :
    (r.opening kind modifiers t.text).WellFormed file ts where
  file_eq := congrArg some hfile
  isInternal_eq := rfl
  isBare_name := TypeName.head?_bare_ne _
  shortName_mem := ⟨t, ht, hword, (TypeName.shortPart_qualify r.scope hname).symm⟩
  unmodified hkind := by
    have hcls : (kind == TypeKind.cls) = false := beq_eq_false_iff_ne.2 hkind
    unfold Source.Reader.opening
    dsimp only
    rw [hcls]
    exact ⟨rfl, rfl⟩
  interface _ := ⟨rfl, nofun⟩
  distinct := .nil
  isBare_interfaces := nofun
  constructors := nofun

/-- An interface is added at most once, and without separators in front. -/
theorem WellFormed.addInterface (h : info.WellFormed file ts) (name : String) :
    (info.addInterface name).WellFormed file ts := by
  unfold TypeInfo.addInterface
  split
  · exact h
  · next hnew =>
    have hnew : ∀ i ∈ info.interfaces, TypeName.same i (TypeName.bare name) = false := by
      simp only [List.any_eq_true, not_exists, not_and, Bool.not_eq_true] at hnew
      intro i hi
      have hkey : TypeName.key (TypeName.bare name) = TypeName.key name :=
        congrArg Text.foldCase (TypeName.bare_bare name)
      unfold TypeName.same
      rw [hkey]
      exact hnew i hi
    refine { h with distinct := ?_, isBare_interfaces := ?_ }
    · refine List.pairwise_append.2 ⟨h.distinct, List.pairwise_singleton _ _, ?_⟩
      intro i hi j hj
      rw [List.mem_singleton.1 hj]
      exact hnew i hi
    · intro i hi
      rcases List.mem_append.1 hi with hi | hi
      · exact h.isBare_interfaces i hi
      · rw [List.mem_singleton.1 hi]
        exact TypeName.head?_bare_ne name

/-- What an interface extends are interfaces, so it never gets a parent class. -/
theorem WellFormed.addSupertype (h : info.WellFormed file ts) (clause : Source.Clause) (name : String) :
    (Source.Reader.addSupertype clause name info).WellFormed file ts := by
  unfold Source.Reader.addSupertype
  split
  · exact h
  · exact h.addInterface name
  · next hkind => exact { h with interface := fun hinterface => absurd hinterface hkind }
  · exact h.addInterface name

/-- The kind of the type makes a method abstract, and its name makes it a constructor. -/
theorem WellFormed.addMethod (h : info.WellFormed file ts) (member : Source.MemberModifiers)
    (name : String) :
    (info.addMethod (Source.Reader.declaredMethod info.kind member name)).WellFormed file ts := by
  refine { h with interface := fun hkind => ⟨(h.interface hkind).1, ?_⟩, constructors := ?_ }
  · intro m hm
    rcases List.mem_append.1 hm with hm | hm
    · exact (h.interface hkind).2 m hm
    · have hkind : info.kind = .interface := hkind
      rw [List.mem_singleton.1 hm, Source.Reader.declaredMethod, hkind]
      exact Bool.or_true _
  · intro m hm
    rcases List.mem_append.1 hm with hm | hm
    · exact h.constructors m hm
    · rw [List.mem_singleton.1 hm]
      exact Text.sameFolded_iff

end TypeInfo

namespace Source

/-- **Well-formedness lasts** while words are read that have no separator in them. -/
theorem Reader.lasting_wellFormed (file : String) (ts : List Token) :
    Lasting file (fun t => t ∈ ts ∧ (t.kind = .word → TypeName.separator ∉ t.text.toList))
      (TypeInfo.WellFormed file ts) where
  opening _ hfile kind modifiers _ hword ht :=
    TypeInfo.wellFormed_opening hfile kind modifiers ht.1 hword (ht.2 hword)
  supertype r clause name _ h := h.addSupertype clause (r.resolve name)
  method member name _ h := h.addMethod member name

namespace Outline

/-- **Every type that is reported is well-formed**, whatever was declared how: all types of the source
text, and its first one when only this is read. -/
theorem wellFormed_of_tokens {source : String} {ts : List Token} (h : tokens source = .ok ts)
    (file : String) :
    (∃ o, ofSource file source = .ok o ∧ ∀ info ∈ o.types, info.WellFormed file ts)
    ∧ ∃ first, firstOfSource file source = .ok first ∧ ∀ info ∈ first, info.WellFormed file ts := by
  have hts : ∀ t ∈ ts, t ∈ ts ∧ (t.kind = .word → TypeName.separator ∉ t.text.toList) :=
    fun t ht => ⟨ht, separator_not_mem_of_tokens h ht⟩
  have hall (limit : Option Nat) : ∀ info ∈ (ofTokens file limit ts).types, info.WellFormed file ts :=
    forall_mem_ofTokens (Reader.lasting_wellFormed file ts) limit hts
  unfold ofSource firstOfSource
  rw [h]
  refine ⟨⟨_, rfl, hall none⟩, _, rfl, fun info hinfo => ?_⟩
  exact hall (some 1) info (List.mem_of_mem_head? hinfo)

/-- An interface with two spellings of one name, two clauses for one purpose and a clause it cannot have. -/
def shapeSource : String :=
  "<?php namespace Geo; final interface Shape extends \\Countable, \\\\COUNTABLE "
    ++ "extends namespace\\Flat implements Flat \x7b function __CONSTRUCT(); \x7d"

theorem wellFormed_of_tokens_of_shape :
    ∃ ts o, tokens shapeSource = .ok ts ∧ ofSource "a.php" shapeSource = .ok o
      ∧ o.types.map TypeInfo.interfaces = [["Countable", "Geo\\Flat"]]
      ∧ ∀ info ∈ o.types, info.WellFormed "a.php" ts := by
  have hread : (ofSource "a.php" shapeSource).map (fun o => o.types.map TypeInfo.interfaces)
      = .ok [["Countable", "Geo\\Flat"]] := by decide +kernel
  cases htokens : tokens shapeSource with
  | error cause =>
    unfold ofSource at hread
    rw [htokens] at hread
    cases hread
  | ok ts =>
    obtain ⟨⟨o, hsource, hall⟩, _⟩ := wellFormed_of_tokens htokens "a.php"
    rw [hsource] at hread
    exact ⟨ts, o, rfl, hsource, Except.ok.inj hread, hall⟩

end Outline
end Source
end Conformance
