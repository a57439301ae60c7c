import Conformance.Proofs.Source.Moves

/-!
# `Proofs.Source.Declared`: what holds of every type that is read

A reader does three things to types: it opens the declaration of one, enters a supertype into the last
one, and adds a method to it. A property that declarations have when they are opened and that the
other two keep, `Lasting`, holds of all types of an outline (`Outline.forall_mem_types`), whatever the
source text is. What is known of the tokens may be used for it (`Outline.forall_mem_ofTokens`).
-/

namespace Conformance
namespace Source
namespace Reader

variable {r r' : Reader} {t : Token} {file : String} {Q : Token → Prop} {P : TypeInfo → Prop}

/-- The type whose declaration is opened. -/
def opening (r : Reader) (kind : TypeKind) (modifiers : TypeModifiers) (shortName : String) :
    TypeInfo :=
  { (TypeInfo.named kind (TypeName.qualify r.scope shortName)).inFile r.file with
    isAbstract := kind == .cls && modifiers.isAbstract
    isFinal := kind == .cls && modifiers.isFinal }

theorem types_openType (r : Reader) (kind : TypeKind) (modifiers : TypeModifiers)
    (shortName : String) : (r.openType kind modifiers shortName).types
      = r.types.push (r.opening kind modifiers shortName) := by
  cases kind <;> rfl

/-- A property of types that lasts while a file is read, all of whose tokens have the property `Q`. -/
structure Lasting (file : String) (Q : Token → Prop) (P : TypeInfo → Prop) : Prop where
  opening : ∀ r : Reader, r.file = file → ∀ kind modifiers (t : Token), t.kind = .word → Q t →
    P (r.opening kind modifiers t.text)
  supertype : ∀ (r : Reader) clause name info, P info →
    P (addSupertype clause (r.resolve name) info)
  method : ∀ member name info, P info → P (info.addMethod (declaredMethod info.kind member name))

/-- A property that a change keeps holds of all types after it is made to one of them. -/
theorem forall_mem_modify {types : Array TypeInfo} {f : TypeInfo → TypeInfo}
    (h : ∀ info ∈ types, P info) (hf : ∀ info, P info → P (f info)) (i : Nat) :
    ∀ info ∈ types.modify i f, P info := by
  intro info hinfo
  obtain ⟨j, hj⟩ := Array.mem_iff_getElem?.1 hinfo
  rw [Array.getElem?_modify] at hj
  split at hj
  · obtain ⟨old, hold, rfl⟩ := Option.map_eq_some_iff.1 hj
    exact hf old (h old (Array.mem_of_getElem? hold))
  · exact h info (Array.mem_of_getElem? hj)

theorem forall_mem_flushName (hP : Lasting file Q P) (h : ∀ info ∈ r.types, P info) (i : Nat)
    (c : Clause) (n : String) : ∀ info ∈ (r.flushName i c n).types, P info := by
  unfold flushName
  split
  · exact h
  · exact forall_mem_modify h (hP.supertype r c n) i

/-- **A move keeps what lasts**, and the file stays the same. -/
theorem forall_mem_move (hP : Lasting file Q P) (ht : Q t) (hfile : r.file = file)
    (h : ∀ info ∈ r.types, P info) (hm : Move t r r') :
    r'.file = file ∧ ∀ info ∈ r'.types, P info := by
  cases hm with
  | rest scope imports pending member => exact ⟨hfile, h⟩
  | construct phase imports pending hp hr => exact ⟨hfile, h⟩
  | enterScope text scope hr => exact ⟨hfile, h⟩
  | enterBlock pending member => exact ⟨hfile, h⟩
  | leaveBody i frames hf => exact ⟨hfile, h⟩
  | leave f frames hf hb scope imports => exact ⟨hfile, h⟩
  | declare kind modifiers hr hword =>
    refine ⟨hfile, fun info hinfo => ?_⟩
    rw [types_openType, Array.mem_push] at hinfo
    rcases hinfo with hold | rfl
    · exact h info hold
    · exact hP.opening r hfile kind modifiers t hword ht
  | header i c c' n n' hr types hs =>
    rcases hs with rfl | rfl
    · exact ⟨hfile, h⟩
    · exact ⟨hfile, forall_mem_flushName hP h i c n⟩
  | headerEnd i c n hr => exact ⟨hfile, forall_mem_flushName hP h i c n⟩
  | enterBody i c n hr => exact ⟨hfile, forall_mem_flushName hP h i c n⟩
  | method i hf member => exact ⟨hfile, forall_mem_modify h (hP.method r.member t.text) i⟩

/-- **What lasts holds all along a walk.** -/
theorem forall_mem_walk (hP : Lasting file Q P) (limit : Option Nat) (previous : Option Token)
    {ts : List Token} (hts : ∀ t ∈ ts, Q t) (hfile : r.file = file) (h : ∀ info ∈ r.types, P info) :
    ∀ info ∈ (walk limit r previous ts).types, P info := by
  induction ts generalizing r previous with
  | nil => exact h
  | cons t ts ih =>
    rw [List.forall_mem_cons] at hts
    obtain ⟨hfile', h'⟩ := forall_mem_move hP hts.1 hfile h (step_move r previous t)
    simp only [walk]
    split
    · exact h'
    · exact ih (some t) hts.2 hfile' h'

/-- A type stands for the file that it was read from. -/
theorem lasting_file (file : String) : Lasting file Q fun info => info.file = some file where
  opening r hfile kind modifiers t _ _ := congrArg some hfile
  supertype r clause name info h := by
    unfold addSupertype TypeInfo.addInterface
    split
    · exact h
    · split <;> exact h
    · exact h
    · split <;> exact h
  method member name info h := h

end Reader

/-- What lasts while tokens are read holds of every type that the reading reports. -/
theorem Outline.forall_mem_ofTokens {file : String} {Q : Token → Prop} {P : TypeInfo → Prop}
    (hP : Reader.Lasting file Q P) (limit : Option Nat) {ts : List Token} (hts : ∀ t ∈ ts, Q t) :
    ∀ info ∈ (ofTokens file limit ts).types, P info := by
  have hread : ∀ t ∈ ts.filter (fun t => !t.isTrivia), Q t := fun t ht => hts t (List.mem_filter.1 ht).1
  have hall := Reader.forall_mem_walk (r := { file }) hP limit none hread rfl nofun
  intro info hinfo
  refine hall info (Array.mem_toList_iff.1 ?_)
  -- a limit leaves out types at the end
  cases limit with
  | none => exact hinfo
  | some n => exact List.mem_of_mem_take hinfo

/-- **What lasts while a file is read holds of every type of its outline.** -/
theorem Outline.forall_mem_types {file source : String} {P : TypeInfo → Prop} {outline : Outline}
    (hP : Reader.Lasting file (fun _ => True) P) (h : ofSource file source = .ok outline) :
    ∀ info ∈ outline.types, P info := by
  unfold ofSource at h
  cases htokens : tokens source with
  | error cause => rw [htokens] at h; cases h
  | ok ts =>
    rw [htokens] at h
    cases h
    exact forall_mem_ofTokens hP none fun _ _ => trivial

end Source
end Conformance
