import Conformance.Proofs.Source.Moves

/-!
# `Proofs.Source.Coherence`: how phase, frames and types of a reader fit together

A reader keeps three things that could contradict one another: the construct it is in, the stack of
open braces, and the types read so far. `Coherent` says how they fit. The open frames are namespaces
below at most one type body below blocks; a construct is only read while nothing but namespaces is
open; and the type whose header or body is open is the last one of the list, with fewer bodies closed
than types stand before it. Every move keeps this (`coherent_move`), so it holds all along a walk.

The types in front of all that is open are `Settled`: no token that follows changes them.
-/

namespace Conformance
namespace Source

/-- The shape of the open frames, the innermost one first, with the type whose body is open. -/
inductive Stack : List Frame → Option Nat → Prop where
  | scopes {fs : List Frame} (h : ∀ f ∈ fs, f = .scope) : Stack fs none
  | body {fs : List Frame} {i : Nat} (h : ∀ f ∈ fs, f = .scope) : Stack (.body i :: fs) (some i)
  | block {fs : List Frame} {owner : Option Nat} (h : Stack fs owner) : Stack (.block :: fs) owner

/-- The only body in the stack is the one of its owner. -/
theorem Stack.owner_of_mem {fs : List Frame} {owner : Option Nat} (h : Stack fs owner) {i : Nat}
    (hi : Frame.body i ∈ fs) : owner = some i := by
  induction h with
  | scopes hall =>
    have := hall _ hi
    cases this
  | body hall =>
    rcases List.mem_cons.1 hi with hi | hi
    · cases hi
      rfl
    · have := hall _ hi
      cases this
  | block hrest ih =>
    rcases List.mem_cons.1 hi with hi | hi
    · cases hi
    · exact ih hi

namespace Reader

/-- The type at `i` is the last one, and only bodies of types before it were closed. -/
def IsLast (r : Reader) (i : Nat) : Prop :=
  i + 1 = r.types.size ∧ r.completed ≤ i

/-- **Phase, frames and types agree.** -/
structure Coherent (r : Reader) : Prop where
  stack : ∃ owner, Stack r.frames owner ∧ ∀ i, owner = some i → r.IsLast i
  outer : r.phase ≠ .idle → r.atDeclarationScope = true
  header : ∀ i c n, r.phase = .header i c n → r.IsLast i
  completed_le : r.completed ≤ r.types.size

variable {r r' : Reader} {t : Token}

theorem coherent_start (file : String) : Coherent { file } where
  stack := ⟨none, .scopes (by simp), by simp⟩
  outer h := absurd rfl h
  header i c n h := by cases h
  completed_le := Nat.le_refl 0

theorem atDeclarationScope_iff : r.atDeclarationScope = true ↔ ∀ f ∈ r.frames, f = .scope := by
  simp [atDeclarationScope, List.all_eq_true]

@[simp] theorem size_flushName (r : Reader) (i : Nat) (c : Clause) (n : String) :
    (r.flushName i c n).types.size = r.types.size := by
  unfold flushName
  split
  · rfl
  · exact Array.size_modify

/-- While a construct is read, nothing but namespaces is open. -/
theorem Coherent.scopes (h : Coherent r) (hp : r.phase ≠ .idle) : ∀ f ∈ r.frames, f = .scope :=
  atDeclarationScope_iff.1 (h.outer hp)

/-- An idle reader is coherent if its frames and types are. -/
theorem Coherent.of_idle (hp : r.phase = .idle)
    (hs : ∃ owner, Stack r.frames owner ∧ ∀ i, owner = some i → r.IsLast i)
    (hc : r.completed ≤ r.types.size) : Coherent r where
  stack := hs
  outer h := absurd hp h
  header i c n h := by rw [hp] at h; cases h
  completed_le := hc

/-- **A move keeps phase, frames and types in agreement.** -/
theorem coherent_move (h : Coherent r) (hm : Move t r r') : Coherent r' := by
  obtain ⟨owner, hstack, hlast⟩ := h.stack
  have hle := h.completed_le
  cases hm with
  | rest scope imports pending member => exact .of_idle rfl h.stack hle
  | construct phase imports pending hp hr =>
    refine ⟨h.stack, fun _ => hr.elim h.outer id, ?_, hle⟩
    intro i c n hphase
    -- the construct is no header
    have hphase : phase = .header i c n := hphase
    rw [hphase] at hp
    cases hp
  | enterScope text scope hr =>
    have hscopes := h.scopes (by rw [hr]; simp)
    refine .of_idle rfl ⟨none, .scopes ?_, by simp⟩ hle
    intro f hf
    rcases List.mem_cons.1 hf with hf | hf
    · exact hf
    · exact hscopes f hf
  | enterBlock pending member => exact .of_idle rfl ⟨owner, .block hstack, hlast⟩ hle
  | leaveBody i frames hf =>
    rw [hf] at hstack
    cases hstack with
    | scopes hall => exact absurd (hall _ List.mem_cons_self) (by simp)
    | body hall =>
      -- one more body is closed, and its type is the last one
      have hi : i + 1 = r.types.size ∧ r.completed ≤ i := hlast i rfl
      refine .of_idle rfl ⟨none, .scopes hall, by simp⟩ ?_
      show r.completed + 1 ≤ r.types.size
      omega
  | leave f frames hf hb scope imports =>
    rw [hf] at hstack
    cases hstack with
    | scopes hall =>
      exact .of_idle rfl ⟨none, .scopes fun f hmem => hall f (List.mem_cons_of_mem _ hmem),
        by simp⟩ hle
    | body _ => exact absurd rfl (hb _)
    | block hrest => exact .of_idle rfl ⟨owner, hrest, hlast⟩ hle
  | declare kind modifiers hr ht =>
    have hne : r.phase ≠ .idle := by rw [hr]; simp
    have hsize : (r.openType kind modifiers t.text).types.size = r.types.size + 1 :=
      Array.size_push _
    refine ⟨⟨none, .scopes (h.scopes hne), by simp⟩, fun _ => h.outer hne, ?_, ?_⟩
    · -- the new type is the last one, and no body was closed for it
      intro i c n hphase
      injection hphase with hi _ _
      subst hi
      exact ⟨hsize.symm, hle⟩
    · rw [hsize]
      exact Nat.le_succ_of_le hle
  | header i c c' n n' hr types hs =>
    have hne : r.phase ≠ .idle := by rw [hr]; simp
    have hsize : types.size = r.types.size := by
      rcases hs with rfl | rfl
      · rfl
      · exact size_flushName r i c n
    have hi : i + 1 = r.types.size ∧ r.completed ≤ i := h.header i c n hr
    refine ⟨⟨none, .scopes (h.scopes hne), by simp⟩, fun _ => h.outer hne, ?_, ?_⟩
    · intro j d m hphase
      injection hphase with hj _ _
      subst hj
      exact ⟨hi.1.trans hsize.symm, hi.2⟩
    · show r.completed ≤ types.size
      omega
  | headerEnd i c n hr =>
    have hne : r.phase ≠ .idle := by rw [hr]; simp
    refine .of_idle rfl ⟨none, .scopes (h.scopes hne), by simp⟩ ?_
    show r.completed ≤ (r.flushName i c n).types.size
    rw [size_flushName]
    exact hle
  | enterBody i c n hr =>
    have hi : i + 1 = r.types.size ∧ r.completed ≤ i := h.header i c n hr
    have hsize := size_flushName r i c n
    refine .of_idle rfl ⟨some i, .body (h.scopes (by rw [hr]; simp)), ?_⟩ ?_
    · intro j hj
      cases hj
      exact ⟨hi.1.trans hsize.symm, hi.2⟩
    · show r.completed ≤ (r.flushName i c n).types.size
      omega
  | method i hf member =>
    refine .of_idle rfl ⟨owner, hstack, ?_⟩ ?_
    · intro j hj
      obtain ⟨hj₁, hj₂⟩ := hlast j hj
      exact ⟨hj₁.trans Array.size_modify.symm, hj₂⟩
    · show r.completed ≤ (r.types.modify i _).size
      rw [Array.size_modify]
      exact hle

theorem coherent_step (h : Coherent r) (previous : Option Token) (t : Token) :
    Coherent (r.step previous t) :=
  coherent_move h (step_move r previous t)

/-- **Coherence holds all along a walk.** -/
theorem coherent_walk (limit : Option Nat) (h : Coherent r) (previous : Option Token)
    (ts : List Token) : Coherent (walk limit r previous ts) := by
  induction ts generalizing r previous with
  | nil => exact h
  | cons t ts ih =>
    have hstep := coherent_step h previous t
    simp only [walk]
    split
    · exact hstep
    · exact ih hstep (some t)

/-! ## Settled types -/

/-- **The first `n` types are settled**: the header and the body that are open belong to types behind
them. -/
structure Settled (n : Nat) (r : Reader) : Prop where
  size : n ≤ r.types.size
  header : ∀ i c name, r.phase = .header i c name → n ≤ i
  body : ∀ i, Frame.body i ∈ r.frames → n ≤ i

/-- As many types are settled as bodies were closed. -/
theorem Coherent.settled (h : Coherent r) {n : Nat} (hn : n ≤ r.completed) : Settled n r where
  size := Nat.le_trans hn h.completed_le
  header i c name hphase := Nat.le_trans hn (h.header i c name hphase).2
  body i hi := by
    obtain ⟨owner, hstack, hlast⟩ := h.stack
    exact Nat.le_trans hn (hlast i (hstack.owner_of_mem hi)).2

theorem take_modify_of_le {α : Type} {l : List α} {f : α → α} {n i : Nat} (h : n ≤ i) :
    (l.modify i f).take n = l.take n := by
  have hlen : (l.take n).length ≤ i := Nat.le_trans (List.length_take_le n l) h
  rw [List.take_modify, List.modify_eq_self hlen]

/-- A supertype that is entered into a type behind the settled ones changes none of them. -/
theorem take_flushName {i n : Nat} {c : Clause} {name : String} (h : n ≤ i) :
    (r.flushName i c name).types.toList.take n = r.types.toList.take n := by
  unfold flushName
  split
  · rfl
  · show (r.types.modify i _).toList.take n = _
    rw [Array.toList_modify, take_modify_of_le h]

theorem Settled.of_idle {n : Nat} (hp : r.phase = .idle) (hsize : n ≤ r.types.size)
    (hbody : ∀ i, Frame.body i ∈ r.frames → n ≤ i) : Settled n r where
  size := hsize
  header i c name h := by rw [hp] at h; cases h
  body := hbody

/-- **A move changes no settled type**, and settled types stay settled. -/
theorem Settled.move {n : Nat} (h : Settled n r) (hm : Move t r r') :
    Settled n r' ∧ r'.types.toList.take n = r.types.toList.take n := by
  have hflush (i : Nat) (c : Clause) (name : String) : n ≤ (r.flushName i c name).types.size := by
    rw [size_flushName]
    exact h.size
  -- a frame that is no body can be pushed, and any frame can be popped
  have hpush (f : Frame) (hf : ∀ i, f ≠ .body i) : ∀ i, Frame.body i ∈ f :: r.frames → n ≤ i := by
    intro i hi
    rcases List.mem_cons.1 hi with hi | hi
    · exact absurd hi.symm (hf i)
    · exact h.body i hi
  have hpop (f : Frame) (frames : List Frame) (hf : r.frames = f :: frames) :
      ∀ i, Frame.body i ∈ frames → n ≤ i := by
    intro i hi
    apply h.body
    rw [hf]
    exact List.mem_cons_of_mem f hi
  cases hm with
  | rest scope imports pending member => exact ⟨.of_idle rfl h.size h.body, rfl⟩
  | construct phase imports pending hp hr =>
    refine ⟨⟨h.size, ?_, h.body⟩, rfl⟩
    intro i c name hphase
    have hphase : phase = .header i c name := hphase
    rw [hphase] at hp
    cases hp
  | enterScope text scope hr => exact ⟨.of_idle rfl h.size (hpush .scope (by simp)), rfl⟩
  | enterBlock pending member => exact ⟨.of_idle rfl h.size (hpush .block (by simp)), rfl⟩
  | leaveBody i frames hf => exact ⟨.of_idle rfl h.size (hpop _ frames hf), rfl⟩
  | leave f frames hf hb scope imports => exact ⟨.of_idle rfl h.size (hpop f frames hf), rfl⟩
  | declare kind modifiers hr ht =>
    refine ⟨⟨?_, ?_, h.body⟩, ?_⟩
    · show n ≤ (r.types.push _).size
      rw [Array.size_push]
      exact Nat.le_succ_of_le h.size
    · -- the new type stands behind all others
      intro i c name hphase
      injection hphase with hi _ _
      subst hi
      exact h.size
    · show (r.types.push _).toList.take n = _
      rw [Array.toList_push, List.take_append_of_le_length h.size]
  | header i c c' name name' hr types hs =>
    have hi := h.header i c name hr
    refine ⟨⟨?_, ?_, h.body⟩, ?_⟩
    · rcases hs with rfl | rfl
      · exact h.size
      · exact hflush i c name
    · intro j d m hphase
      injection hphase with hj _ _
      subst hj
      exact hi
    · rcases hs with rfl | rfl
      · rfl
      · exact take_flushName hi
  | headerEnd i c name hr =>
    exact ⟨.of_idle rfl (hflush i c name) h.body, take_flushName (h.header i c name hr)⟩
  | enterBody i c name hr =>
    have hi := h.header i c name hr
    refine ⟨.of_idle rfl (hflush i c name) ?_, take_flushName hi⟩
    intro j hj
    rcases List.mem_cons.1 hj with hj | hj
    · cases hj
      exact hi
    · exact h.body j hj
  | method i hf member =>
    refine ⟨.of_idle rfl ?_ h.body, ?_⟩
    · show n ≤ (r.types.modify i _).size
      rw [Array.size_modify]
      exact h.size
    · show (r.types.modify i _).toList.take n = _
      rw [Array.toList_modify, take_modify_of_le (h.body i (List.mem_of_head? hf))]

/-- **The rest of the tokens leaves settled types alone.** -/
theorem Settled.take_walk {n : Nat} (h : Settled n r) (previous : Option Token) (ts : List Token) :
    (walk none r previous ts).types.toList.take n = r.types.toList.take n := by
  induction ts generalizing r previous with
  | nil => rfl
  | cons t ts ih =>
    obtain ⟨hsettled, htake⟩ := h.move (step_move r previous t)
    exact (ih hsettled (some t)).trans htake

end Reader
end Source
end Conformance
