import Conformance.Source.Outline

/-!
# `Proofs.Source.Moves`: what one token can do to a reader

`Reader.step` branches on the phase, on the innermost frame and on the token. The relation `Move`
says what can come out of it: each of its rules names the part of the reader that changes and
fixes everything else. `step_move` is the only proof that opens the branches; whatever a step
preserves is shown by cases on `Move`.
-/

namespace Conformance
namespace Source

/-- The reader is in the header of a type. -/
def Phase.isHeader : Phase → Bool
  | header .. => true
  | _ => false

namespace Reader

/-! ## The moves -/

/-- **What one token can do.** The fields that a rule does not name stay as they are. -/
inductive Move (t : Token) (r : Reader) : Reader → Prop where
  /-- Nothing is read, or a construct ends. -/
  | rest (scope : String) (imports : List (String × String)) (pending : TypeModifiers)
      (member : MemberModifiers) :
      Move t r { r with phase := .idle, scope, imports, pending, member }
  /-- A construct other than a header begins or goes on. -/
  | construct (phase : Phase) (imports : List (String × String)) (pending : TypeModifiers)
      (hp : phase.isHeader = false) (hr : r.phase ≠ .idle ∨ r.atDeclarationScope = true) :
      Move t r { r with phase, imports, pending }
  /-- The brace of a namespace. -/
  | enterScope (text scope : String) (hr : r.phase = .scopeName text) :
      Move t r { r with phase := .idle, scope, imports := [], frames := .scope :: r.frames }
  /-- A brace that belongs to no construct. -/
  | enterBlock (pending : TypeModifiers) (member : MemberModifiers) :
      Move t r { r with phase := .idle, frames := .block :: r.frames, pending, member }
  /-- The end of a type body. -/
  | leaveBody (i : Nat) (frames : List Frame) (hf : r.frames = .body i :: frames) :
      Move t r { r with
        phase := .idle, frames, pending := {}, member := {}, completed := r.completed + 1 }
  /-- The end of a namespace or a block. -/
  | leave (f : Frame) (frames : List Frame) (hf : r.frames = f :: frames)
      (hb : ∀ i, f ≠ .body i) (scope : String) (imports : List (String × String)) :
      Move t r { r with phase := .idle, frames, scope, imports, pending := {}, member := {} }
  /-- The name of a type. -/
  | declare (kind : TypeKind) (modifiers : TypeModifiers) (hr : r.phase = .typeName kind modifiers)
      (ht : t.kind = .word) : Move t r (r.openType kind modifiers t.text)
  /-- The header goes on. -/
  | header (i : Nat) (c c' : Clause) (n n' : String) (hr : r.phase = .header i c n)
      (types : Array TypeInfo) (hs : types = r.types ∨ types = (r.flushName i c n).types) :
      Move t r { r with phase := .header i c' n', types }
  /-- The header ends without a body. -/
  | headerEnd (i : Nat) (c : Clause) (n : String) (hr : r.phase = .header i c n) :
      Move t r { r with phase := .idle, types := (r.flushName i c n).types }
  /-- The brace of a type body. -/
  | enterBody (i : Nat) (c : Clause) (n : String) (hr : r.phase = .header i c n) :
      Move t r { r with
        phase := .idle, types := (r.flushName i c n).types
        frames := .body i :: r.frames, member := {} }
  /-- The name of a method. -/
  | method (i : Nat) (hf : r.frames.head? = some (.body i)) (member : MemberModifiers) :
      Move t r { r with
        phase := .idle, member
        types := r.types.modify i fun info =>
          info.addMethod (declaredMethod info.kind r.member t.text) }

variable {r : Reader} {t : Token}

/-- A name that is entered changes the types alone. -/
theorem flushName_eq (r : Reader) (i : Nat) (c : Clause) (n : String) :
    r.flushName i c n = { r with types := (r.flushName i c n).types } := by
  unfold flushName
  split <;> rfl

/-- An import that is entered changes the imports alone. -/
theorem commit_eq (r : Reader) (i : Import) :
    (r.commit i).1 = { r with imports := (r.commit i).1.imports } := by
  unfold commit
  split <;> rfl

theorem move_scopeStep {text : String} (h : r.phase = .scopeName text) :
    Move t r (r.scopeStep text t) := by
  have hne : r.phase ≠ .idle := by rw [h]; simp
  unfold scopeStep
  split
  · split
    · -- the word `namespace` began a relative name
      exact .rest r.scope r.imports r.pending r.member
    · exact .construct (.scopeName (text ++ t.text)) r.imports r.pending rfl (.inl hne)
  · -- the name is complete, and a brace may open the namespace
    split
    · exact .enterScope text (Text.trim text) h
    · exact .rest (Text.trim text) [] r.pending r.member

theorem move_importNameStep {i i' : Import} (h : r.phase = .importing i) :
    Move t r (r.importNameStep i' t) := by
  have hne : r.phase ≠ .idle := by rw [h]; simp
  have going (j : Import) (imports : List (String × String)) :
      Move t r { r with phase := .importing j, imports } :=
    .construct (.importing j) imports r.pending rfl (.inl hne)
  unfold importNameStep
  split
  · exact going _ r.imports
  · split
    · split
      · exact going _ r.imports
      · exact going _ r.imports
    · split
      · exact going _ r.imports
      · split
        · -- a comma or a closing brace enters the name and goes on
          dsimp only
          rw [commit_eq]
          exact going _ _
        · -- anything else enters it and ends the statement
          rw [commit_eq]
          exact .rest r.scope _ r.pending r.member

theorem move_importStep {i : Import} (h : r.phase = .importing i) :
    Move t r (r.importStep i t) := by
  have hne : r.phase ≠ .idle := by rw [h]; simp
  have stay (j : Import) : Move t r { r with phase := .importing j } :=
    .construct (.importing j) r.imports r.pending rfl (.inl hne)
  unfold importStep
  split
  · -- imports of functions and constants are passed over
    split
    · exact .rest r.scope r.imports r.pending r.member
    · exact stay i
  · split
    · exact move_importNameStep h
    · split
      · -- the capture list of a closure
        exact .rest r.scope r.imports r.pending r.member
      · split
        · exact stay _
        · exact move_importNameStep h

theorem move_headerStep {i : Nat} {c : Clause} {n : String} (h : r.phase = .header i c n) :
    Move t r (r.headerStep i c n t) := by
  unfold headerStep
  rw [flushName_eq]
  split
  · exact .header i c .extending n "" h _ (.inr rfl)
  · split
    · exact .header i c .implementing n "" h _ (.inr rfl)
    · split
      · exact .header i c c n (n ++ t.text) h r.types (.inl rfl)
      · split
        · exact .header i c c n "" h _ (.inr rfl)
        · -- the header ends, with a body behind a brace only
          dsimp only
          split
          · exact .enterBody i c n h
          · exact .headerEnd i c n h

theorem move_memberStep {i : Nat} (hf : r.frames.head? = some (.body i)) :
    Move t r ({ r with phase := .idle }.memberStep i t) := by
  unfold memberStep
  split
  · exact .enterBlock r.pending {}
  · split
    · exact .rest r.scope r.imports r.pending {}
    · split
      · -- no word
        split
        · exact .rest r.scope r.imports r.pending r.member
        · exact .rest r.scope r.imports r.pending _
      · split
        · -- the word behind `function` is the name of a method
          exact .method i hf _
        · exact .rest r.scope r.imports r.pending _

theorem move_keywordStep {previous : Option Token} (hs : r.atDeclarationScope = true) :
    Move t r ({ r with phase := .idle }.keywordStep previous t) := by
  unfold keywordStep
  dsimp only
  split
  · exact .construct (.scopeName "") r.imports {} rfl (.inr hs)
  · split
    · exact .construct (.importing {}) r.imports {} rfl (.inr hs)
    · split
      · next kind _ =>
        split
        · exact .rest r.scope r.imports {} r.member
        · exact .construct (.typeName kind r.pending) r.imports {} rfl (.inr hs)
      · exact .rest r.scope r.imports {} r.member

theorem move_wordStep {previous : Option Token} (hs : r.atDeclarationScope = true) :
    Move t r ({ r with phase := .idle }.wordStep previous t) := by
  unfold wordStep
  split
  · exact .rest r.scope r.imports _ r.member
  · split
    · exact .rest r.scope r.imports _ r.member
    · split
      · exact .rest r.scope r.imports r.pending r.member
      · exact move_keywordStep hs

theorem move_closeFrame : Move t r ({ r with phase := .idle }.closeFrame) := by
  unfold closeFrame
  dsimp only
  split
  · exact .rest r.scope r.imports {} {}
  · next i frames hf => exact .leaveBody i frames hf
  · next frames hf => exact .leave .scope frames hf (by simp) "" []
  · next frames hf => exact .leave .block frames hf (by simp) r.scope r.imports

/-- The steps outside of all constructs. They do not look at the phase, so they are stated for a
reader in any phase that is made idle first: this is how the reader gives up a type name. -/
theorem move_idleStep (r : Reader) (previous : Option Token) (t : Token) :
    Move t r ({ r with phase := .idle }.idleStep previous t) := by
  unfold idleStep
  split
  · exact move_closeFrame
  · split
    · next i hf => exact move_memberStep hf
    · split
      · exact .enterBlock {} r.member
      · split
        · exact .rest r.scope r.imports {} r.member
        · next hs =>
          have hscope : r.atDeclarationScope = true := by
            simp only [Bool.or_eq_true, Bool.not_eq_true', not_or, Bool.not_eq_false] at hs
            exact hs.1
          exact move_wordStep hscope

/-- **Every step is a move.** -/
theorem step_move (r : Reader) (previous : Option Token) (t : Token) :
    Move t r (r.step previous t) := by
  unfold step
  split
  · next h =>
    have hr : r = { r with phase := .idle } := by cases r; cases h; rfl
    rw [hr]
    exact hr ▸ move_idleStep r previous t
  · next text h => exact move_scopeStep h
  · next i h => exact move_importStep h
  · next kind modifiers h =>
    split
    · next ht => exact .declare kind modifiers h (by simpa using ht)
    · -- no name follows the keyword: the token is read as if there were none
      exact move_idleStep r previous t
  · next i c n h => exact move_headerStep h

end Reader
end Source
end Conformance
