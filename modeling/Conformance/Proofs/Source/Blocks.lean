import Conformance.Proofs.Source.Moves
import Conformance.Proofs.Source.Walk
import Mathlib.Data.List.Infix

/-!
# `Proofs.Source.Blocks`: what stands in a block is passed over

A brace that belongs to no construct opens a block. Up to the brace that closes it the reader stays
idle, and all that a token can do is to open one more block or to close one. So it does not matter
what stands in a block, as long as its braces are balanced: behind its end the reader is the one from
before, with nothing pending (`walk_block`). `Outline.ofTokens_block` says this of whole outlines,
read with or without a limit: balanced tokens in a block can be exchanged for any others.
-/

namespace Conformance
namespace Source

/-! ## Counting braces -/

theorem marks_cons (c : Char) (t : Token) (ts : List Token) :
    marks c (t :: ts) = marks c [t] + marks c ts := by
  unfold marks
  rw [List.countP_cons, List.countP_singleton, Nat.add_comm]

theorem not_isTrivia_of_isMark {t : Token} {c : Char} (h : t.isMark c = true) : t.isTrivia = false := by
  have hkind : t.kind = .mark := by
    unfold Token.isMark at h
    simp only [Bool.and_eq_true, beq_iff_eq] at h
    exact h.1
  unfold Token.isTrivia
  rw [hkind]

/-- Trivia are no braces. -/
theorem marks_significant (c : Char) (ts : List Token) :
    marks c (ts.filter (!·.isTrivia)) = marks c ts := by
  unfold marks
  rw [List.countP_filter]
  apply List.countP_congr
  intro t _
  constructor
  · intro h
    exact (Bool.and_eq_true _ _).mp h |>.1
  · intro h
    simp [h, not_isTrivia_of_isMark h]

theorem Balanced.significant {ts : List Token} (h : Balanced ts) :
    Balanced (ts.filter (!·.isTrivia)) := by
  constructor
  · intro q hq
    obtain ⟨p, hp, rfl⟩ := List.prefix_filter_iff.1 hq
    rw [marks_significant, marks_significant]
    exact h.1 p hp
  · rw [marks_significant, marks_significant]
    exact h.2

/-- A list has finitely many prefixes. -/
instance (ts : List Token) : Decidable (Balanced ts) :=
  decidable_of_iff ((∀ p ∈ ts.inits, marks '}' p ≤ marks '{' p) ∧ marks '{' ts = marks '}' ts) <| by
    simp only [List.mem_inits, Balanced]

/-- No prefix closes more braces than it opens and `depth` others. -/
def StaysInside (depth : Nat) (ts : List Token) : Prop :=
  ∀ q, q <+: ts → marks '}' q ≤ depth + marks '{' q

/-- How many blocks are open behind a token. -/
def depthAfter (depth : Nat) (t : Token) : Nat :=
  if t.isMark '}' then depth - 1 else if t.isMark '{' then depth + 1 else depth

/-- The braces that are open behind a token. -/
theorem depthAfter_eq {depth : Nat} {t : Token} (hclose : t.isMark '}' = true → 0 < depth) :
    depthAfter depth t + marks '}' [t] = depth + marks '{' [t] := by
  unfold depthAfter marks
  rw [List.countP_singleton, List.countP_singleton]
  by_cases hend : t.isMark '}' = true
  · have hopen : t.isMark '{' = false := Token.isMark_of_isMark hend '{'
    have := hclose hend
    rw [if_pos hend, if_pos hend, hopen, if_neg Bool.false_ne_true]
    omega
  · rw [if_neg hend, if_neg hend]
    split <;> omega

theorem Balanced.staysInside {ts : List Token} (h : Balanced ts) : StaysInside 0 ts := by
  intro q hq
  rw [Nat.zero_add]
  exact h.1 q hq

namespace StaysInside

variable {depth : Nat} {t : Token} {ts : List Token} (h : StaysInside depth (t :: ts))
include h

/-- The first token only closes a brace that is open. -/
theorem close_pos : t.isMark '}' = true → 0 < depth := by
  intro hend
  have hone := h [t] ⟨ts, rfl⟩
  have hdepth := @depthAfter_eq (depth + 1) t (fun _ => Nat.succ_pos depth)
  unfold depthAfter at hdepth
  rw [if_pos hend] at hdepth
  omega

theorem tail : StaysInside (depthAfter depth t) ts := by
  intro q hq
  have hcons := h (t :: q) ((List.prefix_cons_inj t).2 hq)
  have hdepth := depthAfter_eq h.close_pos
  rw [marks_cons '}' t q, marks_cons '{' t q] at hcons
  omega

end StaysInside

namespace Reader

variable {b r : Reader} {p : Option Token} {t : Token} {limit : Option Nat}

/-! ## Inside a block -/

/-- **A token in a block** can only be a brace. -/
theorem step_block {frames : List Frame} (hidle : r.phase = .idle) (hf : r.frames = .block :: frames) :
    r.step p t =
      if t.isMark '}' then { r with frames, pending := {}, member := {} }
      else if t.isMark '{' then { r with frames := .block :: r.frames, pending := {} }
      else { r with pending := {} } := by
  have hscope : r.atDeclarationScope = false := by
    unfold atDeclarationScope
    rw [hf]
    rfl
  have hclose : r.closeFrame = { r with frames, pending := {}, member := {} } := by
    unfold closeFrame
    rw [hf]
  rw [step_idle hidle]
  unfold idleStep
  rw [hclose, hscope, hf]
  rfl

/-- The reader with `depth` more blocks open than in `b`. -/
def nested (b : Reader) (depth : Nat) (pending : TypeModifiers) (member : MemberModifiers) : Reader :=
  { b with frames := List.replicate depth .block ++ b.frames, pending, member }

section
variable {frames : List Frame} (hidle : b.phase = .idle) (hf : b.frames = .block :: frames)
include hidle hf

theorem step_nested {depth : Nat} (pending : TypeModifiers) (member : MemberModifiers)
    (hclose : t.isMark '}' = true → 0 < depth) :
    ∃ pending' member', (nested b depth pending member).step p t
      = nested b (depthAfter depth t) pending' member' := by
  unfold depthAfter
  cases depth with
  | zero =>
    have hend : ¬ t.isMark '}' = true := by
      intro hend
      exact Nat.lt_irrefl 0 (hclose hend)
    rw [step_block (r := nested b 0 pending member) hidle hf, if_neg hend, if_neg hend]
    split
    · exact ⟨{}, member, rfl⟩
    · exact ⟨{}, member, rfl⟩
  | succ depth =>
    have hhead : (nested b (depth + 1) pending member).frames
        = .block :: (List.replicate depth .block ++ b.frames) := rfl
    rw [step_block (r := nested b (depth + 1) pending member) hidle hhead]
    split
    · exact ⟨{}, {}, rfl⟩
    · split
      · exact ⟨{}, member, rfl⟩
      · exact ⟨{}, member, rfl⟩

/-- Tokens that close no more blocks than are open. No body is closed, so a limit that was not
reached is not reached by them. -/
theorem walk_nested (hlimit : limit.any (· ≤ b.completed) = false) (ts us : List Token) {depth : Nat}
    (pending : TypeModifiers) (member : MemberModifiers) (hopen : StaysInside depth ts) :
    ∃ depth' pending' member',
      walk limit (nested b depth pending member) p (ts ++ us)
        = walk limit (nested b depth' pending' member') (ts.getLast?.or p) us
      ∧ depth' + marks '}' ts = depth + marks '{' ts := by
  induction ts generalizing p depth pending member with
  | nil => exact ⟨depth, pending, member, rfl, rfl⟩
  | cons t ts ih =>
    obtain ⟨pending₁, member₁, hstep⟩ :=
      @step_nested b p t frames hidle hf depth pending member hopen.close_pos
    obtain ⟨depth', pending', member', hwalk, hdepth⟩ :=
      @ih (some t) (depthAfter depth t) pending₁ member₁ hopen.tail
    have hdepth₁ := depthAfter_eq hopen.close_pos
    refine ⟨depth', pending', member', ?_, ?_⟩
    · have hcompleted : (nested b (depthAfter depth t) pending₁ member₁).completed = b.completed := rfl
      rw [List.cons_append, walk, hstep, hcompleted, hlimit, if_neg Bool.false_ne_true, hwalk]
      cases ts with
      | nil => rfl
      | cons u us =>
        rw [List.getLast?_cons_cons]
        cases h : (u :: us).getLast? with
        | none => simp at h
        | some v => rfl
    · rw [marks_cons '}' t ts, marks_cons '{' t ts]
      omega

/-- **A block is passed over.** Whatever balanced tokens stand in it, behind its closing brace the
reader is back outside, with nothing pending. -/
theorem walk_block (hlimit : limit.any (· ≤ b.completed) = false) {ts : List Token} (hts : Balanced ts)
    (hclose : t.isMark '}' = true) (us : List Token) :
    walk limit b p (ts ++ t :: us)
      = walk limit { b with frames, pending := {}, member := {} } (some t) us := by
  -- all blocks that the tokens open are closed again, so the brace closes the block itself
  obtain ⟨depth, pending, member, hwalk, hdepth⟩ :=
    @walk_nested b p limit frames hidle hf hlimit ts (t :: us) 0 b.pending b.member hts.staysInside
  have hzero : depth = 0 := by
    have := hts.2
    omega
  subst hzero
  have hstep := @step_block (nested b 0 pending member) (ts.getLast?.or p) t frames hidle hf
  rw [if_pos hclose] at hstep
  have hcompleted : (nested b 0 pending member).completed = b.completed := rfl
  show walk limit (nested b 0 b.pending b.member) p (ts ++ t :: us) = _
  rw [hwalk, walk, hstep, hcompleted, hlimit]
  rfl

end

/-! ## Exchanging what stands in a block -/

/-- The brace of a block leaves the reader outside of all constructs. -/
theorem phase_of_opens {r' : Reader} (hm : Move t r r') (h : r'.frames = .block :: r.frames) :
    r'.phase = .idle := by
  have hlength := congrArg List.length h
  cases hm with
  | rest scope imports pending member => rfl
  | construct phase imports pending hp hr => simp at hlength
  | declare kind modifiers hr ht =>
    have hframes : (r.openType kind modifiers t.text).frames = r.frames := rfl
    rw [hframes] at hlength
    simp at hlength
  | header i c c' n n' hr types hs => simp at hlength
  | _ => rfl

end Reader

namespace Outline

open Reader

/-- **What stands in a block has no effect.** If a token opens a block, then the outline, read up to any
limit, is the same for all balanced tokens between it and the brace that closes the block. -/
theorem ofTokens_block (file : String) (limit : Option Nat) {u b b' : List Token} {opening closing : Token}
    (hopening : (behind file (u ++ [opening])).frames = .block :: (behind file u).frames)
    (hclosing : closing.isMark '}' = true) (hb : Balanced b) (hb' : Balanced b') (v : List Token) :
    ofTokens file limit (u ++ opening :: (b ++ closing :: v))
      = ofTokens file limit (u ++ opening :: (b' ++ closing :: v)) := by
  have hseen : opening.isTrivia = false := by
    rw [Bool.eq_false_iff]
    intro htrivia
    rw [behind_append, List.filter_cons, htrivia] at hopening
    exact absurd (congrArg List.length hopening) (by simp [walk])
  rw [behind_append, List.filter_cons, hseen] at hopening
  have hidle : ((behind file u).step (lastSeen u) opening).phase = .idle :=
    phase_of_opens (step_move _ _ _) hopening
  -- the walk to the block is the same, and behind the block the reader is
  have hwalk {c : List Token} (hc : Balanced c) :
      walk limit { file } none ((u ++ opening :: (c ++ closing :: v)).filter (!·.isTrivia))
        = walk limit { file } none ((u ++ opening :: closing :: v).filter (!·.isTrivia)) := by
    have hcut (c : List Token) : (u ++ opening :: (c ++ closing :: v)).filter (!·.isTrivia)
        = u.filter (!·.isTrivia) ++ opening :: (c.filter (!·.isTrivia)
          ++ closing :: v.filter (!·.isTrivia)) := by
      simp [hseen, not_isTrivia_of_isMark hclosing]
    have hempty := hcut []
    rw [List.nil_append, List.filter_nil, List.nil_append] at hempty
    rw [hcut, hempty]
    rcases walk_append_cases limit { file } none (u.filter (!·.isTrivia)) with hstop | hgo
    · rw [hstop, hstop]
    · rw [hgo, hgo, Option.or_none]
      show walk limit (behind file u) (lastSeen u) _ = walk limit (behind file u) (lastSeen u) _
      rw [walk, walk]
      split
      · rfl
      · next hlimit =>
        rw [Bool.not_eq_true] at hlimit
        have hblock := @walk_block _ (some opening) closing limit _ hidle hopening hlimit
        rw [hblock hc.significant hclosing]
        exact (@hblock [] (by decide) hclosing _).symm
  unfold ofTokens
  rw [hwalk hb, hwalk hb']

/-- The head of a function in a namespace. -/
def functionHead : List Token :=
  [.ofWord "namespace", .ofWord "App", .ofMark ';', .ofWord "function", .ofWord "make", .ofMark '(', .ofMark ')']

/-- Statements that would have an effect outside of a block. -/
def hiddenStatements : List Token :=
  [.ofWord "use", .ofWord "Lib", .ofMark ';', .ofWord "class", .ofWord "Hidden", .ofMark '{', .ofWord "function",
    .ofWord "run", .ofMark '(', .ofMark ')', .ofMark '{', .ofMark '}', .ofMark '}']

/-- A class that extends what it names. -/
def openClass : List Token :=
  [.ofWord "class", .ofWord "Seen", .ofWord "extends", .ofWord "Lib", .ofMark '{', .ofMark '}']

/-- An import and a class in the body of a function are as good as nothing. -/
theorem ofTokens_block_of_function :
    Balanced hiddenStatements
    ∧ ofTokens "a.php" (some 1) (functionHead ++ .ofMark '{' :: (hiddenStatements ++ .ofMark '}' :: openClass))
      = ofTokens "a.php" (some 1) (functionHead ++ .ofMark '{' :: ([] ++ .ofMark '}' :: openClass))
    ∧ (ofTokens "a.php" (some 1) (functionHead ++ .ofMark '{' :: ([] ++ .ofMark '}' :: openClass))).types
      = [{ name := "App\\Seen", kind := .cls, file := some "a.php", parent := some "App\\Lib" }] := by
  have hbalanced : Balanced hiddenStatements := by decide
  refine ⟨hbalanced, ?_, by decide +kernel⟩
  exact ofTokens_block "a.php" (some 1) (by decide +kernel) (by decide) hbalanced (by decide) openClass

end Outline
end Source
end Conformance
