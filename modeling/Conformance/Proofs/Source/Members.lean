import Conformance.Proofs.Source.Blocks
import Conformance.Proofs.Source.Coherence
import Conformance.Proofs.Source.Declared

/-!
# `Proofs.Source.Members`: the methods of a type

A `Member` of a type body is a list of tokens in front, a signature if it is a method, and an end: a
semicolon or a block. `Member.method?` says which method it declares. Of all its tokens this looks at the
ones in front of the word `function` and at the name alone.

The reader keeps one record of modifiers for all members of a body. `InBody` is the reader directly in
the body, with what it knows of the type and of the member: one lemma for each part of a member says what
becomes of the two, `InBody.walk_member` puts them together, and behind every member the record is empty
again. So the methods of a type are those of its members (`Outline.methods_of_members`), whatever stands
in parameter lists, in return types, in blocks, or behind the type.
-/

namespace Conformance
namespace Source

/-! ## Members -/

/-- Whether a member goes on with the token, and no signature begins there. -/
def Token.continuesMember (t : Token) : Bool :=
  !t.isMark '{' && !t.isMark '}' && !t.endsStatement && !t.isWord "function"

/-- The word `function`, the mark of a result by reference, the name, and what follows it. -/
structure Signature where
  keyword : Token
  reference : Option Token := none
  name : Token
  rest : List Token := []
  keyword_spells : keyword.isWord "function" = true := by decide
  reference_isMark : ∀ t, reference = some t → t.isMark '&' = true := by decide
  name_isWord : name.kind = .word := by decide
  rest_continues : ∀ t ∈ rest, t.continuesMember = true := by decide

def Signature.tokens (s : Signature) : List Token :=
  s.keyword :: (s.reference.toList ++ s.name :: s.rest)

/-- The end of a member. -/
inductive MemberEnd where
  | statement (t : Token) (h : t.endsStatement = true)
  | block (opening : Token) (content : List Token) (closing : Token)
      (hopening : opening.isMark '{' = true) (hcontent : Balanced content)
      (hclosing : closing.isMark '}' = true)

def MemberEnd.tokens : MemberEnd → List Token
  | statement t _ => [t]
  | block opening content closing _ _ _ => opening :: (content ++ [closing])

/-- A member of a type body. What is no method (a constant, a property, the use of a trait) has no
signature. -/
structure Member where
  /-- The modifiers of a method, and all tokens of another member. -/
  front : List Token
  signature : Option Signature := none
  ending : MemberEnd
  front_continues : ∀ t ∈ front, t.continuesMember = true := by decide

def Member.tokens (m : Member) : List Token :=
  m.front ++ (m.signature.toList.flatMap Signature.tokens ++ m.ending.tokens)

/-- The visibility that a token states. -/
def Token.visibility? (t : Token) : Option Visibility :=
  Visibility.all.find? fun v => t.isWord v.keyword

/-- **The method that a member of a type of this kind declares.** -/
def Member.method? (kind : TypeKind) (m : Member) : Option Method :=
  m.signature.map fun s => {
    name := s.name.text
    visibility := (m.front.findSome? Token.visibility?).getD .pub
    isStatic := m.front.any (·.isWord "static")
    isAbstract := m.front.any (·.isWord "abstract") || kind == .interface
    isConstructor := Text.sameFolded s.name.text "__construct" }

/-! ## The record of a member -/

/-- The record once the tokens `front` were read. -/
def MemberModifiers.after (m : MemberModifiers) (front : List Token) : MemberModifiers :=
  { m with
    visibility := m.visibility.or (front.findSome? Token.visibility?)
    isStatic := m.isStatic || front.any (·.isWord "static")
    isAbstract := m.isAbstract || front.any (·.isWord "abstract") }

theorem MemberModifiers.after_nil (m : MemberModifiers) : m.after [] = m := by
  simp [after]

theorem MemberModifiers.after_cons (m : MemberModifiers) (t : Token) (ts : List Token) :
    m.after (t :: ts) = (m.after [t]).after ts := by
  simp only [after, List.findSome?_cons, List.findSome?_nil, List.any_cons, List.any_nil, Bool.or_false,
    Bool.or_assoc]
  cases m.visibility <;> cases t.visibility? <;> simp

theorem visibility?_of_word {t : Token} (ht : t.kind = .word) :
    t.visibility? = Visibility.ofKeyword? t.text := by
  unfold Token.visibility? Visibility.ofKeyword?
  congr 1
  funext v
  unfold Token.isWord
  rw [ht]
  show Text.sameFolded t.text v.keyword = Text.sameFolded v.keyword t.text
  rw [Bool.eq_iff_iff, Text.sameFolded_iff, Text.sameFolded_iff]
  exact eq_comm

/-- Only words change the record. -/
theorem MemberModifiers.after_of_not_word (m : MemberModifiers) {t : Token} (ht : t.kind ≠ .word) :
    m.after [t] = m := by
  have hvisibility : t.visibility? = none := by
    apply List.find?_eq_none.2
    intro v _
    rw [Token.isWord_of_kind ht]
    exact Bool.false_ne_true
  simp [after, Token.isWord_of_kind ht, hvisibility]

namespace Reader

/-- A word in front of a signature adds to the record what it states. -/
theorem readModifier_eq {t : Token} (m : MemberModifiers) (ht : t.kind = .word)
    (hfunction : t.isWord "function" = false) : readModifier m t = m.after [t] := by
  unfold readModifier
  rw [hfunction, if_neg Bool.false_ne_true, ← visibility?_of_word ht]
  cases hv : t.visibility? with
  | some v =>
    -- the word that states a visibility is none of the other modifiers
    have hword : t.isWord v.keyword = true := by
      simpa using List.find?_some hv
    have hstatic : t.isWord "static" = false := by
      rw [Token.isWord_of_isWord hword]
      cases v <;> decide
    have habstract : t.isWord "abstract" = false := by
      rw [Token.isWord_of_isWord hword]
      cases v <;> decide
    simp only [MemberModifiers.after, List.findSome?_cons, List.any_cons, List.any_nil, hv, hstatic,
      habstract, Bool.or_false]
    cases m.visibility <;> rfl
  | none =>
    simp only
    by_cases hstatic : t.isWord "static" = true
    · have habstract : t.isWord "abstract" = false := by
        rw [Token.isWord_of_isWord hstatic]
        decide
      simp [MemberModifiers.after, hv, hstatic, habstract]
    · by_cases habstract : t.isWord "abstract" = true
      · simp [MemberModifiers.after, hv, hstatic, habstract]
      · simp [MemberModifiers.after, hv, hstatic, habstract]

/-! ## Directly in a body -/

/-- **The reader directly in the body of a type**: the type is the one at `i`, of which `info` was read so
far, and `m` is the record of the member. -/
structure InBody (r : Reader) (i : Nat) (frames : List Frame) (info : TypeInfo) (m : MemberModifiers) :
    Prop where
  phase : r.phase = .idle
  frames : r.frames = .body i :: frames
  found : r.types[i]? = some info
  member : r.member = m

variable {r : Reader} {p : Option Token} {t : Token} {i : Nat} {frames : List Frame} {info : TypeInfo}
  {m : MemberModifiers}

theorem InBody.step_eq (h : InBody r i frames info m) (hclose : t.isMark '}' = false) :
    r.step p t = r.memberStep i t := by
  rw [step_idle h.phase]
  unfold idleStep
  rw [hclose, h.frames]
  rfl

/-- The record changes, and nothing else. -/
theorem InBody.record (h : InBody r i frames info m) (m' : MemberModifiers) :
    InBody { r with member := m' } i frames info m' :=
  ⟨h.phase, h.frames, h.found, rfl⟩

/-- A word, behind which the record decides what it is. -/
theorem memberStep_word (r : Reader) (i : Nat) (ht : t.kind = .word) :
    r.memberStep i t =
      if r.member.awaitsName then
        { r with
          member := { r.member with awaitsName := false }
          types := r.types.modify i fun info =>
            info.addMethod (declaredMethod info.kind r.member t.text) }
      else { r with member := readModifier r.member t } := by
  have hend : t.endsStatement = false := by
    unfold Token.endsStatement
    rw [Token.isMark_of_word ht, ht]
    rfl
  unfold memberStep
  rw [Token.isMark_of_word ht, hend, ht]
  rfl

/-- A token in front of a signature or behind a name. -/
theorem InBody.step_front (h : InBody r i frames info m) (hm : m.awaitsName = false)
    (ht : t.continuesMember = true) : InBody (r.step p t) i frames info (m.after [t]) := by
  unfold Token.continuesMember at ht
  simp only [Bool.and_eq_true, Bool.not_eq_true'] at ht
  obtain ⟨⟨⟨hopen, hclose⟩, hend⟩, hfunction⟩ := ht
  rw [h.step_eq hclose]
  by_cases hword : t.kind = .word
  · rw [memberStep_word r i hword, h.member, hm, if_neg Bool.false_ne_true,
      readModifier_eq m hword hfunction]
    exact h.record _
  · have hstay : { m with awaitsName := false } = m := by
      rw [← hm]
    unfold memberStep
    rw [hopen, hend, MemberModifiers.after_of_not_word m hword, h.member]
    simp only [Bool.false_eq_true, if_false]
    rw [if_pos (by simpa using hword)]
    split
    · exact h
    · rw [hstay]
      exact h.record m

/-- The tokens in front of a signature, or those behind a name. -/
theorem InBody.walk_front (h : InBody r i frames info m) (hm : m.awaitsName = false) (ts : List Token)
    (hts : ∀ t ∈ ts, t.continuesMember = true) :
    InBody (walk none r p ts) i frames info (m.after ts) := by
  induction ts generalizing r p m with
  | nil =>
    rw [MemberModifiers.after_nil]
    exact h
  | cons t ts ih =>
    rw [walk_cons, MemberModifiers.after_cons]
    apply ih (h.step_front hm (hts t List.mem_cons_self)) hm
    intro u hu
    exact hts u (List.mem_cons_of_mem t hu)

/-- The word `function`. -/
theorem InBody.step_function (h : InBody r i frames info m) (hm : m.awaitsName = false)
    (ht : t.isWord "function" = true) :
    InBody (r.step p t) i frames info { m with awaitsName := true } := by
  have hword : t.kind = .word := by
    unfold Token.isWord at ht
    simpa using (Bool.and_eq_true _ _).mp ht |>.1
  rw [h.step_eq (Token.isMark_of_word hword '}'), memberStep_word r i hword, h.member, hm,
    if_neg Bool.false_ne_true]
  unfold readModifier
  rw [if_pos ht]
  exact h.record _

/-- The mark of a result by reference. -/
theorem InBody.step_reference (h : InBody r i frames info m) (ht : t.isMark '&' = true) :
    InBody (r.step p t) i frames info m := by
  have hstay : r.memberStep i t = r := by
    show r.memberStep i t.unplaced = r
    rw [Token.unplaced_of_isMark ht]
    unfold memberStep Token.endsStatement
    simp only [Token.isMark_ofMark]
    rfl
  rw [h.step_eq (Token.isMark_of_isMark ht '}'), hstay]
  exact h

/-- The name of a method. -/
theorem InBody.step_name (h : InBody r i frames info m) (hm : m.awaitsName = true) (ht : t.kind = .word) :
    InBody (r.step p t) i frames (info.addMethod (declaredMethod info.kind m t.text))
      { m with awaitsName := false } := by
  rw [h.step_eq (Token.isMark_of_word ht '}'), memberStep_word r i ht, h.member, hm, if_pos rfl]
  refine ⟨h.phase, h.frames, ?_, rfl⟩
  show (r.types.modify i _)[i]? = _
  rw [Array.getElem?_modify, if_pos rfl, h.found]
  rfl

/-- **A signature adds its method.** -/
theorem InBody.walk_signature (h : InBody r i frames info m) (hm : m.awaitsName = false) (s : Signature) :
    ∃ m', InBody (walk none r p s.tokens) i frames
      (info.addMethod (declaredMethod info.kind m s.name.text)) m' := by
  have hfunction : InBody (r.step p s.keyword) i frames info { m with awaitsName := true } :=
    h.step_function hm s.keyword_spells
  have hreference : InBody (walk none (r.step p s.keyword) (some s.keyword) s.reference.toList) i frames
      info { m with awaitsName := true } := by
    cases href : s.reference with
    | none => exact hfunction
    | some t => exact hfunction.step_reference (s.reference_isMark t href)
  have hname := @step_name _ (s.reference.toList.getLast?.or (some s.keyword)) _ _ _ _ _ hreference rfl
    s.name_isWord
  -- whatever the tokens behind the name add to the record, the method is entered already
  have hrest := hname.walk_front (p := some s.name) rfl s.rest s.rest_continues
  unfold Signature.tokens
  rw [walk_cons, walk_append, walk_cons]
  exact ⟨_, hrest⟩

/-- **Behind its end a member is forgotten.** -/
theorem InBody.walk_ending (h : InBody r i frames info m) (ending : MemberEnd) :
    InBody (walk none r p ending.tokens) i frames info {} := by
  cases ending with
  | statement t hend =>
    have hmark (c : Char) (hc : (';' == c) = false) : t.isMark c = false := by
      unfold Token.endsStatement at hend
      rcases (Bool.or_eq_true _ _).mp hend with hsemicolon | htag
      · rw [Token.isMark_of_isMark hsemicolon, hc]
      · unfold Token.isMark
        rw [beq_iff_eq.mp htag]
        rfl
    have hstep : r.step p t = { r with member := {} } := by
      rw [h.step_eq (hmark '}' (by decide))]
      unfold memberStep
      rw [hmark '{' (by decide), hend]
      rfl
    unfold MemberEnd.tokens
    rw [walk_cons, hstep]
    exact h.record {}
  | block opening content closing hopening hcontent hclosing =>
    have hstep : r.step p opening = { r with frames := .block :: r.frames, member := {} } := by
      rw [h.step_eq (Token.isMark_of_isMark hopening '}')]
      unfold memberStep
      rw [if_pos hopening]
    have hblock := @walk_block { r with frames := .block :: r.frames, member := {} } (some opening) closing
      none r.frames h.phase rfl rfl content hcontent hclosing []
    unfold MemberEnd.tokens
    rw [walk_cons, hstep, hblock]
    exact ⟨h.phase, h.frames, h.found, rfl⟩

/-- The method of a signature, from the record in front of it. -/
theorem declaredMethod_after (kind : TypeKind) (front : List Token) (name : String) :
    declaredMethod kind (({} : MemberModifiers).after front) name
      = { name
          visibility := (front.findSome? Token.visibility?).getD .pub
          isStatic := front.any (·.isWord "static")
          isAbstract := front.any (·.isWord "abstract") || kind == .interface
          isConstructor := Text.sameFolded name "__construct" } := by
  unfold declaredMethod MemberModifiers.after
  simp only [Option.none_or, Bool.false_or]
  rfl

/-- **A member adds the method that it declares**, and leaves nothing to the next one. -/
theorem InBody.walk_member (h : InBody r i frames info {}) (member : Member) :
    InBody (walk none r p member.tokens) i frames
      { info with methods := info.methods ++ (member.method? info.kind).toList } {} := by
  have hfront := h.walk_front (p := p) rfl member.front member.front_continues
  unfold Member.tokens Member.method?
  rw [walk_append, walk_append]
  cases member.signature with
  | none =>
    simp only [Option.map_none, Option.toList_none, List.append_nil]
    exact hfront.walk_ending member.ending
  | some s =>
    obtain ⟨m', hsignature⟩ := hfront.walk_signature (p := member.front.getLast?.or p) rfl s
    rw [declaredMethod_after] at hsignature
    rw [Option.toList_some, List.flatMap_singleton]
    exact hsignature.walk_ending member.ending

/-- **The members of a body add their methods**, in their order. -/
theorem InBody.walk_members (h : InBody r i frames info {}) (members : List Member) :
    InBody (walk none r p (members.flatMap Member.tokens)) i frames
      { info with methods := info.methods ++ members.filterMap (Member.method? info.kind) } {} := by
  induction members generalizing r p info with
  | nil =>
    rw [List.filterMap_nil, List.append_nil]
    exact h
  | cons member members ih =>
    have hrest := ih (p := member.tokens.getLast?.or p) (h.walk_member (p := p) member)
    rw [List.flatMap_cons, walk_append]
    rw [List.append_assoc] at hrest
    have hmethods : (member.method? info.kind).toList ++ members.filterMap (Member.method? info.kind)
        = (member :: members).filterMap (Member.method? info.kind) := by
      rw [List.filterMap_cons]
      cases member.method? info.kind <;> rfl
    rw [← hmethods]
    exact hrest

/-! ## Whole bodies -/

/-- While the header of a type is read, no method of it is known. -/
def Unlisted (r : Reader) : Prop :=
  ∀ i c name, r.phase = .header i c name → ∃ info, r.types[i]? = some info ∧ info.methods = []

theorem unlisted_start (file : String) : Unlisted { file } := by
  intro i c name hphase
  cases hphase

theorem methods_addSupertype (c : Clause) (name : String) (info : TypeInfo) :
    (addSupertype c name info).methods = info.methods := by
  unfold addSupertype TypeInfo.addInterface
  split
  · rfl
  · split <;> rfl
  · rfl
  · split <;> rfl

/-- A supertype that is entered leaves the methods alone. -/
theorem methods_flushName (h : r.types[i]? = some info) (c : Clause) (name : String) :
    ∃ info', (r.flushName i c name).types[i]? = some info' ∧ info'.methods = info.methods := by
  unfold flushName
  split
  · exact ⟨info, h, rfl⟩
  · refine ⟨addSupertype c (r.resolve name) info, ?_, methods_addSupertype c (r.resolve name) info⟩
    show (r.types.modify i _)[i]? = _
    rw [Array.getElem?_modify, if_pos rfl, h]
    rfl

theorem Unlisted.move {r' : Reader} (h : Unlisted r) (hm : Move t r r') : Unlisted r' := by
  cases hm with
  | construct phase imports pending hp hr =>
    intro i c name hphase
    have hphase : phase = .header i c name := hphase
    rw [hphase] at hp
    cases hp
  | declare kind modifiers hr ht =>
    intro i c name hphase
    injection hphase with hi _ _
    subst hi
    refine ⟨r.opening kind modifiers t.text, ?_, rfl⟩
    rw [types_openType, Array.getElem?_push_size]
  | header i c c' name name' hr types hs =>
    intro j d m hphase
    injection hphase with hj _ _
    subst hj
    obtain ⟨info, hfound, hnone⟩ := h i c name hr
    rcases hs with rfl | rfl
    · exact ⟨info, hfound, hnone⟩
    · obtain ⟨info', hfound', hsame⟩ := methods_flushName hfound c name
      exact ⟨info', hfound', hsame.trans hnone⟩
  | _ =>
    intro i c name hphase
    cases hphase

theorem unlisted_walk (h : Unlisted r) (p : Option Token) (ts : List Token) :
    Unlisted (walk none r p ts) := by
  induction ts generalizing r p with
  | nil => exact h
  | cons t ts ih => exact ih (h.move (step_move r p t)) (some t)

/-- The brace behind a header opens the body of its type. -/
theorem step_bodyBrace {c : Clause} {name : String} (hphase : r.phase = .header i c name)
    (hfound : r.types[i]? = some info) (ht : t.isMark '{' = true) :
    ∃ info', InBody (r.step p t) i r.frames info' {} ∧ info'.methods = info.methods := by
  obtain ⟨info', hfound', hmethods⟩ := methods_flushName hfound c name
  have hstep : r.step p t = { r.flushName i c name with
      phase := .idle, frames := .body i :: (r.flushName i c name).frames, member := {} } := by
    rw [← step_unplaced, Token.unplaced_of_isMark ht]
    unfold step
    rw [hphase]
    show r.headerStep i c name (Token.ofMark '{') = _
    unfold headerStep
    simp only [Token.isWord_ofMark, Token.isNamePart_ofMark, Token.isMark_ofMark]
    rfl
  have hframes : (r.flushName i c name).frames = r.frames := by
    rw [flushName_eq]
  refine ⟨info', ?_, hmethods⟩
  rw [hstep, hframes]
  exact ⟨rfl, rfl, hfound', rfl⟩

/-- The brace behind the members closes the body, and its type is settled. -/
theorem InBody.step_close (h : InBody r i frames info m) (hframes : ∀ f ∈ frames, f = .scope)
    (ht : t.isMark '}' = true) :
    Settled (i + 1) (r.step p t) ∧ (r.step p t).types[i]? = some info := by
  have hstep : r.step p t
      = { r with frames, pending := {}, member := {}, completed := r.completed + 1 } := by
    rw [step_idle h.phase]
    unfold idleStep closeFrame
    rw [if_pos ht, h.frames]
  rw [hstep]
  refine ⟨.of_idle h.phase ?_ ?_, h.found⟩
  · obtain ⟨hi, _⟩ := Array.getElem?_eq_some_iff.1 h.found
    exact hi
  · intro j hj
    cases hframes _ hj

/-- A settled type is in the outline as it is. -/
theorem Settled.getElem?_walk {n : Nat} (h : Settled n r) (hi : i < n) (p : Option Token)
    (ts : List Token) : (walk none r p ts).types[i]? = r.types[i]? := by
  have htake := congrArg (fun types : List TypeInfo => types[i]?) (h.take_walk p ts)
  simpa [List.getElem?_take, hi] using htake

end Reader

namespace Outline

open Reader

/-- **The method table of a type is exact.** If the reader is in the header of a type, and behind it a
brace, members, and the brace that closes them follow, then the type of the outline is the one that the
header declares, with the methods that the members declare, in their order. -/
theorem methods_of_members (file : String) {u body : List Token} {opening closing : Token} {i : Nat}
    {c : Clause} {name : String} {members : List Member}
    (hheader : (behind file u).phase = .header i c name) (hopening : opening.isMark '{' = true)
    (hbody : body.filter (!·.isTrivia) = members.flatMap Member.tokens)
    (hclosing : closing.isMark '}' = true) (v : List Token) :
    ∃ info, (behind file (u ++ [opening])).types[i]? = some info
      ∧ (ofTokens file none (u ++ opening :: (body ++ closing :: v))).types[i]?
        = some { info with methods := members.filterMap (Member.method? info.kind) } := by
  have hunlisted : Unlisted (behind file u) := unlisted_walk (unlisted_start file) none _
  have hcoherent : Coherent (behind file u) := coherent_walk none (coherent_start file) none _
  have hscopes : ∀ f ∈ (behind file u).frames, f = .scope := hcoherent.scopes (by rw [hheader]; simp)
  -- the header has no methods, and neither has the type when its body begins
  obtain ⟨info₀, hfound₀, hnone⟩ := hunlisted i c name hheader
  obtain ⟨info, hopen, hmethods⟩ := step_bodyBrace (p := lastSeen u) hheader hfound₀ hopening
  rw [hnone] at hmethods
  have hmembers := hopen.walk_members (p := some opening) members
  rw [hmethods, List.nil_append] at hmembers
  obtain ⟨hsettled, hfound⟩ := hmembers.step_close
    (p := (members.flatMap Member.tokens).getLast?.or (some opening)) hscopes hclosing
  have hcut : (opening :: (body ++ closing :: v)).filter (!·.isTrivia)
      = opening :: (members.flatMap Member.tokens ++ closing :: v.filter (!·.isTrivia)) := by
    simp [not_isTrivia_of_isMark hopening, not_isTrivia_of_isMark hclosing, hbody]
  refine ⟨info, ?_, ?_⟩
  · rw [behind_append, List.filter_cons, not_isTrivia_of_isMark hopening]
    exact hopen.found
  · show (behind file (u ++ opening :: (body ++ closing :: v))).types.toList[i]? = _
    rw [Array.getElem?_toList, behind_append, hcut, walk_cons, walk_append, walk_cons,
      hsettled.getElem?_walk (Nat.lt_succ_self i)]
    exact hfound

/-- The header of a class behind an opening tag. -/
def jobHeader : List Token :=
  [{ kind := .openTag, text := "<?php", line := 1 }, .ofWord "abstract", .ofWord "class", .ofWord "Job"]

/-- The use of a trait with a block, a property, a constructor with a promoted property, a method that
returns a reference, and one with a block in its block. -/
def jobMembers : List Member := [
  { front := [.ofWord "use", .ofWord "Log"]
    ending := .block (.ofMark '{') [.ofWord "write", .ofWord "as", .ofWord "private", .ofMark ';']
      (.ofMark '}') (by decide) (by decide) (by decide) },
  { front := [.ofWord "private", .ofWord "static", { kind := .variable, text := "$count", line := 4 }]
    ending := .statement (.ofMark ';') (by decide) },
  { front := []
    signature := some {
      keyword := .ofWord "function"
      name := .ofWord "__Construct"
      rest := [
        .ofMark '(', .ofWord "private", { kind := .variable, text := "$id", line := 5 }, .ofMark ')'] }
    ending := .block (.ofMark '{') [] (.ofMark '}') (by decide) (by decide) (by decide) },
  { front := [.ofWord "Abstract", .ofWord "protected"]
    signature := some {
      keyword := .ofWord "function"
      reference := some (.ofMark '&')
      name := .ofWord "make"
      rest := [.ofMark '(', .ofMark ')', .ofMark ':', .ofWord "static"] }
    ending := .statement (.ofMark ';') (by decide) },
  { front := [.ofWord "static"]
    signature := some {
      keyword := .ofWord "function"
      name := .ofWord "run"
      rest := [.ofMark '(', .ofMark ')'] }
    ending := .block (.ofMark '{') [.ofMark '{', .ofWord "function", .ofWord "hidden", .ofMark '}']
      (.ofMark '}') (by decide) (by decide) (by decide) }]

/-- Nothing leaks from one member of the class to another. -/
theorem methods_of_members_of_job :
    (behind "job.php" jobHeader).phase = .header 0 .outside ""
    ∧ ((ofTokens "job.php" none (jobHeader ++ .ofMark '{'
        :: (jobMembers.flatMap Member.tokens ++ .ofMark '}' :: []))).types[0]?.map TypeInfo.methods)
      = some [
        { name := "__Construct", isConstructor := true },
        { name := "make", visibility := .prot, isAbstract := true },
        { name := "run", isStatic := true }] := by
  have hheader : (behind "job.php" jobHeader).phase = .header 0 .outside "" := by decide +kernel
  obtain ⟨info, hfound, htypes⟩ := @methods_of_members "job.php" jobHeader
    (jobMembers.flatMap Member.tokens) (.ofMark '{') (.ofMark '}') 0 .outside "" jobMembers hheader
    (by decide) (by decide +kernel) (by decide) []
  have hkind : (behind "job.php" (jobHeader ++ [.ofMark '{'])).types[0]?.map TypeInfo.kind = some .cls := by
    decide +kernel
  rw [hfound] at hkind
  refine ⟨hheader, ?_⟩
  rw [htypes]
  show some (jobMembers.filterMap (Member.method? info.kind)) = _
  rw [Option.some.inj hkind]
  decide +kernel

end Outline
end Source
end Conformance
