import Conformance.Source.Access
import Conformance.Proofs.Source.Coherence
import Conformance.Proofs.Source.TokenPositions

/-!
# `Proofs.Source.Access`: no access of a reader fails

A reader looks types up by their place, and cuts names at byte positions. The places are those of the
header and of the body that are open, and a coherent reader has its last type there; the cut is made
behind characters that are known to be one byte each. So the walk whose accesses can fail comes to the
same as the walk that cannot fail, for every list of tokens, with or without a limit
(`Outline.ofTokens_safe`). What coherence means for the frames, read from the outermost one inwards, is
`Reader.Consistent`.
-/

namespace Conformance
namespace Source

/-! ## The frames from the outside -/

/-- Namespaces, then at most one type body, then blocks. -/
theorem Stack.exists_reverse_eq {fs : List Frame} {owner : Option Nat} (h : Stack fs owner) :
    ∃ scopes blocks, fs.reverse = List.replicate scopes .scope ++ owner.toList.map .body
      ++ List.replicate blocks .block := by
  have houtside {fs : List Frame} (hall : ∀ f ∈ fs, f = .scope) :
      fs.reverse = List.replicate fs.length .scope := by
    rw [List.eq_replicate_of_mem hall, List.reverse_replicate, List.length_replicate]
  induction h with
  | @scopes fs hall => exact ⟨fs.length, 0, by rw [houtside hall]; simp⟩
  | @body fs i hall => exact ⟨fs.length, 0, by rw [List.reverse_cons, houtside hall]; simp⟩
  | block _ ih =>
    obtain ⟨scopes, blocks, hreverse⟩ := ih
    refine ⟨scopes, blocks + 1, ?_⟩
    rw [List.reverse_cons, hreverse, List.append_assoc, ← List.replicate_succ']

namespace Reader

variable {r : Reader} {t : Token} {index : Nat}

/-- **How the parts of a reader fit together.** -/
structure Consistent (r : Reader) : Prop where
  /-- From the outside: namespaces, then at most one type body, then blocks. -/
  frames_eq : ∃ (scopes blocks : Nat) (owner : Option Nat),
    r.frames.reverse = List.replicate scopes .scope ++ owner.toList.map .body
      ++ List.replicate blocks .block
  /-- In a type body or a block no construct is read. -/
  idle : ∀ f ∈ r.frames, f ≠ .scope → r.phase = .idle
  /-- The type whose body is open is the last one. -/
  body : ∀ i, .body i ∈ r.frames → i + 1 = r.types.size
  /-- The type whose header is read is the last one. -/
  header : ∀ i c n, r.phase = .header i c n → i + 1 = r.types.size
  completed_le : r.completed ≤ r.types.size

theorem Coherent.isLast_of_mem (h : Coherent r) {i : Nat} (hi : .body i ∈ r.frames) : r.IsLast i := by
  obtain ⟨owner, hstack, hlast⟩ := h.stack
  exact hlast i (hstack.owner_of_mem hi)

theorem Coherent.consistent (h : Coherent r) : Consistent r where
  frames_eq := by
    obtain ⟨owner, hstack, _⟩ := h.stack
    obtain ⟨scopes, blocks, hreverse⟩ := hstack.exists_reverse_eq
    exact ⟨scopes, blocks, owner, hreverse⟩
  idle f hf hne := by
    refine Decidable.byContradiction fun hphase => hne ?_
    exact h.scopes hphase f hf
  body i hi := (h.isLast_of_mem hi).1
  header i c n hphase := (h.header i c n hphase).1
  completed_le := h.completed_le

end Reader

namespace Access

open Reader (addSupertype declaredMethod Coherent)

variable {r : Reader} {t : Token} {index : Nat}

/-! ## Types at their place -/

theorem typeAt_eq (h : index < r.types.size) : typeAt r index = .ok r.types[index] := dif_pos h

/-- A type that is there is changed where it stands. -/
theorem changeType_eq (h : index < r.types.size) (f : TypeInfo → TypeInfo) :
    changeType r index f = .ok { r with types := r.types.modify index f } := by
  have htypes : r.types.set index (f r.types[index]) = r.types.modify index f := by
    apply Array.ext_getElem?
    intro j
    rw [Array.getElem?_set, Array.getElem?_modify]
    split
    · next hj =>
      subst hj
      rw [Array.getElem?_eq_getElem h]
      rfl
    · rfl
  rw [changeType, dif_pos h, htypes]

/-! ## Relative names -/

/-- Behind some of its characters a text can be cut. -/
theorem cut_take (text : String) (n : Nat) :
    cut text 0 (Bytes.after 0 text.toList n) = .ok (String.ofList (text.toList.take n)) := by
  rw [cut, (Bytes.InFront.start text).textBetween_eq n]
  rfl

/-- What is left behind them can be cut off. -/
theorem cut_drop (text : String) (n : Nat) :
    cut text (Bytes.after 0 text.toList n) text.utf8ByteSize
      = .ok (String.ofList (text.toList.drop n)) := by
  have hfront := (Bytes.InFront.start text).move n
  have hend : Bytes.after (Bytes.after 0 text.toList n) (text.toList.drop n) (text.toList.drop n).length
      = text.utf8ByteSize := by
    rw [Bytes.after, List.take_length, hfront.length_eq, Bytes.length_ofText]
  have hcut := hfront.textBetween_eq (text.toList.drop n).length
  rw [hend, List.take_length] at hcut
  rw [cut, hcut]
  rfl

/-- What was cut off at the beginning is a beginning. -/
theorem exists_append_of_cut {text start : String} {n : Nat} (h : cut text 0 n = .ok start) :
    ∃ rest, text = start ++ rest := by
  unfold cut Bytes.textBetween at h
  split at h
  · next hrange =>
    -- the position lies behind some characters, and these are what is cut off
    obtain ⟨a, b, htext, hsize⟩ := String.Pos.Raw.isValid_iff_exists_append.1 hrange.2.1
    have hn : n = Bytes.after 0 text.toList a.toList.length := by
      have hsize : n = a.utf8ByteSize := congrArg String.Pos.Raw.byteIdx hsize
      rw [hsize, htext, String.toList_append, Bytes.after, List.take_left, ← Bytes.ofText_eq,
        Bytes.length_ofText, Nat.zero_add]
    have hcut := cut_take text a.toList.length
    rw [← hn, htext, String.toList_append, List.take_left, String.ofList_toList, ← htext, cut,
      Bytes.textBetween, dif_pos hrange] at hcut
    exact ⟨b, by rw [Except.ok.inj (h.symm.trans hcut), htext]⟩
  · cases h

theorem isAscii_relativeMark : Bytes.IsAscii Reader.relativeMark := by decide

theorem length_relativeMark : Reader.relativeMark.length = relativeLength := by decide

/-- The characters of the mark are one byte each. -/
theorem after_relativeMark {raw : String}
    (h : (raw.toList.take Reader.relativeMark.length).map Char.toLower = Reader.relativeMark) :
    Bytes.after 0 raw.toList Reader.relativeMark.length = relativeLength := by
  have hlength := congrArg List.length h
  rw [List.length_map] at hlength
  rw [Bytes.after, Nat.zero_add, Bytes.length_encode_of_map_toLower isAscii_relativeMark h, hlength,
    length_relativeMark]

/-- The bytes in front are those of the mark exactly if the characters are. -/
theorem isRelative_iff (raw : String) :
    isRelative raw = true
      ↔ (raw.toList.take Reader.relativeMark.length).map Char.toLower = Reader.relativeMark := by
  have hfold (start : String) : Text.sameFolded start "namespace\\" = true
      ↔ start.toList.map Char.toLower = Reader.relativeMark := by
    rw [Text.sameFolded_iff, ← String.toList_inj, Text.toList_foldCase]
    exact Iff.rfl
  unfold isRelative
  constructor
  · intro h
    cases hcut : cut raw 0 relativeLength with
    | error fault =>
      rw [hcut] at h
      cases h
    | ok start =>
      rw [hcut] at h
      have hstart := (hfold start).1 h
      obtain ⟨rest, rfl⟩ := exists_append_of_cut hcut
      have hlength := congrArg List.length hstart
      rw [List.length_map] at hlength
      rw [String.toList_append, ← hlength, List.take_left]
      exact hstart
  · intro h
    rw [← after_relativeMark h, cut_take]
    refine (hfold _).2 ?_
    rw [String.toList_ofList]
    exact h

/-- **Names are resolved without a cut that fails.** -/
theorem resolve_eq (r : Reader) (raw : String) : resolve r raw = .ok (r.resolve raw) := by
  unfold resolve Reader.resolve
  by_cases hroot : raw.toList.head? = some TypeName.separator
  · rw [if_pos hroot, if_pos hroot]
  rw [if_neg hroot, if_neg hroot]
  by_cases hmark : (raw.toList.take Reader.relativeMark.length).map Char.toLower = Reader.relativeMark
  · rw [if_pos hmark, if_pos ((isRelative_iff raw).2 hmark), ← after_relativeMark hmark, cut_drop]
    rfl
  · rw [if_neg hmark, if_neg fun h => hmark ((isRelative_iff raw).1 h)]
    dsimp only
    cases r.imports.lookup (Text.foldCase (Reader.splitName raw).1) with
    | none => rfl
    | some target => cases (Reader.splitName raw).2 <;> rfl

/-! ## Headers and bodies -/

/-- A supertype is entered into a type that is there. -/
theorem flushName_eq (h : index < r.types.size) (clause : Clause) (name : String) :
    flushName r index clause name = .ok (r.flushName index clause name) := by
  unfold flushName Reader.flushName
  split
  · rfl
  · rw [resolve_eq]
    exact changeType_eq h _

theorem headerStep_eq (h : index < r.types.size) (clause : Clause) (name : String) (t : Token) :
    headerStep r index clause name t = .ok (r.headerStep index clause name t) := by
  unfold headerStep Reader.headerStep
  rw [flushName_eq h]
  -- the same token is asked for in the same order
  by_cases hextends : t.isWord "extends" = true
  · rw [if_pos hextends, if_pos hextends]
    rfl
  rw [if_neg hextends, if_neg hextends]
  by_cases himplements : t.isWord "implements" = true
  · rw [if_pos himplements, if_pos himplements]
    rfl
  rw [if_neg himplements, if_neg himplements]
  by_cases hpart : t.isNamePart = true
  · rw [if_pos hpart, if_pos hpart]
  rw [if_neg hpart, if_neg hpart]
  by_cases hcomma : t.isMark ',' = true
  · rw [if_pos hcomma, if_pos hcomma]
    rfl
  rw [if_neg hcomma, if_neg hcomma]
  by_cases hbrace : t.isMark '\x7b' = true
  · rw [if_pos hbrace]
    exact congrArg Except.ok (if_pos hbrace).symm
  · rw [if_neg hbrace]
    exact congrArg Except.ok (if_neg hbrace).symm

/-- There is a last type behind the one that was opened. -/
theorem openType_eq (r : Reader) (kind : TypeKind) (modifiers : TypeModifiers) (shortName : String) :
    openType r kind modifiers shortName = .ok (r.openType kind modifiers shortName) := by
  have hsize : (r.openType kind modifiers shortName).types.size = r.types.size + 1 := Array.size_push _
  unfold openType
  dsimp only
  rw [hsize]
  rfl

/-- A method is entered into the type whose body is open. -/
theorem memberStep_eq (h : index < r.types.size) (t : Token) :
    memberStep r index t = .ok (r.memberStep index t) := by
  unfold memberStep
  split
  · next hmethod =>
    simp only [Bool.and_eq_true, Bool.not_eq_true'] at hmethod
    obtain ⟨⟨⟨hbrace, hend⟩, hword⟩, hname⟩ := hmethod
    have hkind : (t.kind != .word) = false := by
      rw [bne, hword]
      rfl
    -- the type whose kind was looked up is the one that is changed
    have hsame : changeType { r with member := { r.member with awaitsName := false } } index
          (fun info => info.addMethod (declaredMethod r.types[index].kind r.member t.text))
        = changeType { r with member := { r.member with awaitsName := false } } index
          (fun info => info.addMethod (declaredMethod info.kind r.member t.text)) := rfl
    rw [typeAt_eq h]
    dsimp only
    rw [hsame, changeType_eq (r := { r with member := { r.member with awaitsName := false } }) h,
      Reader.memberStep, hbrace, hend, hkind, hname]
    rfl
  · rfl

theorem idleStep_eq (h : ∀ i, .body i ∈ r.frames → i < r.types.size) (previous : Option Token)
    (t : Token) : idleStep r previous t = .ok (r.idleStep previous t) := by
  unfold idleStep
  split
  · next i hbody =>
    unfold Reader.idleStep
    split
    · rfl
    · rw [memberStep_eq (h i (List.mem_of_head? hbody)), hbody]
  · rfl

/-! ## The walk -/

/-- **A coherent reader makes no access that fails.** -/
theorem step_eq (h : Coherent r) (previous : Option Token) (t : Token) :
    step r previous t = .ok (r.step previous t) := by
  have hbody : ∀ i, .body i ∈ r.frames → i < r.types.size := by
    intro i hi
    have hlast : i + 1 = r.types.size := (h.isLast_of_mem hi).1
    omega
  unfold step Reader.step
  cases hphase : r.phase with
  | idle => exact idleStep_eq hbody previous t
  | scopeName text => rfl
  | importing i => rfl
  | typeName kind modifiers =>
    dsimp only
    split
    · exact openType_eq r kind modifiers t.text
    · exact idleStep_eq (r := { r with phase := .idle }) hbody previous t
  | header index clause name =>
    have hlast : index + 1 = r.types.size := (h.header index clause name hphase).1
    exact headerStep_eq (by omega) clause name t

/-- **No walk makes an access that fails.** -/
theorem walk_eq (h : Coherent r) (limit : Option Nat) (previous : Option Token) (ts : List Token) :
    walk limit r previous ts = .ok (r.walk limit previous ts) := by
  induction ts generalizing r previous with
  | nil => rfl
  | cons t ts ih =>
    rw [walk, step_eq h, Reader.walk]
    dsimp only
    split
    · rfl
    · exact ih (Reader.coherent_step h previous t) (some t)

end Access

/-- **Reading declarations is safe**, whatever the tokens are. Behind every token the frames are
namespaces, then at most one type body, then blocks; constructs are read between namespaces only; the type
whose header or body is open is the last one; and no more bodies were closed than there are types. So with
or without a limit no access fails. -/
theorem Outline.ofTokens_safe (file : String) (limit : Option Nat) (ts : List Token) :
    (∀ n, (Reader.walk limit { file } none ((ts.filter (!·.isTrivia)).take n)).Consistent)
    ∧ Access.ofTokens file limit ts = .ok (ofTokens file limit ts) := by
  have hstart := Reader.coherent_start file
  refine ⟨fun n => (Reader.coherent_walk limit hstart none _).consistent, ?_⟩
  unfold Access.ofTokens
  rw [Access.walk_eq hstart]
  rfl

end Source
end Conformance
