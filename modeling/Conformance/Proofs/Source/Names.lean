import Conformance.Proofs.Source.Script

/-!
# `Proofs.Source.Names`: the reader resolves written class names

The reader works on the text of a name, from which it cuts the first segment and the mark of a
relative name; the meaning of a class name is given on its segments. Here the two meet:
`resolve_text` says that for a well-formed name, in a reader whose namespace and imports are those of
a section, the text that the reader computes is the text of the name's meaning.
-/

namespace Conformance
namespace Source

/-! ## Identifiers -/

theorem not_isIdentifierChar_separator : isIdentifierChar TypeName.separator = false := by decide

theorem isUpper_iff (c : Char) : c.isUpper = true ↔ 65 ≤ c.toNat ∧ c.toNat ≤ 90 :=
  decide_eq_true_iff

theorem isLower_iff (c : Char) : c.isLower = true ↔ 97 ≤ c.toNat ∧ c.toNat ≤ 122 := by
  show (decide (97 ≤ c.toNat) && decide (c.toNat ≤ 122)) = true ↔ _
  rw [Bool.and_eq_true, decide_eq_true_iff, decide_eq_true_iff]

theorem isDigit_iff (c : Char) : c.isDigit = true ↔ 48 ≤ c.toNat ∧ c.toNat ≤ 57 := by
  show (decide (48 ≤ c.toNat) && decide (c.toNat ≤ 57)) = true ↔ _
  rw [Bool.and_eq_true, decide_eq_true_iff, decide_eq_true_iff]

theorem isBlank_of_isIdentifierChar {c : Char} (h : isIdentifierChar c = true) :
    Text.isBlank c = false := by
  have hclass : (((c.isUpper || c.isLower) || c.isDigit) || c == '_') = true := h
  have hrange : (48 ≤ c.toNat ∧ c.toNat ≤ 57) ∨ (65 ≤ c.toNat ∧ c.toNat ≤ 122) := by
    rw [Bool.or_eq_true, Bool.or_eq_true, Bool.or_eq_true, isUpper_iff, isLower_iff, isDigit_iff,
      beq_iff_eq] at hclass
    rcases hclass with ((hupper | hlower) | hdigit) | rfl
    · omega
    · omega
    · omega
    · decide
  simp only [Text.isBlank, Bool.or_eq_false_iff, Bool.and_eq_false_iff, beq_eq_false_iff_ne,
    decide_eq_false_iff_not]
  omega

namespace Identifier

theorem ne_separator (i : Identifier) : ∀ c ∈ i.text.toList, (c != TypeName.separator) = true := by
  intro c hc
  have hchar := List.all_eq_true.1 i.chars c hc
  rw [bne_iff_ne]
  rintro rfl
  rw [not_isIdentifierChar_separator] at hchar
  cases hchar

theorem exists_cons (i : Identifier) : ∃ c cs, i.text.toList = c :: cs := by
  have hstart := i.start
  cases h : i.text.toList with
  | nil => rw [h] at hstart; cases hstart
  | cons c cs => exact ⟨c, cs, rfl⟩

end Identifier

/-! ## The text of qualified names -/

/-- The text of the parts behind the first one. -/
def tailChars (ps : List Identifier) : List Char :=
  ps.flatMap fun p => TypeName.separator :: p.text.toList

theorem toList_joined_cons (p : Identifier) (ps : List Identifier) :
    (joined (p :: ps)).toList = p.text.toList ++ tailChars ps := by
  induction ps generalizing p with
  | nil => simp [joined, tailChars]
  | cons q qs ih =>
    have hjoin : joined (p :: q :: qs)
        = p.text ++ String.singleton TypeName.separator ++ joined (q :: qs) := by
      simp [joined]
    rw [hjoin, String.toList_append, String.toList_append, ih q]
    simp [tailChars]

theorem joined_append {ps qs : List Identifier} (hp : ps ≠ []) (hq : qs ≠ []) :
    joined (ps ++ qs) = joined ps ++ String.singleton TypeName.separator ++ joined qs := by
  unfold joined
  rw [List.map_append]
  exact String.intercalate_append_of_ne_nil (by simpa using hp) (by simpa using hq)

@[simp] theorem joined_nil : joined [] = "" := by simp [joined]

@[simp] theorem joined_singleton (p : Identifier) : joined [p] = p.text := by simp [joined]

/-- A name with parts begins with a character that is no separator. -/
theorem joined_cons_head (p : Identifier) (ps : List Identifier) :
    ∃ c cs, (joined (p :: ps)).toList = c :: cs ∧ (c != TypeName.separator) = true := by
  obtain ⟨c, cs, hcs⟩ := p.exists_cons
  refine ⟨c, cs ++ tailChars ps, ?_, p.ne_separator c (by rw [hcs]; exact List.mem_cons_self)⟩
  rw [toList_joined_cons, hcs]
  rfl

theorem bare_joined (ps : List Identifier) : TypeName.bare (joined ps) = joined ps := by
  apply String.toList_injective
  unfold TypeName.bare
  rw [String.toList_ofList]
  cases ps with
  | nil => simp
  | cons p ps =>
    obtain ⟨c, cs, hcs, hc⟩ := joined_cons_head p ps
    rw [hcs, List.dropWhile_cons_of_neg]
    simpa using hc

theorem isEmpty_joined_cons (p : Identifier) (ps : List Identifier) :
    (joined (p :: ps)).isEmpty = false := by
  obtain ⟨c, cs, hcs, _⟩ := joined_cons_head p ps
  rw [Bool.eq_false_iff]
  intro hempty
  rw [String.isEmpty_iff] at hempty
  rw [hempty] at hcs
  simp at hcs

theorem qualify_joined (scope : List Identifier) {ps : List Identifier} (hp : ps ≠ []) :
    TypeName.qualify (joined scope) (joined ps) = joined (scope ++ ps) := by
  unfold TypeName.qualify
  cases scope with
  | nil => simp
  | cons s ss =>
    rw [isEmpty_joined_cons, joined_append (List.cons_ne_nil s ss) hp]
    rfl

/-- No character of a qualified name is a blank. -/
theorem isBlank_of_mem_joined (ps : List Identifier) :
    ∀ c ∈ (joined ps).toList, Text.isBlank c = false := by
  intro c hc
  have hident (p : Identifier) (hp : c ∈ p.text.toList) : Text.isBlank c = false :=
    isBlank_of_isIdentifierChar (List.all_eq_true.1 p.chars c hp)
  cases ps with
  | nil => simp at hc
  | cons p ps =>
    rw [toList_joined_cons] at hc
    rcases List.mem_append.1 hc with hc | hc
    · exact hident p hc
    · obtain ⟨q, _, hq⟩ := List.mem_flatMap.1 hc
      rcases List.mem_cons.1 hq with rfl | hq
      · decide
      · exact hident q hq

theorem trim_joined (ps : List Identifier) : Text.trim (joined ps) = joined ps := by
  have hfront {l : List Char} (h : ∀ c ∈ l, Text.isBlank c = false) :
      l.dropWhile Text.isBlank = l := by
    cases l with
    | nil => rfl
    | cons c cs => exact List.dropWhile_cons_of_neg (by simp [h c List.mem_cons_self])
  have hblank := isBlank_of_mem_joined ps
  unfold Text.trim
  rw [hfront hblank, hfront (fun c hc => hblank c (List.mem_reverse.1 hc)), List.reverse_reverse,
    String.ofList_toList]

/-! ## Looking a name up -/

/-- The characters of a name up to its first separator. -/
theorem takeWhile_joined (p : Identifier) (ps : List Identifier) :
    (joined (p :: ps)).toList.takeWhile (· != TypeName.separator) = p.text.toList := by
  rw [toList_joined_cons, List.takeWhile_append_of_pos p.ne_separator]
  cases ps with
  | nil => simp [tailChars]
  | cons q qs => simp [tailChars]

theorem splitName_joined (p : Identifier) (ps : List Identifier) :
    Reader.splitName (joined (p :: ps)) = (p.text, if ps = [] then none else some (joined ps)) := by
  have hrest : (joined (p :: ps)).toList.drop p.text.toList.length = tailChars ps := by
    rw [toList_joined_cons, List.drop_left]
  unfold Reader.splitName
  dsimp only
  rw [takeWhile_joined, hrest, String.ofList_toList]
  cases ps with
  | nil => rfl
  | cons q qs =>
    have htail : tailChars (q :: qs) = TypeName.separator :: (joined (q :: qs)).toList := by
      rw [toList_joined_cons]
      rfl
    rw [htail]
    simp

/-- The imports as the reader keeps them. -/
def importTable (imports : Imports) : List (String × String) :=
  imports.map fun e => (Text.foldCase e.1.text, joined e.2)

theorem lookup_importTable (imports : Imports) (name : String) :
    (importTable imports).lookup (Text.foldCase name)
      = (imports.find? (fun e => Text.sameFolded e.1.text name)).map (fun e => joined e.2) := by
  induction imports with
  | nil => rfl
  | cons e es ih =>
    show List.lookup _ ((Text.foldCase e.1.text, joined e.2) :: importTable es) = _
    rw [List.lookup_cons, List.find?_cons]
    by_cases h : Text.foldCase e.1.text = Text.foldCase name
    · have hsame : Text.sameFolded e.1.text name = true := Text.sameFolded_iff.2 h
      rw [hsame, h]
      simp
    · have hsame : Text.sameFolded e.1.text name = false := by
        rw [Bool.eq_false_iff]
        exact fun hs => h (Text.sameFolded_iff.1 hs)
      have hkey : (Text.foldCase name == Text.foldCase e.1.text) = false := by
        rw [beq_eq_false_iff_ne]
        exact fun hk => h hk.symm
      rw [hsame, hkey]
      exact ih

/-! ## The mark of relative names -/

theorem toLower_separator : TypeName.separator.toLower = TypeName.separator := rfl

/-- Only capital letters change. -/
theorem toLower_of_not_upper {c : Char} (h : ¬ c.isUpper = true) : c.toLower = c :=
  dif_neg fun hrange => h (decide_eq_true hrange)

/-- A keyword has the letters of its word, up to their case. -/
theorem Keyword.map_toLower {word : String} (k : Keyword word) :
    k.text.toList.map Char.toLower = word.toList.map Char.toLower := by
  have hfold := congrArg String.toList (Text.sameFolded_iff.1 k.spells)
  rwa [Text.toList_foldCase, Text.toList_foldCase] at hfold

theorem toLower_eq_separator {c : Char} (h : c.toLower = TypeName.separator) :
    c = TypeName.separator := by
  by_cases hupper : c.isUpper = true
  · -- a capital letter becomes a small one, and those lie behind the separator
    exfalso
    have hlower : c.toLower.toNat = (c.val + ('a'.val - 'A'.val)).toNat :=
      congrArg Char.toNat (dif_pos (of_decide_eq_true hupper))
    have hshift : ('a'.val - 'A'.val).toNat = 32 := rfl
    have hseparator : TypeName.separator.toNat = 92 := rfl
    have hval : c.val.toNat = c.toNat := rfl
    rw [h, hseparator, UInt32.toNat_add, hshift, hval] at hlower
    rw [isUpper_iff] at hupper
    omega
  · rw [← toLower_of_not_upper hupper]
    exact h

/-- The text of a class name, as the reader collects it from the tokens. -/
def ClassName.text : ClassName → String
  | plain q => joined q.parts
  | full q => String.singleton TypeName.separator ++ joined q.parts
  | relative kw q => kw.text ++ String.singleton TypeName.separator ++ joined q.parts

theorem relativeMark_eq : Reader.relativeMark = "namespace".toList ++ [TypeName.separator] := by
  decide

/-- The first segment of a name that begins with the mark of relative names is the word itself. -/
theorem first_of_relativeMark {p : Identifier} {ps : List Identifier}
    (h : ((joined (p :: ps)).toList.take Reader.relativeMark.length).map Char.toLower
      = Reader.relativeMark) :
    Text.sameFolded p.text "namespace" = true := by
  have hpred : (· != TypeName.separator) ∘ Char.toLower = (· != TypeName.separator) := by
    funext c
    show (c.toLower != TypeName.separator) = (c != TypeName.separator)
    rw [Bool.eq_iff_iff, bne_iff_ne, bne_iff_ne]
    constructor
    · intro hc he
      rw [he] at hc
      exact hc toLower_separator
    · exact fun hc hl => hc (toLower_eq_separator hl)
  have hfirst : ((joined (p :: ps)).toList.map Char.toLower).takeWhile (· != TypeName.separator)
      = p.text.toList.map Char.toLower := by
    rw [List.takeWhile_map, hpred, takeWhile_joined]
  have hmark : ((joined (p :: ps)).toList.map Char.toLower).takeWhile (· != TypeName.separator)
      = "namespace".toList := by
    have hsplit := congrArg (List.map Char.toLower)
      (List.take_append_drop Reader.relativeMark.length (joined (p :: ps)).toList)
    have hword : ∀ c ∈ "namespace".toList, (c != TypeName.separator) = true :=
      List.all_eq_true.1 rfl
    rw [List.map_append, h, relativeMark_eq, List.append_assoc] at hsplit
    rw [← hsplit, List.takeWhile_append_of_pos hword, List.singleton_append,
      List.takeWhile_cons_of_neg (by decide), List.append_nil]
  rw [Text.sameFolded_iff]
  apply String.toList_injective
  rw [Text.toList_foldCase, ← hfirst, hmark]
  decide

/-- The mark of a relative name is taken off. -/
theorem relativeMark_text (kw : Keyword "namespace") (s : String) :
    ((kw.text ++ String.singleton TypeName.separator ++ s).toList.take
        Reader.relativeMark.length).map Char.toLower = Reader.relativeMark
    ∧ (kw.text ++ String.singleton TypeName.separator ++ s).toList.drop
        Reader.relativeMark.length = s.toList := by
  have hfold : kw.text.toList.map Char.toLower = "namespace".toList := by
    rw [kw.map_toLower]
    decide
  have hlen : Reader.relativeMark.length = (kw.text.toList ++ [TypeName.separator]).length := by
    have := congrArg List.length hfold
    rw [List.length_map] at this
    rw [List.length_append, this]
    rfl
  have hsplit : (kw.text ++ String.singleton TypeName.separator ++ s).toList
      = (kw.text.toList ++ [TypeName.separator]) ++ s.toList := by
    simp
  rw [hsplit, hlen, List.take_left, List.drop_left, List.map_append, hfold]
  exact ⟨rfl, rfl⟩

/-! ## Resolution -/

/-- **The reader resolves a class name to its meaning**, if its namespace and imports are those of
the section. -/
theorem resolve_text {r : Reader} {scope : List Identifier} {imports : Imports}
    (hscope : r.scope = joined scope) (himports : r.imports = importTable imports)
    (hne : ∀ e ∈ imports, e.2 ≠ []) (n : ClassName) :
    r.resolve n.text = joined (n.resolve scope imports) := by
  have hparts (q : Qualified) : q.parts ≠ [] := by simp [Qualified.parts]
  cases n with
  | full q =>
    show r.resolve (String.singleton TypeName.separator ++ joined q.parts) = joined q.parts
    simp [Reader.resolve]
  | relative kw q =>
    show r.resolve (kw.text ++ String.singleton TypeName.separator ++ joined q.parts)
      = joined (scope ++ q.parts)
    obtain ⟨hmark, hrest⟩ := relativeMark_text kw (joined q.parts)
    -- a separator in front would be the first character of the mark
    have hhead : (kw.text ++ String.singleton TypeName.separator ++ joined q.parts).toList.head?
        ≠ some TypeName.separator := by
      intro hsep
      have hlow := congrArg List.head? hmark
      rw [List.head?_map, List.head?_take, if_neg (by decide), hsep] at hlow
      cases hlow
    unfold Reader.resolve
    rw [if_neg hhead, if_pos hmark, hrest, String.ofList_toList, hscope,
      qualify_joined scope (hparts q)]
  | plain q =>
    -- neither a separator nor the mark of a relative name stands in front
    obtain ⟨c, cs, hcs, hc⟩ := joined_cons_head q.first.toIdentifier
      (q.rest.map Segment.toIdentifier)
    have hhead : (joined q.parts).toList.head? ≠ some TypeName.separator := by
      show (joined (q.first.toIdentifier :: q.rest.map _)).toList.head? ≠ _
      rw [hcs]
      simpa using hc
    have hmark : ((joined q.parts).toList.take Reader.relativeMark.length).map Char.toLower
        ≠ Reader.relativeMark := by
      intro hm
      have hsame := first_of_relativeMark hm
      have hfree := List.all_eq_true.1 q.first.free "namespace" (by simp [reservedWords])
      rw [hsame] at hfree
      cases hfree
    have hsplit : Reader.splitName (joined q.parts) = (q.first.text,
        if q.rest.map Segment.toIdentifier = [] then none
        else some (joined (q.rest.map Segment.toIdentifier))) :=
      splitName_joined q.first.toIdentifier (q.rest.map Segment.toIdentifier)
    show r.resolve (joined q.parts) = _
    unfold Reader.resolve
    rw [if_neg hhead, if_neg hmark, hsplit]
    simp only
    rw [himports, lookup_importTable, hscope]
    cases hfind : imports.find? (fun e => Text.sameFolded e.1.text q.first.text) with
    | none =>
      simp only [ClassName.resolve, hfind, Option.map_none]
      exact qualify_joined scope (hparts q)
    | some e =>
      have htarget := hne e (List.mem_of_find?_eq_some hfind)
      simp only [ClassName.resolve, hfind, Option.map_some]
      by_cases hrest : q.rest.map Segment.toIdentifier = []
      · simp only [hrest, if_true, List.append_nil]
      · simp only [hrest, if_false]
        exact (joined_append htarget hrest).symm

/-! ## The tokens of names -/

/-- A token that belongs to a name wherever names are read. -/
def IsPlainPart (t : Token) : Prop :=
  t.isNamePart = true ∧ ∀ w ∈ ["as", "extends", "implements", "function", "const"], t.isWord w = false

theorem isPlainPart_ofSeparator : IsPlainPart Token.ofSeparator := ⟨rfl, fun _ _ => rfl⟩

theorem isPlainPart_segment (s : Segment) : IsPlainPart (Token.ofWord s.text) := by
  refine ⟨rfl, fun w hw => s.not_reserved ?_⟩
  simp only [List.mem_cons, List.not_mem_nil, or_false] at hw
  rcases hw with rfl | rfl | rfl | rfl | rfl <;> simp [reservedWords]

theorem isPlainPart_relative (k : Keyword "namespace") : IsPlainPart (Token.ofWord k.text) := by
  refine ⟨rfl, fun w hw => (k.sameFolded w).trans ?_⟩
  simp only [List.mem_cons, List.not_mem_nil, or_false] at hw
  rcases hw with rfl | rfl | rfl | rfl | rfl <;> decide

theorem isPlainPart_segmentTokens (ss : List Segment) : ∀ t ∈ segmentTokens ss, IsPlainPart t := by
  intro t ht
  obtain ⟨s, _, hs⟩ := List.mem_flatMap.1 ht
  simp only [List.mem_cons, List.not_mem_nil, or_false] at hs
  rcases hs with rfl | rfl
  · exact isPlainPart_ofSeparator
  · exact isPlainPart_segment s

theorem isPlainPart_qualified (q : Qualified) : ∀ t ∈ q.tokens, IsPlainPart t := by
  intro t ht
  rcases List.mem_cons.1 ht with rfl | ht
  · exact isPlainPart_segment q.first
  · exact isPlainPart_segmentTokens q.rest t ht

theorem isPlainPart_className (n : ClassName) : ∀ t ∈ n.tokens, IsPlainPart t := by
  intro t ht
  cases n with
  | plain q => exact isPlainPart_qualified q t ht
  | full q =>
    rcases List.mem_cons.1 ht with rfl | ht
    · exact isPlainPart_ofSeparator
    · exact isPlainPart_qualified q t ht
  | relative k q =>
    rcases List.mem_cons.1 ht with rfl | ht
    · exact isPlainPart_relative k
    · rcases List.mem_cons.1 ht with rfl | ht
      · exact isPlainPart_ofSeparator
      · exact isPlainPart_qualified q t ht

/-- The parts of a name behind the first one, each behind its separator. -/
def partTokens (ps : List Identifier) : List Token :=
  ps.flatMap fun p => [Token.ofSeparator, Token.ofWord p.text]

theorem segmentTokens_eq (ss : List Segment) :
    segmentTokens ss = partTokens (ss.map Segment.toIdentifier) := by
  unfold segmentTokens partTokens
  rw [List.flatMap_map]

theorem join_partTokens (ps : List Identifier) :
    (String.join ((partTokens ps).map Token.text)).toList = tailChars ps := by
  induction ps with
  | nil => rfl
  | cons p ps ih =>
    have hcons : partTokens (p :: ps)
        = Token.ofSeparator :: Token.ofWord p.text :: partTokens ps := rfl
    rw [hcons, List.map_cons, List.map_cons, String.join_cons, String.join_cons,
      String.toList_append, String.toList_append, ih]
    simp [tailChars, Token.ofSeparator]

/-- The tokens of the parts spell the text of the name. -/
theorem join_parts (p : Identifier) (ps : List Identifier) :
    String.join ((Token.ofWord p.text :: partTokens ps).map Token.text) = joined (p :: ps) := by
  apply String.toList_injective
  rw [List.map_cons, String.join_cons, String.toList_append, join_partTokens, toList_joined_cons]
  rfl

/-- The tokens of a name spell its text. -/
theorem join_qualified (q : Qualified) : String.join (q.tokens.map Token.text) = joined q.parts := by
  unfold Qualified.tokens
  rw [segmentTokens_eq, join_parts]
  rfl

theorem join_className (n : ClassName) : String.join (n.tokens.map Token.text) = n.text := by
  cases n with
  | plain q => exact join_qualified q
  | full q =>
    show String.join (String.singleton TypeName.separator :: q.tokens.map Token.text) = _
    rw [String.join_cons, join_qualified]
    rfl
  | relative k q =>
    show String.join (k.text :: String.singleton TypeName.separator :: q.tokens.map Token.text) = _
    rw [String.join_cons, String.join_cons, join_qualified, ← String.append_assoc]
    rfl

end Source
end Conformance
