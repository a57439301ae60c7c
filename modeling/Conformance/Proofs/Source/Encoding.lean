import Conformance.Source.Bytes

/-!
# `Proofs.Source.Encoding`: characters as bytes

A character of ASCII is one byte, and every other character is made of bytes beyond ASCII alone. So a class of
bytes and a class of characters that agree on ASCII, and hold beyond it everywhere or nowhere, see the same of
a text. `InFront` says which characters stand in front of a position, `after` which position
lies behind some of them; a cut between two such positions takes the characters between them.
-/

namespace Conformance
namespace Source
namespace Bytes

/-! ## The bytes of characters -/

/-- The bytes of some characters. -/
def encode (cs : List Char) : List UInt8 := cs.flatMap String.utf8EncodeChar

theorem encode_cons (c : Char) (cs : List Char) :
    encode (c :: cs) = String.utf8EncodeChar c ++ encode cs := List.flatMap_cons

theorem encode_append (cs ds : List Char) : encode (cs ++ ds) = encode cs ++ encode ds :=
  List.flatMap_append

theorem ofText_ofList (cs : List Char) : ofText (String.ofList cs) = encode cs :=
  List.toList_data_toByteArray

theorem ofText_eq (source : String) : ofText source = encode source.toList := by
  rw [← ofText_ofList, String.ofList_toList]

theorem length_ofText (source : String) : (ofText source).length = source.utf8ByteSize := by
  rw [ofText, Array.length_toList, ← String.size_toByteArray]
  rfl

theorem eq_of_toList {a b : ByteArray} (h : a.data.toList = b.data.toList) : a = b :=
  ByteArray.ext (Array.toList_inj.1 h)

theorem toList_extract (a : ByteArray) (i j : Nat) :
    (a.extract i j).data.toList = (a.data.toList.drop i).take (j - i) := by
  rw [ByteArray.data_extract, Array.toList_extract]

theorem utf8EncodeChar_of_ascii {c : Char} (h : c.toNat < 0x80) :
    String.utf8EncodeChar c = [byte c] := by
  have hle : c.val.toNat ≤ 0x7f := Nat.le_of_lt_succ h
  unfold String.utf8EncodeChar
  exact if_pos hle

theorem utf8EncodeChar_of_high {c : Char} (h : 0x80 ≤ c.toNat) :
    ∀ b ∈ String.utf8EncodeChar c, 0x80 ≤ b := by
  have hgt : ¬ c.val.toNat ≤ 0x7f := Nat.not_le_of_lt h
  unfold String.utf8EncodeChar
  intro b hb
  dsimp only at hb
  rw [if_neg hgt] at hb
  rw [UInt8.le_iff_toNat_le]
  split at hb
  · simp only [List.mem_cons, List.not_mem_nil, or_false] at hb
    rcases hb with rfl | rfl <;> simp only [UInt8.toNat_ofNat', UInt8.toNat_ofNat] <;> omega
  split at hb
  · simp only [List.mem_cons, List.not_mem_nil, or_false] at hb
    rcases hb with rfl | rfl | rfl <;> simp only [UInt8.toNat_ofNat', UInt8.toNat_ofNat] <;> omega
  · simp only [List.mem_cons, List.not_mem_nil, or_false] at hb
    rcases hb with rfl | rfl | rfl | rfl <;>
      simp only [UInt8.toNat_ofNat', UInt8.toNat_ofNat] <;> omega

theorem encode_cons_ascii {c : Char} (h : c.toNat < 0x80) (cs : List Char) :
    encode (c :: cs) = byte c :: encode cs := by
  rw [encode_cons, utf8EncodeChar_of_ascii h]
  rfl

theorem exists_of_high {c : Char} (h : 0x80 ≤ c.toNat) :
    ∃ b ys, String.utf8EncodeChar c = b :: ys ∧ 0x80 ≤ b ∧ ∀ y ∈ ys, 0x80 ≤ y := by
  have hhigh := utf8EncodeChar_of_high h
  cases hbytes : String.utf8EncodeChar c with
  | nil => exact absurd hbytes String.utf8EncodeChar_ne_nil
  | cons b ys =>
    rw [hbytes] at hhigh
    exact ⟨b, ys, rfl, hhigh b List.mem_cons_self, fun y hy => hhigh y (List.mem_cons_of_mem b hy)⟩

/-- Behind the first byte of a character come only bytes beyond ASCII. -/
theorem exists_utf8EncodeChar (c : Char) :
    ∃ b ys, String.utf8EncodeChar c = b :: ys ∧ ∀ y ∈ ys, 0x80 ≤ y := by
  by_cases h : c.toNat < 0x80
  · exact ⟨byte c, [], utf8EncodeChar_of_ascii h, nofun⟩
  · obtain ⟨b, ys, hbytes, _, hys⟩ := exists_of_high (Nat.le_of_not_lt h)
    exact ⟨b, ys, hbytes, hys⟩

/-- A character is known from the bytes in front. -/
theorem char_eq_of_append {c d : Char} {xs ys : List UInt8}
    (h : String.utf8EncodeChar c ++ xs = String.utf8EncodeChar d ++ ys) : c = d := by
  have hdecode := congrArg (fun bs => bs.toByteArray.utf8DecodeChar? 0) h
  simp only [List.toByteArray_append, ByteArray.utf8DecodeChar?_utf8EncodeChar_append] at hdecode
  exact Option.some.inj hdecode

/-- Some characters stand at the front of a text exactly if their bytes do. -/
theorem isPrefixOf_encode (cs ds : List Char) :
    (encode cs).isPrefixOf (encode ds) = cs.isPrefixOf ds := by
  rw [Bool.eq_iff_iff, List.isPrefixOf_iff_prefix, List.isPrefixOf_iff_prefix]
  constructor
  · rintro ⟨zs, hzs⟩
    induction cs generalizing ds with
    | nil => exact List.nil_prefix
    | cons c cs ih =>
      rw [encode_cons, List.append_assoc] at hzs
      cases ds with
      | nil => exact absurd (List.append_eq_nil_iff.1 hzs).1 String.utf8EncodeChar_ne_nil
      | cons d ds =>
        -- both lists begin with the bytes of one character, so it is the same one
        rw [encode_cons] at hzs
        obtain rfl := char_eq_of_append hzs
        exact List.cons_prefix_cons.2 ⟨rfl, ih ds (List.append_cancel_left hzs)⟩
  · rintro ⟨zs, rfl⟩
    exact ⟨encode zs, (encode_append cs zs).symm⟩

/-! ## The order of bytes -/

theorem ofNat_lt_iff {m n : Nat} (hm : m < 0x100) (hn : n < 0x100) :
    UInt8.ofNat m < UInt8.ofNat n ↔ m < n := by
  rw [UInt8.lt_iff_toNat_lt, UInt8.toNat_ofNat', UInt8.toNat_ofNat']
  omega

theorem ofNat_inj_iff {m n : Nat} (hm : m < 0x100) (hn : n < 0x100) :
    UInt8.ofNat m = UInt8.ofNat n ↔ m = n := by
  rw [← UInt8.toNat_inj, UInt8.toNat_ofNat', UInt8.toNat_ofNat']
  omega

/-- The bytes of a smaller character are smaller, whatever comes behind. -/
theorem utf8EncodeChar_lt {c d : Char} (h : c < d) (xs ys : List UInt8) :
    String.utf8EncodeChar c ++ xs < String.utf8EncodeChar d ++ ys := by
  have hlt : c.val.toNat < d.val.toNat := UInt32.lt_iff_toNat_lt.1 h
  have hmax : d.val.toNat < 0x110000 := by
    rcases d.valid with hd | hd
    · exact Nat.lt_trans hd (by decide)
    · exact hd.2
  unfold String.utf8EncodeChar
  dsimp only
  generalize c.val.toNat = m at *
  generalize d.val.toNat = n at *
  -- the bytes behind the first hold digits to the base 64
  have hm : m / 64 / 64 = m / 4096 := by rw [Nat.div_div_eq_div_mul]
  have hm' : m / 4096 / 64 = m / 262144 := by rw [Nat.div_div_eq_div_mul]
  have hn : n / 64 / 64 = n / 4096 := by rw [Nat.div_div_eq_div_mul]
  have hn' : n / 4096 / 64 = n / 262144 := by rw [Nat.div_div_eq_div_mul]
  have hmtop : m / 262144 % 8 = m / 262144 := Nat.mod_eq_of_lt (by omega)
  have hntop : n / 262144 % 8 = n / 262144 := Nat.mod_eq_of_lt (by omega)
  repeat' split
  all_goals
    simp (disch := omega) only [List.cons_append, List.cons_lt_cons_iff, ofNat_lt_iff, ofNat_inj_iff]
  all_goals omega

theorem encode_lt {cs ds : List Char} (h : cs < ds) : encode cs < encode ds := by
  induction h with
  | @nil d ds =>
    obtain ⟨b, ys, hbytes, _⟩ := exists_utf8EncodeChar d
    rw [encode_cons, hbytes]
    exact .nil
  | @cons c cs ds _ ih =>
    rw [encode_cons, encode_cons]
    exact List.append_left_lt ih
  | @rel c cs d ds hlt =>
    rw [encode_cons, encode_cons]
    exact utf8EncodeChar_lt hlt (encode cs) (encode ds)

/-- **Texts are ordered as their bytes are.** -/
theorem ofText_lt {s t : String} (h : s < t) : ofText s < ofText t := by
  have hchars : s.toList < t.toList := h
  rw [ofText_eq, ofText_eq]
  exact encode_lt hchars

/-! ## Classes of bytes and of characters -/

/-- What holds of the first 128 characters holds of ASCII. -/
theorem of_ascii {P : Char → Prop} (h : ∀ n < 0x80, P (Char.ofNat n)) (c : Char)
    (hc : c.toNat < 0x80) : P c := by
  have hofNat := h c.toNat hc
  rwa [Char.ofNat_toNat] at hofNat

/-- What holds of the last 128 bytes holds beyond ASCII. -/
theorem of_high {P : UInt8 → Prop} (h : ∀ n < 0x100, 0x80 ≤ n → P (UInt8.ofNat n)) (b : UInt8)
    (hb : 0x80 ≤ b) : P b := by
  have hofNat := h b.toNat b.toNat_lt (UInt8.le_iff_toNat_le.1 hb)
  rwa [UInt8.ofNat_toNat] at hofNat

theorem byte_inj {c d : Char} (hc : c.toNat < 0x80) (hd : d.toNat < 0x80) :
    byte c = byte d ↔ c = d := by
  constructor
  · intro h
    have htoNat := congrArg UInt8.toNat h
    simp only [byte, UInt8.toNat_ofNat'] at htoNat
    exact Char.toNat_inj.1 (by omega)
  · exact congrArg byte

theorem ne_byte_of_high {b : UInt8} {c : Char} (hb : 0x80 ≤ b) (hc : c.toNat < 0x80) : b ≠ byte c := by
  rintro rfl
  have hle : 0x80 ≤ (byte c).toNat := UInt8.le_iff_toNat_le.1 hb
  rw [byte, UInt8.toNat_ofNat'] at hle
  omega

theorem ne_of_high {c d : Char} (hc : 0x80 ≤ c.toNat) (hd : d.toNat < 0x80) : c ≠ d := by
  rintro rfl
  omega

/-- A class of bytes and a class of characters that see the same of a text. -/
structure SameClass (p : UInt8 → Bool) (q : Char → Bool) : Prop where
  ascii : ∀ c, c.toNat < 0x80 → p (byte c) = q c
  high : ∀ b, 0x80 ≤ b → ∀ c, 0x80 ≤ c.toNat → p b = q c

/-- One character of ASCII. -/
theorem sameClass_byte {d : Char} (hd : d.toNat < 0x80) : SameClass (· == byte d) (· == d) where
  ascii c hc := by
    rw [Bool.eq_iff_iff, beq_iff_eq, beq_iff_eq, byte_inj hc hd]
  high b hb c hc := by
    rw [beq_eq_false_iff_ne.2 (ne_byte_of_high hb hd), beq_eq_false_iff_ne.2 (ne_of_high hc hd)]

theorem sameClass_blank : SameClass isBlank Text.isAsciiBlank where
  ascii := of_ascii (by decide +kernel)
  high b hb c hc := by
    rw [of_high (P := fun b => isBlank b = false) (by decide +kernel) b hb, eq_comm]
    simp only [Text.isAsciiBlank, Bool.or_eq_false_iff, beq_eq_false_iff_ne]
    refine ⟨⟨⟨⟨?_, ?_⟩, ?_⟩, ?_⟩, ?_⟩ <;> exact ne_of_high hc (by decide)

theorem sameClass_indent : SameClass isIndent Source.isIndent where
  ascii := of_ascii (by decide +kernel)
  high b hb c hc := by
    rw [of_high (P := fun b => isIndent b = false) (by decide +kernel) b hb, eq_comm]
    simp only [Source.isIndent, Bool.or_eq_false_iff, beq_eq_false_iff_ne]
    exact ⟨ne_of_high hc (by decide), ne_of_high hc (by decide)⟩

theorem sameClass_nameStart : SameClass isNameStart Source.isNameStart where
  ascii := of_ascii (by decide +kernel)
  high b hb c hc := by
    rw [isNameStart, Source.isNameStart, decide_eq_true hb, decide_eq_true hc, Bool.or_true,
      Bool.or_true]

theorem sameClass_nameByte : SameClass isNameByte isNameChar where
  ascii := of_ascii (by decide +kernel)
  high b hb c hc := by
    rw [isNameByte, isNameChar, isNameStart, Source.isNameStart, decide_eq_true hb,
      decide_eq_true hc]
    simp only [Bool.or_true, Bool.true_or]

theorem isDigit_of_high {c : Char} (hc : 0x80 ≤ c.toNat) : c.isDigit = false := by
  rw [Bool.eq_false_iff, Ne, Char.isDigit_iff_toNat]
  rintro ⟨_, hle⟩
  exact absurd (Nat.le_trans hc hle) (by decide)

theorem isAlpha_of_high {c : Char} (hc : 0x80 ≤ c.toNat) : c.isAlpha = false := by
  have hupper : c.isUpper = false :=
    decide_eq_false fun hrange => absurd (Nat.le_trans hc hrange.2) (by decide)
  have hlower : c.isLower = false := by
    have hle : ¬ c.val ≤ 'z'.val := fun hle => absurd (Nat.le_trans hc hle) (by decide)
    show (_ && decide (c.val ≤ 'z'.val)) = false
    rw [decide_eq_false hle, Bool.and_false]
  show (c.isUpper || c.isLower) = false
  rw [hupper, hlower]
  rfl

theorem sameClass_number : SameClass isNumberByte isNumberChar where
  ascii := of_ascii (by decide +kernel)
  high b hb c hc := by
    rw [of_high (P := fun b => isNumberByte b = false) (by decide +kernel) b hb, eq_comm,
      isNumberChar, Char.isAlphanum, isAlpha_of_high hc, isDigit_of_high hc,
      beq_eq_false_iff_ne.2 (ne_of_high hc (by decide)),
      beq_eq_false_iff_ne.2 (ne_of_high hc (by decide))]
    rfl

theorem sameClass_digit : SameClass isDigit Char.isDigit where
  ascii := of_ascii (by decide +kernel)
  high b hb c hc := by
    rw [of_high (P := fun b => isDigit b = false) (by decide +kernel) b hb, isDigit_of_high hc]

/-- The same class is seen at the front of a text. -/
theorem SameClass.head {p : UInt8 → Bool} {q : Char → Bool} (h : SameClass p q) (cs : List Char) :
    (encode cs).head?.any p = cs.head?.any q := by
  cases cs with
  | nil => rfl
  | cons c cs =>
    by_cases hc : c.toNat < 0x80
    · rw [encode_cons_ascii hc]
      exact h.ascii c hc
    · obtain ⟨b, ys, hbytes, hb, _⟩ := exists_of_high (Nat.le_of_not_lt hc)
      rw [encode_cons, hbytes]
      exact h.high b hb c (Nat.le_of_not_lt hc)

/-- Characters of ASCII. -/
def IsAscii (cs : List Char) : Prop := ∀ c ∈ cs, c.toNat < 0x80

instance (cs : List Char) : Decidable (IsAscii cs) :=
  List.decidableBAll (fun c : Char => c.toNat < 0x80) cs

/-- Bytes of characters of ASCII. -/
theorem encode_ascii {cs : List Char} (h : IsAscii cs) : encode cs = cs.map byte := by
  induction cs with
  | nil => rfl
  | cons c cs ih =>
    rw [encode_cons_ascii (h c List.mem_cons_self), ih fun d hd => h d (List.mem_cons_of_mem c hd)]
    rfl

theorem startsWith_encode {cs : List Char} (h : IsAscii cs) (ds : List Char) :
    startsWith cs (encode ds) = cs.isPrefixOf ds := by
  rw [startsWith, ← encode_ascii h, isPrefixOf_encode]

theorem startsWith_high {c : Char} {cs : List Char} (hc : c.toNat < 0x80) {b : UInt8} (hb : 0x80 ≤ b)
    (bs : List UInt8) : startsWith (c :: cs) (b :: bs) = false := by
  have hne : (byte c == b) = false := beq_eq_false_iff_ne.2 (ne_byte_of_high hb hc).symm
  rw [startsWith, List.map_cons, List.isPrefixOf, hne, Bool.false_and]

theorem count_encode (cs : List Char) : (encode cs).count (byte '\n') = cs.count '\n' := by
  induction cs with
  | nil => rfl
  | cons c cs ih =>
    by_cases hc : c.toNat < 0x80
    · have hbeq : (byte c == byte '\n') = (c == '\n') := (sameClass_byte (by decide)).ascii c hc
      rw [encode_cons_ascii hc, List.count_cons, List.count_cons, ih, hbeq]
    · -- no line feed is among bytes beyond ASCII
      have hc := Nat.le_of_not_lt hc
      have hnone : (String.utf8EncodeChar c).count (byte '\n') = 0 := List.count_eq_zero.2 fun hmem =>
        ne_byte_of_high (utf8EncodeChar_of_high hc _ hmem) (by decide) rfl
      rw [encode_cons, List.count_append, hnone, Nat.zero_add, ih, List.count_cons,
        if_neg (by simpa using ne_of_high hc (by decide)), Nat.add_zero]

/-! ## Positions between characters -/

/-- These characters stand in front of a position, to the end of the text. -/
structure InFront (bs : List UInt8) (pos : Nat) (cs : List Char) : Prop where
  le : pos ≤ bs.length
  drop : bs.drop pos = encode cs

/-- The position behind some of the characters in front. -/
def after (pos : Nat) (cs : List Char) (n : Nat) : Nat := pos + (encode (cs.take n)).length

theorem after_zero (pos : Nat) (cs : List Char) : after pos cs 0 = pos := rfl

theorem after_cons (pos : Nat) (c : Char) (cs : List Char) (n : Nat) :
    after pos (c :: cs) (n + 1) = after (pos + (String.utf8EncodeChar c).length) cs n := by
  rw [after, after, List.take_succ_cons, encode_cons, List.length_append, Nat.add_assoc]

theorem after_cons_ascii (pos : Nat) {c : Char} (hc : c.toNat < 0x80) (cs : List Char) (n : Nat) :
    after pos (c :: cs) (n + 1) = after (pos + 1) cs n := by
  rw [after_cons, utf8EncodeChar_of_ascii hc]
  rfl

theorem after_add (pos : Nat) (cs : List Char) (m n : Nat) :
    after pos cs (m + n) = after (after pos cs m) (cs.drop m) n := by
  rw [after, after, after, List.take_add, encode_append, List.length_append, Nat.add_assoc]

theorem lt_of_drop_eq_cons {bs : List UInt8} {pos : Nat} {b : UInt8} {ys : List UInt8}
    (h : bs.drop pos = b :: ys) : pos < bs.length := by
  refine Nat.lt_of_not_le fun hle => ?_
  rw [List.drop_eq_nil_of_le hle] at h
  cases h

theorem drop_add_of_drop_eq {bs ys : List UInt8} {pos : Nat} (xs : List UInt8)
    (h : bs.drop pos = xs ++ ys) : bs.drop (pos + xs.length) = ys := by
  rw [← List.drop_drop, h, List.drop_left]

namespace InFront

variable {bs : List UInt8} {pos : Nat} {c : Char} {cs : List Char}

theorem start (source : String) : InFront (ofText source) 0 source.toList where
  le := Nat.zero_le _
  drop := ofText_eq source

theorem length_le_of_nil (h : InFront bs pos []) : bs.length ≤ pos :=
  List.drop_eq_nil_iff.1 h.drop

theorem length_eq (h : InFront bs pos cs) : pos + (encode cs).length = bs.length := by
  rw [← h.drop, List.length_drop]
  have := h.le
  omega

theorem lt_of_cons (h : InFront bs pos (c :: cs)) : pos < bs.length := by
  obtain ⟨b, ys, hbytes, _⟩ := exists_utf8EncodeChar c
  have hdrop : bs.drop pos = b :: (ys ++ encode cs) := by
    rw [h.drop, encode_cons, hbytes]
    rfl
  exact lt_of_drop_eq_cons hdrop

theorem move (h : InFront bs pos cs) (n : Nat) : InFront bs (after pos cs n) (cs.drop n) := by
  have hsplit : bs.drop pos = encode (cs.take n) ++ encode (cs.drop n) := by
    rw [← encode_append, List.take_append_drop, h.drop]
  refine ⟨?_, drop_add_of_drop_eq _ hsplit⟩
  have hlength := congrArg List.length hsplit
  rw [List.length_drop, List.length_append] at hlength
  have := h.le
  unfold after
  omega

theorem tail (h : InFront bs pos (c :: cs)) :
    InFront bs (pos + (String.utf8EncodeChar c).length) cs := by
  have hmove := h.move 1
  rwa [after_cons, after_zero] at hmove

theorem drop_ascii (h : InFront bs pos (c :: cs)) (hc : c.toNat < 0x80) :
    bs.drop pos = byte c :: encode cs := by
  rw [h.drop, encode_cons_ascii hc]

theorem tail_ascii (h : InFront bs pos (c :: cs)) (hc : c.toNat < 0x80) : InFront bs (pos + 1) cs := by
  have htail := h.tail
  rwa [utf8EncodeChar_of_ascii hc] at htail

theorem getElem?_eq (h : InFront bs pos cs) : bs[pos]? = (encode cs).head? := by
  rw [← h.drop, List.head?_drop]

/-- A class of bytes at a position is the class of characters in front of it. -/
theorem any (h : InFront bs pos cs) {p : UInt8 → Bool} {q : Char → Bool} (hclass : SameClass p q) :
    bs[pos]?.any p = cs.head?.any q := by
  rw [h.getElem?_eq, hclass.head]

/-- Which character of ASCII stands in front. -/
theorem getElem?_eq_some_iff (h : InFront bs pos cs) {d : Char} (hd : d.toNat < 0x80) :
    bs[pos]? = some (byte d) ↔ cs.head? = some d := by
  have hany := h.any (sameClass_byte hd)
  rw [Bool.eq_iff_iff, Option.any_eq_true, Option.any_eq_true] at hany
  simpa using hany

theorem bytesFrom_eq (h : InFront bs pos cs) : bytesFrom bs pos = .ok (encode cs) := by
  rw [bytesFrom, if_pos h.le, h.drop]

theorem bytesBetween_eq (h : InFront bs pos cs) (n : Nat) :
    bytesBetween bs pos (after pos cs n) = .ok (encode (cs.take n)) := by
  rw [bytesBetween, if_pos ⟨Nat.le_add_right pos _, (h.move n).le⟩, h.drop, after,
    Nat.add_sub_cancel_left]
  have hsplit : encode cs = encode (cs.take n) ++ encode (cs.drop n) := by
    rw [← encode_append, List.take_append_drop]
  rw [hsplit, List.take_left]

/-- Between two characters a text can be cut. -/
theorem isValid {source : String} (h : InFront (ofText source) pos cs) :
    (String.Pos.Raw.mk pos).IsValid source := by
  -- what is left of the text behind the position is made of characters
  rw [String.Pos.Raw.isValid_iff_isValidUTF8_extract_utf8ByteSize]
  refine ⟨?_, .intro cs (eq_of_toList ?_)⟩
  · rw [String.Pos.Raw.le_iff, String.byteIdx_rawEndPos, ← length_ofText]
    exact h.le
  · rw [toList_extract, ← length_ofText, List.utf8Encode, List.toList_data_toByteArray]
    show ((ofText source).drop pos).take _ = encode cs
    rw [List.take_of_length_le (Nat.le_of_eq List.length_drop), h.drop]

/-- **A cut behind some of the characters in front takes these characters.** -/
theorem textBetween_eq {source : String} (h : InFront (ofText source) pos cs) (n : Nat) :
    textBetween source pos (after pos cs n) = .ok (String.ofList (cs.take n)) := by
  have hbetween := bytesBetween_eq h n
  rw [bytesBetween, if_pos ⟨Nat.le_add_right pos _, (h.move n).le⟩] at hbetween
  rw [textBetween, dif_pos ⟨h.isValid, (h.move n).isValid, Nat.le_add_right pos _⟩]
  refine congrArg Except.ok (String.toByteArray_inj.1 (eq_of_toList ?_))
  rw [String.toByteArray_extract, toList_extract]
  exact (Except.ok.inj hbetween).trans (ofText_ofList (cs.take n)).symm

end InFront

end Bytes
end Source
end Conformance
