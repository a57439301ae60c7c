import Conformance.Source.Lexeme
import Conformance.Proofs.Failure

/-!
# `Proofs.Source.Lengths`: how far the parts of a token reach

Every length that the reading of a token computes stays inside the text in front and says where the part
ends: at the first stop, behind the first closing mark, behind the quote that is not protected.
What stands behind the end plays no part in it.
-/

namespace Conformance
namespace Source

/-! ## Up to a stop -/

theorem lengthBefore_le (stop : List Char → Bool) (cs : List Char) :
    lengthBefore stop cs ≤ cs.length := by
  induction cs with
  | nil => exact Nat.le_refl 0
  | cons c cs ih =>
    unfold lengthBefore
    split
    · exact Nat.zero_le _
    · exact Nat.succ_le_succ ih

/-- Behind the length there is a stop, if anything. -/
theorem stop_drop_lengthBefore (stop : List Char → Bool) (cs : List Char) :
    cs.drop (lengthBefore stop cs) = [] ∨ stop (cs.drop (lengthBefore stop cs)) = true := by
  induction cs with
  | nil => exact Or.inl rfl
  | cons c cs ih =>
    unfold lengthBefore
    split
    · next h => exact Or.inr h
    · exact ih

/-- A text without stops reaches to the next one. -/
theorem lengthBefore_append {stop : List Char → Bool} {xs v : List Char}
    (hxs : ∀ y z, xs = y ++ z → z ≠ [] → stop (z ++ v) = false) (hv : v = [] ∨ stop v = true) :
    lengthBefore stop (xs ++ v) = xs.length := by
  induction xs with
  | nil =>
    cases v with
    | nil => rfl
    | cons c v => rw [List.nil_append, lengthBefore, if_pos (hv.resolve_left nofun)]; rfl
  | cons c xs ih =>
    have hc : stop (c :: (xs ++ v)) = false := hxs [] (c :: xs) rfl nofun
    rw [List.cons_append, lengthBefore, if_neg (by rw [hc]; exact Bool.false_ne_true),
      ih fun y z h => hxs (c :: y) z (by rw [h]; rfl)]
    rfl

/-- A length ends with a text exactly if there is no stop in it and one behind it, if anything. -/
theorem lengthBefore_eq_length_iff {stop : List Char → Bool} {xs v : List Char} :
    lengthBefore stop (xs ++ v) = xs.length
      ↔ (∀ y z, xs = y ++ z → z ≠ [] → stop (z ++ v) = false) ∧ (v = [] ∨ stop v = true) := by
  constructor
  · intro h
    have hbehind := stop_drop_lengthBefore stop (xs ++ v)
    rw [h, List.drop_left] at hbehind
    refine ⟨?_, hbehind⟩
    clear hbehind
    induction xs with
    | nil => exact fun y z hyz hz => absurd (List.append_eq_nil_iff.1 hyz.symm).2 hz
    | cons c xs ih =>
      rw [List.cons_append, lengthBefore] at h
      split at h
      · cases h
      · next hc =>
        rintro (_ | ⟨a, y⟩) z hyz hz
        · rw [List.nil_append] at hyz
          rw [← hyz]
          exact Bool.eq_false_iff.2 hc
        · exact ih (Nat.succ.inj h) y z (List.cons.inj hyz).2 hz
  · rintro ⟨hxs, hv⟩
    exact lengthBefore_append hxs hv

/-- A mark that is looked for up to a stop does not stand in front of it. -/
theorem not_infix_of_stop {s xs v : List Char} (hs : s ≠ [])
    (h : ∀ y z, xs = y ++ z → z ≠ [] → s.isPrefixOf (z ++ v) = false) : ¬ s <:+: xs := by
  rintro ⟨y, z, hyz⟩
  have hnone := h y (s ++ z) (by rw [← hyz, List.append_assoc]) (List.append_ne_nil_of_left_ne_nil hs z)
  rw [List.append_assoc, List.isPrefixOf_iff_prefix.2 (List.prefix_append s (z ++ v))] at hnone
  cases hnone

/-- Where the stops of two texts agree, so do the lengths that end in front of them. -/
theorem lengthBefore_congr {stop : List Char → Bool} {xs w w' : List Char} (hw : w ≠ [])
    (hstop : ∀ ys, stop (ys ++ w) = stop (ys ++ w'))
    (hle : lengthBefore stop (xs ++ w) ≤ xs.length) :
    lengthBefore stop (xs ++ w') = lengthBefore stop (xs ++ w) := by
  induction xs with
  | nil =>
    cases w with
    | nil => exact absurd rfl hw
    | cons d w =>
      have hd : stop (d :: w) = true := by
        rw [List.nil_append, lengthBefore] at hle
        split at hle
        · assumption
        · exact absurd hle (Nat.not_succ_le_zero _)
      have hd' : stop w' = true := (hstop []).symm.trans hd
      rw [List.nil_append, List.nil_append, lengthBefore, if_pos hd]
      cases w' with
      | nil => rfl
      | cons d' w' => rw [lengthBefore, if_pos hd']
  | cons c xs ih =>
    rw [List.cons_append, List.cons_append, lengthBefore, lengthBefore]
    have hhead : stop (c :: (xs ++ w')) = stop (c :: (xs ++ w)) := (hstop (c :: xs)).symm
    rw [hhead]
    split
    · rfl
    · next hc =>
      rw [List.cons_append, lengthBefore, if_neg hc] at hle
      rw [ih (Nat.le_of_succ_le_succ hle)]

/-! ## As long as a class of characters lasts -/

/-- A run of characters that ends in front of a text depends only on the head of that text. -/
theorem length_takeWhile_congr {p : Char → Bool} {xs w w' : List Char}
    (hhead : w.head? = w'.head?) (hle : ((xs ++ w).takeWhile p).length ≤ xs.length) :
    ((xs ++ w').takeWhile p).length = ((xs ++ w).takeWhile p).length := by
  induction xs with
  | nil =>
    cases w with
    | nil =>
      cases w' with
      | nil => rfl
      | cons d' w' => cases hhead
    | cons d w =>
      cases w' with
      | nil => cases hhead
      | cons d' w' =>
        cases hhead
        rw [List.nil_append, List.takeWhile_cons] at hle
        split at hle
        · exact absurd hle (Nat.not_succ_le_zero _)
        · next hd =>
          rw [List.nil_append, List.nil_append, List.takeWhile_cons_of_neg hd,
            List.takeWhile_cons_of_neg hd]
  | cons c xs ih =>
    rw [List.cons_append, List.cons_append, List.takeWhile_cons, List.takeWhile_cons]
    split
    · next hc =>
      rw [List.cons_append, List.takeWhile_cons_of_pos hc] at hle
      rw [List.length_cons, List.length_cons, ih (Nat.le_of_succ_le_succ hle)]
    · rfl

/-! ## Through a closing mark -/

/-- Whether a text starts with a shorter one is decided by its front. -/
theorem isPrefixOf_append_of_le {s xs : List Char} (h : s.length ≤ xs.length) (w : List Char) :
    s.isPrefixOf (xs ++ w) = s.isPrefixOf xs := by
  rw [Bool.eq_iff_iff, List.isPrefixOf_iff_prefix, List.isPrefixOf_iff_prefix]
  exact ⟨fun hs => List.prefix_of_prefix_length_le hs (List.prefix_append xs w) h,
    fun hs => hs.trans (List.prefix_append xs w)⟩

theorem lengthThrough_bounds {closing cs : List Char} {n : Nat}
    (h : lengthThrough closing cs = some n) : closing.length ≤ n ∧ n ≤ cs.length := by
  induction cs generalizing n with
  | nil => cases h
  | cons c cs ih =>
    unfold lengthThrough at h
    split at h
    · next hprefix =>
      cases h
      exact ⟨Nat.le_refl _, (List.isPrefixOf_iff_prefix.1 hprefix).length_le⟩
    · obtain ⟨n, hn, rfl⟩ := Option.map_eq_some_iff.1 h
      obtain ⟨hlow, hhigh⟩ := ih hn
      exact ⟨Nat.le_succ_of_le hlow, Nat.succ_le_succ hhigh⟩

/-- Where the closing mark is not found it does not stand. -/
theorem not_infix_of_lengthThrough {closing cs : List Char} (hclosing : closing ≠ [])
    (h : lengthThrough closing cs = none) : ¬ closing <:+: cs := by
  induction cs with
  | nil => exact fun hmid => hclosing (List.infix_nil.1 hmid)
  | cons c cs ih =>
    rw [lengthThrough] at h
    split at h
    · cases h
    · next hprefix =>
      rw [Option.map_eq_none_iff] at h
      intro hmid
      rcases List.infix_cons_iff.1 hmid with hfront | hrest
      · exact hprefix (List.isPrefixOf_iff_prefix.2 hfront)
      · exact ih h hrest

/-- Nothing behind the closing mark plays a part. -/
theorem lengthThrough_take {closing cs : List Char} {n : Nat}
    (h : lengthThrough closing cs = some n) (w : List Char) (hclosing : closing ≠ []) :
    lengthThrough closing (cs.take n ++ w) = some n := by
  induction cs generalizing n with
  | nil => cases h
  | cons c cs ih =>
    obtain ⟨hlow, hhigh⟩ := lengthThrough_bounds h
    obtain ⟨k, rfl⟩ : ∃ k, n = k + 1 :=
      Nat.exists_eq_succ_of_ne_zero (Nat.ne_of_gt (Nat.lt_of_lt_of_le
        (List.length_pos_iff.2 hclosing) hlow))
    have hfront : closing.isPrefixOf ((c :: cs.take k) ++ w) = closing.isPrefixOf (c :: cs) := by
      have htake : closing.length ≤ (c :: cs.take k).length := by
        rw [List.length_cons, List.length_take_of_le (Nat.le_of_succ_le_succ hhigh)]
        exact hlow
      rw [isPrefixOf_append_of_le htake, ← isPrefixOf_append_of_le htake (cs.drop k),
        List.cons_append, List.take_append_drop]
    rw [List.take_succ_cons, List.cons_append, lengthThrough, ← List.cons_append, hfront]
    unfold lengthThrough at h
    split
    · next hprefix => rwa [if_pos hprefix] at h
    · next hprefix =>
      rw [if_neg hprefix] at h
      obtain ⟨m, hm, hmk⟩ := Option.map_eq_some_iff.1 h
      cases hmk
      rw [ih hm]
      rfl

/-- A text reaches through its closing mark if the mark stands nowhere in it before. -/
theorem lengthThrough_comment {body : List Char} (h : ¬ ['*', '/'] <:+: body ++ ['*']) (v : List Char) :
    lengthThrough ['*', '/'] (body ++ ['*', '/'] ++ v) = some (body.length + 2) := by
  induction body with
  | nil => rfl
  | cons c body ih =>
    have hfront : ['*', '/'].isPrefixOf (c :: (body ++ ['*', '/'] ++ v)) = false := by
      rw [Bool.eq_false_iff]
      intro hprefix
      refine h ?_
      cases body with
      | nil => simp at hprefix
      | cons d body =>
        simp only [List.isPrefixOf, List.cons_append, Bool.and_eq_true, beq_iff_eq] at hprefix
        obtain ⟨rfl, rfl, _⟩ := hprefix
        exact (List.prefix_append ['*', '/'] (body ++ ['*'])).isInfix
    have hrest : ¬ ['*', '/'] <:+: body ++ ['*'] :=
      fun hmid => h (hmid.trans (List.infix_cons (List.infix_refl _)))
    rw [List.cons_append, List.cons_append, lengthThrough, hfront, if_neg Bool.false_ne_true, ih hrest]
    rfl

/-! ## Quoted literals -/

/-- What may stand between two quotes: no quote of the same kind, except behind a backslash. -/
inductive Escaped (quote : Char) : List Char → Prop where
  | nil : Escaped quote []
  | plain {c : Char} {cs : List Char} (hquote : c ≠ quote) (hescape : c ≠ '\\') (h : Escaped quote cs) :
      Escaped quote (c :: cs)
  | escape {c : Char} {cs : List Char} (h : Escaped quote cs) : Escaped quote ('\\' :: c :: cs)

theorem Escaped.of_all {quote : Char} {cs : List Char}
    (h : (cs.all fun c => c != quote && c != '\\') = true) : Escaped quote cs := by
  induction cs with
  | nil => exact .nil
  | cons c cs ih =>
    rw [List.all_cons, Bool.and_eq_true, Bool.and_eq_true, bne_iff_ne, bne_iff_ne] at h
    obtain ⟨⟨hquote, hescape⟩, hrest⟩ := h
    exact .plain hquote hescape (ih hrest)

theorem quotedLength_le {quote : Char} {cs : List Char} {n : Nat}
    (h : quotedLength quote cs = some n) : 1 ≤ n ∧ n ≤ cs.length := by
  induction cs using quotedLength.induct quote generalizing n with
  | case1 => cases h
  | case2 c cs ih =>
    rw [quotedLength] at h
    obtain ⟨n, hn, rfl⟩ := Option.map_eq_some_iff.1 h
    exact ⟨by omega, Nat.add_le_add_right (ih hn).2 2⟩
  | case3 cs hplain =>
    rw [quotedLength.eq_3 _ _ _ hplain, if_pos rfl] at h
    cases h
    exact ⟨Nat.le_refl 1, Nat.succ_le_succ (Nat.zero_le _)⟩
  | case4 c cs hplain hc ih =>
    rw [quotedLength.eq_3 _ _ _ hplain, if_neg hc] at h
    obtain ⟨n, hn, rfl⟩ := Option.map_eq_some_iff.1 h
    exact ⟨by omega, Nat.add_le_add_right (ih hn).2 1⟩

/-- A backslash that protects nothing does not close a literal. -/
theorem plain_of_quotedLength {quote c : Char} {cs : List Char} {n : Nat} (hquote : quote ≠ '\\')
    (h : quotedLength quote (c :: cs) = some n)
    (hplain : ∀ d ds, c = '\\' → cs = d :: ds → False) : c ≠ '\\' := by
  rintro rfl
  cases cs with
  | nil => simp [quotedLength, hquote.symm] at h
  | cons d ds => exact hplain d ds rfl rfl

/-- Nothing behind the closing quote plays a part. -/
theorem quotedLength_take {quote : Char} {cs : List Char} {n : Nat} (hquote : quote ≠ '\\')
    (h : quotedLength quote cs = some n) (w : List Char) :
    quotedLength quote (cs.take n ++ w) = some n := by
  induction cs using quotedLength.induct quote generalizing n with
  | case1 => cases h
  | case2 c cs ih =>
    rw [quotedLength] at h
    obtain ⟨n, hn, rfl⟩ := Option.map_eq_some_iff.1 h
    rw [List.take_succ_cons, List.take_succ_cons, List.cons_append, List.cons_append, quotedLength,
      ih hn]
    rfl
  | case3 cs hplain =>
    rw [quotedLength.eq_3 _ _ _ hplain, if_pos rfl] at h
    cases h
    rw [List.take_succ_cons, List.cons_append,
      quotedLength.eq_3 _ _ _ fun _ _ hc _ => absurd hc hquote, if_pos rfl]
  | case4 c cs hplain hc ih =>
    have hescape := plain_of_quotedLength hquote h hplain
    rw [quotedLength.eq_3 _ _ _ hplain, if_neg hc] at h
    obtain ⟨n, hn, rfl⟩ := Option.map_eq_some_iff.1 h
    rw [List.take_succ_cons, List.cons_append,
      quotedLength.eq_3 _ _ _ fun _ _ hc _ => absurd hc hescape, if_neg hc, ih hn]
    rfl

/-- A text without a free quote reaches through the quote behind it. -/
theorem quotedLength_escaped {quote : Char} {body : List Char} (hquote : quote ≠ '\\')
    (h : Escaped quote body) (v : List Char) :
    quotedLength quote (body ++ quote :: v) = some (body.length + 1) := by
  induction h with
  | nil =>
    rw [List.nil_append, quotedLength.eq_3 _ _ _ fun _ _ hc _ => absurd hc hquote, if_pos rfl]
    rfl
  | plain hc hescape _ ih =>
    rw [List.cons_append, quotedLength.eq_3 _ _ _ fun _ _ hc _ => absurd hc hescape, if_neg hc, ih]
    rfl
  | escape _ ih =>
    rw [List.cons_append, List.cons_append, quotedLength, ih]
    rfl

/-- A literal that is closed has no free quote in front of the one that closes it. -/
theorem exists_escaped_of_quotedLength {quote : Char} {cs : List Char} {n : Nat} (hquote : quote ≠ '\\')
    (h : quotedLength quote cs = some n) :
    ∃ body v, Escaped quote body ∧ cs = body ++ quote :: v ∧ n = body.length + 1 := by
  induction cs using quotedLength.induct quote generalizing n with
  | case1 => cases h
  | case2 c cs ih =>
    rw [quotedLength] at h
    obtain ⟨n, hn, rfl⟩ := Option.map_eq_some_iff.1 h
    obtain ⟨body, v, hbody, rfl, rfl⟩ := ih hn
    exact ⟨'\\' :: c :: body, v, .escape hbody, rfl, rfl⟩
  | case3 cs hplain =>
    rw [quotedLength.eq_3 _ _ _ hplain, if_pos rfl] at h
    cases h
    exact ⟨[], cs, .nil, rfl, rfl⟩
  | case4 c cs hplain hc ih =>
    have hescape := plain_of_quotedLength hquote h hplain
    rw [quotedLength.eq_3 _ _ _ hplain, if_neg hc] at h
    obtain ⟨n, hn, rfl⟩ := Option.map_eq_some_iff.1 h
    obtain ⟨body, v, hbody, rfl, rfl⟩ := ih hn
    exact ⟨c :: body, v, .plain hc hescape hbody, rfl, rfl⟩

/-- **A literal is left open** exactly if no quote behind it is free. -/
theorem quotedLength_eq_none_iff {quote : Char} {cs : List Char} (hquote : quote ≠ '\\') :
    quotedLength quote cs = none ↔ ∀ body v, Escaped quote body → cs ≠ body ++ quote :: v := by
  constructor
  · intro h body v hbody hcs
    rw [hcs, quotedLength_escaped hquote hbody] at h
    cases h
  · intro h
    cases hlength : quotedLength quote cs with
    | none => rfl
    | some n =>
      obtain ⟨body, v, hbody, hcs, _⟩ := exists_escaped_of_quotedLength hquote hlength
      exact absurd hcs (h body v hbody)

/-- A quote behind characters that are none, and no backslashes, lies behind them. -/
theorem lt_quotedLength {quote : Char} {xs w : List Char} {n : Nat}
    (hxs : ∀ c ∈ xs, c ≠ quote ∧ c ≠ '\\') (h : quotedLength quote (xs ++ w) = some n) :
    xs.length < n := by
  induction xs generalizing n with
  | nil => exact (quotedLength_le h).1
  | cons c xs ih =>
    obtain ⟨hc, hescape⟩ := hxs c List.mem_cons_self
    rw [List.cons_append, quotedLength.eq_3 _ _ _ fun _ _ hc _ => absurd hc hescape,
      if_neg hc] at h
    obtain ⟨n, hn, rfl⟩ := Option.map_eq_some_iff.1 h
    exact Nat.succ_lt_succ (ih (fun d hd => hxs d (List.mem_cons_of_mem c hd)) hn)

/-! ## Attributes -/

/-- One character of an attribute outside of literals. -/
theorem attributeLength_none (depth : Nat) (c : Char) (cs : List Char) :
    attributeLength depth none (c :: cs)
      = if c = '[' then (attributeLength (depth + 1) none cs).map (· + 1)
        else if c = ']' then
          match depth with
          | 0 => .ok 1
          | depth + 1 => (attributeLength depth none cs).map (· + 1)
        else if c = '\'' ∨ c = '"' then (attributeLength depth (some c) cs).map (· + 1)
        else (attributeLength depth none cs).map (· + 1) := by
  cases depth with
  | zero => rw [attributeLength]
  | succ depth => rw [attributeLength]

/-- Lengths that are added one after the other. -/
theorem map_add_map_add (x : Except Literal Nat) (a b : Nat) :
    (x.map (· + a)).map (· + b) = x.map (· + (a + b)) := by
  cases x with
  | error e => rfl
  | ok n => exact congrArg Except.ok (Nat.add_assoc n a b)

/-- A literal in an attribute is passed over. -/
theorem attributeLength_escaped {quote : Char} {body : List Char} (hquote : quote ≠ '\\')
    (h : Escaped quote body) (depth : Nat) (v : List Char) :
    attributeLength depth (some quote) (body ++ quote :: v)
      = (attributeLength depth none v).map (· + (body.length + 1)) := by
  have hplain {c : Char} {cs : List Char} (hescape : c ≠ '\\') :
      attributeLength depth (some quote) (c :: cs)
        = (attributeLength depth (if c = quote then none else some quote) cs).map (· + 1) :=
    attributeLength.eq_4 _ _ _ _ fun _ _ hc _ => absurd hc hescape
  induction h with
  | nil =>
    rw [List.nil_append, hplain hquote, if_pos rfl]
    rfl
  | plain hc hescape _ ih =>
    rw [List.cons_append, hplain hescape, if_neg hc, ih, map_add_map_add]
    rfl
  | escape _ ih =>
    rw [List.cons_append, List.cons_append, attributeLength, ih, map_add_map_add]
    rfl

/-- A literal that is left open leaves its attribute open. -/
theorem attributeLength_of_open {quote : Char} {cs : List Char} (depth : Nat)
    (h : quotedLength quote cs = none) : attributeLength depth (some quote) cs = .error .string := by
  induction cs using quotedLength.induct quote with
  | case1 => rw [attributeLength]
  | case2 c cs ih =>
    rw [quotedLength, Option.map_eq_none_iff] at h
    rw [attributeLength, ih h]
    rfl
  | case3 cs hplain =>
    rw [quotedLength.eq_3 _ _ _ hplain, if_pos rfl] at h
    cases h
  | case4 c cs hplain hc ih =>
    rw [quotedLength.eq_3 _ _ _ hplain, if_neg hc, Option.map_eq_none_iff] at h
    rw [attributeLength.eq_4 _ _ _ _ hplain, if_neg hc, ih h]
    rfl

theorem attributeLength_le {depth : Nat} {quote : Option Char} {cs : List Char} {n : Nat}
    (h : attributeLength depth quote cs = .ok n) : n ≤ cs.length := by
  induction depth, quote, cs using attributeLength.induct generalizing n with
  | case1 => cases h
  | case2 => cases h
  | case3 depth quote c cs ih =>
    rw [attributeLength] at h
    obtain ⟨n, hn, rfl⟩ := exists_of_map_ok h
    exact Nat.add_le_add_right (ih hn) 2
  | case4 depth quote c cs hplain ih =>
    rw [attributeLength.eq_4 _ _ _ _ hplain] at h
    obtain ⟨n, hn, rfl⟩ := exists_of_map_ok h
    exact Nat.succ_le_succ (ih hn)
  | case5 depth cs ih =>
    rw [attributeLength_none, if_pos rfl] at h
    obtain ⟨n, hn, rfl⟩ := exists_of_map_ok h
    exact Nat.succ_le_succ (ih hn)
  | case6 cs hopen =>
    rw [attributeLength, if_neg hopen, if_pos rfl] at h
    cases h
    exact Nat.succ_le_succ (Nat.zero_le _)
  | case7 cs depth hopen ih =>
    rw [attributeLength, if_neg hopen, if_pos rfl] at h
    obtain ⟨n, hn, rfl⟩ := exists_of_map_ok h
    exact Nat.succ_le_succ (ih hn)
  | case8 depth c cs hopen hclose hquote ih =>
    rw [attributeLength_none, if_neg hopen, if_neg hclose, if_pos hquote] at h
    obtain ⟨n, hn, rfl⟩ := exists_of_map_ok h
    exact Nat.succ_le_succ (ih hn)
  | case9 depth c cs hopen hclose hquote ih =>
    rw [attributeLength_none, if_neg hopen, if_neg hclose, if_neg hquote] at h
    obtain ⟨n, hn, rfl⟩ := exists_of_map_ok h
    exact Nat.succ_le_succ (ih hn)

/-- Nothing behind the closing bracket plays a part. -/
theorem attributeLength_take {depth : Nat} {quote : Option Char} {cs : List Char} {n : Nat}
    (hquote : quote ≠ some '\\') (h : attributeLength depth quote cs = .ok n) (w : List Char) :
    attributeLength depth quote (cs.take n ++ w) = .ok n := by
  induction depth, quote, cs using attributeLength.induct generalizing n with
  | case1 => cases h
  | case2 => cases h
  | case3 depth quote c cs ih =>
    rw [attributeLength] at h
    obtain ⟨n, hn, rfl⟩ := exists_of_map_ok h
    rw [List.take_succ_cons, List.take_succ_cons, List.cons_append, List.cons_append,
      attributeLength, ih hquote hn]
    rfl
  | case4 depth quote c cs hplain ih =>
    have hescape : c ≠ '\\' := by
      -- a backslash at the very end leaves the literal open
      rintro rfl
      cases cs with
      | nil =>
        rw [attributeLength.eq_4 _ _ _ _ hplain] at h
        split at h <;> cases h
      | cons d ds => exact hplain d ds rfl rfl
    have hquote' : (if c = quote then none else some quote) ≠ some '\\' := by
      split
      · exact nofun
      · exact hquote
    rw [attributeLength.eq_4 _ _ _ _ hplain] at h
    obtain ⟨n, hn, rfl⟩ := exists_of_map_ok h
    rw [List.take_succ_cons, List.cons_append,
      attributeLength.eq_4 _ _ _ _ fun _ _ hc _ => absurd hc hescape, ih hquote' hn]
    rfl
  | case5 depth cs ih =>
    rw [attributeLength_none, if_pos rfl] at h
    obtain ⟨n, hn, rfl⟩ := exists_of_map_ok h
    rw [List.take_succ_cons, List.cons_append, attributeLength_none, if_pos rfl, ih hquote hn]
    rfl
  | case6 cs hopen =>
    rw [attributeLength, if_neg hopen, if_pos rfl] at h
    cases h
    rw [List.take_succ_cons, List.cons_append, attributeLength, if_neg hopen, if_pos rfl]
  | case7 cs depth hopen ih =>
    rw [attributeLength, if_neg hopen, if_pos rfl] at h
    obtain ⟨n, hn, rfl⟩ := exists_of_map_ok h
    rw [List.take_succ_cons, List.cons_append, attributeLength, if_neg hopen, if_pos rfl]
    show (attributeLength depth none (cs.take n ++ w)).map _ = _
    rw [ih hquote hn]
    rfl
  | case8 depth c cs hopen hclose hc ih =>
    rw [attributeLength_none, if_neg hopen, if_neg hclose, if_pos hc] at h
    obtain ⟨n, hn, rfl⟩ := exists_of_map_ok h
    have hescape : some c ≠ some '\\' := by
      rcases hc with rfl | rfl <;> decide
    rw [List.take_succ_cons, List.cons_append, attributeLength_none, if_neg hopen, if_neg hclose,
      if_pos hc, ih hescape hn]
    rfl
  | case9 depth c cs hopen hclose hc ih =>
    rw [attributeLength_none, if_neg hopen, if_neg hclose, if_neg hc] at h
    obtain ⟨n, hn, rfl⟩ := exists_of_map_ok h
    rw [List.take_succ_cons, List.cons_append, attributeLength_none, if_neg hopen, if_neg hclose,
      if_neg hc, ih hquote hn]
    rfl

end Source
end Conformance
