import Conformance.Proofs.Source.Lengths

/-!
# `Proofs.Source.Brackets`: how far an attribute reaches

In an attribute brackets nest and quoted literals are passed over; everything else is plain. `InAttribute`
gives this as a form: a text that leads from some open brackets to others, with each of its literals
closed. The reading of an attribute then ends in one of three ways, which `attribute_cases` tells apart
for every text: a bracket closes the attribute, or the text ends while the attribute is open, or it ends
while a literal in the attribute is.
-/

namespace Conformance
namespace Source

/-- **A text inside of an attribute.** In front of it `m` inner brackets are open, behind it `n`, and no
bracket in it closes the attribute. Its literals are closed. -/
inductive InAttribute : Nat → Nat → List Char → Prop where
  | nil {n : Nat} : InAttribute n n []
  | opening {m n : Nat} {cs : List Char} (h : InAttribute (m + 1) n cs) : InAttribute m n ('[' :: cs)
  | closing {m n : Nat} {cs : List Char} (h : InAttribute m n cs) : InAttribute (m + 1) n (']' :: cs)
  | quoted {m n : Nat} {quote : Char} {body cs : List Char} (hquote : quote = '\'' ∨ quote = '"')
      (hbody : Escaped quote body) (h : InAttribute m n cs) :
      InAttribute m n (quote :: (body ++ quote :: cs))
  | plain {m n : Nat} {c : Char} {cs : List Char} (hc : c ∉ ['[', ']', '\'', '"'])
      (h : InAttribute m n cs) : InAttribute m n (c :: cs)

/-- A quote in an attribute is no backslash, and no bracket. -/
theorem ne_of_attributeQuote {q : Char} (h : q = '\'' ∨ q = '"') : q ≠ '\\' ∧ q ≠ '[' ∧ q ≠ ']' := by
  rcases h with rfl | rfl <;> decide

namespace InAttribute

variable {m n k : Nat} {xs ys : List Char}

theorem append (h : InAttribute m n xs) (h' : InAttribute n k ys) : InAttribute m k (xs ++ ys) := by
  induction h with
  | nil => exact h'
  | opening _ ih => exact .opening (ih h')
  | closing _ ih => exact .closing (ih h')
  | @quoted _ _ quote body cs hquote hbody _ ih =>
    have hcons : quote :: (body ++ quote :: cs) ++ ys = quote :: (body ++ quote :: (cs ++ ys)) := by
      simp
    rw [hcons]
    exact .quoted hquote hbody (ih h')
  | plain hc _ ih => exact .plain hc (ih h')

/-- More brackets may be open around the text. -/
theorem add_open (h : InAttribute m n xs) (k : Nat) : InAttribute (m + k) (n + k) xs := by
  induction h with
  | nil => exact .nil
  | opening _ ih =>
    rw [Nat.add_right_comm] at ih
    exact .opening ih
  | closing _ ih =>
    rw [Nat.add_right_comm]
    exact .closing ih
  | quoted hquote hbody _ ih => exact .quoted hquote hbody ih
  | plain hc _ ih => exact .plain hc ih

/-- A text without brackets and quotes is plain. -/
theorem of_plain (h : (xs.all fun c => c ∉ ['[', ']', '\'', '"']) = true) : InAttribute n n xs := by
  induction xs with
  | nil => exact .nil
  | cons c xs ih =>
    rw [List.all_cons, Bool.and_eq_true, decide_eq_true_iff] at h
    obtain ⟨hc, hrest⟩ := h
    exact .plain hc (ih hrest)

/-- **The reading goes on behind the text** with the brackets that are open there. -/
theorem attributeLength_append (h : InAttribute m n xs) (v : List Char) :
    attributeLength m none (xs ++ v) = (attributeLength n none v).map (· + xs.length) := by
  induction h with
  | @nil n =>
    show attributeLength n none v = (attributeLength n none v).map (· + 0)
    cases attributeLength n none v <;> rfl
  | opening _ ih =>
    rw [List.cons_append, attributeLength_none, if_pos rfl, ih, map_add_map_add]
    rfl
  | @closing m n cs _ ih =>
    rw [List.cons_append, attributeLength_none, if_neg (by decide), if_pos rfl]
    show (attributeLength m none (cs ++ v)).map (· + 1) = _
    rw [ih, map_add_map_add]
    rfl
  | @quoted m n quote body cs hquote hbody _ ih =>
    obtain ⟨hescape, hopen, hclose⟩ := ne_of_attributeQuote hquote
    have hcons : quote :: (body ++ quote :: cs) ++ v = quote :: (body ++ quote :: (cs ++ v)) := by
      simp
    have hlength : (quote :: (body ++ quote :: cs)).length = cs.length + (body.length + 1 + 1) := by
      simp only [List.length_cons, List.length_append]
      omega
    rw [hcons, attributeLength_none, if_neg hopen, if_neg hclose, if_pos hquote,
      attributeLength_escaped hescape hbody, ih, map_add_map_add, map_add_map_add, hlength]
  | plain hc _ ih =>
    simp only [List.mem_cons, List.not_mem_nil, or_false, not_or] at hc
    obtain ⟨hopen, hclose, hsingle, hdouble⟩ := hc
    have hquote : ¬ (_ = '\'' ∨ _ = '"') := not_or.2 ⟨hsingle, hdouble⟩
    rw [List.cons_append, attributeLength_none, if_neg hopen, if_neg hclose, if_neg hquote, ih,
      map_add_map_add]
    rfl

end InAttribute

/-! ## The three ends of an attribute -/

/-- The attribute, in which `m` inner brackets are open, is closed behind the text in front. -/
def ClosesAttribute (m : Nat) (cs : List Char) : Prop :=
  ∃ inner v, InAttribute m 0 inner ∧ cs = inner ++ ']' :: v

/-- A literal opens in the attribute, and nothing closes it. -/
def OpensLiteral (m : Nat) (cs : List Char) : Prop :=
  ∃ n inner quote rest, InAttribute m n inner ∧ (quote = '\'' ∨ quote = '"')
    ∧ quotedLength quote rest = none ∧ cs = inner ++ quote :: rest

variable {m n : Nat} {cs : List Char}

/-- What holds of a text holds with a text inside of the attribute in front of it. -/
theorem ClosesAttribute.append {front : List Char} (hfront : InAttribute m n front)
    (h : ClosesAttribute n cs) : ClosesAttribute m (front ++ cs) := by
  obtain ⟨inner, v, hinner, rfl⟩ := h
  exact ⟨front ++ inner, v, hfront.append hinner, (List.append_assoc _ _ _).symm⟩

theorem OpensLiteral.append {front : List Char} (hfront : InAttribute m n front)
    (h : OpensLiteral n cs) : OpensLiteral m (front ++ cs) := by
  obtain ⟨k, inner, quote, rest, hinner, hquote, hopen, rfl⟩ := h
  exact ⟨k, front ++ inner, quote, rest, hfront.append hinner, hquote, hopen,
    (List.append_assoc _ _ _).symm⟩

/-- The three cases behind a text inside of the attribute give those in front of it. -/
theorem attribute_cases_append {front : List Char} (hfront : InAttribute m n front)
    (h : ClosesAttribute n cs ∨ OpensLiteral n cs ∨ ∃ k, InAttribute n k cs) :
    ClosesAttribute m (front ++ cs) ∨ OpensLiteral m (front ++ cs)
      ∨ ∃ k, InAttribute m k (front ++ cs) := by
  rcases h with hcloses | hopens | ⟨k, hinside⟩
  · exact Or.inl (hcloses.append hfront)
  · exact Or.inr (Or.inl (hopens.append hfront))
  · exact Or.inr (Or.inr ⟨k, hfront.append hinside⟩)

/-- **Every text in an attribute** closes it, or leaves a literal in it open, or stays inside of it. -/
theorem attribute_cases (m : Nat) (cs : List Char) :
    ClosesAttribute m cs ∨ OpensLiteral m cs ∨ ∃ n, InAttribute m n cs := by
  match cs with
  | [] => exact Or.inr (Or.inr ⟨m, .nil⟩)
  | c :: cs =>
    by_cases hopen : c = '['
    · subst hopen
      exact attribute_cases_append (.opening .nil) (attribute_cases (m + 1) cs)
    by_cases hclose : c = ']'
    · subst hclose
      cases m with
      | zero => exact Or.inl ⟨[], cs, .nil, rfl⟩
      | succ m => exact attribute_cases_append (.closing .nil) (attribute_cases m cs)
    by_cases hquote : c = '\'' ∨ c = '"'
    · cases hlength : quotedLength c cs with
      | none => exact Or.inr (Or.inl ⟨m, [], c, cs, .nil, hquote, hlength, rfl⟩)
      | some n =>
        obtain ⟨body, v, hbody, hcs, _⟩ :=
          exists_escaped_of_quotedLength (ne_of_attributeQuote hquote).1 hlength
        have hfront : InAttribute m m (c :: (body ++ [c])) := .quoted hquote hbody .nil
        have happend : c :: cs = c :: (body ++ [c]) ++ v := by simp [hcs]
        -- behind the literal the text is shorter
        have hlt : v.length < cs.length := by
          rw [hcs, List.length_append, List.length_cons]
          omega
        rw [happend]
        exact attribute_cases_append hfront (attribute_cases m v)
    · have hplain : c ∉ ['[', ']', '\'', '"'] := by
        simp only [List.mem_cons, List.not_mem_nil, or_false, not_or]
        exact ⟨hopen, hclose, not_or.1 hquote⟩
      exact attribute_cases_append (.plain hplain .nil) (attribute_cases m cs)
termination_by cs.length
decreasing_by all_goals simp only [List.length_cons]; omega

theorem attributeLength_of_inner {inner : List Char} (h : InAttribute m 0 inner) (v : List Char) :
    attributeLength m none (inner ++ ']' :: v) = .ok (inner.length + 1) := by
  rw [h.attributeLength_append, attributeLength_none, if_neg (by decide), if_pos rfl, Nat.add_comm]
  rfl

theorem attributeLength_of_inside (h : InAttribute m n cs) : attributeLength m none cs = .error .attr := by
  have hread := h.attributeLength_append []
  rw [List.append_nil, attributeLength] at hread
  exact hread

theorem attributeLength_of_opensLiteral (h : OpensLiteral m cs) :
    attributeLength m none cs = .error .string := by
  obtain ⟨n, inner, quote, rest, hinner, hquote, hopen, rfl⟩ := h
  obtain ⟨_, hleft, hright⟩ := ne_of_attributeQuote hquote
  rw [hinner.attributeLength_append, attributeLength_none, if_neg hleft, if_neg hright, if_pos hquote,
    attributeLength_of_open n hopen]
  rfl

/-- **An attribute reaches through a bracket** exactly if the text in front of that bracket is inside of
it and leaves no inner bracket open. -/
theorem attributeLength_eq_ok_iff {inner v : List Char} :
    attributeLength m none (inner ++ ']' :: v) = .ok (inner.length + 1) ↔ InAttribute m 0 inner := by
  constructor
  · intro h
    rcases attribute_cases m (inner ++ ']' :: v) with hcloses | hopens | ⟨n, hinside⟩
    · obtain ⟨inner', v', hinner', heq⟩ := hcloses
      rw [heq, attributeLength_of_inner hinner'] at h
      have hlength : inner.length = inner'.length := (Nat.succ.inj (Except.ok.inj h)).symm
      rw [(List.append_inj heq hlength).1]
      exact hinner'
    · rw [attributeLength_of_opensLiteral hopens] at h
      cases h
    · rw [attributeLength_of_inside hinside] at h
      cases h
  · intro h
    exact attributeLength_of_inner h v

/-- What leaves an attribute open. -/
theorem attributeLength_error {what : Literal} (h : attributeLength m none cs = .error what) :
    what = .attr ∧ (∃ n, InAttribute m n cs) ∨ what = .string ∧ OpensLiteral m cs := by
  rcases attribute_cases m cs with hcloses | hopens | ⟨n, hinside⟩
  · obtain ⟨inner, v, hinner, rfl⟩ := hcloses
    rw [attributeLength_of_inner hinner] at h
    cases h
  · rw [attributeLength_of_opensLiteral hopens] at h
    cases h
    exact Or.inr ⟨rfl, hopens⟩
  · rw [attributeLength_of_inside hinside] at h
    cases h
    exact Or.inl ⟨rfl, n, hinside⟩

end Source
end Conformance
