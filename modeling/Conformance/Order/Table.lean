/-!
# `Order.Table`: finite tables kept in the order of their keys

A `Table` is a list of entries with strictly increasing keys. The order is part of the type, so
listing a table gives its keys in order and each of them once. `alter` is the only way to change
an entry; `get?_alter` says what a look-up sees afterwards. A table of units is a set of keys.

The laws ask of the order that it is irreflexive, transitive and total in the sense that two
incomparable keys are equal.
-/

namespace Conformance

/-- Entries with strictly increasing keys. -/
structure Table (κ : Type) (α : Type) [LT κ] where
  entries : List (κ × α) := []
  sorted : entries.Pairwise (fun a b => a.1 < b.1) := by simp

namespace Table

variable {κ α : Type} [LT κ]

/-- The table without entries. -/
def empty : Table κ α := {}

instance : Inhabited (Table κ α) := ⟨empty⟩
instance : EmptyCollection (Table κ α) := ⟨empty⟩

theorem ext {t u : Table κ α} (h : t.entries = u.entries) : t = u := by
  cases t; cases u; cases h; rfl

instance [DecidableEq κ] [DecidableEq α] : DecidableEq (Table κ α) := fun t u =>
  if h : t.entries = u.entries then isTrue (ext h) else isFalse (fun e => h (e ▸ rfl))

/-- The keys, in order. -/
def keys (t : Table κ α) : List κ := t.entries.map Prod.fst

/-- The number of entries. -/
def size (t : Table κ α) : Nat := t.entries.length

/-- Whether there are no entries. -/
def isEmpty (t : Table κ α) : Bool := t.entries.isEmpty

/-! ## Look-up and change -/

section
variable [DecidableEq κ]

/-- What the table holds under a key. -/
def get? (t : Table κ α) (k : κ) : Option α := t.entries.lookup k

/-- Whether the table holds anything under a key. -/
def contains (t : Table κ α) (k : κ) : Bool := (t.get? k).isSome

variable [DecidableLT κ]

/-- Puts `f` of what stands under `k` there, at the place that the order gives to `k`. -/
def alterEntries (k : κ) (f : Option α → α) : List (κ × α) → List (κ × α)
  | [] => [(k, f none)]
  | (k', v) :: rest =>
    if k = k' then (k, f (some v)) :: rest
    else if k < k' then (k, f none) :: (k', v) :: rest
    else (k', v) :: alterEntries k f rest

end

/-- The keys after a change: one may be new, none is lost. -/
theorem mem_alterEntries [DecidableEq κ] [DecidableLT κ] {k : κ} {f : Option α → α}
    {es : List (κ × α)} {e : κ × α} (h : e ∈ alterEntries k f es) : e.1 = k ∨ e ∈ es := by
  induction es with
  | nil => simp only [alterEntries, List.mem_singleton] at h; exact Or.inl (by rw [h])
  | cons e' rest ih =>
    obtain ⟨k', v⟩ := e'
    simp only [alterEntries] at h
    split at h
    · rcases List.mem_cons.1 h with h | h
      · exact Or.inl (by rw [h])
      · exact Or.inr (List.mem_cons_of_mem _ h)
    · split at h
      · rcases List.mem_cons.1 h with h | h
        · exact Or.inl (by rw [h])
        · exact Or.inr h
      · rcases List.mem_cons.1 h with h | h
        · exact Or.inr (by rw [h]; exact List.mem_cons_self)
        · exact (ih h).imp id (List.mem_cons_of_mem _)

section
variable [DecidableEq κ] [DecidableLT κ]
variable [Trans (· < · : κ → κ → Prop) (· < ·) (· < ·)] [Std.Trichotomous (· < · : κ → κ → Prop)]

/-- A change keeps the keys in order. -/
theorem sorted_alterEntries (k : κ) (f : Option α → α) {es : List (κ × α)}
    (h : es.Pairwise (fun a b => a.1 < b.1)) :
    (alterEntries k f es).Pairwise (fun a b => a.1 < b.1) := by
  induction es with
  | nil => simp [alterEntries]
  | cons e rest ih =>
    obtain ⟨k', v⟩ := e
    obtain ⟨hhead, hrest⟩ := List.pairwise_cons.1 h
    simp only [alterEntries]
    split
    · next hk => exact List.pairwise_cons.2 ⟨by simpa [hk] using hhead, hrest⟩
    · next hk =>
      split
      · next hlt =>
        refine List.pairwise_cons.2 ⟨?_, h⟩
        intro e he
        rcases List.mem_cons.1 he with he | he
        · rw [he]; exact hlt
        · exact Trans.trans hlt (hhead e he)
      · next hlt =>
        refine List.pairwise_cons.2 ⟨?_, ih hrest⟩
        intro e he
        rcases mem_alterEntries he with he | he
        · rw [he]
          exact Decidable.byContradiction fun hn =>
            hk (Std.Trichotomous.trichotomous k k' hlt hn)
        · exact hhead e he

/-- Puts `f` of what stands under `k` there. -/
def alter (t : Table κ α) (k : κ) (f : Option α → α) : Table κ α where
  entries := alterEntries k f t.entries
  sorted := sorted_alterEntries k f t.sorted

/-- Puts `v` under `k`, whatever stood there. -/
def insert (t : Table κ α) (k : κ) (v : α) : Table κ α :=
  t.alter k (fun _ => v)

end

/-! ## Laws -/

section
variable [DecidableEq κ] [DecidableLT κ]

omit [LT κ] [DecidableLT κ] in
/-- An entry under another key does not matter. -/
theorem lookup_cons_of_ne {k k' : κ} (h : k ≠ k') (v : α) (es : List (κ × α)) :
    ((k', v) :: es).lookup k = es.lookup k := by
  have : (k == k') = false := by simp [h]
  simp [List.lookup_cons, this]

theorem lookup_alterEntries_self [Std.Irrefl (· < · : κ → κ → Prop)]
    [Trans (· < · : κ → κ → Prop) (· < ·) (· < ·)] (k : κ) (f : Option α → α)
    {es : List (κ × α)} (h : es.Pairwise (fun a b => a.1 < b.1)) :
    (alterEntries k f es).lookup k = some (f (es.lookup k)) := by
  induction es with
  | nil => simp [alterEntries]
  | cons e rest ih =>
    obtain ⟨k', v⟩ := e
    obtain ⟨hhead, hrest⟩ := List.pairwise_cons.1 h
    simp only [alterEntries]
    by_cases hk : k = k'
    · simp [hk]
    · by_cases hlt : k < k'
      · have hnone : rest.lookup k = none := by
          rw [List.lookup_eq_none_iff]
          intro p hp
          have hlt' : k < p.1 := Trans.trans hlt (hhead p hp)
          simp only [bne_iff_ne, ne_eq]
          intro heq
          exact Std.Irrefl.irrefl (r := (· < · : κ → κ → Prop)) k (heq ▸ hlt')
        simp [hk, hlt, lookup_cons_of_ne hk, hnone]
      · simp [hk, hlt, lookup_cons_of_ne hk, ih hrest]

theorem lookup_alterEntries_of_ne (k : κ) (f : Option α → α) {k' : κ} (h : k' ≠ k)
    (es : List (κ × α)) : (alterEntries k f es).lookup k' = es.lookup k' := by
  induction es with
  | nil => simp [alterEntries, lookup_cons_of_ne h]
  | cons e rest ih =>
    obtain ⟨k₀, v⟩ := e
    simp only [alterEntries]
    split
    · next hk => subst hk; simp [lookup_cons_of_ne h]
    · split
      · simp [lookup_cons_of_ne h]
      · by_cases h₀ : k' = k₀
        · subst h₀; simp
        · simp [lookup_cons_of_ne h₀, ih]

variable [Std.Irrefl (· < · : κ → κ → Prop)] [Trans (· < · : κ → κ → Prop) (· < ·) (· < ·)]
variable [Std.Trichotomous (· < · : κ → κ → Prop)]

/-- After a change, a look-up sees the new value under the changed key and the old ones
elsewhere. -/
theorem get?_alter (t : Table κ α) (k : κ) (f : Option α → α) (k' : κ) :
    (t.alter k f).get? k' = if k' = k then some (f (t.get? k)) else t.get? k' := by
  by_cases h : k' = k
  · subst h; simp [get?, alter, lookup_alterEntries_self k' f t.sorted]
  · simp [get?, alter, h, lookup_alterEntries_of_ne k f h]

end

@[simp] theorem get?_empty [DecidableEq κ] (k : κ) : (empty : Table κ α).get? k = none := rfl

end Table

/-- A set of keys, listed in their order. -/
abbrev KeySet (κ : Type) [LT κ] := Table κ Unit

namespace KeySet

variable {κ : Type} [LT κ] [DecidableEq κ] [DecidableLT κ]
variable [Trans (· < · : κ → κ → Prop) (· < ·) (· < ·)] [Std.Trichotomous (· < · : κ → κ → Prop)]

/-- The set with one more key. -/
def add (s : KeySet κ) (k : κ) : KeySet κ :=
  s.alter k (fun _ => ())

/-- The keys of either set. -/
def union (s u : KeySet κ) : KeySet κ :=
  u.keys.foldl add s

/-- The set of the keys in a list. -/
def ofList (ks : List κ) : KeySet κ :=
  ks.foldl add Table.empty

end KeySet

/-! ## The order of texts -/

instance transStringLt : Trans (· < · : String → String → Prop) (· < ·) (· < ·) := ⟨String.lt_trans⟩
instance irreflStringLt : Std.Irrefl (· < · : String → String → Prop) := ⟨String.lt_irrefl⟩
instance trichotomousStringLt :
    Std.Trichotomous (· < · : String → String → Prop) :=
  ⟨fun _ _ h₁ h₂ => String.le_antisymm (String.not_lt.1 h₂) (String.not_lt.1 h₁)⟩

end Conformance
