import Conformance.Order.Table

/-!
# `Proofs.Order.KeySet`: the laws of tables and of sets of keys

A table has one entry for each of its keys. A set of keys answers for the keys that were added to it, and
lists each of them once.
-/

namespace Conformance

namespace Table

variable {κ α : Type} [LT κ]

theorem mem_keys_iff [DecidableEq κ] (t : Table κ α) (k : κ) : k ∈ t.keys ↔ t.contains k = true := by
  unfold keys contains get?
  rw [List.lookup_isSome_iff, List.mem_map]
  constructor
  · rintro ⟨e, he, rfl⟩
    exact ⟨e, he, beq_self_eq_true e.1⟩
  · rintro ⟨e, he, hk⟩
    exact ⟨e, he, (beq_iff_eq.1 hk).symm⟩

/-- Keys that increase are different. -/
theorem nodup_of_sorted [Std.Irrefl (· < · : κ → κ → Prop)] {es : List (κ × α)}
    (hsorted : es.Pairwise (fun e e' => e.1 < e'.1)) : (es.map Prod.fst).Nodup := by
  rw [List.Nodup, List.pairwise_map]
  refine hsorted.imp ?_
  intro a b hlt heq
  rw [heq] at hlt
  exact Std.Irrefl.irrefl (r := (· < · : κ → κ → Prop)) b.1 hlt

theorem nodup_keys [Std.Irrefl (· < · : κ → κ → Prop)] (t : Table κ α) : t.keys.Nodup :=
  nodup_of_sorted t.sorted

theorem length_keys (t : Table κ α) : t.keys.length = t.size := List.length_map _

omit [LT κ] in
/-- A key leads to the one entry that has it. -/
theorem lookup_of_nodup [DecidableEq κ] {es : List (κ × α)} (hdistinct : (es.map Prod.fst).Nodup)
    {k : κ} {v : α} (h : (k, v) ∈ es) : es.lookup k = some v := by
  obtain ⟨front, back, rfl⟩ := List.append_of_mem h
  rw [List.map_append, List.nodup_append] at hdistinct
  refine List.lookup_eq_some_iff.2 ⟨front, back, rfl, fun e he => bne_iff_ne.2 ?_⟩
  exact (hdistinct.2.2 e.1 (List.mem_map_of_mem he) k List.mem_cons_self).symm

theorem lookup_of_mem [DecidableEq κ] [Std.Irrefl (· < · : κ → κ → Prop)] {es : List (κ × α)}
    (hsorted : es.Pairwise (fun e e' => e.1 < e'.1)) {k : κ} {v : α} (h : (k, v) ∈ es) :
    es.lookup k = some v :=
  lookup_of_nodup (nodup_of_sorted hsorted) h

/-- Only one entry has a key. -/
theorem filter_entries [DecidableEq κ] [Std.Irrefl (· < · : κ → κ → Prop)] {t : Table κ α} {k : κ}
    {v : α} (h : t.get? k = some v) : t.entries.filter (fun e => e.1 == k) = [(k, v)] := by
  have hnodup : (t.entries.filter fun e => e.1 == k).Nodup := by
    refine (t.sorted.imp fun hlt heq => ?_).filter _
    rw [heq] at hlt
    exact Std.Irrefl.irrefl (r := (· < · : κ → κ → Prop)) _ hlt
  refine List.perm_singleton.1
    ((List.perm_ext_iff_of_nodup hnodup (List.pairwise_singleton _ _)).2 fun e => ?_)
  rw [List.mem_filter, List.mem_singleton, beq_iff_eq]
  constructor
  · rintro ⟨he, rfl⟩
    have hvalue : t.get? e.1 = some e.2 := lookup_of_mem t.sorted he
    rw [h, Option.some_inj] at hvalue
    rw [hvalue]
  · rintro rfl
    obtain ⟨front, back, hentries, _⟩ := List.lookup_eq_some_iff.1 h
    rw [hentries]
    exact ⟨List.mem_append_right front List.mem_cons_self, rfl⟩

section
variable [DecidableEq κ] [DecidableLT κ] [Std.Irrefl (· < · : κ → κ → Prop)]
variable [Trans (· < · : κ → κ → Prop) (· < ·) (· < ·)]

/-- Putting what stands under a key there leaves the entries as they are. -/
theorem alterEntries_of_lookup {k : κ} {f : Option α → α} {v : α} {es : List (κ × α)}
    (hsorted : es.Pairwise (fun e e' => e.1 < e'.1)) (h : es.lookup k = some v)
    (hf : f (some v) = v) : alterEntries k f es = es := by
  induction es with
  | nil => cases h
  | cons e rest ih =>
    obtain ⟨k', v'⟩ := e
    obtain ⟨hfront, hrest⟩ := List.pairwise_cons.1 hsorted
    by_cases hk : k = k'
    · subst hk
      rw [List.lookup_cons_self, Option.some_inj] at h
      rw [alterEntries, if_pos rfl, h, hf]
    · rw [lookup_cons_of_ne hk] at h
      have hnot : ¬ k < k' := by
        intro hlt
        -- the key would stand in front of itself
        obtain ⟨_, _, heq, _⟩ := List.lookup_eq_some_iff.1 h
        have hself : k' < k := hfront (k, v) (by rw [heq]; simp)
        exact Std.Irrefl.irrefl (r := (· < · : κ → κ → Prop)) k (Trans.trans hlt hself)
      rw [alterEntries, if_neg hk, if_neg hnot, ih hrest h]

theorem alter_of_get? [Std.Trichotomous (· < · : κ → κ → Prop)] {t : Table κ α} {k : κ}
    {f : Option α → α} {v : α} (h : t.get? k = some v) (hf : f (some v) = v) : t.alter k f = t :=
  ext (alterEntries_of_lookup t.sorted h hf)

end

/-- A table with one key. -/
theorem keys_eq_singleton [DecidableEq κ] [Std.Irrefl (· < · : κ → κ → Prop)] {t : Table κ α} {k : κ}
    (h : ∀ k', t.contains k' = true ↔ k' = k) : t.keys = [k] := by
  refine List.perm_singleton.1
    ((List.perm_ext_iff_of_nodup t.nodup_keys (List.pairwise_singleton _ k)).2 fun k' => ?_)
  rw [mem_keys_iff, h, List.mem_singleton]

end Table

namespace KeySet

variable {κ : Type} [LT κ] [DecidableEq κ] [DecidableLT κ]
variable [Std.Irrefl (· < · : κ → κ → Prop)] [Trans (· < · : κ → κ → Prop) (· < ·) (· < ·)]
variable [Std.Trichotomous (· < · : κ → κ → Prop)]

theorem contains_add (s : KeySet κ) (k k' : κ) :
    (s.add k).contains k' = true ↔ k' = k ∨ s.contains k' = true := by
  unfold add Table.contains
  rw [Table.get?_alter]
  by_cases h : k' = k
  · simp [h]
  · simp [h]

/-- A key that is there is not added again. -/
theorem add_of_contains {s : KeySet κ} {k : κ} (h : s.contains k = true) : s.add k = s := by
  obtain ⟨v, hv⟩ := Option.isSome_iff_exists.1 h
  exact Table.alter_of_get? hv rfl

end KeySet

/-- A set whose members are those of a list without repetitions has as many members. -/
theorem KeySet.size_eq_length {κ : Type} [LT κ] [DecidableEq κ] [Std.Irrefl (· < · : κ → κ → Prop)]
    {s : KeySet κ} {ks : List κ} (hks : ks.Nodup) (h : ∀ k, s.contains k = true ↔ k ∈ ks) :
    s.size = ks.length := by
  have hperm : s.keys.Perm ks := by
    rw [List.perm_ext_iff_of_nodup (Table.nodup_keys s) hks]
    intro k
    rw [Table.mem_keys_iff, h]
  rw [← Table.length_keys, hperm.length_eq]

end Conformance
