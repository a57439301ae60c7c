import Mathlib.Data.List.Nodup
import Conformance.Document.Value
import Conformance.Proofs.Order.KeySet

/-!
# `Proofs.Document.Fields`: reading the fields that were written

A record that was written has each of its fields once and under a known name, so a reader takes it
(`Value.open?_record`, `Value.closed?_record`). Where only the fields are written that are set, an absent
one stands for the value that is not written (`Value.field?_setFields`).
-/

namespace Conformance
namespace Document
namespace Value

/-! ## Leaves and lists -/

variable {α : Type} {read : Value → Option α} {write : α → Value}

/-- An optional leaf is read back, if the leaf is. -/
theorem optional?_ofOption {x : Option α} (hread : ∀ a ∈ x, optional? read (write a) = some (some a)) :
    optional? read (ofOption write x) = some x := by
  cases x with
  | none => rfl
  | some a => exact hread a rfl

/-- So is one that is written only where it is set. -/
theorem elim_optional? {x : Option α} (hread : ∀ a ∈ x, optional? read (write a) = some (some a)) :
    (x.map write).elim (some none) (optional? read) = some x := by
  cases x with
  | none => rfl
  | some a => exact hread a rfl

/-- A list is read back, if its items are. -/
theorem listOf?_map {as : List α} (hread : ∀ a ∈ as, read (write a) = some a) :
    listOf? read (list (as.map write)) = some as := by
  show (as.map write).mapM read = some as
  induction as with
  | nil => rfl
  | cons a as ih =>
    rw [List.forall_mem_cons] at hread
    rw [List.map_cons, List.mapM_cons, hread.1, ih hread.2]
    rfl

/-- Every item of a list that was read was read from something. -/
theorem exists_of_mem_listOf? {v : Value} {as : List α} (h : listOf? read v = some as) {a : α}
    (ha : a ∈ as) : ∃ item, read item = some a := by
  have hitems {items : List Value} (hmap : items.mapM read = some as) : ∃ item, read item = some a := by
    clear h
    induction items generalizing as with
    | nil =>
      cases hmap
      cases ha
    | cons item items ih =>
      rw [List.mapM_cons, Option.bind_eq_bind, Option.bind_eq_some_iff] at hmap
      obtain ⟨a', hitem, hmap⟩ := hmap
      obtain ⟨as', hrest, hmap⟩ := Option.bind_eq_some_iff.1 hmap
      cases hmap
      rcases List.mem_cons.1 ha with rfl | ha
      · exact ⟨item, hitem⟩
      · exact ih ha hrest
  unfold listOf? at h
  split at h
  · exact hitems h
  · exact hitems h
  · split at h
    · cases h
      cases ha
    · cases h
  · cases h

theorem listOf?_ofTexts (ss : List String) : listOf? text? (ofTexts ss) = some ss :=
  listOf?_map fun _ _ => rfl

/-! ## Records -/

/-- The fields of a record with distinct names are open to readers of any fields. -/
theorem open?_record {known : List String} {fields : List (String × Value)}
    (hdistinct : (fields.map Prod.fst).Nodup) : (record fields).open? known = some fields := by
  have honce (name : String) : fields.countP (fun f => f.1 == name) ≤ 1 := by
    have hcount := List.nodup_iff_count_le_one.1 hdistinct name
    rw [List.count, List.countP_map] at hcount
    exact hcount
  unfold open? fields?
  rw [Option.filter_some, if_pos]
  rw [List.all_eq_true]
  exact fun name _ => decide_eq_true (honce name)

theorem closed?_record {known : List String} {fields : List (String × Value)}
    (hdistinct : (fields.map Prod.fst).Nodup) (hknown : ∀ f ∈ fields, f.1 ∈ known) :
    (record fields).closed? known = some fields := by
  unfold closed?
  rw [open?_record hdistinct, Option.filter_some, if_pos]
  rw [List.all_eq_true]
  exact fun f hf => List.contains_iff_mem.2 (hknown f hf)

/-- A field that is not known keeps the record closed. -/
theorem closed?_of_unknown {known : List String} {fields : List (String × Value)}
    (hunknown : ∃ f ∈ fields, f.1 ∉ known) : (record fields).closed? known = none := by
  obtain ⟨f, hf, hname⟩ := hunknown
  unfold closed?
  rw [Option.filter_eq_none_iff]
  intro opened hopened hall
  have hsame : opened = fields := by
    unfold open? at hopened
    exact (Option.some_inj.1 (Option.filter_eq_some_iff.1 hopened).1).symm
  rw [hsame, List.all_eq_true] at hall
  exact hname (List.contains_iff_mem.1 (hall f hf))

/-- What is read from a field was read from something, or it is what stands for the absent field. -/
theorem exists_of_field? {fields : List (String × Value)} {name : String} {absent a : α}
    (h : field? fields name absent read = some a) : a = absent ∨ ∃ v, read v = some a := by
  unfold field? at h
  split at h
  · exact Or.inl (Option.some_inj.1 h).symm
  · next v _ => exact Or.inr ⟨v, h⟩

/-! ## Counts -/

theorem lt_of_limited {m : Option Nat} {n : Nat} (h : Scalar.limited m = some n) : n < Scalar.countLimit :=
  of_decide_eq_true (Option.filter_eq_some_iff.1 h).2

/-- A count that was read is in the range of counts. -/
theorem lt_of_count? {v : Value} {n : Nat} (h : v.count? = some n) : n < Scalar.countLimit := by
  have hbased {mark : String} {base : Nat} {cs : List Char} (hb : Scalar.based? mark base cs = some n) :
      n < Scalar.countLimit := by
    unfold Scalar.based? at hb
    split at hb
    · exact lt_of_limited hb
    · cases hb
  have hdecimal {cs : List Char} (hd : (if Scalar.isSigned cs || Scalar.isPadded cs then none
      else Scalar.limited (Scalar.natural? 10 cs)) = some n) : n < Scalar.countLimit := by
    split at hd
    · cases hd
    · exact lt_of_limited hd
  have htext {text : String} (ht : Scalar.countOf? text = some n) : n < Scalar.countLimit := by
    unfold Scalar.countOf? at ht
    simp only [Option.orElse_eq_orElse, Option.orElse_eq_or, Option.or_eq_some_iff] at ht
    rcases ht with ht | ⟨_, ht | ⟨_, ht | ⟨_, ht⟩⟩⟩
    · exact hbased ht
    · exact hbased ht
    · exact hbased ht
    · exact hdecimal ht
  unfold count? at h
  split at h
  · split at h
    · exact lt_of_limited h
    · cases h
  · unfold Scalar.count? at h
    split at h
    · exact htext h
    · cases h
  · cases h

theorem lt_of_optional?_count? {v : Value} {x : Option Nat} (h : optional? count? v = some x) :
    ∀ n ∈ x, n < Scalar.countLimit := by
  have hcount (hread : v.count?.map some = some x) : ∀ n ∈ x, n < Scalar.countLimit := by
    rintro n rfl
    obtain ⟨m, hm, heq⟩ := Option.map_eq_some_iff.1 hread
    cases heq
    exact lt_of_count? hm
  unfold optional? at h
  split at h
  · cases h
    nofun
  · split at h
    · cases h
      nofun
    · exact hcount h
    · cases h
  · exact hcount h

/-! ## Records of the fields that are set -/

/-- The names of the fields that are set stand in the order of all names. -/
theorem names_setFields (fields : List (String × Option Value)) :
    ((setFields fields).map Prod.fst).Sublist (fields.map Prod.fst) := by
  induction fields with
  | nil => exact List.Sublist.refl []
  | cons f fields ih =>
    obtain ⟨name, v⟩ := f
    cases v with
    | none => exact ih.cons name
    | some v => exact ih.cons_cons name

/-- As many fields are written as are set. -/
theorem length_setFields (fields : List (String × Option Value)) :
    (setFields fields).length = fields.countP fun f => f.2.isSome := by
  induction fields with
  | nil => rfl
  | cons f fields ih =>
    obtain ⟨name, v⟩ := f
    cases v with
    | none => exact ih
    | some v =>
      rw [List.countP_cons_of_pos rfl, ← ih]
      rfl

/-- Under a name stands what was set under it, and nothing else. -/
theorem lookup_setFields {fields : List (String × Option Value)} (hdistinct : (fields.map Prod.fst).Nodup)
    (name : String) : (setFields fields).lookup name = (fields.lookup name).join := by
  induction fields with
  | nil => rfl
  | cons f fields ih =>
    obtain ⟨name', v⟩ := f
    rw [List.map_cons, List.nodup_cons] at hdistinct
    have hrest := ih hdistinct.2
    by_cases hname : name = name'
    · subst hname
      rw [List.lookup_cons_self]
      cases v with
      | some v => exact List.lookup_cons_self
      | none =>
        -- no other field has the name, so nothing is set under it
        refine hrest.trans ?_
        rw [List.lookup_eq_none_iff.2 fun f hf => bne_iff_ne.2 ?_]
        · rfl
        · rintro rfl
          exact hdistinct.1 (List.mem_map.2 ⟨f, hf, rfl⟩)
    · rw [Table.lookup_cons_of_ne hname]
      cases v with
      | some v => exact (Table.lookup_cons_of_ne hname v _).trans hrest
      | none => exact hrest

/-- A field that may be missing is read as what was set, or as what its absence stands for. -/
theorem field?_setFields {fields : List (String × Option Value)} (hdistinct : (fields.map Prod.fst).Nodup)
    (name : String) (absent : α) :
    field? (setFields fields) name absent read = (fields.lookup name).join.elim (some absent) read := by
  unfold field?
  rw [lookup_setFields hdistinct]
  cases (fields.lookup name).join <;> rfl

end Value
end Document
end Conformance
