import Conformance.Contract.Record
import Conformance.Proofs.Contract.Clauses
import Conformance.Proofs.Document.Fields

/-!
# `Proofs.Contract.RoundTrip`: contracts that are written and read back

Writing gives the fields of a record under fixed names, reading asks for them under the same names. Each
record of a contract comes back as it was, from the inside out, and so does the contract
(`Contract.written_then_read`). Requiring clauses are written with the fields that are set only; there an
absent field has to stand for a field that is not set, and a field that nobody knows is refused.
-/

namespace Conformance

open Document (Value Scalar)

/-! ## Leaves -/

/-- A kind is read back from its keyword. -/
theorem TypeKind.ofWord?_keyword (k : TypeKind) : TypeKind.ofWord? k.keyword = some k := by
  cases k <;> rfl

theorem optional_text (x : Option String) :
    Value.optional? Value.text? (Value.ofOption .text x) = some x :=
  Value.optional?_ofOption fun _ _ => rfl

theorem optional_decimal (x : Option Float) :
    Value.optional? Value.number? (Value.ofOption .decimal x) = some x :=
  Value.optional?_ofOption fun _ _ => rfl

/-! ## Records with all fields -/

theorem SuppliedType.ofValue?_toValue (s : SuppliedType) : ofValue? s.toValue = some s := by
  have hdistinct : fieldNames.Nodup := by decide
  unfold ofValue? toValue
  rw [Value.open?_record]
  · simp only [Option.bind_eq_bind, Option.bind_some, Value.required?, Value.field?, List.lookup_cons,
      String.reduceBEq, Value.text?, Value.word?, Value.flag?, TypeKind.ofWord?_keyword, optional_text,
      Value.listOf?_ofTexts]
  · exact hdistinct

theorem SelectClause.ofValue?_toValue (s : SelectClause) : ofValue? s.toValue = some s := by
  have hdistinct : fieldNames.Nodup := by decide
  unfold ofValue? toValue
  rw [Value.open?_record]
  · simp only [Option.bind_eq_bind, Option.bind_some, Value.field?, List.lookup_cons, String.reduceBEq,
      Value.flag?, optional_text]
  · exact hdistinct

/-! ## Requiring clauses -/

namespace RequireClause

theorem elim_text (x : Option String) :
    (x.map Value.text).elim (some none) (Value.optional? Value.text?) = some x :=
  Value.elim_optional? fun _ _ => rfl

theorem elim_count {x : Option Nat} (h : ∀ n ∈ x, n < Scalar.countLimit) :
    (x.map ofCount).elim (some none) (Value.optional? Value.count?) = some x := by
  refine Value.elim_optional? fun n hn => ?_
  have hlimit : Scalar.limited (some n) = some n := by
    unfold Scalar.limited
    rw [Option.filter_some, if_pos (decide_eq_true (h n hn))]
  show ((if 0 ≤ (n : Int) then Scalar.limited (some (n : Int).toNat) else none).map some) = some (some n)
  rw [if_pos (Int.natCast_nonneg n), Int.toNat_natCast, hlimit]
  rfl

theorem elim_flag (b : Bool) : (ofFlagSet b).elim (some false) Value.flag? = some b := by
  cases b <;> rfl

/-- The fields that a clause is written with, each if it is set. -/
def fields (a : RequireClause) : List (String × Option Value) := [
  ("name_prefix", a.startsWith.map .text),
  ("name_suffix", a.endsWith.map .text),
  ("name_matching", a.named.map .text),
  ("invokable", ofFlagSet a.invokable),
  ("max_public_methods", a.atMost.map ofCount),
  ("min_public_methods", a.atLeast.map ofCount),
  ("exact_public_methods", a.exactly.map ofCount),
  ("implement", a.implementing.map .text),
  ("extend", a.extending.map .text),
  ("final", ofFlagSet a.isFinal),
  ("abstract", ofFlagSet a.isAbstract)]

theorem toValue_eq (a : RequireClause) : a.toValue = .record (Value.setFields a.fields) := rfl

theorem nodup_fields (a : RequireClause) : (a.fields.map Prod.fst).Nodup := by
  have hdistinct : fieldNames.Nodup := by decide
  exact hdistinct

/-- Known names, in their order. -/
theorem names_sublist (a : RequireClause) :
    ((Value.setFields a.fields).map Prod.fst).Sublist fieldNames :=
  Value.names_setFields a.fields

theorem length_setFields (a : RequireClause) : (Value.setFields a.fields).length = a.setCount := by
  have hflag (b : Bool) : (ofFlagSet b).isSome = b := by
    cases b <;> rfl
  rw [Value.length_setFields]
  unfold fields setCount
  simp only [List.countP_cons, List.countP_nil, Option.isSome_map, hflag, id_eq]

/-- The counts of the clause are within the range of counts. -/
structure CountsFit (a : RequireClause) : Prop where
  atMost : ∀ n ∈ a.atMost, n < Scalar.countLimit
  atLeast : ∀ n ∈ a.atLeast, n < Scalar.countLimit
  exactly : ∀ n ∈ a.exactly, n < Scalar.countLimit

theorem ofValue?_toValue {a : RequireClause} (h : a.CountsFit) : ofValue? a.toValue = some a := by
  have hknown : ∀ f ∈ Value.setFields a.fields, f.1 ∈ fieldNames := fun f hf =>
    a.names_sublist.subset (List.mem_map_of_mem hf)
  have hclosed : a.toValue.closed? fieldNames = some (Value.setFields a.fields) :=
    Value.closed?_record (a.names_sublist.nodup a.nodup_fields) hknown
  unfold ofValue?
  rw [hclosed]
  simp only [Option.bind_eq_bind, Option.bind_some, Value.field?_setFields a.nodup_fields]
  -- each name is looked up among all fields, set or not
  unfold fields
  simp only [List.lookup_cons, String.reduceBEq, Option.join_some, elim_text, elim_flag, elim_count h.atMost,
    elim_count h.atLeast, elim_count h.exactly, Option.bind_some]

/-- The counts of a clause that was read fit. -/
theorem countsFit_of_ofValue? {v : Value} {a : RequireClause} (h : ofValue? v = some a) : a.CountsFit := by
  unfold ofValue? at h
  simp only [Option.bind_eq_bind, Option.bind_eq_some_iff] at h
  obtain ⟨fs, _, _, _, _, _, _, _, _, _, atMost, hatMost, atLeast, hatLeast, exactly, hexactly, h⟩ := h
  obtain ⟨_, _, _, _, _, _, _, _, h⟩ := h
  cases h
  have hfits {name : String} {x : Option Nat}
      (hx : Value.field? fs name none (Value.optional? Value.count?) = some x) :
      ∀ n ∈ x, n < Scalar.countLimit := by
    rcases Value.exists_of_field? hx with rfl | ⟨v, hv⟩
    · nofun
    · exact Value.lt_of_optional?_count? hv
  exact ⟨hfits hatMost, hfits hatLeast, hfits hexactly⟩

/-- A clause with a field that nobody knows is refused. -/
theorem ofValue?_of_unknown {fields : List (String × Value)} (h : ∃ f ∈ fields, f.1 ∉ fieldNames) :
    ofValue? (.record fields) = none := by
  unfold ofValue?
  rw [Value.closed?_of_unknown h]
  rfl

end RequireClause

/-! ## Rules and contracts -/

theorem Rule.ofValue?_toValue {r : Rule} (h : ∀ a ∈ r.require, a.CountsFit) :
    ofValue? r.toValue = some r := by
  have hdistinct : fieldNames.Nodup := by decide
  have hrequire : Value.listOf? RequireClause.ofValue? (.list (r.require.map RequireClause.toValue))
      = some r.require := Value.listOf?_map fun a ha => RequireClause.ofValue?_toValue (h a ha)
  unfold ofValue? toValue
  rw [Value.open?_record]
  · simp only [Option.bind_eq_bind, Option.bind_some, Value.required?, Value.field?, List.lookup_cons,
      String.reduceBEq, Value.text?, optional_text, SelectClause.ofValue?_toValue, hrequire]
  · exact hdistinct

theorem Rule.countsFit_of_ofValue? {v : Value} {r : Rule} (h : ofValue? v = some r) :
    ∀ a ∈ r.require, a.CountsFit := by
  unfold ofValue? at h
  simp only [Option.bind_eq_bind, Option.bind_eq_some_iff] at h
  obtain ⟨fs, _, _, _, _, _, _, _, require, hrequire, h⟩ := h
  cases h
  intro a ha
  rcases Value.exists_of_field? hrequire with rfl | ⟨v, hv⟩
  · cases ha
  · obtain ⟨item, hitem⟩ := Value.exists_of_mem_listOf? hv ha
    exact RequireClause.countsFit_of_ofValue? hitem

namespace Contract

/-- All counts of a contract are within the range of counts. -/
def CountsFit (c : Contract) : Prop := ∀ r ∈ c.rules, ∀ a ∈ r.require, a.CountsFit

theorem ofValue?_toValue {c : Contract} (h : c.CountsFit) : ofValue? c.toValue = some c := by
  have hdistinct : fieldNames.Nodup := by decide
  have htypes : Value.listOf? SuppliedType.ofValue? (.list (c.suppliedTypes.map SuppliedType.toValue))
      = some c.suppliedTypes := Value.listOf?_map fun s _ => s.ofValue?_toValue
  have hrules : Value.listOf? Rule.ofValue? (.list (c.rules.map Rule.toValue)) = some c.rules :=
    Value.listOf?_map fun r hr => Rule.ofValue?_toValue (h r hr)
  unfold ofValue? toValue
  rw [Value.open?_record]
  · simp only [Option.bind_eq_bind, Option.bind_some, Value.field?, List.lookup_cons, String.reduceBEq,
      Value.text?, optional_text, optional_decimal, Value.listOf?_ofTexts, htypes, hrules]
  · exact hdistinct

theorem countsFit_of_ofValue? {v : Value} {c : Contract} (h : ofValue? v = some c) : c.CountsFit := by
  unfold ofValue? at h
  simp only [Option.bind_eq_bind, Option.bind_eq_some_iff] at h
  obtain ⟨fs, _, _, _, _, _, _, _, _, _, _, _, _, _, _, _, _, _, rules, hrules, h⟩ := h
  cases h
  intro r hr
  rcases Value.exists_of_field? hrules with rfl | ⟨v, hv⟩
  · cases hr
  · obtain ⟨item, hitem⟩ := Value.exists_of_mem_listOf? hv hr
    exact Rule.countsFit_of_ofValue? hitem

/-- **A contract that is written and read back is the same contract**, and so is all that is computed from
it. This needs counts in the range that documents have, and no more: every contract that was read from a
document has such counts. Each requiring clause is written with as many fields as are set, under known
names in a fixed order, and one with a field of another name is refused. -/
theorem written_then_read (c : Contract) :
    (ofValue? c.toValue = some c ↔ c.CountsFit)
    ∧ (∀ v, ofValue? v = some c → ofValue? c.toValue = some c)
    ∧ (∀ a : RequireClause, ∃ fields, a.toValue = .record fields ∧ fields.length = a.setCount
      ∧ (fields.map Prod.fst).Sublist RequireClause.fieldNames)
    ∧ ∀ fields, (∃ f ∈ fields, f.1 ∉ RequireClause.fieldNames) →
      RequireClause.ofValue? (.record fields) = none := by
  refine ⟨⟨countsFit_of_ofValue?, ofValue?_toValue⟩, fun v h => ?_, fun a => ?_, fun fields h => ?_⟩
  · exact ofValue?_toValue (countsFit_of_ofValue? h)
  · exact ⟨_, a.toValue_eq, a.length_setFields, a.names_sublist⟩
  · exact RequireClause.ofValue?_of_unknown h

/-- A contract with one clause, of which one field is set. -/
def onlyFinal : Contract where
  rules := [{ name := "finality", require := [{ isFinal := true }] }]

/-- A document that a person may have written for it. -/
def onlyFinalDocument : Value := .record [
  ("rules", .list [.record [("name", .text "finality"), ("assert", .list [.record [("final", .bool true)]])]])]

/-- It is read back from all fields, not just from those that were in the document, and a misspelled field
of its clause is refused. -/
theorem written_then_read_of_finality :
    ofValue? onlyFinalDocument = some onlyFinal
    ∧ ofValue? onlyFinal.toValue = some onlyFinal
    ∧ "finale" ∉ RequireClause.fieldNames
    ∧ RequireClause.ofValue? (.record [("finale", .bool true)]) = none := by
  have hdocument : ofValue? onlyFinalDocument = some onlyFinal := rfl
  have hunknown : "finale" ∉ RequireClause.fieldNames := by decide
  obtain ⟨_, hread, _, hrefused⟩ := written_then_read onlyFinal
  refine ⟨hdocument, hread onlyFinalDocument hdocument, hunknown, hrefused _ ?_⟩
  exact ⟨("finale", .bool true), List.mem_singleton_self _, hunknown⟩

end Contract
end Conformance
