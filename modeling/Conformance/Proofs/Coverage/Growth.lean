import Mathlib.Algebra.Order.Field.Basic
import Mathlib.Algebra.Order.Field.Rat
import Mathlib.Data.List.Forall2
import Conformance.Proofs.Project.Credit
import Conformance.Proofs.Project.Reading

/-!
# `Proofs.Coverage.Growth`: more rules, no less coverage

One more rule in a contract adds events to the record of a run and takes none away. Everything that is
computed from the record grows with it: each aspect earns no less from more usage
(`Aspect.IsMonotone`), neither do their sum and its bound, and percentages and means keep the order.
`Contract.coverage_grows` says so of whole reports, in exact numbers. The order of usages, scores and
files is called `Within`: what is within another has everything in the other's place that does not
depend on the rules, and no more of what does.
-/

namespace Conformance

/-! ## Exact percentages and means -/

namespace Quantity

theorem percentage_mono {part part' whole : Nat} (h : part ≤ part') :
    percentage (K := Rat) part whole ≤ percentage part' whole := by
  unfold percentage
  split
  · exact le_refl _
  · have hpart : (part : Rat) ≤ part' := Nat.cast_le.2 h
    have hpoints : (100 : Nat) * (part : Rat) ≤ (100 : Nat) * (part' : Rat) :=
      mul_le_mul_of_nonneg_left hpart (Nat.cast_nonneg 100)
    exact div_le_div_of_nonneg_right hpoints (Nat.cast_nonneg whole)

theorem foldl_add_mono {xs ys : List Rat} (h : List.Forall₂ (· ≤ ·) xs ys) {x y : Rat}
    (hxy : x ≤ y) : xs.foldl (· + ·) x ≤ ys.foldl (· + ·) y := by
  induction h generalizing x y with
  | nil => exact hxy
  | cons hab _ ih => exact ih (add_le_add hxy hab)

/-- Means of equally many numbers keep their order. -/
theorem mean_mono {xs ys : List Rat} (h : List.Forall₂ (· ≤ ·) xs ys) : mean xs ≤ mean ys := by
  have hsum : sum xs ≤ sum ys := foldl_add_mono h (le_refl _)
  unfold mean
  cases h with
  | nil => exact le_refl _
  | cons hab hrest =>
    rw [← (List.Forall₂.cons hab hrest).length_eq]
    exact div_le_div_of_nonneg_right hsum (Nat.cast_nonneg _)

end Quantity

/-! ## Usage and what it earns -/

namespace Usage

/-- Every category of one usage is one of another. -/
def Within (u v : Usage) : Prop :=
  ∀ k, u.has k = true → v.has k = true

variable {u v : Usage}

theorem hasAny_mono (h : u.Within v) (ks : List Category) :
    (u.hasAny ks).toNat ≤ (v.hasAny ks).toNat := by
  refine Bool.toNat_le_toNat ?_
  unfold hasAny
  simp only [Bool.le_iff_imp, List.any_eq_true]
  rintro ⟨k, hk, hu⟩
  exact ⟨k, hk, h k hu⟩

theorem hasCategories_mono (h : u.Within v) :
    u.hasCategories.toNat ≤ v.hasCategories.toNat := by
  refine Bool.toNat_le_toNat ?_
  rw [Bool.le_iff_imp, hasCategories_iff, hasCategories_iff]
  rintro ⟨k, hu⟩
  exact ⟨k, h k hu⟩

end Usage

namespace Aspect

/-- More usage earns no less. -/
def IsMonotone (a : Aspect) : Prop :=
  ∀ (t : TypeInfo) {u v : Usage}, u.Within v → a.earned t u ≤ a.earned t v

theorem and_toNat_mono (b : Bool) {c d : Bool} (h : c.toNat ≤ d.toNat) :
    (b && c).toNat ≤ (b && d).toNat := by
  cases b
  · exact Nat.le_refl 0
  · exact h

/-- The aspects that the program scores earn no less from more usage. -/
theorem isMonotone_of_mem_standard {a : Aspect} (ha : a ∈ standard) : a.IsMonotone := by
  intro t u v h
  simp only [standard, List.mem_cons, List.not_mem_nil, or_false] at ha
  rcases ha with rfl | rfl | rfl
  · exact Usage.hasAny_mono h nameCategories
  · exact and_toNat_mono t.isFinal (Usage.hasCategories_mono h)
  · exact and_toNat_mono t.hasSupertypes (Usage.hasAny_mono h supertypeCategories)

end Aspect

namespace Score

/-- The points of monotone aspects grow with the usage, also where they are cut off. -/
theorem earnedOf_mono {aspects : List Aspect} (haspects : ∀ a ∈ aspects, a.IsMonotone)
    (t : TypeInfo) {u v : Usage} (h : u.Within v) :
    earnedOf aspects t u ≤ earnedOf aspects t v := by
  have hsum : aspects.foldr (fun a n => a.earned t u + n) 0
      ≤ aspects.foldr (fun a n => a.earned t v + n) 0 := by
    induction aspects with
    | nil => exact Nat.le_refl 0
    | cons a aspects ih =>
      rw [List.forall_mem_cons] at haspects
      exact Nat.add_le_add (haspects.1 t h) (ih haspects.2)
  exact Nat.le_min.2 ⟨Nat.le_trans (Nat.min_le_left _ _) hsum, Nat.min_le_right _ _⟩

/-- A score of the same type with no less earned. -/
structure Within (s s' : Score) : Prop where
  name : s.name = s'.name
  kind : s.kind = s'.kind
  max : s.max = s'.max
  earned : s.earned ≤ s'.earned
  percentage : s.percentage (K := Rat) ≤ s'.percentage

theorem within_ofUsage (t : TypeInfo) {u v : Usage} (h : u.Within v) :
    (ofUsage Aspect.standard t u).Within (ofUsage Aspect.standard t v) := by
  have hearned := earnedOf_mono (fun _ => Aspect.isMonotone_of_mem_standard) t h
  exact ⟨rfl, rfl, rfl, hearned, Quantity.percentage_mono hearned⟩

end Score

/-! ## Ledgers and the reports from them -/

namespace Ledger

/-- Every entry of one ledger is in another, with no fewer categories and tests. -/
def Within (l l' : Ledger) : Prop :=
  ∀ file name usage, l.get? file name = some usage →
    ∃ usage', l'.get? file name = some usage'
      ∧ (∀ k, usage.categories.contains k = true → usage'.categories.contains k = true)
      ∧ ∀ test, usage.tests.contains test = true → usage'.tests.contains test = true

/-- The record of some events is within that of more events. -/
theorem within_of_subset {es es' : List Event} (h : es ⊆ es') :
    (es.foldl record {}).Within (es'.foldl record {}) := by
  intro file name usage husage
  have hempty : ({} : Ledger).get? file name = none := rfl
  have hmark (m : Mark) (hm : usage.bears m = true) :
      (((es'.foldl record {}).get? file name).getD {}).bears m = true := by
    have hold := bears_foldl es {} file name m
    have hnew := bears_foldl es' {} file name m
    rw [husage, Option.getD_some] at hold
    exact hnew.2 ((hold.1 hm).imp id (@h _))
  have hentry : ((es'.foldl record {}).get? file name).isSome = true := by
    have hold := (isSome_get?_foldl es {} file name).1 (by rw [husage]; rfl)
    refine (isSome_get?_foldl es' {} file name).2 (hold.imp id ?_)
    rintro ⟨e, he, hat⟩
    exact ⟨e, h he, hat⟩
  obtain ⟨usage', husage'⟩ := Option.isSome_iff_exists.1 hentry
  simp only [husage', Option.getD_some] at hmark
  exact ⟨usage', husage', fun k => hmark (.category k), fun test => hmark (.test test)⟩

variable {l l' : Ledger}

theorem Within.has (h : l.Within l') {file name : String} {k : Category}
    (hk : ((l.get? file name).getD {}).has k = true) :
    ((l'.get? file name).getD {}).has k = true := by
  cases hget : l.get? file name with
  | none =>
    rw [hget, Option.getD_none, Usage.has_nothing] at hk
    cases hk
  | some usage =>
    obtain ⟨usage', husage', hcategories, _⟩ := h file name usage hget
    rw [hget] at hk
    rw [husage']
    exact hcategories k hk

/-- What a type is scored by grows with the ledger, in its file and without one. -/
theorem Within.usageOf (h : l.Within l') (file name : String) :
    (l.usageOf file name).Within (l'.usageOf file name) := by
  intro k hk
  rw [has_usageOf] at hk ⊢
  exact hk.imp h.has h.has

end Ledger

namespace FileCoverage

/-- The coverage of the same types of the same file, none of them covered less. -/
structure Within (f f' : FileCoverage) : Prop where
  file : f.file = f'.file
  scores : List.Forall₂ Score.Within f.scores f'.scores
  percentage : f.percentage (K := Rat) ≤ f'.percentage

theorem within_ofTypes {l l' : Ledger} (h : l.Within l') (file : String) (types : List TypeInfo) :
    (ofTypes Aspect.standard l file types).Within (ofTypes Aspect.standard l' file types) := by
  have hscores : List.Forall₂ Score.Within (ofTypes Aspect.standard l file types).scores
      (ofTypes Aspect.standard l' file types).scores := by
    unfold ofTypes
    rw [List.forall₂_map_left_iff, List.forall₂_map_right_iff, List.forall₂_same]
    exact fun t _ => Score.within_ofUsage t (h.usageOf file t.name)
  refine ⟨rfl, hscores, Quantity.mean_mono ?_⟩
  rw [List.forall₂_map_left_iff, List.forall₂_map_right_iff]
  exact hscores.imp fun _ _ hs => hs.percentage

end FileCoverage

namespace Coverage

/-- The reports on some files, read with one ledger and with a larger one. -/
theorem within_ofFiles {l l' : Ledger} (h : l.Within l') (files : List SourceFile) :
    List.Forall₂ FileCoverage.Within (ofFiles Aspect.standard l files).files
      (ofFiles Aspect.standard l' files).files := by
  rw [files_ofFiles, files_ofFiles]
  induction files with
  | nil => exact .nil
  | cons f files ih =>
    rw [List.filterMap_cons, List.filterMap_cons]
    -- whether a file can be read does not depend on the ledger
    cases f.outline? with
    | none => exact ih
    | some outline => exact .cons (FileCoverage.within_ofTypes h f.path.text outline.types) ih

/-- The overall coverage counts the same files. -/
theorem overall_mono {c c' : Coverage} (h : List.Forall₂ FileCoverage.Within c.files c'.files) :
    c.overall (K := Rat) ≤ c'.overall := by
  refine Quantity.mean_mono ?_
  rw [List.forall₂_map_left_iff, List.forall₂_map_right_iff]
  generalize c.files = fs at h ⊢
  generalize c'.files = fs' at h ⊢
  induction h with
  | nil => exact .nil
  | @cons f f' fs fs' hf _ ih =>
    have hempty : f.scores.isEmpty = f'.scores.isEmpty := by
      rw [Bool.eq_iff_iff, List.isEmpty_iff_length_eq_zero, List.isEmpty_iff_length_eq_zero,
        hf.scores.length_eq]
    rw [List.filter_cons, List.filter_cons, ← hempty]
    split
    · exact .cons hf.percentage ih
    · exact ih

end Coverage

namespace Contract

/-- **One more rule never lowers coverage.** A rule is inserted anywhere among those of a contract, and
both contracts are run on one registry, after whatever was recorded before. Then every entry of the
ledger is kept, with all its categories and tests, and so are the files of the report on any sources and
the types in them with all they are worth. No type earns fewer points, and no type, no file and not the
whole has a lower percentage. -/
theorem coverage_grows [Engine] (c : Contract) (front back : List Rule) (r : Rule) (registry : Registry)
    (recorder recorder' : Recorder) (files : List SourceFile) :
    let small := (({ c with rules := front ++ back } : Contract).run registry recorder).2.ledger
    let large := (({ c with rules := front ++ r :: back } : Contract).run registry recorder').2.ledger
    small.Within large
    ∧ List.Forall₂ FileCoverage.Within (Coverage.ofFiles Aspect.standard small files).files
      (Coverage.ofFiles Aspect.standard large files).files
    ∧ (Coverage.ofFiles Aspect.standard small files).overall (K := Rat)
      ≤ (Coverage.ofFiles Aspect.standard large files).overall := by
  intro small large
  have hsub : (front ++ back).flatMap (Rule.events registry c.suiteName)
      ⊆ (front ++ r :: back).flatMap (Rule.events registry c.suiteName) := by
    have hrules : front ++ back ⊆ front ++ r :: back :=
      ((List.sublist_cons_self r back).append_left front).subset
    exact fun e he => List.mem_flatMap.2 <| (List.mem_flatMap.1 he).imp fun _ h => ⟨hrules h.1, h.2⟩
  have hledger : small.Within large := by
    show Ledger.Within (Contract.run _ _ _).2.ledger (Contract.run _ _ _).2.ledger
    rw [recorder_run, recorder_run]
    exact Ledger.within_of_subset hsub
  have hfiles := Coverage.within_ofFiles hledger files
  exact ⟨hledger, hfiles, Coverage.overall_mono hfiles⟩

end Contract
end Conformance
