import Mathlib.Algebra.Order.BigOperators.Group.List
import Mathlib.Order.Interval.Set.Basic
import Conformance.Proofs.Coverage.Growth

/-!
# `Proofs.Coverage.Bounds`: scores as bounded means

The points of a type are sums over aspects, and anybody may add an aspect, also one that gives more points
than it is worth. What is earned is cut off, a percentage of nothing is zero and so is the mean of nothing,
so every percentage of a report stays between 0 and 100. `Coverage.bounded_means` says so for types, files
and runs together, in exact numbers; that the order of the aspects and files without types do not matter
is part of it.
-/

namespace Conformance

/-! ## Exact percentages and means -/

namespace Quantity

theorem percentage_eq (part whole : Nat) :
    percentage (K := Rat) part whole = if whole = 0 then 0 else 100 * (part : Rat) / whole := rfl

/-- A part is between no and all percent of the whole. -/
theorem percentage_mem_Icc {part whole : Nat} (h : part ≤ whole) :
    percentage (K := Rat) part whole ∈ Set.Icc 0 100 := by
  rw [percentage_eq]
  split
  · exact ⟨le_refl 0, by norm_num⟩
  · next hwhole =>
    have hpos : (0 : Rat) < whole := Nat.cast_pos.2 (Nat.pos_of_ne_zero hwhole)
    have hpart : (part : Rat) ≤ whole := Nat.cast_le.2 h
    constructor
    · exact div_nonneg (mul_nonneg (by norm_num) (Nat.cast_nonneg part)) hpos.le
    · rw [div_le_iff₀ hpos]
      exact mul_le_mul_of_nonneg_left hpart (by norm_num)

theorem sum_eq (xs : List Rat) : sum xs = xs.sum := List.sum_eq_foldl.symm

theorem mean_eq (xs : List Rat) : mean xs = if xs = [] then 0 else xs.sum / xs.length := by
  unfold mean
  rw [sum_eq]
  simp only [List.isEmpty_iff]
  rfl

/-- A mean of percentages is a percentage. -/
theorem mean_mem_Icc {xs : List Rat} (h : ∀ x ∈ xs, x ∈ Set.Icc (0 : Rat) 100) :
    mean xs ∈ Set.Icc (0 : Rat) 100 := by
  rw [mean_eq]
  split
  · exact ⟨le_refl 0, by norm_num⟩
  · next hne =>
    have hpos : (0 : Rat) < xs.length := Nat.cast_pos.2 (List.length_pos_iff.2 hne)
    have hsum : xs.sum ≤ xs.length • (100 : Rat) := List.sum_le_card_nsmul xs 100 fun x hx => (h x hx).2
    constructor
    · exact div_nonneg (List.sum_nonneg fun x hx => (h x hx).1) hpos.le
    · rw [div_le_iff₀ hpos, mul_comm, ← nsmul_eq_mul]
      exact hsum

end Quantity

/-! ## Scores of types -/

namespace Score

/-- The points of all aspects are a sum. -/
theorem foldr_points (aspects : List Aspect) (points : Aspect → Nat) :
    aspects.foldr (fun a n => points a + n) 0 = (aspects.map points).sum := by
  rw [List.sum_eq_foldr, List.foldr_map]

theorem earnedOf_le_worthOf (aspects : List Aspect) (t : TypeInfo) (usage : Usage) :
    earnedOf aspects t usage ≤ worthOf aspects t :=
  Nat.min_le_right _ _

/-- Sums do not depend on the order of the aspects. -/
theorem ofUsage_perm {aspects aspects' : List Aspect} (h : aspects.Perm aspects') (t : TypeInfo)
    (usage : Usage) : ofUsage aspects t usage = ofUsage aspects' t usage := by
  have hpoints (points : Aspect → Nat) : aspects.foldr (fun a n => points a + n) 0
      = aspects'.foldr (fun a n => points a + n) 0 := by
    rw [foldr_points, foldr_points]
    exact (h.map points).sum_eq
  unfold ofUsage earnedOf worthOf
  rw [hpoints fun a => a.worth t, hpoints fun a => a.earned t usage]

theorem percentage_ofUsage_mem_Icc (aspects : List Aspect) (t : TypeInfo) (usage : Usage) :
    (ofUsage aspects t usage).percentage (K := Rat) ∈ Set.Icc 0 100 :=
  Quantity.percentage_mem_Icc (earnedOf_le_worthOf aspects t usage)

end Score

/-! ## Files and runs -/

namespace FileCoverage

theorem percentage_ofTypes_mem_Icc (aspects : List Aspect) (ledger : Ledger) (file : String)
    (types : List TypeInfo) : (ofTypes aspects ledger file types).percentage (K := Rat) ∈ Set.Icc 0 100 := by
  refine Quantity.mean_mem_Icc ?_
  unfold ofTypes
  simp only [List.forall_mem_map]
  exact fun t _ => Score.percentage_ofUsage_mem_Icc aspects t _

end FileCoverage

namespace Coverage

/-- The coverage of some files with the types that each of them declares. -/
def ofDeclared (aspects : List Aspect) (ledger : Ledger) (files : List (String × List TypeInfo)) : Coverage where
  files := files.map fun f => FileCoverage.ofTypes aspects ledger f.1 f.2

/-- A report on source files is of this form. -/
theorem ofFiles_eq_ofDeclared (aspects : List Aspect) (ledger : Ledger) (files : List SourceFile) :
    ofFiles aspects ledger files
      = ofDeclared aspects ledger (files.filterMap fun f => f.outline?.map fun o => (f.path.text, o.types)) := by
  refine congrArg Coverage.mk ((files_ofFiles aspects ledger files).trans ?_)
  rw [List.map_filterMap]
  refine congrArg (fun read => files.filterMap read) (funext fun f => ?_)
  rw [Option.map_map]
  rfl

/-- So is a report on what a ledger holds. -/
theorem ofLedger_eq_ofDeclared (aspects : List Aspect) (registry : Registry) (ledger : Ledger) :
    ofLedger aspects registry ledger
      = ofDeclared aspects ledger
        (ledger.files.entries.map fun e => (e.1, e.2.keys.filterMap registry.get?)) := by
  refine congrArg Coverage.mk ?_
  rw [List.map_map]
  rfl

/-- The files of a coverage that declare types are those that were given with types. -/
theorem filter_files_ofDeclared (aspects : List Aspect) (ledger : Ledger)
    (files : List (String × List TypeInfo)) :
    ((ofDeclared aspects ledger files).files.filter fun f => !f.scores.isEmpty)
      = (ofDeclared aspects ledger (files.filter fun f => !f.2.isEmpty)).files := by
  unfold ofDeclared
  rw [List.filter_map]
  refine congrArg (List.map _) (List.filter_congr fun f _ => ?_)
  simp [FileCoverage.ofTypes]

theorem overall_ofDeclared (aspects : List Aspect) (ledger : Ledger)
    (files : List (String × List TypeInfo)) :
    (ofDeclared aspects ledger files).overall (K := Rat)
      = Quantity.mean ((ofDeclared aspects ledger (files.filter fun f => !f.2.isEmpty)).files.map
        FileCoverage.percentage) := by
  unfold overall
  rw [filter_files_ofDeclared]

theorem overall_ofDeclared_mem_Icc (aspects : List Aspect) (ledger : Ledger)
    (files : List (String × List TypeInfo)) :
    (ofDeclared aspects ledger files).overall (K := Rat) ∈ Set.Icc 0 100 := by
  rw [overall_ofDeclared]
  refine Quantity.mean_mem_Icc ?_
  unfold ofDeclared
  simp only [List.forall_mem_map]
  exact fun f _ => FileCoverage.percentage_ofTypes_mem_Icc aspects ledger f.1 f.2

/-- **Scores are bounded means, whatever the aspects give.** A type earns no more than it is worth; its
percentage is the earned part of that, zero if it is worth nothing, and the order of the aspects does not
matter. The percentage of a file is the mean over its types, zero for none, and the overall percentage
the mean over the files that declare types, again zero for none. All of them are between 0 and 100. Files
without types may be added, removed and moved: only the others and their order count. The reports on
source files and on a ledger are of this form. -/
theorem bounded_means (aspects : List Aspect) (ledger : Ledger) :
    (∀ (t : TypeInfo) (usage : Usage),
      let s := Score.ofUsage aspects t usage
      s.earned ≤ s.max
      ∧ s.percentage (K := Rat) = (if s.max = 0 then 0 else 100 * (s.earned : Rat) / s.max)
      ∧ s.percentage (K := Rat) ∈ Set.Icc 0 100
      ∧ ∀ aspects', aspects.Perm aspects' → Score.ofUsage aspects' t usage = s)
    ∧ (∀ (file : String) (types : List TypeInfo),
      let f := FileCoverage.ofTypes aspects ledger file types
      let scores : List Rat :=
        types.map fun t => (Score.ofUsage aspects t (ledger.usageOf file t.name)).percentage
      f.percentage = (if types = [] then 0 else scores.sum / types.length)
      ∧ f.percentage (K := Rat) ∈ Set.Icc 0 100)
    ∧ (∀ files : List (String × List TypeInfo),
      let c := ofDeclared aspects ledger files
      let declaring := files.filter fun f => !f.2.isEmpty
      let percentages : List Rat :=
        declaring.map fun f => (FileCoverage.ofTypes aspects ledger f.1 f.2).percentage
      c.overall = (if declaring = [] then 0 else percentages.sum / declaring.length)
      ∧ c.overall (K := Rat) ∈ Set.Icc 0 100
      ∧ ∀ files' : List (String × List TypeInfo), (files'.filter fun f => !f.2.isEmpty) = declaring →
        (ofDeclared aspects ledger files').overall (K := Rat) = c.overall)
    ∧ (∀ files : List SourceFile, ofFiles aspects ledger files
      = ofDeclared aspects ledger (files.filterMap fun f => f.outline?.map fun o => (f.path.text, o.types)))
    ∧ ∀ registry : Registry, ofLedger aspects registry ledger
      = ofDeclared aspects ledger
        (ledger.files.entries.map fun e => (e.1, e.2.keys.filterMap registry.get?)) := by
  refine ⟨fun t usage => ?_, fun file types => ?_, fun files => ?_, ofFiles_eq_ofDeclared aspects ledger,
    fun registry => ofLedger_eq_ofDeclared aspects registry ledger⟩
  · exact ⟨Score.earnedOf_le_worthOf aspects t usage, Quantity.percentage_eq _ _,
      Score.percentage_ofUsage_mem_Icc aspects t usage, fun aspects' h => Score.ofUsage_perm h.symm t usage⟩
  · intro f scores
    refine ⟨?_, FileCoverage.percentage_ofTypes_mem_Icc aspects ledger file types⟩
    have hscores : f.scores.map Score.percentage = scores := List.map_map
    unfold FileCoverage.percentage
    rw [hscores, Quantity.mean_eq, List.length_map]
    simp only [scores, List.map_eq_nil_iff]
  · intro c declaring percentages
    refine ⟨?_, overall_ofDeclared_mem_Icc aspects ledger files, fun files' hfiles' => ?_⟩
    · have hpercentages : (ofDeclared aspects ledger declaring).files.map FileCoverage.percentage
          = percentages := List.map_map
      show c.overall = _
      rw [overall_ofDeclared, hpercentages, Quantity.mean_eq, List.length_map]
      simp only [percentages, List.map_eq_nil_iff]
    · show _ = (ofDeclared aspects ledger files).overall
      rw [overall_ofDeclared, overall_ofDeclared, hfiles']

/-- An aspect that gives five points and is worth none changes nothing wherever it stands, and neither does
a file without types. -/
theorem bounded_means_of_greedy :
    let aspects := [Aspect.fixed 0 5, Aspect.identity]
    let plain := TypeInfo.named .cls "Plain"
    aspects.Perm [Aspect.identity, Aspect.fixed 0 5]
    ∧ Score.ofUsage [Aspect.identity, Aspect.fixed 0 5] plain {} = Score.ofUsage aspects plain {}
    ∧ (Score.ofUsage aspects plain {}).percentage (K := Rat) = 100
    ∧ ([("Empty.php", []), ("Plain.php", [plain])].filter fun f => !f.2.isEmpty) = [("Plain.php", [plain])]
    ∧ (ofDeclared aspects {} [("Empty.php", []), ("Plain.php", [plain])]).overall (K := Rat)
      = (ofDeclared aspects {} [("Plain.php", [plain])]).overall := by
  intro aspects plain
  have hperm : aspects.Perm [Aspect.identity, Aspect.fixed 0 5] := List.Perm.swap _ _ _
  obtain ⟨htypes, _, hruns, _⟩ := bounded_means aspects {}
  obtain ⟨_, hpercentage, _, horder⟩ := htypes plain {}
  refine ⟨hperm, horder _ hperm, ?_, rfl, ?_⟩
  · rw [hpercentage]
    decide +kernel
  · exact (hruns [("Plain.php", [plain])]).2.2 _ rfl

end Coverage
end Conformance
