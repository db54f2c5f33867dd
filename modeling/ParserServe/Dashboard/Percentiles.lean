import ParserServe.Control.Dashboard
import ParserServe.Persistence.Tasks

/-! # Percentiles

`_percentile` sorts its values and interpolates between two of them, so it depends on the values
only as a multiset and grows with the percentile.
-/

namespace ParserServe

open Foundation

variable {values : List ℚ} {p q a b : ℚ}

theorem percentile?_eq (hne : values ≠ []) : percentile? values p =
    interpolate (values.insertionSort (· ≤ ·)) (((values.length : ℚ) - 1) * p) := by
  simp only [percentile?, if_neg hne, List.length_insertionSort]

theorem position_nonneg (hne : values ≠ []) (hp : 0 ≤ p) : 0 ≤ ((values.length : ℚ) - 1) * p := by
  have hone : (1 : ℚ) ≤ values.length := by exact_mod_cast List.length_pos_iff.mpr hne
  exact mul_nonneg (sub_nonneg.mpr hone) hp

/-- The order of the values does not matter. -/
theorem percentile?_perm {values' : List ℚ} (h : values'.Perm values) (p : ℚ) :
    percentile? values' p = percentile? values p := by
  by_cases hne : values = []
  · subst hne
    rw [h.eq_nil]
  · have hne' : values' ≠ [] := fun hnil => hne (by subst hnil; exact h.symm.eq_nil)
    have hsorted : values'.insertionSort (· ≤ ·) = values.insertionSort (· ≤ ·) := by
      refine List.Perm.eq_of_pairwise (fun _ _ _ _ => le_antisymm)
        (List.pairwise_insertionSort _ _) (List.pairwise_insertionSort _ _) ?_
      exact (List.perm_insertionSort _ _).trans (h.trans (List.perm_insertionSort _ _).symm)
    rw [percentile?_eq hne, percentile?_eq hne', hsorted, h.length_eq]

theorem percentile?_bounds (hne : values ≠ []) (hp : 0 ≤ p) (ha : percentile? values p = some a)
    {low high : ℚ} (hbounds : ∀ value ∈ values, low ≤ value ∧ value ≤ high) :
    low ≤ a ∧ a ≤ high := by
  rw [percentile?_eq hne] at ha
  refine interpolate_bounds (List.pairwise_insertionSort _ _) (position_nonneg hne hp) ha ?_
  intro value hvalue
  exact hbounds value ((List.mem_insertionSort _).mp hvalue)

theorem percentile?_mono (hne : values ≠ []) (hp : 0 ≤ p) (hpq : p ≤ q)
    (ha : percentile? values p = some a) (hb : percentile? values q = some b) : a ≤ b := by
  have hone : (1 : ℚ) ≤ values.length := by exact_mod_cast List.length_pos_iff.mpr hne
  have hposition : ((values.length : ℚ) - 1) * p ≤ ((values.length : ℚ) - 1) * q :=
    mul_le_mul_of_nonneg_left hpq (sub_nonneg.mpr hone)
  rw [percentile?_eq hne] at ha hb
  exact interpolate_mono (List.pairwise_insertionSort _ _) (position_nonneg hne hp) hposition ha hb

/-! ## Results -/

/-- A larger percentile of the durations is not smaller; of no durations all are zero. -/
theorem percentile_mono (values : List ℚ) (hp : 0 ≤ p ∧ p ≤ 1) (hq : 0 ≤ q ∧ q ≤ 1)
    (hpq : p ≤ q) : percentile values p hp ≤ percentile values q hq := by
  have ha : percentile? values p = some (percentile values p hp) := (Option.some_get _).symm
  have hb : percentile? values q = some (percentile values q hq) := (Option.some_get _).symm
  by_cases hne : values = []
  · simp only [percentile?, if_pos hne, Option.some.injEq] at ha hb
    rw [← ha, ← hb]
  · exact percentile?_mono hne hp.1 hpq ha hb

/-- Percentiles between 0 and 1 of a non-empty list exist, lie between its minimum and maximum,
do not depend on its order, and grow; so do those of the dashboard. -/
theorem percentiles_well_behaved (values : List ℚ) (hne : values ≠ []) (p q : ℚ) (hp : 0 ≤ p)
    (hpq : p ≤ q) (hq : q ≤ 1) :
    (∃ a b, percentile? values p = some a ∧ percentile? values q = some b ∧ a ≤ b ∧
      (∀ low high, values.min? = some low → values.max? = some high →
        (low ≤ a ∧ a ≤ high) ∧ low ≤ b ∧ b ≤ high) ∧
      ∀ values' : List ℚ, values'.Perm values →
        percentile? values' p = some a ∧ percentile? values' q = some b) ∧
    ∀ tasks : List TaskRecord, (taskSummary tasks).p50ExecutionMs ≤
        (taskSummary tasks).p95ExecutionMs ∧
      (taskSummary tasks).p95ExecutionMs ≤ (taskSummary tasks).p99ExecutionMs := by
  constructor
  · have ha := Option.eq_some_of_isSome (percentile?_isSome values ⟨hp, hpq.trans hq⟩)
    have hb := Option.eq_some_of_isSome (percentile?_isSome values ⟨hp.trans hpq, hq⟩)
    refine ⟨_, _, ha, hb, percentile?_mono hne hp hpq ha hb, ?_, ?_⟩
    · intro low high hlow hhigh
      have hbounds : ∀ value ∈ values, low ≤ value ∧ value ≤ high := fun value hvalue =>
        ⟨(List.min?_eq_some_iff.mp hlow).2 value hvalue,
          (List.max?_eq_some_iff.mp hhigh).2 value hvalue⟩
      exact ⟨percentile?_bounds hne hp ha hbounds,
        percentile?_bounds hne (hp.trans hpq) hb hbounds⟩
    · intro values' hperm
      exact ⟨(percentile?_perm hperm p).trans ha, (percentile?_perm hperm q).trans hb⟩
  · intro tasks
    exact ⟨percentile_mono _ (by norm_num) (by norm_num) (by norm_num),
      percentile_mono _ (by norm_num) (by norm_num) (by norm_num)⟩

/-- The median and the upper end of three durations. -/
theorem percentiles_well_behaved_three : ∃ a b, percentile? [30, 10, 20] (1 / 2) = some a ∧
    percentile? [30, 10, 20] 1 = some b ∧ a ≤ b := by
  obtain ⟨⟨a, b, ha, hb, hle, _⟩, _⟩ :=
    percentiles_well_behaved [30, 10, 20] (by decide) (1 / 2) 1 (by norm_num) (by norm_num)
      (le_refl 1)
  exact ⟨a, b, ha, hb, hle⟩

end ParserServe
