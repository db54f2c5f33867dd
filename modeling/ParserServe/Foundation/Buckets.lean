import Mathlib.Algebra.BigOperators.Group.Finset.Basic
import Mathlib.Algebra.Order.Floor.Ring

/-! # Buckets of equal width

The half-open range from `origin` to `stop` is cut into buckets of one width, the last of
which may be cut short.  A value is counted under the start of its bucket.  The starts come
from a rounded-up number of widths and the bucket of a value from a rounded-down one; they
agree on every value before `stop`.
-/

namespace ParserServe.Foundation

/-! ## Counting under keys -/

section Counter

variable {κ β : Type*} [DecidableEq κ]

/-- How often each key was counted. -/
abbrev Counter (κ : Type*) := κ → Nat

def Counter.increment (counter : Counter κ) (key : κ) : Counter κ :=
  Function.update counter key (counter key + 1)

/-- How often each key occurs among the keys of `values`. -/
def countKeys (key : β → κ) (values : List β) : Counter κ := fun k => (values.map key).count k

@[simp] theorem countKeys_nil (key : β → κ) : countKeys key [] = fun _ => 0 := by
  funext k
  simp [countKeys]

theorem countKeys_concat (key : β → κ) (values : List β) (value : β) :
    countKeys key (values ++ [value]) = (countKeys key values).increment (key value) := by
  funext k
  by_cases h : k = key value
  · simp [countKeys, Counter.increment, h]
  · simp [countKeys, Counter.increment, h, Ne.symm h]

/-- Over keys that include those of all values the counts add up to the number of values. -/
theorem sum_countKeys {key : β → κ} {values : List β} {keys : List κ} (hnodup : keys.Nodup)
    (hkeys : ∀ value ∈ values, key value ∈ keys) :
    (keys.map (countKeys key values)).sum = values.length := by
  rw [← List.sum_toFinset _ hnodup]
  have hmem : ∀ k ∈ (values.map key : Multiset κ), k ∈ keys.toFinset := by
    intro k hk
    obtain ⟨value, hvalue, rfl⟩ := List.mem_map.mp (Multiset.mem_coe.mp hk)
    exact List.mem_toFinset.mpr (hkeys value hvalue)
  have hsum := Multiset.sum_count_eq_card hmem
  simp only [Multiset.coe_count, Multiset.coe_card, List.length_map] at hsum
  exact hsum

end Counter

/-! ## The buckets of a range -/

variable {α : Type*} [Field α] [LinearOrder α] [IsStrictOrderedRing α] [FloorSemiring α]

/-- The start of the bucket of a value; what lies before `origin` counts under `origin`. -/
def bucketOf (origin width value : α) : α :=
  origin + ⌊max (value - origin) 0 / width⌋₊ * width

/-- The starts of the buckets that begin before `stop`. -/
def bucketsBefore (origin width stop : α) : List α :=
  (List.range ⌈(stop - origin) / width⌉₊).map fun index : Nat => origin + index * width

variable {origin width stop value : α}

theorem mem_bucketsBefore (hwidth : 0 < width) {start : α} :
    start ∈ bucketsBefore origin width stop ↔
      ∃ index : Nat, start = origin + index * width ∧ start < stop := by
  have hlt : ∀ index : Nat, index < ⌈(stop - origin) / width⌉₊ ↔
      origin + index * width < stop := by
    intro index
    rw [Nat.lt_ceil, lt_div_iff₀ hwidth, lt_sub_iff_add_lt']
  constructor
  · intro h
    obtain ⟨index, hindex, rfl⟩ := List.mem_map.mp h
    exact ⟨index, rfl, (hlt index).mp (List.mem_range.mp hindex)⟩
  · rintro ⟨index, rfl, hstop⟩
    exact List.mem_map.mpr ⟨index, List.mem_range.mpr ((hlt index).mpr hstop), rfl⟩

theorem bucketsBefore_pairwise (hwidth : 0 < width) :
    (bucketsBefore origin width stop).Pairwise (· < ·) := by
  rw [bucketsBefore, List.pairwise_map]
  refine List.pairwise_lt_range.imp ?_
  intro i j hij
  have hcast : (i : α) < j := Nat.cast_lt.mpr hij
  have hmul := mul_lt_mul_of_pos_right hcast hwidth
  exact add_lt_add_right hmul origin

/-- A value of the range is not before the start of its bucket. -/
theorem bucketOf_le (hwidth : 0 < width) (hvalue : origin ≤ value) :
    bucketOf origin width value ≤ value := by
  have hoffset : max (value - origin) 0 = value - origin := max_eq_left (sub_nonneg.mpr hvalue)
  have hfloor : (⌊(value - origin) / width⌋₊ : α) ≤ (value - origin) / width :=
    Nat.floor_le (div_nonneg (sub_nonneg.mpr hvalue) hwidth.le)
  rw [bucketOf, hoffset, ← le_sub_iff_add_le']
  exact (le_div_iff₀ hwidth).mp hfloor

/-- The rounded-down bucket of a value is one of the rounded-up number of buckets. -/
theorem bucketOf_mem (hwidth : 0 < width) (hvalue : origin ≤ value) (hstop : value < stop) :
    bucketOf origin width value ∈ bucketsBefore origin width stop :=
  (mem_bucketsBefore hwidth).mpr ⟨_, rfl, (bucketOf_le hwidth hvalue).trans_lt hstop⟩

end ParserServe.Foundation
