import Mathlib.Algebra.Order.Floor.Ring
import Mathlib.Data.List.Sort
import Mathlib.Tactic.Linarith

/-! # Values between the entries of a sorted list

A position between two indices of a list stands for the point between the two entries that
divides their distance in the same way.  Along a sorted list this is monotone: two positions
either lie between the same two indices, or an index separates them.
-/

namespace ParserServe.Foundation

/-- In a sorted list entries are ordered as their indices. -/
theorem getElem?_mono {α : Type*} [Preorder α] {values : List α}
    (hsorted : values.Pairwise (· ≤ ·)) {i j : Nat} (hij : i ≤ j)
    {a b : α} (ha : values[i]? = some a) (hb : values[j]? = some b) : a ≤ b := by
  obtain ⟨hi, rfl⟩ := List.getElem?_eq_some_iff.mp ha
  obtain ⟨hj, rfl⟩ := List.getElem?_eq_some_iff.mp hb
  rcases Nat.lt_or_eq_of_le hij with hlt | rfl
  · exact List.pairwise_iff_getElem.mp hsorted i j hi hj hlt
  · exact le_refl _

variable {α : Type*} [Field α] [LinearOrder α] [FloorSemiring α]

/-- The value at a position; `none` when one of the two indices is out of range. -/
def interpolate (values : List α) (position : α) : Option α := do
  let lower ← values[⌊position⌋₊]?
  let upper ← values[⌈position⌉₊]?
  some (if ⌊position⌋₊ = ⌈position⌉₊ then lower
    else lower + (upper - lower) * (position - ⌊position⌋₊))

variable {values : List α} {position value : α}

theorem interpolate_eq_some : interpolate values position = some value ↔
    ∃ lower upper, values[⌊position⌋₊]? = some lower ∧ values[⌈position⌉₊]? = some upper ∧
      value = if ⌊position⌋₊ = ⌈position⌉₊ then lower
        else lower + (upper - lower) * (position - ⌊position⌋₊) := by
  cases hlower : values[⌊position⌋₊]? with
  | none => simp [interpolate, hlower]
  | some lower =>
      cases hupper : values[⌈position⌉₊]? with
      | none => simp [interpolate, hlower, hupper]
      | some upper => simp [interpolate, hlower, hupper, eq_comm]

variable [IsStrictOrderedRing α]

/-- Positions up to the last index are in range. -/
theorem interpolate_isSome (hne : values ≠ []) (hposition : position ≤ (values.length : α) - 1) :
    (interpolate values position).isSome := by
  have hlength : 1 ≤ values.length := List.length_pos_iff.mpr hne
  have hcast : position ≤ ((values.length - 1 : Nat) : α) := by
    rw [Nat.cast_sub hlength, Nat.cast_one]
    exact hposition
  have hceil : ⌈position⌉₊ ≤ values.length - 1 := Nat.ceil_le.mpr hcast
  have hfloor : ⌊position⌋₊ ≤ values.length - 1 := (Nat.floor_le_ceil position).trans hceil
  have hlower : ⌊position⌋₊ < values.length := by omega
  have hupper : ⌈position⌉₊ < values.length := by omega
  simp [interpolate, List.getElem?_eq_getElem hlower, List.getElem?_eq_getElem hupper]

/-- The value lies between the entries at the two indices. -/
theorem interpolate_between (hsorted : values.Pairwise (· ≤ ·)) (hposition : 0 ≤ position)
    {lower upper : α} (hlower : values[⌊position⌋₊]? = some lower)
    (hupper : values[⌈position⌉₊]? = some upper)
    (h : interpolate values position = some value) : lower ≤ value ∧ value ≤ upper := by
  have hle : lower ≤ upper :=
    getElem?_mono hsorted (Nat.floor_le_ceil position) hlower hupper
  obtain ⟨_, _, hlower', hupper', rfl⟩ := interpolate_eq_some.mp h
  cases hlower.symm.trans hlower'
  cases hupper.symm.trans hupper'
  split
  · exact ⟨le_refl _, hle⟩
  · have hstart : (⌊position⌋₊ : α) ≤ position := Nat.floor_le hposition
    have hend : position < ⌊position⌋₊ + 1 := Nat.lt_floor_add_one position
    have hfraction : 0 ≤ position - ⌊position⌋₊ ∧ position - ⌊position⌋₊ ≤ 1 :=
      ⟨sub_nonneg.mpr hstart, by linarith⟩
    have hdistance : 0 ≤ upper - lower := sub_nonneg.mpr hle
    have hscaled : (upper - lower) * (position - ⌊position⌋₊) ≤ upper - lower :=
      mul_le_of_le_one_right hdistance hfraction.2
    have hnonneg : 0 ≤ (upper - lower) * (position - ⌊position⌋₊) :=
      mul_nonneg hdistance hfraction.1
    exact ⟨by linarith, by linarith⟩

/-- The value lies between bounds of the list. -/
theorem interpolate_bounds (hsorted : values.Pairwise (· ≤ ·)) (hposition : 0 ≤ position)
    (h : interpolate values position = some value) {low high : α}
    (hbounds : ∀ v ∈ values, low ≤ v ∧ v ≤ high) : low ≤ value ∧ value ≤ high := by
  obtain ⟨lower, upper, hlower, hupper, _⟩ := interpolate_eq_some.mp h
  obtain ⟨hge, hle⟩ := interpolate_between hsorted hposition hlower hupper h
  have hlow := (hbounds lower (List.mem_of_getElem? hlower)).1
  have hhigh := (hbounds upper (List.mem_of_getElem? hupper)).2
  exact ⟨hlow.trans hge, hle.trans hhigh⟩

/-- Interpolation along a sorted list is monotone. -/
theorem interpolate_mono (hsorted : values.Pairwise (· ≤ ·)) {x y a b : α} (hx : 0 ≤ x)
    (hxy : x ≤ y) (ha : interpolate values x = some a) (hb : interpolate values y = some b) :
    a ≤ b := by
  obtain ⟨lower, upper, hlower, hupper, hvalue⟩ := interpolate_eq_some.mp ha
  obtain ⟨lower', upper', hlower', hupper', hvalue'⟩ := interpolate_eq_some.mp hb
  have hbelow := interpolate_between hsorted hx hlower hupper ha
  have habove := interpolate_between hsorted (hx.trans hxy) hlower' hupper' hb
  rcases (Nat.floor_mono hxy).lt_or_eq with hlt | heq
  · -- The lower index of `y` separates the positions.
    have hindex : ⌈x⌉₊ ≤ ⌊y⌋₊ := (Nat.ceil_le_floor_add_one x).trans hlt
    exact hbelow.2.trans ((getElem?_mono hsorted hindex hupper hlower').trans habove.1)
  · have hsame : lower = lower' := by
      rw [heq, hlower'] at hlower
      exact (Option.some.inj hlower).symm
    by_cases hinteger : ⌊x⌋₊ = ⌈x⌉₊
    · rw [if_pos hinteger] at hvalue
      rw [hvalue, hsame]
      exact habove.1
    · -- Neither position is the lower index, so both have the same upper one.
      have hceil : ⌈x⌉₊ = ⌊x⌋₊ + 1 := by
        have hle := Nat.ceil_le_floor_add_one x
        have hge := Nat.floor_le_ceil x
        omega
      have hceil' : ⌈y⌉₊ = ⌊y⌋₊ + 1 := by
        have hle := Nat.ceil_le_floor_add_one y
        have hge : ⌈x⌉₊ ≤ ⌈y⌉₊ := Nat.ceil_mono hxy
        omega
      have hupperSame : upper = upper' := by
        rw [hceil, heq, ← hceil', hupper'] at hupper
        exact (Option.some.inj hupper).symm
      have hinteger' : ⌊y⌋₊ ≠ ⌈y⌉₊ := by omega
      rw [if_neg hinteger] at hvalue
      rw [if_neg hinteger', ← hsame, ← hupperSame, ← heq] at hvalue'
      have hdistance : 0 ≤ upper - lower :=
        sub_nonneg.mpr (getElem?_mono hsorted (Nat.floor_le_ceil x) hlower hupper)
      have hscaled : (upper - lower) * (x - ⌊x⌋₊) ≤ (upper - lower) * (y - ⌊x⌋₊) :=
        mul_le_mul_of_nonneg_left (by linarith) hdistance
      rw [hvalue, hvalue']
      linarith

end ParserServe.Foundation
