import Mathlib.Data.List.DropRight
import Mathlib.Data.List.Induction

/-! # Lists written by position

A list is filled by writing values at positions in any order: a position beyond the end is
reached by padding with blanks, and trailing blanks are dropped when all is written.  A
position then holds the last value written there, or a blank.
-/

namespace ParserServe.Foundation

variable {α : Type*} (blank : α)

/-- Append blanks until the list has at least `n` entries. -/
def padTo (xs : List α) (n : Nat) : List α := xs ++ List.replicate (n - xs.length) blank

def writeAt (xs : List α) (index : Nat) (value : α) : List α :=
  (padTo blank xs (index + 1)).set index value

@[simp] theorem length_padTo (xs : List α) (n : Nat) :
    (padTo blank xs n).length = max xs.length n := by
  simp only [padTo, List.length_append, List.length_replicate]
  omega

@[simp] theorem length_writeAt (xs : List α) (index : Nat) (value : α) :
    (writeAt blank xs index value).length = max xs.length (index + 1) := by
  simp [writeAt]

@[simp] theorem getD_padTo (xs : List α) (n k : Nat) :
    (padTo blank xs n).getD k blank = xs.getD k blank := by
  rw [padTo, List.getD_eq_getElem?_getD, List.getD_eq_getElem?_getD, List.getElem?_append]
  split
  · rfl
  · next hlength =>
      rw [List.getElem?_replicate, List.getElem?_eq_none (Nat.le_of_not_lt hlength)]
      split <;> rfl

theorem getD_writeAt (xs : List α) (index k : Nat) (value : α) :
    (writeAt blank xs index value).getD k blank =
      if index = k then value else xs.getD k blank := by
  have hindex : index < (padTo blank xs (index + 1)).length := by
    rw [length_padTo]
    omega
  rw [writeAt, List.getD_eq_getElem?_getD, List.getElem?_set, if_pos hindex]
  split
  · rfl
  · rw [← List.getD_eq_getElem?_getD, getD_padTo]

variable [DecidableEq α]

/-- Drop the blanks at the end. -/
def trimBlanks (xs : List α) : List α := xs.rdropWhile (fun x => decide (x = blank))

theorem length_trimBlanks_le (xs : List α) : (trimBlanks blank xs).length ≤ xs.length :=
  (List.rdropWhile_prefix _ _).length_le

theorem getD_trimBlanks (xs : List α) (k : Nat) :
    (trimBlanks blank xs).getD k blank = xs.getD k blank := by
  induction xs using List.reverseRecOn with
  | nil => rfl
  | append_singleton xs x ih =>
      unfold trimBlanks at ih ⊢
      rw [List.rdropWhile_concat]
      split
      · next hblank =>
          rw [ih, of_decide_eq_true hblank]
          exact (getD_padTo blank xs (xs.length + 1) k).symm.trans (by simp [padTo])
      · rfl

theorem getLast_trimBlanks_ne (xs : List α) (h : trimBlanks blank xs ≠ []) :
    (trimBlanks blank xs).getLast h ≠ blank := by
  have hlast := List.rdropWhile_last_not _ _ h
  rwa [decide_eq_true_eq] at hlast

/-- All positions are blank exactly when nothing remains. -/
theorem trimBlanks_eq_nil_iff (xs : List α) :
    trimBlanks blank xs = [] ↔ ∀ k, xs.getD k blank = blank := by
  constructor
  · intro h k
    rw [← getD_trimBlanks, h]
    rfl
  · intro h
    refine List.rdropWhile_eq_nil_iff.mpr ?_
    intro x hx
    obtain ⟨k, hk, rfl⟩ := List.getElem_of_mem hx
    have hvalue := h k
    rw [List.getD_eq_getElem?_getD, List.getElem?_eq_getElem hk, Option.getD_some] at hvalue
    exact decide_eq_true hvalue

end ParserServe.Foundation
