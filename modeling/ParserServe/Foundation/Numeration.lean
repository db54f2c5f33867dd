import Mathlib.Data.List.Basic
import Mathlib.Data.List.Induction
import Mathlib.Tactic.Linarith

/-! # Bijective numeration

Numerals without a zero: the digits of base `b` run from one to `b`.  Every number then has
exactly one numeral, the empty one being the numeral of zero.
-/

namespace ParserServe.Foundation

variable {b : Nat}

/-- The value of a numeral, its most significant digit first. -/
def numeralValue (b : Nat) (digits : List Nat) : Nat :=
  digits.foldl (fun value digit => value * b + digit) 0

@[simp] theorem numeralValue_nil : numeralValue b [] = 0 := rfl

@[simp] theorem numeralValue_concat (digits : List Nat) (digit : Nat) :
    numeralValue b (digits ++ [digit]) = numeralValue b digits * b + digit := by
  simp [numeralValue]

/-- The digits of base `b` without zero. -/
def IsNumeral (b : Nat) (digits : List Nat) : Prop := ∀ digit ∈ digits, 1 ≤ digit ∧ digit ≤ b

theorem IsNumeral.of_concat {digits : List Nat} {digit : Nat}
    (h : IsNumeral b (digits ++ [digit])) : IsNumeral b digits ∧ 1 ≤ digit ∧ digit ≤ b :=
  ⟨fun other hother => h other (by simp [hother]), h digit (by simp)⟩

/-- The last digit and the value before it are determined by the value. -/
theorem value_digit_inj {m n d e : Nat} (hd : 1 ≤ d ∧ d ≤ b) (he : 1 ≤ e ∧ e ≤ b)
    (h : m * b + d = n * b + e) : m = n ∧ d = e := by
  have hmn : m = n := by
    rcases Nat.lt_trichotomy m n with hlt | heq | hgt
    · have hstep : (m + 1) * b ≤ n * b := Nat.mul_le_mul_right b hlt
      rw [Nat.succ_mul] at hstep
      omega
    · exact heq
    · have hstep : (n + 1) * b ≤ m * b := Nat.mul_le_mul_right b hgt
      rw [Nat.succ_mul] at hstep
      omega
  subst hmn
  exact ⟨rfl, Nat.add_left_cancel h⟩

theorem numeralValue_pos {digits : List Nat} (h : IsNumeral b digits) (hne : digits ≠ []) :
    1 ≤ numeralValue b digits := by
  obtain ⟨front, last, rfl⟩ := (List.eq_nil_or_concat' digits).resolve_left hne
  have := h.of_concat.2.1
  rw [numeralValue_concat]
  omega

/-- Two numerals of one value are the same. -/
theorem numeralValue_inj {xs ys : List Nat} (hxs : IsNumeral b xs) (hys : IsNumeral b ys)
    (h : numeralValue b xs = numeralValue b ys) : xs = ys := by
  induction xs using List.reverseRecOn generalizing ys with
  | nil =>
      by_contra hne
      have := numeralValue_pos hys (Ne.symm hne)
      rw [← h, numeralValue_nil] at this
      omega
  | append_singleton xs x ih =>
      rcases List.eq_nil_or_concat' ys with rfl | ⟨ys, y, rfl⟩
      · have := numeralValue_pos hxs (by simp)
        rw [h, numeralValue_nil] at this
        omega
      · rw [numeralValue_concat, numeralValue_concat] at h
        obtain ⟨hvalue, rfl⟩ := value_digit_inj hxs.of_concat.2 hys.of_concat.2 h
        rw [ih hxs.of_concat.1 hys.of_concat.1 hvalue]

/-- Every number has a numeral. -/
theorem exists_numeral (hb : 0 < b) (n : Nat) :
    ∃ digits, IsNumeral b digits ∧ numeralValue b digits = n := by
  induction n using Nat.strongRecOn with
  | ind n ih =>
      cases n with
      | zero => exact ⟨[], by simp [IsNumeral], rfl⟩
      | succ n =>
          have hlt : n / b < n + 1 := Nat.lt_succ_of_le (Nat.div_le_self n b)
          obtain ⟨digits, hdigits, hvalue⟩ := ih (n / b) hlt
          refine ⟨digits ++ [n % b + 1], ?_, ?_⟩
          · intro digit hdigit
            rcases List.mem_append.mp hdigit with hfront | hlast
            · exact hdigits digit hfront
            · rw [List.mem_singleton.mp hlast]
              have := Nat.mod_lt n hb
              omega
          · rw [numeralValue_concat, hvalue]
            have := Nat.div_add_mod' n b
            omega

end ParserServe.Foundation
