import Mathlib.Algebra.Order.Ring.Nat
import Mathlib.Data.List.Basic

/-! # Dates and times

An aware `datetime` in UTC by its fields, its order, and its text in `isoformat`, which leaves
out the microseconds where they are zero.
-/

namespace ParserServe.Foundation

def isLeapYear (year : Nat) : Bool := year % 4 = 0 && (year % 100 ≠ 0 || year % 400 = 0)

def daysInMonth (year month : Nat) : Nat :=
  if month = 2 then if isLeapYear year then 29 else 28
  else if month ∈ [4, 6, 9, 11] then 30 else 31

theorem daysInMonth_le (year month : Nat) : daysInMonth year month ≤ 31 := by
  unfold daysInMonth
  split
  · split <;> decide
  · split <;> decide

structure UtcDatetime where
  year : Nat
  month : Nat
  day : Nat
  hour : Nat
  minute : Nat
  second : Nat
  microsecond : Nat
  year_valid : 1 ≤ year ∧ year ≤ 9999 := by decide
  month_valid : 1 ≤ month ∧ month ≤ 12 := by decide
  day_valid : 1 ≤ day ∧ day ≤ daysInMonth year month := by decide
  hour_valid : hour < 24 := by decide
  minute_valid : minute < 60 := by decide
  second_valid : second < 60 := by decide
  microsecond_valid : microsecond < 1000000 := by decide
  deriving DecidableEq

/-- A number that orders times as their fields do, the year first. -/
def UtcDatetime.order (t : UtcDatetime) : Nat :=
  (((((t.year * 13 + t.month) * 32 + t.day) * 24 + t.hour) * 60 + t.minute) * 60 + t.second) *
    1000000 + t.microsecond

/-- The digits of a number in a field of fixed width. -/
def fixedDigits : Nat → Nat → List Char
  | 0, _ => []
  | width + 1, n => fixedDigits width (n / 10) ++ [Char.ofNat (n % 10 + 48)]

/-- `value.isoformat()`. -/
def UtcDatetime.isoformat (t : UtcDatetime) : List Char :=
  fixedDigits 4 t.year ++ '-' :: fixedDigits 2 t.month ++ '-' :: fixedDigits 2 t.day ++
    'T' :: fixedDigits 2 t.hour ++ ':' :: fixedDigits 2 t.minute ++ ':' :: fixedDigits 2 t.second ++
    (if t.microsecond = 0 then [] else '.' :: fixedDigits 6 t.microsecond) ++ "+00:00".toList

/-! ## Reading it back -/

def digitOf (c : Char) : Option Nat :=
  if 48 ≤ c.toNat ∧ c.toNat ≤ 57 then some (c.toNat - 48) else none

/-- A number of the given width and the text after it. -/
def readFixed : Nat → List Char → Option (Nat × List Char)
  | width, text => do
      let digits ← (text.take width).mapM digitOf
      if digits.length = width then some (digits.foldl (fun n d => n * 10 + d) 0, text.drop width)
      else none

def readChar (c : Char) : List Char → Option (List Char)
  | [] => none
  | first :: rest => if first = c then some rest else none

/-- The fraction of a second, of six digits or none. -/
def readFraction (text : List Char) : Option (Nat × List Char) :=
  match text with
  | '.' :: rest => readFixed 6 rest
  | rest => some (0, rest)

/-- A reader of exactly what `isoformat` writes. -/
def fromIsoformat (text : List Char) : Option UtcDatetime := do
  let (year, text) ← readFixed 4 text
  let (month, text) ← readFixed 2 (← readChar '-' text)
  let (day, text) ← readFixed 2 (← readChar '-' text)
  let (hour, text) ← readFixed 2 (← readChar 'T' text)
  let (minute, text) ← readFixed 2 (← readChar ':' text)
  let (second, text) ← readFixed 2 (← readChar ':' text)
  let (microsecond, text) ← readFraction text
  if h : text = "+00:00".toList ∧ (1 ≤ year ∧ year ≤ 9999) ∧ (1 ≤ month ∧ month ≤ 12) ∧
      (1 ≤ day ∧ day ≤ daysInMonth year month) ∧ hour < 24 ∧ minute < 60 ∧ second < 60 ∧
      microsecond < 1000000 then
    some ⟨year, month, day, hour, minute, second, microsecond, h.2.1, h.2.2.1, h.2.2.2.1,
      h.2.2.2.2.1, h.2.2.2.2.2.1, h.2.2.2.2.2.2.1, h.2.2.2.2.2.2.2⟩
  else none

@[simp] theorem length_fixedDigits (width n : Nat) : (fixedDigits width n).length = width := by
  induction width generalizing n with
  | zero => rfl
  | succ width ih => simp [fixedDigits, ih]

theorem length_isoformat_le (t : UtcDatetime) : t.isoformat.length ≤ 32 := by
  unfold UtcDatetime.isoformat
  split <;> simp

theorem digitOf_ofNat : ∀ d < 10, digitOf (Char.ofNat (d + 48)) = some d := by
  decide

theorem readFixed_fixedDigits (width : Nat) {n : Nat} (h : n < 10 ^ width) (rest : List Char) :
    readFixed width (fixedDigits width n ++ rest) = some (n, rest) := by
  have hdigits : ∀ width n, n < 10 ^ width → ∃ digits,
      (fixedDigits width n).mapM digitOf = some digits ∧ digits.length = width ∧
        digits.foldl (fun n d => n * 10 + d) 0 = n := by
    intro width
    induction width with
    | zero =>
        intro n hn
        refine ⟨[], rfl, rfl, ?_⟩
        rw [Nat.pow_zero] at hn
        exact (Nat.lt_one_iff.mp hn).symm
    | succ width ih =>
        intro n hn
        obtain ⟨digits, hmap, hlength, hvalue⟩ := ih (n / 10) (by rw [Nat.pow_succ] at hn; omega)
        refine ⟨digits ++ [n % 10], ?_, by simp [hlength], ?_⟩
        · rw [fixedDigits, List.mapM_append, hmap]
          simp [digitOf_ofNat (n % 10) (Nat.mod_lt _ (by decide))]
        · rw [List.foldl_append, hvalue]
          simp only [List.foldl_cons, List.foldl_nil]
          omega
  obtain ⟨digits, hmap, hlength, hvalue⟩ := hdigits width n h
  have htake : (fixedDigits width n ++ rest).take width = fixedDigits width n := by
    rw [List.take_left' (length_fixedDigits width n)]
  have hdrop : (fixedDigits width n ++ rest).drop width = rest := by
    rw [List.drop_left' (length_fixedDigits width n)]
  simp [readFixed, htake, hdrop, hmap, hlength, hvalue]

/-- What `isoformat` writes is read back. -/
theorem fromIsoformat_isoformat (t : UtcDatetime) : fromIsoformat t.isoformat = some t := by
  have hyear := t.year_valid
  have hmonth := t.month_valid
  have hday := t.day_valid
  have hlast := daysInMonth_le t.year t.month
  have hhour := t.hour_valid
  have hminute := t.minute_valid
  have hsecond := t.second_valid
  have hmicrosecond := t.microsecond_valid
  have hfraction : readFraction ((if t.microsecond = 0 then [] else
      '.' :: fixedDigits 6 t.microsecond) ++ "+00:00".toList) =
      some (t.microsecond, "+00:00".toList) := by
    split
    · next hzero => rw [hzero]; rfl
    · exact readFixed_fixedDigits 6 (by omega) _
  have hread : ∀ c rest, readChar c (c :: rest) = some rest := fun c rest => if_pos rfl
  simp only [UtcDatetime.isoformat, List.append_assoc, List.cons_append]
  simp only [fromIsoformat, hread, Option.bind_eq_bind, Option.bind_some,
    readFixed_fixedDigits 4 (n := t.year) (by omega),
    readFixed_fixedDigits 2 (n := t.month) (by omega),
    readFixed_fixedDigits 2 (n := t.day) (by omega),
    readFixed_fixedDigits 2 (n := t.hour) (by omega),
    readFixed_fixedDigits 2 (n := t.minute) (by omega),
    readFixed_fixedDigits 2 (n := t.second) (by omega), hfraction]
  exact dif_pos ⟨trivial, hyear, hmonth, hday, hhour, hminute, hsecond, hmicrosecond⟩

end ParserServe.Foundation
