import Mathlib.Data.List.DropRight
import ParserServe.Foundation.Text

/-! # Base64 for URLs

`base64.urlsafe_b64encode` and `base64.urlsafe_b64decode`.  The decoder passes over characters
that are no digits, as `binascii` does; what matters here is that it reads back what the encoder
wrote once the padding that was stripped is put back.
-/

namespace ParserServe.Foundation

/-! ## Digits -/

def base64Alphabet : List Char :=
  "ABCDEFGHIJKLMNOPQRSTUVWXYZabcdefghijklmnopqrstuvwxyz0123456789-_".toList

def base64Digit (n : Nat) : Char := base64Alphabet.getD n '='

/-- The digits of both alphabets are read. -/
def base64Value (c : Char) : Option Nat :=
  if c = '+' then some 62
  else if c = '/' then some 63
  else if c ∈ base64Alphabet then some (base64Alphabet.idxOf c) else none

theorem base64Value_digit : ∀ n < 64, base64Value (base64Digit n) = some n := by
  decide +kernel

theorem base64Digit_ne_pad : ∀ n < 64, base64Digit n ≠ '=' := by
  decide +kernel

theorem base64Digit_ascii : ∀ n < 64, (base64Digit n).toNat < 128 := by
  decide +kernel

/-! ## Encoding -/

/-- The digits of the bytes, without the padding. -/
def base64Digits : Bytes → List Char
  | a :: b :: c :: rest =>
      base64Digit (a.toNat / 4) :: base64Digit (a.toNat % 4 * 16 + b.toNat / 16) ::
        base64Digit (b.toNat % 16 * 4 + c.toNat / 64) :: base64Digit (c.toNat % 64) ::
        base64Digits rest
  | [a, b] =>
      [base64Digit (a.toNat / 4), base64Digit (a.toNat % 4 * 16 + b.toNat / 16),
        base64Digit (b.toNat % 16 * 4)]
  | [a] => [base64Digit (a.toNat / 4), base64Digit (a.toNat % 4 * 16)]
  | [] => []

/-- The padding that fills up the last group of four. -/
def base64Padding (n : Nat) : List Char := List.replicate ((4 - n % 4) % 4) '='

/-- `base64.urlsafe_b64encode`. -/
def urlsafeB64encode (bytes : Bytes) : List Char :=
  base64Digits bytes ++ base64Padding (base64Digits bytes).length

/-- `text.rstrip("=")`. -/
def stripPadding (text : List Char) : List Char := text.rdropWhile (fun c => decide (c = '='))

/-! ## Decoding -/

/-- The digits read of a group of four, the bits left over and the padding seen. -/
structure Base64State where
  digits : Nat := 0
  left : Nat := 0
  pads : Nat := 0

/-- `binascii.a2b_base64`; `none` is a `binascii.Error`. -/
def a2bBase64 (state : Base64State) : List Char → Option Bytes
  | [] => if state.digits = 0 then some [] else none
  | c :: rest =>
      if c = '=' then
        if 2 ≤ state.digits then
          if 4 ≤ state.digits + (state.pads + 1) then some []
          else a2bBase64 { state with pads := state.pads + 1 } rest
        else a2bBase64 state rest
      else
        match base64Value c with
        | none => a2bBase64 state rest
        | some value =>
            match state.digits with
            | 0 => a2bBase64 ⟨1, value, 0⟩ rest
            | 1 =>
                (a2bBase64 ⟨2, value % 16, 0⟩ rest).map
                  (UInt8.ofNat (state.left * 4 + value / 16) :: ·)
            | 2 =>
                (a2bBase64 ⟨3, value % 4, 0⟩ rest).map
                  (UInt8.ofNat (state.left * 16 + value / 4) :: ·)
            | _ => (a2bBase64 ⟨0, 0, 0⟩ rest).map (UInt8.ofNat (state.left * 64 + value) :: ·)

/-- `base64.urlsafe_b64decode`, which takes ASCII text only. -/
def urlsafeB64decode (text : List Char) : Option Bytes :=
  if text.all (fun c => decide (c.toNat < 128)) then a2bBase64 {} text else none

/-! ## Round trip -/

theorem length_base64Digits (bytes : Bytes) :
    (base64Digits bytes).length = (4 * bytes.length + 2) / 3 := by
  induction bytes using base64Digits.induct with
  | case1 a b c rest ih =>
      simp only [base64Digits, List.length_cons, ih]
      omega
  | case2 a b => simp [base64Digits]
  | case3 a => simp [base64Digits]
  | case4 => rfl

/-- Each character of the digits is one. -/
theorem exists_of_mem_base64Digits {bytes : Bytes} {c : Char} (h : c ∈ base64Digits bytes) :
    ∃ n < 64, c = base64Digit n := by
  have hbyte : ∀ byte : UInt8, byte.toNat < 256 := UInt8.toNat_lt
  induction bytes using base64Digits.induct with
  | case1 a b x rest ih =>
      have ha := hbyte a
      have hb := hbyte b
      have hx := hbyte x
      simp only [base64Digits, List.mem_cons] at h
      rcases h with rfl | rfl | rfl | rfl | h
      · exact ⟨_, by omega, rfl⟩
      · exact ⟨_, by omega, rfl⟩
      · exact ⟨_, by omega, rfl⟩
      · exact ⟨_, by omega, rfl⟩
      · exact ih h
  | case2 a b =>
      have ha := hbyte a
      have hb := hbyte b
      simp only [base64Digits, List.mem_cons, List.not_mem_nil, or_false] at h
      rcases h with rfl | rfl | rfl
      · exact ⟨_, by omega, rfl⟩
      · exact ⟨_, by omega, rfl⟩
      · exact ⟨_, by omega, rfl⟩
  | case3 a =>
      have ha := hbyte a
      simp only [base64Digits, List.mem_cons, List.not_mem_nil, or_false] at h
      rcases h with rfl | rfl
      · exact ⟨_, by omega, rfl⟩
      · exact ⟨_, by omega, rfl⟩
  | case4 => cases h

/-- Stripping the padding leaves the digits. -/
theorem stripPadding_encode (bytes : Bytes) :
    stripPadding (urlsafeB64encode bytes) = base64Digits bytes := by
  have hpads : ∀ k, stripPadding (base64Digits bytes ++ List.replicate k '=') =
      base64Digits bytes := by
    intro k
    induction k with
    | zero =>
        rw [List.replicate_zero, List.append_nil, stripPadding, List.rdropWhile_eq_self_iff]
        intro hne hlast
        obtain ⟨n, hn, heq⟩ := exists_of_mem_base64Digits (List.getLast_mem hne)
        exact base64Digit_ne_pad n hn (heq.symm.trans (of_decide_eq_true hlast))
    | succ k ih =>
        rw [List.replicate_succ', ← List.append_assoc, stripPadding, List.rdropWhile_concat,
          if_pos (by decide)]
        exact ih
  exact hpads _

section Digits

variable {n : Nat} (hn : n < 64) (left : Nat) (rest : List Char)

include hn

theorem a2bBase64_first : a2bBase64 ⟨0, left, 0⟩ (base64Digit n :: rest) =
    a2bBase64 ⟨1, n, 0⟩ rest := by
  rw [a2bBase64, if_neg (base64Digit_ne_pad n hn), base64Value_digit n hn]
  rfl

theorem a2bBase64_second : a2bBase64 ⟨1, left, 0⟩ (base64Digit n :: rest) =
    (a2bBase64 ⟨2, n % 16, 0⟩ rest).map (UInt8.ofNat (left * 4 + n / 16) :: ·) := by
  rw [a2bBase64, if_neg (base64Digit_ne_pad n hn), base64Value_digit n hn]
  rfl

theorem a2bBase64_third : a2bBase64 ⟨2, left, 0⟩ (base64Digit n :: rest) =
    (a2bBase64 ⟨3, n % 4, 0⟩ rest).map (UInt8.ofNat (left * 16 + n / 4) :: ·) := by
  rw [a2bBase64, if_neg (base64Digit_ne_pad n hn), base64Value_digit n hn]
  rfl

theorem a2bBase64_fourth : a2bBase64 ⟨3, left, 0⟩ (base64Digit n :: rest) =
    (a2bBase64 ⟨0, 0, 0⟩ rest).map (UInt8.ofNat (left * 64 + n) :: ·) := by
  rw [a2bBase64, if_neg (base64Digit_ne_pad n hn), base64Value_digit n hn]
  rfl

end Digits

theorem ofNat_eq_byte {n : Nat} {byte : UInt8} (h : n = byte.toNat) : UInt8.ofNat n = byte := by
  rw [h, UInt8.ofNat_toNat]

/-- The decoder reads back what the encoder wrote. -/
theorem a2bBase64_encode (bytes : Bytes) :
    a2bBase64 {} (urlsafeB64encode bytes) = some bytes := by
  have hbyte : ∀ byte : UInt8, byte.toNat < 256 := UInt8.toNat_lt
  induction bytes using base64Digits.induct with
  | case1 a b c rest ih =>
      have ha := hbyte a
      have hb := hbyte b
      have hc := hbyte c
      have hpadding : base64Padding (base64Digits (a :: b :: c :: rest)).length =
          base64Padding (base64Digits rest).length := by
        simp only [base64Digits, List.length_cons, base64Padding]
        congr 1
        omega
      have hrest : a2bBase64 ⟨0, 0, 0⟩
          (base64Digits rest ++ base64Padding (base64Digits rest).length) = some rest := ih
      rw [urlsafeB64encode, hpadding, base64Digits]
      simp only [List.cons_append]
      rw [a2bBase64_first (by omega), a2bBase64_second (by omega), a2bBase64_third (by omega),
        a2bBase64_fourth (by omega)]
      simp only [hrest, Option.map_some, Option.some.injEq, List.cons.injEq, and_true]
      exact ⟨ofNat_eq_byte (by omega), ofNat_eq_byte (by omega), ofNat_eq_byte (by omega)⟩
  | case2 a b =>
      have ha := hbyte a
      have hb := hbyte b
      have hpadding : base64Padding (base64Digits [a, b]).length = ['='] := rfl
      rw [urlsafeB64encode, hpadding, base64Digits]
      simp only [List.cons_append, List.nil_append]
      rw [a2bBase64_first (by omega), a2bBase64_second (by omega), a2bBase64_third (by omega)]
      have hend : ∀ left, a2bBase64 ⟨3, left, 0⟩ ['='] = some [] := fun _ => rfl
      simp only [hend, Option.map_some, Option.some.injEq, List.cons.injEq, and_true]
      exact ⟨ofNat_eq_byte (by omega), ofNat_eq_byte (by omega)⟩
  | case3 a =>
      have ha := hbyte a
      have hpadding : base64Padding (base64Digits [a]).length = ['=', '='] := rfl
      rw [urlsafeB64encode, hpadding, base64Digits]
      simp only [List.cons_append, List.nil_append]
      rw [a2bBase64_first (by omega), a2bBase64_second (by omega)]
      have hend : ∀ left, a2bBase64 ⟨2, left, 0⟩ ['=', '='] = some [] := fun _ => rfl
      simp only [hend, Option.map_some, Option.some.injEq, List.cons.injEq, and_true]
      exact ofNat_eq_byte (by omega)
  | case4 => rfl

/-- Text without its padding is decoded once the padding is put back. -/
theorem urlsafeB64decode_stripped (bytes : Bytes) :
    urlsafeB64decode (stripPadding (urlsafeB64encode bytes) ++
      base64Padding (stripPadding (urlsafeB64encode bytes)).length) = some bytes := by
  rw [stripPadding_encode]
  refine (if_pos ?_).trans (a2bBase64_encode bytes)
  rw [List.all_append, Bool.and_eq_true, List.all_eq_true, List.all_eq_true]
  constructor
  · intro c hc
    obtain ⟨n, hn, rfl⟩ := exists_of_mem_base64Digits hc
    exact decide_eq_true (base64Digit_ascii n hn)
  · intro c hc
    rw [List.eq_of_mem_replicate hc]
    decide

end ParserServe.Foundation
