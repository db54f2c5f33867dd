import Mathlib.Data.List.TakeWhile

/-! # Backtracking

The quantifiers of a regular expression over a class of characters.  A matcher tries the lengths
in an order, and takes the first one from which the rest of the expression matches.
-/

namespace ParserServe.Foundation

variable {α β : Type*}

/-- What the rest of an expression makes of the text after `n` entries of the class. -/
def tryLength (p : α → Bool) (low high : Nat) (rest : List α → List α → Option β)
    (text : List α) (n : Nat) : Option β :=
  if low ≤ n ∧ n ≤ high ∧ (text.take n).all p then rest (text.take n) (text.drop n) else none

/-- A quantifier that takes as few entries as it can. -/
def lazySearch (p : α → Bool) (low high : Nat) (text : List α)
    (rest : List α → List α → Option β) : Option β :=
  (List.range (text.length + 1)).findSome? (tryLength p low high rest text)

/-- A quantifier that takes as many entries as it can. -/
def greedySearch (p : α → Bool) (low high : Nat) (text : List α)
    (rest : List α → List α → Option β) : Option β :=
  (List.range (text.length + 1)).reverse.findSome? (tryLength p low high rest text)

variable {p : α → Bool} {low high : Nat} {text : List α} {rest : List α → List α → Option β}
  {b : β}

/-- A length that the quantifier may take. -/
structure Takes (p : α → Bool) (low high : Nat) (text : List α) (n : Nat) : Prop where
  length : n ≤ text.length
  low : low ≤ n
  high : n ≤ high
  all : (text.take n).all p

theorem tryLength_of_takes {n : Nat} (h : Takes p low high text n) :
    tryLength p low high rest text n = rest (text.take n) (text.drop n) :=
  if_pos ⟨h.low, h.high, h.all⟩

theorem tryLength_eq_some {n : Nat} (hn : n ≤ text.length)
    (h : tryLength p low high rest text n = some b) :
    Takes p low high text n ∧ rest (text.take n) (text.drop n) = some b := by
  unfold tryLength at h
  split at h
  · next htakes => exact ⟨⟨hn, htakes.1, htakes.2.1, htakes.2.2⟩, h⟩
  · cases h

/-- The first hit in a sorted list comes before all others. -/
theorem findSome?_first {r : Nat → Nat → Prop} {f : Nat → Option β} {ns : List Nat}
    (hsorted : ns.Pairwise r) (h : ns.findSome? f = some b) :
    ∃ n ∈ ns, f n = some b ∧ ∀ m ∈ ns, m ≠ n → ¬ r n m → f m = none := by
  obtain ⟨before, n, after, rfl, hn, hbefore⟩ := List.findSome?_eq_some_iff.mp h
  refine ⟨n, List.mem_append_right _ List.mem_cons_self, hn, fun m hm hne hnot => ?_⟩
  rcases List.mem_append.mp hm with hm | hm
  · exact hbefore m hm
  · rcases List.mem_cons.mp hm with rfl | hm
    · exact absurd rfl hne
    · have hafter := (List.pairwise_append.mp hsorted).2.1
      exact absurd ((List.pairwise_cons.mp hafter).1 m hm) hnot

theorem lazySearch_eq_some (h : lazySearch p low high text rest = some b) :
    ∃ n, Takes p low high text n ∧ rest (text.take n) (text.drop n) = some b ∧
      ∀ m < n, Takes p low high text m → rest (text.take m) (text.drop m) = none := by
  obtain ⟨n, hn, htry, hfirst⟩ := findSome?_first List.pairwise_lt_range h
  have hlength : n ≤ text.length := Nat.lt_succ_iff.mp (List.mem_range.mp hn)
  obtain ⟨htakes, hrest⟩ := tryLength_eq_some hlength htry
  refine ⟨n, htakes, hrest, fun m hm hother => ?_⟩
  have hnone := hfirst m (List.mem_range.mpr (by omega)) (by omega) (by omega)
  rwa [tryLength_of_takes hother] at hnone

theorem greedySearch_eq_some (h : greedySearch p low high text rest = some b) :
    ∃ n, Takes p low high text n ∧ rest (text.take n) (text.drop n) = some b ∧
      ∀ m, n < m → Takes p low high text m → rest (text.take m) (text.drop m) = none := by
  have hsorted : (List.range (text.length + 1)).reverse.Pairwise (· > ·) :=
    List.pairwise_reverse.mpr List.pairwise_lt_range
  obtain ⟨n, hn, htry, hfirst⟩ := findSome?_first hsorted h
  have hlength : n ≤ text.length :=
    Nat.lt_succ_iff.mp (List.mem_range.mp (List.mem_reverse.mp hn))
  obtain ⟨htakes, hrest⟩ := tryLength_eq_some hlength htry
  refine ⟨n, htakes, hrest, fun m hm hother => ?_⟩
  have hbound := hother.length
  have hnone := hfirst m (List.mem_reverse.mpr (List.mem_range.mpr (by omega))) (by omega)
    (by omega)
  rwa [tryLength_of_takes hother] at hnone

theorem lazySearch_isSome {n : Nat} (h : Takes p low high text n)
    (hrest : (rest (text.take n) (text.drop n)).isSome) :
    (lazySearch p low high text rest).isSome := by
  refine List.findSome?_isSome_iff.mpr ⟨n, List.mem_range.mpr ?_, ?_⟩
  · exact Nat.lt_succ_of_le h.length
  · rwa [tryLength_of_takes h]

theorem greedySearch_isSome {n : Nat} (h : Takes p low high text n)
    (hrest : (rest (text.take n) (text.drop n)).isSome) :
    (greedySearch p low high text rest).isSome := by
  refine List.findSome?_isSome_iff.mpr ⟨n, List.mem_reverse.mpr (List.mem_range.mpr ?_), ?_⟩
  · exact Nat.lt_succ_of_le h.length
  · rwa [tryLength_of_takes h]

end ParserServe.Foundation
