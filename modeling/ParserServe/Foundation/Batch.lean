import Mathlib.Data.List.Sort
import Mathlib.Data.Prod.Lex
import Mathlib.Data.Set.Finite.Lemmas
import Mathlib.Data.Set.Finite.List

/-! # Batches

A query orders its rows by a rank and keeps the first `n` of them.  A row is in the batch exactly
when fewer than `n` rows have a lower rank, so the batch is closed downwards, and rows of no use
keep the others out of it exactly when there are enough of them in front.
-/

namespace ParserServe.Foundation

variable {α κ : Type*} [LinearOrder κ] {rank : α → κ} {rows : List α} {x y : α} {n : Nat}

theorem mem_take_sorted (hsorted : rows.Pairwise fun a b => rank a < rank b) :
    x ∈ rows.take n ↔ x ∈ rows ∧ (rows.filter fun y => rank y < rank x).length < n := by
  induction rows generalizing n with
  | nil => simp
  | cons a rows ih =>
      rw [List.pairwise_cons] at hsorted
      cases n with
      | zero => simp
      | succ n =>
          rw [List.take_succ_cons, List.mem_cons, List.mem_cons, ih hsorted.2, List.filter_cons]
          by_cases hx : x = a
          · subst hx
            have hnone : rows.filter (fun y => rank y < rank x) = [] := by
              refine List.filter_eq_nil_iff.mpr fun y hy => ?_
              simpa using (hsorted.1 y hy).le
            simp [hnone]
          · by_cases hmem : x ∈ rows
            · simp [hx, hmem, hsorted.1 x hmem]
            · simp [hx, hmem]

omit [LinearOrder κ] in
/-- Rows with distinct keys have distinct ranks by a time and their key. -/
theorem nodup_map_rank {τ : Type*} (time : α → τ) {key : α → κ} (h : (rows.map key).Nodup) :
    (rows.map fun x => toLex (time x, key x)).Nodup := by
  refine List.Nodup.of_map (fun rank => (ofLex rank).2) ?_
  rw [List.map_map]
  exact h

section Ordered

variable {r : α → α → Prop} [DecidableRel r]

theorem pairwise_insertionSort_of_rank (hr : ∀ a b, r a b ↔ rank a ≤ rank b)
    (hnodup : (rows.map rank).Nodup) :
    (rows.insertionSort r).Pairwise fun a b => rank a < rank b := by
  have : Std.Total r := ⟨fun a b => by simpa only [hr] using le_total (rank a) (rank b)⟩
  have : IsTrans α r := ⟨fun a b c hab hbc => by
    rw [hr] at hab hbc ⊢
    exact hab.trans hbc⟩
  have hle : (rows.insertionSort r).Pairwise fun a b => rank a ≤ rank b :=
    (rows.pairwise_insertionSort r).imp fun hab => (hr _ _).mp hab
  have hne : (rows.insertionSort r).Pairwise fun a b => rank a ≠ rank b :=
    List.pairwise_map.mp (((rows.perm_insertionSort r).map rank).nodup_iff.mpr hnodup)
  exact (hle.and hne).imp fun hab => lt_of_le_of_ne hab.1 hab.2

/-- A row is in the batch exactly when fewer than `n` rows come before it. -/
theorem mem_batch_iff (hr : ∀ a b, r a b ↔ rank a ≤ rank b) (hnodup : (rows.map rank).Nodup) :
    x ∈ (rows.insertionSort r).take n ↔
      x ∈ rows ∧ (rows.filter fun y => rank y < rank x).length < n := by
  rw [mem_take_sorted (pairwise_insertionSort_of_rank hr hnodup), List.mem_insertionSort,
    ((rows.perm_insertionSort r).filter _).length_eq]

/-- What comes before a row of the batch is in it. -/
theorem mem_batch_of_le (hr : ∀ a b, r a b ↔ rank a ≤ rank b) (hnodup : (rows.map rank).Nodup)
    (hx : x ∈ (rows.insertionSort r).take n) (hy : y ∈ rows) (hle : rank y ≤ rank x) :
    y ∈ (rows.insertionSort r).take n := by
  rw [mem_batch_iff hr hnodup] at hx ⊢
  refine ⟨hy, lt_of_le_of_lt ?_ hx.2⟩
  refine (List.monotone_filter_right rows fun z hz => ?_).length_le
  exact decide_eq_true ((of_decide_eq_true hz).trans_le hle)

/-- The batch of the rows with `e` has a row without `q` exactly when for some such row fewer than
`n` rows with `e` and `q` come before it. -/
theorem exists_mem_batch_iff (hr : ∀ a b, r a b ↔ rank a ≤ rank b)
    (hnodup : (rows.map rank).Nodup) (e q : α → Bool) :
    (∃ x ∈ ((rows.filter e).insertionSort r).take n, q x = false) ↔
      ∃ x ∈ rows, e x ∧ q x = false ∧
        (rows.filter fun y => e y && q y && decide (r y x)).length < n := by
  have hnodup' : ((rows.filter e).map rank).Nodup := hnodup.sublist (List.filter_sublist.map _)
  simp only [mem_batch_iff hr hnodup', List.mem_filter, List.filter_filter,
    ← List.countP_eq_length_filter]
  constructor
  · rintro ⟨x, ⟨⟨hx, hex⟩, hlt⟩, hqx⟩
    refine ⟨x, hx, hex, hqx, lt_of_le_of_lt (List.countP_mono_left fun y hy hbefore => ?_) hlt⟩
    simp only [Bool.and_eq_true, decide_eq_true_eq] at hbefore ⊢
    obtain ⟨⟨hey, hqy⟩, hyx⟩ := hbefore
    refine ⟨lt_of_le_of_ne ((hr y x).mp hyx) fun heq => ?_, hey⟩
    rw [List.inj_on_of_nodup_map hnodup hy hx heq, hqx] at hqy
    cases hqy
  · rintro ⟨x, hx, hex, hqx, hlt⟩
    have hmem : x ∈ rows.filter fun y => e y && !q y := List.mem_filter.mpr ⟨hx, by simp [hex, hqx]⟩
    obtain ⟨first, hfirst, hleast⟩ := Set.exists_min_image
      {y | y ∈ rows.filter fun y => e y && !q y}
      rank (List.finite_toSet _) ⟨x, hmem⟩
    obtain ⟨hfirst, hgood⟩ := List.mem_filter.mp hfirst
    rw [Bool.and_eq_true, Bool.not_eq_true'] at hgood
    refine ⟨first, ⟨⟨hfirst, hgood.1⟩, ?_⟩, hgood.2⟩
    refine lt_of_le_of_lt (List.countP_mono_left fun y hy hbefore => ?_) hlt
    simp only [Bool.and_eq_true, decide_eq_true_eq] at hbefore ⊢
    obtain ⟨hlt, hey⟩ := hbefore
    refine ⟨⟨hey, ?_⟩, (hr y x).mpr (hlt.trans_le (hleast x hmem)).le⟩
    -- no row of use comes before the first of them
    by_contra hqy
    have hmem : y ∈ rows.filter fun y => e y && !q y := List.mem_filter.mpr ⟨hy, by simp [hey, hqy]⟩
    exact absurd (hleast y hmem) (not_le.mpr hlt)

end Ordered

end ParserServe.Foundation
