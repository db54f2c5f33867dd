import ParserServe.Foundation.Batch

/-! # Keyset pages

A list in the order of distinct ranks is read page by page: each page holds the first rows
beyond the last row of the page before.  The rows beyond a row are the ones behind it in the
order, so the pages are consecutive pieces of the whole.
-/

namespace ParserServe.Foundation

variable {α κ : Type*} [LinearOrder κ] {rank : α → κ} {rows : List α}

/-- In the order of ranks the rows beyond a row are those behind it. -/
theorem filter_beyond {before after : List α} {x : α}
    (hsorted : (before ++ x :: after).Pairwise fun a b => rank a < rank b) :
    (before ++ x :: after).filter (fun y => decide (rank x < rank y)) = after := by
  obtain ⟨_, hrest, hcross⟩ := List.pairwise_append.mp hsorted
  obtain ⟨hafter, _⟩ := List.pairwise_cons.mp hrest
  have hbefore : before.filter (fun y => decide (rank x < rank y)) = [] := by
    refine List.filter_eq_nil_iff.mpr fun y hy => ?_
    have := hcross y hy x List.mem_cons_self
    simpa using this.le
  have hall : after.filter (fun y => decide (rank x < rank y)) = after :=
    List.filter_eq_self.mpr fun y hy => decide_eq_true (hafter y hy)
  rw [List.filter_append, hbefore, List.filter_cons, if_neg (by simp), hall, List.nil_append]

section Ordered

variable {r : α → α → Prop} [DecidableRel r]

/-- Selecting rows commutes with ordering them. -/
theorem insertionSort_filter (hr : ∀ a b, r a b ↔ rank a ≤ rank b)
    (hnodup : (rows.map rank).Nodup) (p : α → Bool) :
    (rows.filter p).insertionSort r = (rows.insertionSort r).filter p := by
  have hsub : ((rows.filter p).map rank).Nodup := hnodup.sublist (List.filter_sublist.map _)
  have hperm : ((rows.filter p).insertionSort r).Perm ((rows.insertionSort r).filter p) :=
    ((rows.filter p).perm_insertionSort r).trans ((rows.perm_insertionSort r).symm.filter p)
  refine hperm.eq_of_pairwise ?_ (pairwise_insertionSort_of_rank hr hsub)
    ((pairwise_insertionSort_of_rank hr hnodup).filter p)
  intro a b _ _ hab hba
  exact absurd hba hab.asymm

end Ordered

end ParserServe.Foundation
