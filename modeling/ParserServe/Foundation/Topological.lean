import Mathlib.Data.List.Chain
import Mathlib.Data.List.MinMax
import Mathlib.Logic.Relation
import Mathlib.Order.Basic

/-! # Dependency orders

A finishing order lists each node after everything it depends on.  The position in such
an order is a rank that decreases along every dependency, and a rank is all that is
needed to find, among finitely many nodes, one whose dependencies lie outside them.
-/

namespace ParserServe.Foundation

variable {α : Type*} {deps : α → List α}

/-- Each node of the list stands after its dependencies. -/
inductive FinishOrder (deps : α → List α) : List α → Prop
  | nil : FinishOrder deps []
  | snoc {xs : List α} {x : α} :
      FinishOrder deps xs → (∀ d ∈ deps x, d ∈ xs) → FinishOrder deps (xs ++ [x])

theorem FinishOrder.deps_mem {xs : List α} (h : FinishOrder deps xs) :
    ∀ x ∈ xs, ∀ d ∈ deps x, d ∈ xs := by
  induction h with
  | nil => simp
  | @snoc xs y _ hy ih =>
      intro x hx d hd
      rcases List.mem_append.mp hx with hx | hx
      · exact List.mem_append_left _ (ih x hx d hd)
      · rw [List.mem_singleton] at hx
        subst hx
        exact List.mem_append_left _ (hy d hd)

/-- Dependencies finish at strictly earlier positions. -/
theorem FinishOrder.idxOf_lt [DecidableEq α] {xs : List α} (h : FinishOrder deps xs) :
    ∀ x ∈ xs, ∀ d ∈ deps x, xs.idxOf d < xs.idxOf x := by
  induction h with
  | nil => simp
  | @snoc xs y hxs hy ih =>
      intro x hx d hd
      by_cases hmem : x ∈ xs
      · have hd' : d ∈ xs := hxs.deps_mem x hmem d hd
        rw [List.idxOf_append_of_mem hd', List.idxOf_append_of_mem hmem]
        exact ih x hmem d hd
      · have hxy : x = y := by simpa [hmem] using hx
        subst hxy
        have hd' : d ∈ xs := hy d hd
        have hlt := List.idxOf_lt_length_of_mem hd'
        rw [List.idxOf_append_of_mem hd', List.idxOf_append_of_notMem hmem]
        omega

/-- No path through the dependencies leads from a listed node back to it. -/
theorem FinishOrder.not_transGen [DecidableEq α] {xs : List α} (h : FinishOrder deps xs)
    {x : α} (hx : x ∈ xs) : ¬ Relation.TransGen (fun a b => b ∈ deps a) x x := by
  have hpath : ∀ y, Relation.TransGen (fun a b => b ∈ deps a) x y →
      y ∈ xs ∧ xs.idxOf y < xs.idxOf x := by
    intro y hxy
    induction hxy with
    | single hdep => exact ⟨h.deps_mem x hx _ hdep, h.idxOf_lt x hx _ hdep⟩
    | tail _ hdep ih =>
        exact ⟨h.deps_mem _ ih.1 _ hdep, Nat.lt_trans (h.idxOf_lt _ ih.1 _ hdep) ih.2⟩
  intro hcycle
  exact Nat.lt_irrefl _ (hpath x hcycle).2

/-- A chain of related nodes leads from its first node to each of the others. -/
theorem transGen_of_isChain {R : α → α → Prop} {x y : α} {xs : List α}
    (h : (x :: xs).IsChain R) (hy : y ∈ xs) : Relation.TransGen R x y := by
  have hpath : (x :: xs).IsChain (Relation.TransGen R) :=
    h.imp fun _ _ hrel => Relation.TransGen.single hrel
  exact List.rel_of_pairwise_cons (List.isChain_iff_pairwise.mp hpath) hy

/-- Among the members of a list with a property, one of least rank has no dependency
with that property. -/
theorem exists_minimal {β : Type*} (rank : β → Nat) (P : β → Prop) {xs : List β}
    (hex : ∃ x ∈ xs, P x) :
    ∃ x ∈ xs, P x ∧ ∀ y ∈ xs, P y → rank x ≤ rank y := by
  classical
  let ys := xs.filter (fun x => decide (P x))
  have hne : ys.argmin rank ≠ none := by
    obtain ⟨x, hx, hp⟩ := hex
    rw [ne_eq, List.argmin_eq_none]
    exact List.ne_nil_of_mem (List.mem_filter.mpr ⟨hx, by simpa using hp⟩)
  obtain ⟨x, hx⟩ := Option.ne_none_iff_exists'.mp hne
  have hxmem := List.mem_filter.mp (List.argmin_mem hx)
  refine ⟨x, hxmem.1, by simpa using hxmem.2, ?_⟩
  intro y hy hpy
  exact List.le_of_mem_argmin (List.mem_filter.mpr ⟨hy, by simpa using hpy⟩) hx

end ParserServe.Foundation
