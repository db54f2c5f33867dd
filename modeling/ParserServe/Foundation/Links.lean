import Mathlib.Data.List.Chain
import Mathlib.Data.List.Induction

/-! # Recorded changes

A change is recorded with the value it found and the value it left.  The first finds none, and
each of the others finds what the one before it left.
-/

namespace ParserServe.Foundation

variable {α : Type*} {links : List (Option α × α)} {last last' : Option α}

/-- Recorded changes that lead from no value to `last`. -/
inductive Recorded : List (Option α × α) → Option α → Prop
  | nil : Recorded [] none
  | snoc {links : List (Option α × α)} {previous : Option α} {current : α} :
      Recorded links previous → Recorded (links ++ [(previous, current)]) (some current)

theorem Recorded.getLast? (h : Recorded links last) : links.getLast?.map (·.2) = last := by
  cases h <;> simp

/-- The changes tell their last value. -/
theorem Recorded.unique (h : Recorded links last) (h' : Recorded links last') : last = last' :=
  h.getLast?.symm.trans h'.getLast?

theorem Recorded.head? (h : Recorded links last) : ∀ link ∈ links.head?, link.1 = none := by
  induction h with
  | nil => simp
  | @snoc links previous current h ih =>
      cases links with
      | nil =>
          have hnone := h.getLast?
          simp_all
      | cons link rest => simpa using ih

theorem Recorded.isChain (h : Recorded links last) :
    links.IsChain fun a b => b.1 = some a.2 := by
  induction h with
  | nil => exact .nil
  | snoc h ih =>
      rw [List.isChain_append]
      refine ⟨ih, .singleton _, ?_⟩
      have hlast := h.getLast?
      rintro a ha b hb
      cases hb
      rw [ha] at hlast
      exact hlast.symm

theorem recorded_iff : Recorded links last ↔
    (∀ link ∈ links.head?, link.1 = none) ∧ (links.IsChain fun a b => b.1 = some a.2) ∧
      links.getLast?.map (·.2) = last := by
  constructor
  · exact fun h => ⟨h.head?, h.isChain, h.getLast?⟩
  · rintro ⟨hhead, hchain, rfl⟩
    induction links using List.reverseRecOn with
    | nil => exact .nil
    | append_singleton links link ih =>
        obtain ⟨previous, current⟩ := link
        rw [List.isChain_append] at hchain
        obtain ⟨hlinks, -, hlink⟩ := hchain
        have hfirst : ∀ link ∈ links.head?, link.1 = none := by
          cases links with
          | nil => simp
          | cons => simpa using hhead
        have hprevious : previous = links.getLast?.map (·.2) := by
          cases hlast : links.getLast? with
          | none =>
              rw [List.getLast?_eq_none_iff.mp hlast] at hhead
              simpa using hhead
          | some link => exact hlink link hlast (previous, current) rfl
        have hsnoc : Recorded _ (some current) := (ih hfirst hlinks).snoc
        rw [← hprevious] at hsnoc
        simpa using hsnoc

end ParserServe.Foundation
