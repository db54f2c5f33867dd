import Mathlib.Order.MinMax

/-! # The best of a ranking

Entries carry a rank and an identifier.  The greatest rank wins, and among the entries that
share it the least identifier.
-/

namespace ParserServe.Foundation

variable {α β : Type*} [LinearOrder α] [LinearOrder β] {ranked : List (α × β)} {x : α × β} {b : β}

/-- The least identifier among the entries of greatest rank. -/
def preferred (ranked : List (α × β)) : Option β :=
  (ranked.map (·.1)).max?.bind fun best => ((ranked.filter (·.1 = best)).map (·.2)).min?

theorem preferred_eq_some : preferred ranked = some b ↔
    ∃ a, (a, b) ∈ ranked ∧ (∀ y ∈ ranked, y.1 ≤ a) ∧ ∀ y ∈ ranked, y.1 = a → b ≤ y.2 := by
  simp only [preferred, Option.bind_eq_some_iff, List.max?_eq_some_iff, List.min?_eq_some_iff,
    List.mem_map, List.mem_filter, decide_eq_true_eq]
  constructor
  · rintro ⟨a, ⟨_, hbest⟩, ⟨y, ⟨hy, hrank⟩, hid⟩, hleast⟩
    refine ⟨a, ?_, fun y hy => hbest _ ⟨y, hy, rfl⟩, fun y hy heq => hleast _ ⟨y, ⟨hy, heq⟩, rfl⟩⟩
    rw [← hrank, ← hid]
    exact hy
  · rintro ⟨a, hmem, hbest, hleast⟩
    refine ⟨a, ⟨⟨(a, b), hmem, rfl⟩, ?_⟩, ⟨(a, b), ⟨hmem, rfl⟩, rfl⟩, ?_⟩
    · rintro _ ⟨y, hy, rfl⟩
      exact hbest y hy
    · rintro _ ⟨y, ⟨hy, heq⟩, rfl⟩
      exact hleast y hy heq

/-- A ranking with an entry has a best one. -/
theorem exists_preferred (h : ranked ≠ []) : ∃ b, preferred ranked = some b := by
  have hranks : ranked.map (·.1) ≠ [] := by simpa using h
  obtain ⟨best, hbest⟩ : ∃ best, (ranked.map (·.1)).max? = some best := by
    cases hmax : (ranked.map (·.1)).max? with
    | none => exact absurd (List.max?_eq_none_iff.mp hmax) hranks
    | some best => exact ⟨best, rfl⟩
  obtain ⟨y, hy, hrank⟩ := List.mem_map.mp (List.max?_mem hbest)
  have hfiltered : y.2 ∈ (ranked.filter (·.1 = best)).map (·.2) :=
    List.mem_map.mpr ⟨y, List.mem_filter.mpr ⟨hy, by simpa using hrank⟩, rfl⟩
  obtain ⟨b, hb⟩ := Option.isSome_iff_exists.mp (List.isSome_min?_of_mem hfiltered)
  exact ⟨b, by rw [preferred, hbest, Option.bind_some, hb]⟩

/-- An entry that outranks all others is the best one. -/
theorem preferred_of_dominates (hx : x ∈ ranked) (h : ∀ y ∈ ranked, y = x ∨ y.1 < x.1) :
    preferred ranked = some x.2 := by
  refine preferred_eq_some.mpr ⟨x.1, hx, fun y hy => ?_, fun y hy heq => ?_⟩
  · rcases h y hy with rfl | hlt
    · exact le_rfl
    · exact hlt.le
  · rcases h y hy with rfl | hlt
    · exact le_rfl
    · exact absurd heq hlt.ne

end ParserServe.Foundation
