import Mathlib.Data.List.Basic
import Mathlib.Logic.Function.Basic

/-! # Atomic stores

A store whose values are put and removed at once, as a function of its keys.  What it holds after
a list of such effects is decided, at each key, by the last effect on that key.
-/

namespace ParserServe.Foundation

variable {κ α : Type*} [DecidableEq κ]

inductive StoreEffect (κ α : Type*)
  | put (key : κ) (value : α)
  | remove (key : κ)

namespace StoreEffect

def key : StoreEffect κ α → κ
  | .put key _ | .remove key => key

/-- What the effect leaves at its key. -/
def left : StoreEffect κ α → Option α
  | .put _ value => some value
  | .remove _ => none

def apply (store : κ → Option α) (effect : StoreEffect κ α) : κ → Option α :=
  Function.update store effect.key effect.left

end StoreEffect

/-- The store after the effects, oldest first. -/
def replay (store : κ → Option α) (effects : List (StoreEffect κ α)) : κ → Option α :=
  effects.foldl StoreEffect.apply store

variable {store : κ → Option α} {effects : List (StoreEffect κ α)} {effect : StoreEffect κ α}
  {key : κ}

@[simp] theorem replay_nil : replay store [] = store := rfl

theorem replay_snoc :
    replay store (effects ++ [effect]) = StoreEffect.apply (replay store effects) effect := by
  rw [replay, List.foldl_append]
  rfl

theorem apply_self : StoreEffect.apply store effect effect.key = effect.left :=
  Function.update_self ..

@[simp] theorem apply_put {value : α} :
    StoreEffect.apply store (.put key value) key = some value := Function.update_self ..

@[simp] theorem apply_remove : StoreEffect.apply store (.remove key) key = none :=
  Function.update_self ..

theorem apply_of_ne (h : key ≠ effect.key) : StoreEffect.apply store effect key = store key :=
  Function.update_of_ne h ..

/-- A value is one that some effect has put, or the key has its first value. -/
theorem replay_eq_some_cases {value : α} (h : replay store effects key = some value) :
    StoreEffect.put key value ∈ effects ∨ store key = some value := by
  induction effects generalizing store with
  | nil => exact .inr h
  | cons effect effects ih =>
      rcases ih h with hput | hfirst
      · exact .inl (List.mem_cons_of_mem _ hput)
      · by_cases hkey : key = effect.key
        · subst hkey
          rw [apply_self] at hfirst
          cases effect with
          | put _ _ =>
              cases hfirst
              exact .inl List.mem_cons_self
          | remove => cases hfirst
        · exact .inr ((apply_of_ne hkey).symm.trans hfirst)

end ParserServe.Foundation
