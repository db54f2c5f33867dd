import Mathlib.Data.List.Nodup
import Mathlib.Logic.Function.Basic
import ParserServe.Foundation.Keyed

/-! # Transactions that lock rows

Transactions under READ COMMITTED read the committed rows of a table and lock some of them
until they end.  A locked row is written by its holder alone, so as long as the lock is held
the holder knows the row as it is committed.
-/

namespace ParserServe.Foundation

/-- The committed rows of a table, and how far each transaction on it has come. -/
structure Sessions (ι ρ τ : Type*) where
  rows : List ρ
  txns : ι → τ

namespace Sessions

variable {ι ρ τ : Type*} [DecidableEq ι]

def move (s : Sessions ι ρ τ) (i : ι) (txn : τ) : Sessions ι ρ τ :=
  { s with txns := Function.update s.txns i txn }

/-- The rows of the transaction become the committed ones, and it goes on to `txn`. -/
def commit (s : Sessions ι ρ τ) (i : ι) (rows : List ρ) (txn : τ) : Sessions ι ρ τ :=
  { s.move i txn with rows }

@[simp] theorem move_rows (s : Sessions ι ρ τ) (i : ι) (txn : τ) :
    (s.move i txn).rows = s.rows := rfl

@[simp] theorem commit_rows (s : Sessions ι ρ τ) (i : ι) (rows : List ρ) (txn : τ) :
    (s.commit i rows txn).rows = rows := rfl

end Sessions

/-- What tells the rows of a table apart, and the rows a transaction has locked, each as it
was when the lock was taken. -/
structure RowLocks (κ ρ τ : Type*) where
  key : ρ → κ
  held : τ → List ρ

namespace RowLocks

variable {ι κ ρ τ : Type*} {L : RowLocks κ ρ τ} {s : Sessions ι ρ τ} {i : ι} {txn : τ}
  {rows : List ρ}

/-- No other transaction holds the row. -/
def Free (L : RowLocks κ ρ τ) (s : Sessions ι ρ τ) (i : ι) (k : κ) : Prop :=
  ∀ j, j ≠ i → k ∉ (L.held (s.txns j)).map L.key

instance [DecidableEq κ] {n : Nat} (L : RowLocks κ ρ τ) (s : Sessions (Fin n) ρ τ) (i : Fin n)
    (k : κ) : Decidable (L.Free s i k) := inferInstanceAs (Decidable (∀ _, _))

/-- Locks exclude each other, and a locked row is as its holder read it. -/
structure Sound (L : RowLocks κ ρ τ) (s : Sessions ι ρ τ) : Prop where
  nodup : (s.rows.map L.key).Nodup
  current : ∀ i, ∀ row ∈ L.held (s.txns i), row ∈ s.rows
  exclusive : ∀ i, ∀ row ∈ L.held (s.txns i), L.Free s i (L.key row)

theorem sound_of_unlocked (hnodup : (s.rows.map L.key).Nodup)
    (hheld : ∀ i, L.held (s.txns i) = []) : L.Sound s where
  nodup := hnodup
  current := by simp [hheld]
  exclusive := by simp [hheld]

/-- The locked row is the committed row with its key. -/
theorem Sound.eq_of_key (h : L.Sound s) {held row : ρ} (hheld : held ∈ L.held (s.txns i))
    (hrow : row ∈ s.rows) (hkey : L.key row = L.key held) : row = held :=
  List.inj_on_of_nodup_map h.nodup hrow (h.current i held hheld) hkey

variable [DecidableEq ι]

/-- A transaction keeps locks, gives locks up, or locks committed rows that are free. -/
theorem Sound.move (h : L.Sound s)
    (hheld : ∀ row ∈ L.held txn, row ∈ L.held (s.txns i) ∨
      (row ∈ s.rows ∧ L.Free s i (L.key row))) : L.Sound (s.move i txn) := by
  have hown : ∀ row ∈ L.held txn, row ∈ s.rows ∧ L.Free s i (L.key row) := by
    intro row hrow
    rcases hheld row hrow with hrow | hrow
    · exact ⟨h.current i row hrow, h.exclusive i row hrow⟩
    · exact hrow
  refine ⟨h.nodup, ?_, ?_⟩
  · intro j row hrow
    by_cases hj : j = i
    · subst hj
      simp only [Sessions.move, Function.update_self] at hrow
      exact (hown row hrow).1
    · simp only [Sessions.move, Function.update_of_ne hj] at hrow
      exact h.current j row hrow
  · intro j row hrow l hl hkey
    by_cases hj : j = i
    · subst hj
      simp only [Sessions.move, Function.update_self] at hrow
      simp only [Sessions.move, Function.update_of_ne hl] at hkey
      exact (hown row hrow).2 l hl hkey
    · simp only [Sessions.move, Function.update_of_ne hj] at hrow
      by_cases hli : l = i
      · subst hli
        simp only [Sessions.move, Function.update_self] at hkey
        obtain ⟨own, hmem, hown'⟩ := List.mem_map.mp hkey
        refine (hown own hmem).2 j hj ?_
        rw [hown']
        exact List.mem_map_of_mem hrow
      · simp only [Sessions.move, Function.update_of_ne hli] at hkey
        exact h.exclusive j row hrow l hl hkey

/-- A transaction that commits writes rows it has locked, and unlocks them. -/
theorem Sound.commit (h : L.Sound s) (hnodup : (rows.map L.key).Nodup)
    (hkeep : ∀ row ∈ s.rows, L.key row ∉ (L.held (s.txns i)).map L.key → row ∈ rows)
    (hended : L.held txn = []) : L.Sound (s.commit i rows txn) := by
  have hmoved : L.Sound (s.move i txn) := h.move (by simp [hended])
  refine ⟨hnodup, ?_, hmoved.exclusive⟩
  intro j row hrow
  refine hkeep row (hmoved.current j row hrow) ?_
  by_cases hj : j = i
  · subst hj
    simp [Sessions.commit, Sessions.move, hended] at hrow
  · simp only [Sessions.commit, Sessions.move, Function.update_of_ne hj] at hrow
    exact h.exclusive j row hrow i (Ne.symm hj)

end RowLocks

end ParserServe.Foundation
