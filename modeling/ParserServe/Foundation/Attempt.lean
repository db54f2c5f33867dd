import Mathlib.Data.List.Basic

/-! # Computations that may raise

Inversion of successful `Except` programs: a sequence returns exactly when each of its
parts does, and a loop exactly when each of its iterations does.
-/

namespace ParserServe.Foundation

universe u v

variable {ε : Type v} {α β : Type u} {γ : Type*}

@[simp] theorem bind_eq_ok {x : Except ε α} {f : α → Except ε β} {b : β} :
    (x >>= f) = .ok b ↔ ∃ a, x = .ok a ∧ f a = .ok b := by
  cases x with
  | error e => simp [bind, Except.bind]
  | ok a => simp [bind, Except.bind]

/-- Raise `e` unless `P` holds. -/
def ensure (P : Prop) [Decidable P] (e : ε) : Except ε Unit :=
  if P then .ok () else .error e

@[simp] theorem ensure_eq_ok {P : Prop} [Decidable P] {e : ε} {u : Unit} :
    ensure P e = .ok u ↔ P := by
  unfold ensure
  split <;> simp_all

theorem ensure_of_true {P : Prop} [Decidable P] {e : ε} (h : P) : ensure P e = .ok () :=
  if_pos h

/-- Whether a program returns a value with `P` is found by running it. -/
instance decidableReturns {P : α → Prop} [DecidablePred P] :
    (x : Except ε α) → Decidable (∃ a, x = .ok a ∧ P a)
  | .error _ => isFalse (by simp)
  | .ok a => decidable_of_iff (P a) (by simp)

theorem foldlM_cons_eq_ok {f : β → γ → Except ε β} {b r : β} {c : γ} {cs : List γ} :
    (c :: cs).foldlM f b = .ok r ↔ ∃ b', f b c = .ok b' ∧ cs.foldlM f b' = .ok r := by
  rw [List.foldlM_cons, bind_eq_ok]

@[simp] theorem foldlM_nil_eq_ok {f : β → γ → Except ε β} {b r : β} :
    ([] : List γ).foldlM f b = .ok r ↔ b = r := by
  simp [pure, Except.pure]

@[simp] theorem bind_eq_error {x : Except ε α} {f : α → Except ε β} {e : ε} :
    (x >>= f) = .error e ↔ x = .error e ∨ ∃ a, x = .ok a ∧ f a = .error e := by
  cases x with
  | error e' => simp [bind, Except.bind]
  | ok a => simp [bind, Except.bind]

@[simp] theorem ensure_eq_error {P : Prop} [Decidable P] {e e' : ε} :
    ensure P e = .error e' ↔ ¬ P ∧ e = e' := by
  unfold ensure
  split <;> simp_all

/-- A loop raises what one of its iterations raises. -/
theorem exists_of_foldlM_eq_error {f : β → γ → Except ε β} {cs : List γ} {b : β} {e : ε}
    (h : cs.foldlM f b = .error e) : ∃ b', ∃ c ∈ cs, f b' c = .error e := by
  induction cs generalizing b with
  | nil => simp [pure, Except.pure] at h
  | cons c cs ih =>
      rw [List.foldlM_cons, bind_eq_error] at h
      rcases h with hfirst | ⟨b', _, hrest⟩
      · exact ⟨b, c, List.mem_cons_self, hfirst⟩
      · obtain ⟨b', c', hc', herror⟩ := ih hrest
        exact ⟨b', c', List.mem_cons_of_mem _ hc', herror⟩

theorem exists_of_mapM_eq_error {f : γ → Except ε α} {cs : List γ} {e : ε}
    (h : cs.mapM f = .error e) : ∃ c ∈ cs, f c = .error e := by
  induction cs with
  | nil => simp [pure, Except.pure] at h
  | cons c cs ih =>
      rw [List.mapM_cons, bind_eq_error] at h
      rcases h with hfirst | ⟨a, _, hrest⟩
      · exact ⟨c, List.mem_cons_self, hfirst⟩
      · rcases bind_eq_error.mp hrest with hothers | ⟨_, _, hpure⟩
        · obtain ⟨c', hc', herror⟩ := ih hothers
          exact ⟨c', List.mem_cons_of_mem _ hc', herror⟩
        · cases hpure

theorem isOk_iff {x : Except ε α} : x.isOk ↔ ∃ a, x = .ok a := by
  cases x <;> simp [Except.isOk, Except.toBool]

/-- A loop whose iterations return regardless of the state returns if all of them do. -/
theorem foldlM_isOk_iff {f : β → γ → Except ε β} {P : γ → Prop}
    (hf : ∀ b c, (f b c).isOk ↔ P c) {cs : List γ} {b : β} :
    (cs.foldlM f b).isOk ↔ ∀ c ∈ cs, P c := by
  induction cs generalizing b with
  | nil => simp [pure, Except.pure, Except.isOk, Except.toBool]
  | cons c cs ih =>
      rw [List.foldlM_cons, List.forall_mem_cons, ← hf b c]
      cases f b c with
      | error e => simp [bind, Except.bind, Except.isOk, Except.toBool]
      | ok b' => exact ih.trans (by simp [Except.isOk, Except.toBool])

/-- Each result of a loop that collects results is one of an iteration. -/
theorem exists_of_mem_mapM {f : γ → Except ε α} {cs : List γ} {as : List α} {a : α}
    (h : cs.mapM f = .ok as) (ha : a ∈ as) : ∃ c ∈ cs, f c = .ok a := by
  induction cs generalizing as with
  | nil =>
      cases h
      cases ha
  | cons c cs ih =>
      rw [List.mapM_cons] at h
      obtain ⟨first, hfirst, hrest⟩ := bind_eq_ok.mp h
      obtain ⟨others, hothers, hend⟩ := bind_eq_ok.mp hrest
      cases hend
      rcases List.mem_cons.mp ha with rfl | ha
      · exact ⟨c, List.mem_cons_self, hfirst⟩
      · obtain ⟨c', hc', hresult⟩ := ih hothers ha
        exact ⟨c', List.mem_cons_of_mem _ hc', hresult⟩

theorem mapM_isOk_iff {f : γ → Except ε α} {cs : List γ} :
    (cs.mapM f).isOk ↔ ∀ c ∈ cs, (f c).isOk := by
  induction cs with
  | nil => simp [pure, Except.pure, Except.isOk, Except.toBool]
  | cons c cs ih =>
      rw [List.mapM_cons, List.forall_mem_cons, ← ih]
      cases f c with
      | error e => simp [bind, Except.bind, Except.isOk, Except.toBool]
      | ok a =>
          cases cs.mapM f <;>
            simp [bind, Except.bind, pure, Except.pure, Except.isOk, Except.toBool]

/-- What each iteration keeps, the loop keeps. -/
theorem foldlM_keeps {f : β → γ → Except ε β} {I : β → Prop}
    (hstep : ∀ b c b', I b → f b c = .ok b' → I b') {cs : List γ} {b r : β}
    (hb : I b) (h : cs.foldlM f b = .ok r) : I r := by
  induction cs generalizing b with
  | nil => exact foldlM_nil_eq_ok.mp h ▸ hb
  | cons c cs ih =>
      obtain ⟨b', hc, hcs⟩ := foldlM_cons_eq_ok.mp h
      exact ih (hstep b c b' hb hc) hcs

/-! ## Savepoints -/

variable {σ : Type*}

/-- A computation on a state, which keeps what was written before an error. -/
abbrev Session (σ : Type*) (ε α : Type*) := σ → Except ε α × σ

/-- The computation in a savepoint: an error undoes its writes. -/
def atomically (body : Session σ ε α) : Session σ ε α := fun s =>
  match body s with
  | (.ok a, t) => (.ok a, t)
  | (.error e, _) => (.error e, s)

theorem atomically_of_ok {body : Session σ ε α} {s t : σ} {a : α} (h : body s = (.ok a, t)) :
    atomically body s = (.ok a, t) := by
  rw [atomically, h]

theorem atomically_of_error {body : Session σ ε α} {s : σ} {e : ε}
    (h : (body s).1 = .error e) : atomically body s = (.error e, s) := by
  unfold atomically
  generalize body s = outcome at h
  obtain ⟨_ | _, t⟩ := outcome
  · cases h
    rfl
  · cases h

end ParserServe.Foundation
