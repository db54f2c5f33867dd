import Mathlib.Data.List.Basic

/-! # Runs of a labelled transition system

A run keeps its whole list of labels, so that a property may speak of what happened
between two of its states and not only of the state at its end.  Every safety result
below is an instance of `Run.keeps`: what one step preserves, a run preserves.
-/

namespace ParserServe.Foundation

/-- Initial states and labelled steps. -/
structure System (σ α : Type*) where
  Initial : σ → Prop
  Step : σ → α → σ → Prop

namespace System

variable {σ α : Type*} {S : System σ α}

/-- `S.Run s as t`: the steps labelled `as`, oldest first, lead from `s` to `t`. -/
inductive Run (S : System σ α) : σ → List α → σ → Prop
  | nil (s : σ) : Run S s [] s
  | snoc {s t u : σ} {as : List α} {a : α} :
      Run S s as t → S.Step t a u → Run S s (as ++ [a]) u

theorem Run.single {s t : σ} {a : α} (h : S.Step s a t) : S.Run s [a] t :=
  Run.snoc (Run.nil s) h

theorem Run.trans {s t u : σ} {as bs : List α}
    (h₁ : S.Run s as t) (h₂ : S.Run t bs u) : S.Run s (as ++ bs) u := by
  induction h₂ with
  | nil => simpa using h₁
  | snoc _ hstep ih =>
      rw [← List.append_assoc]
      exact Run.snoc ih hstep

theorem Run.eq_of_nil {s t : σ} (h : S.Run s [] t) : t = s := by
  generalize hlabels : [] = labels at h
  cases h with
  | nil => rfl
  | snoc => simp at hlabels

theorem Run.uncons {s u : σ} {a : α} {as : List α} (h : S.Run s (a :: as) u) :
    ∃ t, S.Step s a t ∧ S.Run t as u := by
  generalize hlabels : a :: as = labels at h
  induction h generalizing as with
  | nil => cases hlabels
  | @snoc v u bs b hrun hstep ih =>
      cases bs with
      | nil =>
          cases hlabels
          rw [hrun.eq_of_nil] at hstep
          exact ⟨u, hstep, .nil u⟩
      | cons c cs =>
          cases hlabels
          obtain ⟨t, hfirst, hrest⟩ := ih rfl
          exact ⟨t, hfirst, hrest.snoc hstep⟩

/-- A run visits a state between two parts of its labels. -/
theorem Run.split {s u : σ} {as bs : List α} (h : S.Run s (as ++ bs) u) :
    ∃ t, S.Run s as t ∧ S.Run t bs u := by
  induction as generalizing s with
  | nil => exact ⟨s, .nil s, h⟩
  | cons a as ih =>
      obtain ⟨s', hfirst, hrest⟩ := Run.uncons h
      obtain ⟨t, has, hbs⟩ := ih hrest
      exact ⟨t, (Run.single hfirst).trans has, hbs⟩

/-- In a run over `labels` the step `a` leads from `t` to `u` after the steps `before`. -/
def At (S : System σ α) (s : σ) (labels : List α) (v : σ) (before : List α) (t : σ) (a : α)
    (u : σ) (after : List α) : Prop :=
  labels = before ++ a :: after ∧ S.Run s before t ∧ S.Step t a u ∧ S.Run u after v

/-- Each label of a run is that of a step. -/
theorem Run.exists_step {s t : σ} {a : α} {as : List α} (h : S.Run s as t) (ha : a ∈ as) :
    ∃ u v, S.Step u a v := by
  induction h with
  | nil => cases ha
  | @snoc u v bs b _ hstep ih =>
      rcases List.mem_append.mp ha with ha | ha
      · exact ih ha
      · rw [List.mem_singleton.mp ha]
        exact ⟨u, v, hstep⟩

/-- An invariant of the steps is kept by a run. -/
theorem Run.keeps {I : σ → Prop} (hstep : ∀ s a t, I s → S.Step s a t → I t)
    {s t : σ} {as : List α} (h : S.Run s as t) (hs : I s) : I t := by
  induction h with
  | nil => exact hs
  | snoc _ hst ih => exact hstep _ _ _ ih hst

/-- A run of a system with fewer steps. -/
theorem Run.mono {T : System σ α} (hstep : ∀ s a t, S.Step s a t → T.Step s a t) {s t : σ}
    {as : List α} (h : S.Run s as t) : T.Run s as t := by
  induction h with
  | nil => exact .nil _
  | snoc _ hst ih => exact ih.snoc (hstep _ _ _ hst)

/-- States some run leads to from an initial state. -/
def Reachable (S : System σ α) (s : σ) : Prop :=
  ∃ s₀ as, S.Initial s₀ ∧ S.Run s₀ as s

theorem Reachable.step {s t : σ} {a : α} (h : S.Reachable s) (hst : S.Step s a t) :
    S.Reachable t := by
  obtain ⟨s₀, as, h₀, hrun⟩ := h
  exact ⟨s₀, as ++ [a], h₀, Run.snoc hrun hst⟩

theorem Reachable.run {s t : σ} {as : List α} (h : S.Reachable s) (hrun : S.Run s as t) :
    S.Reachable t := by
  obtain ⟨s₀, bs, h₀, hr⟩ := h
  exact ⟨s₀, bs ++ as, h₀, hr.trans hrun⟩

/-- The invariant rule: true at the start and kept by every step. -/
theorem Reachable.invariant {I : σ → Prop} (hinit : ∀ s, S.Initial s → I s)
    (hstep : ∀ s a t, I s → S.Step s a t → I t) {s : σ} (h : S.Reachable s) : I s := by
  obtain ⟨s₀, as, h₀, hrun⟩ := h
  exact hrun.keeps hstep (hinit s₀ h₀)

/-! ## Programs and restrictions -/

/-- A program that takes one step on each input it accepts. -/
def ofStep (Initial : σ → Prop) (step : σ → α → Option σ) : System σ α where
  Initial := Initial
  Step s a t := step s a = some t

theorem ofStep_run {Initial : σ → Prop} {step : σ → α → Option σ} {as : List α} {s t : σ}
    (h : as.foldlM step s = some t) : (ofStep Initial step).Run s as t := by
  induction as generalizing s with
  | nil =>
      cases h
      exact .nil _
  | cons a as ih =>
      rw [List.foldlM_cons] at h
      obtain ⟨u, hstep, hrest⟩ := Option.bind_eq_some_iff.mp h
      have hfirst : (ofStep Initial step).Step s a u := hstep
      exact (Run.single hfirst).trans (ih hrest)

/-- A program has one run for each list of inputs. -/
theorem foldlM_of_run {Initial : σ → Prop} {step : σ → α → Option σ} {as : List α} {s t : σ}
    (h : (ofStep Initial step).Run s as t) : as.foldlM step s = some t := by
  induction h with
  | nil => rfl
  | @snoc u v as a _ hstep ih =>
      have hlast : step u a = some v := hstep
      simp [List.foldlM_append, ih, hlast]

/-- The rest of a run of a program after a part of its inputs. -/
theorem ofStep_run_rest {Initial : σ → Prop} {step : σ → α → Option σ} {as bs : List α}
    {s t u : σ} (h : (ofStep Initial step).Run s (as ++ bs) u)
    (has : (ofStep Initial step).Run s as t) : (ofStep Initial step).Run t bs u := by
  have hall := foldlM_of_run h
  rw [List.foldlM_append, foldlM_of_run has] at hall
  exact ofStep_run hall

/-- The labels and the last state of a script of moves, each of which makes one step. -/
def script {μ : Type*} (take : σ → μ → α × σ) (s : σ) : List μ → List α × σ
  | [] => ([], s)
  | move :: moves =>
      let (label, t) := take s move
      let (labels, u) := script take t moves
      (label :: labels, u)

theorem script_run {μ : Type*} {take : σ → μ → α × σ}
    (htake : ∀ s move, S.Step s (take s move).1 (take s move).2) (s : σ) (moves : List μ) :
    S.Run s (script take s moves).1 (script take s moves).2 := by
  induction moves generalizing s with
  | nil => exact .nil s
  | cons move moves ih => exact (Run.single (htake s move)).trans (ih _)

/-- Every step of a script has `P`. -/
def ScriptKeeps {μ : Type*} (take : σ → μ → α × σ) (P : σ → α → Prop) (s : σ) : List μ → Prop
  | [] => True
  | move :: moves => P s (take s move).1 ∧ ScriptKeeps take P (take s move).2 moves

instance ScriptKeeps.decidable {μ : Type*} (take : σ → μ → α × σ) (P : σ → α → Prop)
    [∀ s a, Decidable (P s a)] : ∀ s moves, Decidable (ScriptKeeps take P s moves)
  | _, [] => isTrue trivial
  | s, move :: moves =>
      have := ScriptKeeps.decidable take P (take s move).2 moves
      inferInstanceAs (Decidable (_ ∧ _))

/-- The same system without the steps that break `P`. -/
def restrict (S : System σ α) (P : σ → α → Prop) : System σ α where
  Initial := S.Initial
  Step s a t := S.Step s a t ∧ P s a

theorem Run.of_restrict {P : σ → α → Prop} {s t : σ} {as : List α}
    (h : (S.restrict P).Run s as t) : S.Run s as t :=
  h.mono fun _ _ _ hstep => And.left hstep

theorem script_run_restrict {μ : Type*} {take : σ → μ → α × σ} {P : σ → α → Prop}
    (htake : ∀ s move, S.Step s (take s move).1 (take s move).2) {s : σ} {moves : List μ}
    (h : ScriptKeeps take P s moves) :
    (S.restrict P).Run s (script take s moves).1 (script take s moves).2 := by
  induction moves generalizing s with
  | nil => exact .nil s
  | cons move moves ih =>
      have hfirst : (S.restrict P).Step s (take s move).1 (take s move).2 := ⟨htake s move, h.1⟩
      exact (Run.single hfirst).trans (ih h.2)

theorem ofStep_run_restrict {Initial : σ → Prop} {step : σ → α → Option σ} {P : σ → α → Prop}
    [∀ s a, Decidable (P s a)] {as : List α} {s t : σ}
    (h : as.foldlM (fun s a => if P s a then step s a else none) s = some t) :
    ((ofStep Initial step).restrict P).Run s as t := by
  have hrun : (ofStep Initial fun s a => if P s a then step s a else none).Run s as t :=
    ofStep_run h
  refine hrun.mono fun u a v hstep => ?_
  obtain ⟨hP, hstep⟩ := Option.ite_none_right_eq_some.mp hstep
  exact ⟨hstep, hP⟩

theorem Run.to_restrict {P : σ → α → Prop} {s t : σ} {as : List α} (h : S.Run s as t)
    (hP : ∀ a ∈ as, ∀ s, P s a) : (S.restrict P).Run s as t := by
  induction h with
  | nil => exact .nil _
  | @snoc u v bs b _ hstep ih =>
      have hlast : P u b := hP b (List.mem_append_right _ List.mem_cons_self) u
      exact (ih fun a ha => hP a (List.mem_append_left _ ha)).snoc ⟨hstep, hlast⟩

/-- A run breaks `P` nowhere, or it carries what a step that breaks `P` leaves behind. -/
theorem Run.restrict_or {I : σ → Prop} {P : σ → α → Prop} {B : σ → Prop}
    (hI : ∀ s a t, I s → S.Step s a t → I t)
    (hbreak : ∀ s a t, I s → S.Step s a t → ¬ P s a → B t)
    (hkeep : ∀ s a t, I s → B s → S.Step s a t → B t)
    {s t : σ} {as : List α} (h : S.Run s as t) (hs : I s) :
    (S.restrict P).Run s as t ∨ B t := by
  induction h with
  | nil => exact .inl (.nil _)
  | @snoc u v _ a hrun hstep ih =>
      have hu := hrun.keeps hI hs
      rcases ih with ih | ih
      · by_cases hP : P u a
        · exact .inl (ih.snoc ⟨hstep, hP⟩)
        · exact .inr (hbreak _ _ _ hu hstep hP)
      · exact .inr (hkeep _ _ _ hu ih hstep)

/-- The runs of the system in which every state reached has `Q`. -/
def through (S : System σ α) (Q : σ → Prop) : System σ α where
  Initial := S.Initial
  Step s a t := S.Step s a t ∧ Q t

theorem Run.of_through {Q : σ → Prop} {s t : σ} {as : List α}
    (h : (S.through Q).Run s as t) : S.Run s as t :=
  h.mono fun _ _ _ hstep => And.left hstep

theorem Run.through_last {Q : σ → Prop} {s t : σ} {as : List α} (hs : Q s)
    (h : (S.through Q).Run s as t) : Q t := by
  cases h with
  | nil => exact hs
  | snoc _ hstep => exact hstep.2

/-- Where a step from a state with `Q` leads to one exactly when it keeps `P`, a run stays in
`Q` exactly when none of its steps breaks `P`. -/
theorem restrict_run_iff_through {I Q : σ → Prop} {P : σ → α → Prop}
    (hI : ∀ s a t, I s → S.Step s a t → I t)
    (hexact : ∀ s a t, I s → Q s → S.Step s a t → (P s a ↔ Q t))
    {s t : σ} {as : List α} (hs : I s) (hQ : Q s) :
    (S.restrict P).Run s as t ↔ (S.through Q).Run s as t := by
  constructor
  · intro h
    induction h with
    | nil => exact .nil _
    | snoc _ hstep ih =>
        have hlast := (hexact _ _ _ (ih.of_through.keeps hI hs) (ih.through_last hQ) hstep.1).mp
        exact ih.snoc ⟨hstep.1, hlast hstep.2⟩
  · intro h
    induction h with
    | nil => exact .nil _
    | snoc hrun hstep ih =>
        have hu := hrun.of_through.keeps hI hs
        have hlast := (hexact _ _ _ hu (hrun.through_last hQ) hstep.1).mpr
        exact ih.snoc ⟨hstep.1, hlast hstep.2⟩

/-- The runs of the system in which every step has `R`. -/
def within (S : System σ α) (R : σ → α → σ → Prop) : System σ α where
  Initial := S.Initial
  Step s a t := S.Step s a t ∧ R s a t

/-- Where `P` tells the steps with `R` from the others, a run takes only these exactly when
none of its steps breaks `P`. -/
theorem restrict_run_iff_within {I : σ → Prop} {P : σ → α → Prop} {R : σ → α → σ → Prop}
    (hI : ∀ s a t, I s → S.Step s a t → I t)
    (hexact : ∀ s a t, I s → S.Step s a t → (P s a ↔ R s a t))
    {s t : σ} {as : List α} (hs : I s) :
    (S.restrict P).Run s as t ↔ (S.within R).Run s as t := by
  constructor
  · intro h
    induction h with
    | nil => exact .nil _
    | snoc hrun hstep ih =>
        have hu := hrun.of_restrict.keeps hI hs
        exact ih.snoc ⟨hstep.1, (hexact _ _ _ hu hstep.1).mp hstep.2⟩
  · intro h
    induction h with
    | nil => exact .nil _
    | snoc hrun hstep ih =>
        have hu := ih.of_restrict.keeps hI hs
        exact ih.snoc ⟨hstep.1, (hexact _ _ _ hu hstep.1).mpr hstep.2⟩

end System

end ParserServe.Foundation
