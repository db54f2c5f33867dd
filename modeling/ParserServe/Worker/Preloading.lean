import Mathlib.Data.List.Induction
import Mathlib.Data.List.TakeWhile
import ParserServe.Foundation.Keyed

/-! # Preloading backends

`BackendRegistry` of `backends/base.py`.  A preload loads the targets that are not loaded yet, one
after another, and undoes its own loads when one of them fails.  Calls hold the lifecycle lock, so
they are taken one at a time.
-/

namespace ParserServe

open Foundation

/-- The key of a backend is its name and version. -/
abbrev BackendKey := String × String

/-- What a call raises: the errors of the registry itself, another `BackendExecutionError`,
another `Exception`, a cancellation, or any other `BaseException`. -/
inductive LifecycleError
  | notInstalled (key : BackendKey)
  | noPreloading (key : BackendKey)
  | preloadFailed (typeName : String)
  | execution (message : String) (retryable : Bool)
  | exception (typeName : String)
  | cancelled
  | baseException (typeName : String)
  deriving DecidableEq

/-- The error is an `Exception`. -/
def LifecycleError.isException : LifecycleError → Bool
  | .cancelled | .baseException _ => false
  | .notInstalled _ | .noPreloading _ | .preloadFailed _ | .execution _ _ | .exception _ => true

/-- An installed backend, and what its `load` and `unload` raise when they are called. -/
structure InstalledBackend where
  key : BackendKey
  managed : Bool := true
  load : Option LifecycleError := none
  unload : Option LifecycleError := none

/-- A call of a backend and what it raised. -/
inductive LifecycleCall
  | load (key : BackendKey) (raised : Option LifecycleError)
  | unload (key : BackendKey) (raised : Option LifecycleError)
  deriving DecidableEq

/-- `_backends` and `_loaded`. -/
structure BackendRegistry where
  backends : List InstalledBackend
  loaded : List BackendKey := []
  keys_nodup : (backends.map (·.key)).Nodup := by decide

/-- `get`. -/
def BackendRegistry.get (self : BackendRegistry) (key : BackendKey) :
    Except LifecycleError InstalledBackend :=
  match self.backends.find? (·.key = key) with
  | none => .error (.notInstalled key)
  | some backend => .ok backend

/-- What one preload works on; `loadedNow` is its batch. -/
structure Preload where
  loaded : List BackendKey
  loadedNow : List BackendKey := []
  calls : List LifecycleCall := []

def Preload.call (state : Preload) (call : LifecycleCall) : Preload :=
  { state with calls := state.calls ++ [call] }

/-- The loop over the targets, up to the first error. -/
def BackendRegistry.loadTargets (self : BackendRegistry) :
    List BackendKey → Preload → Preload × Option LifecycleError
  | [], state => (state, none)
  | key :: targets, state =>
      if key ∈ state.loaded then self.loadTargets targets state
      else
        match self.get key with
        | .error error => (state, some error)
        | .ok backend =>
            if ¬ backend.managed then (state, some (.noPreloading key))
            else
              let state := state.call (.load key backend.load)
              match backend.load with
              | some error => (state, some error)
              | none => self.loadTargets targets
                  { state with
                    loaded := state.loaded ++ [key]
                    loadedNow := state.loadedNow ++ [key] }

/-- `rollback` over the batch in reverse; only an `Exception` of `unload` is suppressed. -/
def BackendRegistry.rollback (self : BackendRegistry) :
    List BackendKey → Preload → Preload × Option LifecycleError
  | [], state => (state, none)
  | key :: keys, state =>
      match self.get key with
      | .error error => (state, some error)
      | .ok backend =>
          let state := state.call (.unload key backend.unload)
          match backend.unload with
          | none => self.rollback keys { state with loaded := state.loaded.erase key }
          | some error =>
              if error.isException then
                self.rollback keys { state with loaded := state.loaded.erase key }
              else (state, some error)

/-- The error that leaves `preload` after a complete rollback. -/
def LifecycleError.wrapped : LifecycleError → LifecycleError
  | .exception typeName => .preloadFailed typeName
  | error => error

/-- `preload`: what it raises, the registry after it, and the calls it made. -/
def BackendRegistry.preload (self : BackendRegistry) (targets : List BackendKey) :
    Option LifecycleError × BackendRegistry × List LifecycleCall :=
  match self.loadTargets targets { loaded := self.loaded } with
  | (state, none) => (none, { self with loaded := state.loaded }, state.calls)
  | (state, some error) =>
      match self.rollback state.loadedNow.reverse state with
      | (state, none) => (some error.wrapped, { self with loaded := state.loaded }, state.calls)
      | (state, some error) => (some error, { self with loaded := state.loaded }, state.calls)

variable {self : BackendRegistry} {targets batch : List BackendKey} {state : Preload}
  {key : BackendKey}

/-! ## Targets -/

/-- The targets that are not loaded yet, each at its first occurrence. -/
def freshTargets (loaded targets : List BackendKey) : List BackendKey :=
  (targets.filter (· ∉ loaded)).eraseDups

/-- The backend is installed and managed, and its `load` returns. -/
def BackendRegistry.loads (self : BackendRegistry) (key : BackendKey) : Bool :=
  match self.get key with
  | .error _ => false
  | .ok backend => backend.managed && backend.load.isNone

/-- What the `unload` of an installed backend raises. -/
def BackendRegistry.unloadRaises (self : BackendRegistry) (key : BackendKey) :
    Option LifecycleError :=
  match self.get key with
  | .error _ => none
  | .ok backend => backend.unload

/-- The `unload` of the backend returns or raises an `Exception`. -/
def BackendRegistry.unloads (self : BackendRegistry) (key : BackendKey) : Bool :=
  (self.unloadRaises key).all (·.isException)

theorem freshTargets_cons (loaded : List BackendKey) (key : BackendKey)
    (targets : List BackendKey) : freshTargets loaded (key :: targets) =
      if key ∈ loaded then freshTargets loaded targets
      else key :: freshTargets (loaded ++ [key]) targets := by
  unfold freshTargets
  by_cases hkey : key ∈ loaded
  · simp [hkey]
  · have hfilter : targets.filter (· ∉ loaded ++ [key]) =
        (targets.filter (· ∉ loaded)).filter fun other => !other == key := by
      rw [List.filter_filter]
      refine List.filter_congr fun other _ => ?_
      by_cases hother : other = key <;> simp [hother]
    rw [List.filter_cons, if_pos (by simpa using hkey), List.eraseDups_cons, if_neg hkey, hfilter]

theorem freshTargets_nodup (loaded targets : List BackendKey) :
    (freshTargets loaded targets).Nodup :=
  nodup_eraseDups _

theorem mem_freshTargets {loaded : List BackendKey} :
    key ∈ freshTargets loaded targets ↔ key ∈ targets ∧ key ∉ loaded := by
  simp [freshTargets, List.mem_eraseDups]

/-! ## The loop -/

/-- The state after the batch was loaded. -/
def Preload.withBatch (state : Preload) (batch : List BackendKey) : Preload where
  loaded := state.loaded ++ batch
  loadedNow := state.loadedNow ++ batch
  calls := state.calls ++ batch.map (.load · none)

@[simp] theorem withBatch_nil : state.withBatch [] = state := by
  simp [Preload.withBatch]

theorem withBatch_cons :
    (state.withBatch [key]).withBatch batch = state.withBatch (key :: batch) := by
  simp [Preload.withBatch]

/-- A target that can be loaded joins the batch. -/
theorem loadTargets_loads (hfresh : key ∉ state.loaded) (h : self.loads key) :
    self.loadTargets (key :: targets) state = self.loadTargets targets (state.withBatch [key]) := by
  unfold BackendRegistry.loads at h
  rw [BackendRegistry.loadTargets, if_neg hfresh]
  cases hget : self.get key with
  | error error => simp [hget] at h
  | ok backend =>
      simp only [hget, Bool.and_eq_true, Option.isNone_iff_eq_none] at h
      simp only [h.1, not_true_eq_false, if_false, h.2]
      rfl

/-- A target that cannot be loaded ends the loop, with at most its own `load` called. -/
theorem loadTargets_stops (hfresh : key ∉ state.loaded) (h : ¬ self.loads key) :
    ∃ error attempt, self.loadTargets (key :: targets) state =
        ({ state with calls := state.calls ++ attempt }, some error) ∧
      (attempt = [] ∨ attempt = [.load key (some error)]) := by
  unfold BackendRegistry.loads at h
  rw [BackendRegistry.loadTargets, if_neg hfresh]
  cases hget : self.get key with
  | error error => exact ⟨error, [], by simp, .inl rfl⟩
  | ok backend =>
      by_cases hmanaged : backend.managed
      · cases hload : backend.load with
        | none => simp [hget, hmanaged, hload] at h
        | some error => exact ⟨error, _, by simp [hmanaged, hload, Preload.call], .inr rfl⟩
      · exact ⟨.noPreloading key, [], by simp [hmanaged], .inl rfl⟩

/-- When all fresh targets can be loaded they form the batch. -/
theorem loadTargets_all (h : ∀ key ∈ freshTargets state.loaded targets, self.loads key) :
    self.loadTargets targets state =
      (state.withBatch (freshTargets state.loaded targets), none) := by
  induction targets generalizing state with
  | nil => simp [BackendRegistry.loadTargets, freshTargets]
  | cons key targets ih =>
      rw [freshTargets_cons] at h ⊢
      by_cases hloaded : key ∈ state.loaded
      · rw [if_pos hloaded] at h ⊢
        rw [BackendRegistry.loadTargets, if_pos hloaded]
        exact ih h
      · rw [if_neg hloaded] at h ⊢
        obtain ⟨hkey, hrest⟩ := List.forall_mem_cons.mp h
        rw [loadTargets_loads hloaded hkey, ih hrest, withBatch_cons]
        rfl

/-- The loop stops at the first fresh target that cannot be loaded. -/
theorem loadTargets_fails {rest : List BackendKey}
    (hfresh : freshTargets state.loaded targets = batch ++ key :: rest)
    (hbatch : ∀ key ∈ batch, self.loads key) (hkey : ¬ self.loads key) :
    ∃ error attempt, self.loadTargets targets state =
        ({ state.withBatch batch with calls := (state.withBatch batch).calls ++ attempt },
          some error) ∧
      (attempt = [] ∨ attempt = [.load key (some error)]) := by
  induction targets generalizing state batch with
  | nil => simp [freshTargets] at hfresh
  | cons target targets ih =>
      rw [freshTargets_cons] at hfresh
      by_cases hloaded : target ∈ state.loaded
      · rw [if_pos hloaded] at hfresh
        rw [BackendRegistry.loadTargets, if_pos hloaded]
        exact ih hfresh hbatch
      · rw [if_neg hloaded] at hfresh
        cases batch with
        | nil =>
            obtain ⟨rfl, _⟩ := List.cons.inj hfresh
            rw [withBatch_nil]
            exact loadTargets_stops hloaded hkey
        | cons first batch =>
            obtain ⟨rfl, hrest⟩ := List.cons.inj hfresh
            have htail : freshTargets (state.withBatch [target]).loaded targets =
              batch ++ key :: rest := hrest
            obtain ⟨hfirst, hbatch⟩ := List.forall_mem_cons.mp hbatch
            rw [loadTargets_loads hloaded hfirst]
            have hrun := ih htail hbatch
            rwa [withBatch_cons] at hrun

/-! ## The rollback -/

theorem erase_concat {loaded : List BackendKey} (h : key ∉ loaded) :
    (loaded ++ [key]).erase key = loaded := by
  rw [List.erase_append_right _ h, List.erase_cons_head, List.append_nil]

/-- The last of a batch is in no other place. -/
theorem concat_fresh {loaded : List BackendKey} (hnodup : (batch ++ [key]).Nodup)
    (hfresh : ∀ other ∈ batch ++ [key], other ∉ loaded) :
    batch.Nodup ∧ key ∈ batch ++ [key] ∧ key ∉ loaded ++ batch := by
  obtain ⟨hbefore, _, hdisjoint⟩ := List.nodup_append.mp hnodup
  have hlast : key ∈ batch ++ [key] := List.mem_append_right _ List.mem_cons_self
  refine ⟨hbefore, hlast, fun hmem => ?_⟩
  rcases List.mem_append.mp hmem with hmem | hmem
  · exact hfresh key hlast hmem
  · exact hdisjoint key hmem key List.mem_cons_self rfl

/-- The backend of a loaded target is installed. -/
theorem get_of_loads (h : self.loads key) :
    ∃ backend, self.get key = .ok backend ∧ self.unloadRaises key = backend.unload := by
  unfold BackendRegistry.loads at h
  cases hget : self.get key with
  | error error => simp [hget] at h
  | ok backend => exact ⟨backend, rfl, by rw [BackendRegistry.unloadRaises, hget]⟩

def BackendRegistry.unloadCall (self : BackendRegistry) (key : BackendKey) : LifecycleCall :=
  .unload key (self.unloadRaises key)

/-- An `unload` that returns or raises an `Exception` is followed by the rest of the rollback. -/
theorem rollback_unloads {keys : List BackendKey} (hkey : self.loads key)
    (h : self.unloads key) : self.rollback (key :: keys) state =
      self.rollback keys
        { state.call (self.unloadCall key) with loaded := state.loaded.erase key } := by
  obtain ⟨backend, hget, hunload⟩ := get_of_loads hkey
  rw [BackendRegistry.unloads, hunload] at h
  rw [BackendRegistry.rollback, hget, BackendRegistry.unloadCall, hunload]
  cases hraised : backend.unload with
  | none => simp [hraised, Preload.call]
  | some error =>
      rw [hraised] at h
      have hexception : error.isException = true := h
      simp [hraised, hexception, Preload.call]

/-- Any other `unload` ends the rollback with the backend still loaded. -/
theorem rollback_stops {keys : List BackendKey} (hkey : self.loads key) (h : ¬ self.unloads key) :
    ∃ error, self.rollback (key :: keys) state =
      (state.call (self.unloadCall key), some error) := by
  obtain ⟨backend, hget, hunload⟩ := get_of_loads hkey
  rw [BackendRegistry.unloads, hunload] at h
  rw [BackendRegistry.rollback, hget, BackendRegistry.unloadCall, hunload]
  cases hraised : backend.unload with
  | none => simp [hraised] at h
  | some error =>
      have hexception : error.isException = false := by simpa [hraised] using h
      exact ⟨error, by simp [hraised, hexception]⟩

/-- A rollback whose every `unload` returns or raises an `Exception` takes the batch back. -/
theorem rollback_all {loaded : List BackendKey} (hloaded : state.loaded = loaded ++ batch)
    (hnodup : batch.Nodup) (hfresh : ∀ key ∈ batch, key ∉ loaded)
    (hbatch : ∀ key ∈ batch, self.loads key) (h : ∀ key ∈ batch, self.unloads key) :
    self.rollback batch.reverse state =
      ({ state with
          loaded := loaded
          calls := state.calls ++ batch.reverse.map self.unloadCall }, none) := by
  induction batch using List.reverseRecOn generalizing state with
  | nil =>
      rw [List.append_nil] at hloaded
      simp [BackendRegistry.rollback, ← hloaded]
  | append_singleton batch key ih =>
      rw [← List.append_assoc] at hloaded
      obtain ⟨hbefore, hlast, hkey⟩ := concat_fresh hnodup hfresh
      rw [List.reverse_concat, rollback_unloads (hbatch key hlast) (h key hlast)]
      rw [ih (by rw [hloaded, erase_concat hkey]) hbefore
        (fun other hother => hfresh other (List.mem_append_left _ hother))
        (fun other hother => hbatch other (List.mem_append_left _ hother))
        (fun other hother => h other (List.mem_append_left _ hother))]
      simp [Preload.call]

/-- A rollback in which another exception leaves `unload` keeps a part of the batch. -/
theorem rollback_broken {loaded : List BackendKey} (hloaded : state.loaded = loaded ++ batch)
    (hnodup : batch.Nodup) (hfresh : ∀ key ∈ batch, key ∉ loaded)
    (hbatch : ∀ key ∈ batch, self.loads key) (hkey : key ∈ batch) (h : ¬ self.unloads key) :
    (self.rollback batch.reverse state).1.loaded ≠ loaded := by
  induction batch using List.reverseRecOn generalizing state with
  | nil => cases hkey
  | append_singleton batch last ih =>
      rw [← List.append_assoc] at hloaded
      obtain ⟨hbefore, hlast, hkept⟩ := concat_fresh hnodup hfresh
      rw [List.reverse_concat]
      by_cases hunloads : self.unloads last
      · have hmem : key ∈ batch := by
          rcases List.mem_append.mp hkey with hmem | hmem
          · exact hmem
          · rw [List.mem_singleton.mp hmem] at h
            exact absurd hunloads h
        rw [rollback_unloads (hbatch last hlast) hunloads]
        exact ih (by rw [hloaded, erase_concat hkept]) hbefore
          (fun other hother => hfresh other (List.mem_append_left _ hother))
          (fun other hother => hbatch other (List.mem_append_left _ hother)) hmem
      · obtain ⟨error, hstops⟩ : ∃ error, self.rollback (last :: batch.reverse) state =
            (state.call (self.unloadCall last), some error) :=
          rollback_stops (hbatch last hlast) hunloads
        rw [hstops]
        intro heq
        have hlength := congrArg List.length (heq.symm.trans hloaded)
        simp only [List.length_append, List.length_singleton] at hlength
        omega

/-! ## Results -/

/-- The call raised nothing, loaded each fresh target once and appended them. -/
structure BackendRegistry.Preloaded (registry : BackendRegistry) (targets : List BackendKey)
    (outcome : Option LifecycleError × BackendRegistry × List LifecycleCall) : Prop where
  raised : outcome.1 = none
  loaded : outcome.2.1.loaded = registry.loaded ++ freshTargets registry.loaded targets
  nodup : (freshTargets registry.loaded targets).Nodup
  calls : outcome.2.2 = (freshTargets registry.loaded targets).map (.load · none)

/-- The call raised and took back exactly the batch that it had loaded, each backend with one
`unload` and the last one first; it called nothing else but the `load` that raised. -/
structure BackendRegistry.RolledBack (registry : BackendRegistry)
    (outcome : Option LifecycleError × BackendRegistry × List LifecycleCall) : Prop where
  raised : outcome.1.isSome
  loaded : outcome.2.1.loaded = registry.loaded
  calls : ∃ (batch : List BackendKey) (attempt : List LifecycleCall),
    batch.Nodup ∧ (∀ key ∈ batch, key ∉ registry.loaded) ∧
    (attempt = [] ∨ ∃ key error, attempt = [.load key (some error)]) ∧
      outcome.2.2 = batch.map (.load · none) ++ attempt ++
        batch.reverse.map registry.unloadCall

def BackendRegistry.AllOrNothing (registry : BackendRegistry) (targets : List BackendKey) : Prop :=
  registry.Preloaded targets (registry.preload targets) ∨
    registry.RolledBack (registry.preload targets)

/-- When all fresh targets can be loaded, they are. -/
theorem preload_succeeds (h : ∀ key ∈ freshTargets self.loaded targets, self.loads key) :
    self.Preloaded targets (self.preload targets) := by
  have hrun : self.loadTargets targets { loaded := self.loaded } = _ := loadTargets_all h
  unfold BackendRegistry.preload
  rw [hrun]
  exact ⟨rfl, rfl, freshTargets_nodup _ _, by simp [Preload.withBatch]⟩

theorem exists_takeWhile_split {p : BackendKey → Bool} {keys : List BackendKey}
    (h : ∃ key ∈ keys, ¬ p key) :
    ∃ key rest, keys = keys.takeWhile p ++ key :: rest ∧ ¬ p key := by
  induction keys with
  | nil =>
      obtain ⟨_, hmem, _⟩ := h
      cases hmem
  | cons first keys ih =>
      by_cases hfirst : p first
      · obtain ⟨key, hmem, hkey⟩ := h
        have hlater : key ∈ keys := by
          rcases List.mem_cons.mp hmem with rfl | hlater
          · exact absurd hfirst hkey
          · exact hlater
        obtain ⟨key, rest, hsplit, hkey⟩ := ih ⟨key, hlater, hkey⟩
        refine ⟨key, rest, ?_, hkey⟩
        rw [List.takeWhile_cons_of_pos hfirst, List.cons_append, ← hsplit]
      · exact ⟨first, keys, by rw [List.takeWhile_cons_of_neg hfirst, List.nil_append], hfirst⟩

/-- A call whose loop fails ends with what the rollback of its batch leaves. -/
theorem preload_of_failed {error : LifecycleError}
    (h : self.loadTargets targets { loaded := self.loaded } = (state, some error)) :
    (self.preload targets).1.isSome ∧
      (self.preload targets).2.1.loaded =
        (self.rollback state.loadedNow.reverse state).1.loaded ∧
      (self.preload targets).2.2 = (self.rollback state.loadedNow.reverse state).1.calls := by
  unfold BackendRegistry.preload
  rw [h]
  dsimp only
  generalize self.rollback state.loadedNow.reverse state = outcome
  obtain ⟨left, _ | raised⟩ := outcome
  · exact ⟨rfl, rfl, rfl⟩
  · exact ⟨rfl, rfl, rfl⟩

/-- The fresh targets before the first one that cannot be loaded. -/
def BackendRegistry.loadable (self : BackendRegistry) (targets : List BackendKey) :
    List BackendKey :=
  (freshTargets self.loaded targets).takeWhile self.loads

theorem loadable_fresh (self : BackendRegistry) (targets : List BackendKey) :
    (self.loadable targets).Nodup ∧ (∀ key ∈ self.loadable targets, key ∉ self.loaded) ∧
      ∀ key ∈ self.loadable targets, self.loads key := by
  have hsub : self.loadable targets <+: freshTargets self.loaded targets :=
    List.takeWhile_prefix _
  refine ⟨(freshTargets_nodup _ _).sublist hsub.sublist, fun key hmem => ?_, fun key hmem => ?_⟩
  · exact (mem_freshTargets.mp (hsub.subset hmem)).2
  · exact List.mem_takeWhile_imp hmem

/-- `preload` is all or nothing exactly when, in case a fresh target cannot be loaded, each
`unload` of the batch before it returns or raises an `Exception`. -/
theorem preload_all_or_nothing_iff (self : BackendRegistry) (targets : List BackendKey) :
    self.AllOrNothing targets ↔
      ((∃ key ∈ freshTargets self.loaded targets, ¬ self.loads key) →
        ∀ key ∈ self.loadable targets, self.unloads key) := by
  by_cases hfails : ∃ key ∈ freshTargets self.loaded targets, ¬ self.loads key
  · obtain ⟨hnodup, hfresh, hbatch⟩ := loadable_fresh self targets
    obtain ⟨key, rest, hsplit, hkey⟩ := exists_takeWhile_split hfails
    have hstart : freshTargets ({ loaded := self.loaded } : Preload).loaded targets =
        self.loadable targets ++ key :: rest := hsplit
    obtain ⟨error, attempt, hrun, hattempt⟩ := loadTargets_fails hstart hbatch hkey
    obtain ⟨stopped, hstopped⟩ : ∃ stopped : Preload, stopped = (self.loadTargets targets
      { loaded := self.loaded }).1 := ⟨_, rfl⟩
    have hkeys : stopped.loaded = self.loaded ++ self.loadable targets := by
      rw [hstopped, hrun]
      rfl
    have hnow : stopped.loadedNow = self.loadable targets := by
      rw [hstopped, hrun]
      rfl
    have hmade : stopped.calls = (self.loadable targets).map (.load · none) ++ attempt := by
      rw [hstopped, hrun]
      rfl
    have hpair : self.loadTargets targets { loaded := self.loaded } = (stopped, some error) := by
      rw [hstopped, hrun]
    obtain ⟨hraised, hloaded, hcalls⟩ := preload_of_failed hpair
    rw [hnow] at hloaded hcalls
    constructor
    · intro hall _ other hother
      by_contra hbroken
      have hkept := rollback_broken hkeys hnodup hfresh hbatch hother hbroken
      rcases hall with hsucceeded | hrolled
      · rw [hsucceeded.raised] at hraised
        cases hraised
      · exact hkept (hloaded.symm.trans hrolled.loaded)
    · intro hunloads
      have hback := rollback_all hkeys hnodup hfresh hbatch (hunloads hfails)
      rw [hback] at hloaded hcalls
      rw [hmade] at hcalls
      refine .inr ⟨hraised, hloaded, self.loadable targets, attempt, hnodup, hfresh, ?_, hcalls⟩
      exact hattempt.imp_right fun h => ⟨key, error, h⟩
  · have hall : ∀ key ∈ freshTargets self.loaded targets, self.loads key := by
      intro key hmem
      by_contra hkey
      exact hfails ⟨key, hmem, hkey⟩
    exact iff_of_true (.inl (preload_succeeds hall)) fun h => absurd h hfails

/-- The second backend fails to load, and the `unload` of the first one is cancelled. -/
def cancelledRollback : BackendRegistry where
  backends := [
    { key := ("layout", "1.0"), unload := some .cancelled },
    { key := ("ocr", "1.0"), load := some (.exception "RuntimeError") }]

/-- The call raises while the first backend stays loaded. -/
theorem cancelled_unload_left_loaded :
    (cancelledRollback.preload [("layout", "1.0"), ("ocr", "1.0")]).2.1.loaded =
        [("layout", "1.0")] ∧
      ¬ cancelledRollback.AllOrNothing [("layout", "1.0"), ("ocr", "1.0")] := by
  have hloaded : (cancelledRollback.preload [("layout", "1.0"), ("ocr", "1.0")]).2.1.loaded =
      [("layout", "1.0")] := by decide
  refine ⟨hloaded, fun hall => ?_⟩
  rcases hall with hsucceeded | hrolled
  · have hraised := hsucceeded.raised
    revert hraised
    decide
  · have hkept := hloaded.symm.trans hrolled.loaded
    revert hkept
    decide

end ParserServe
