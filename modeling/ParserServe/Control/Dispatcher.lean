import ParserServe.Control.Callbacks

/-! # Dispatcher loops in real time

`CallbackDispatcher.run_once` of `control/callbacks.py`: a pass reads the clock once, materializes,
and then up to `batch_size` times claims a delivery, sends its request and reports the result, all
with the time it read at its start.  Any number of passes run beside each other and beside the
requests of the API, which use the time of the request.
-/

namespace ParserServe

open Foundation

inductive PassPhase
  | materializing
  | claiming
  | sending (claim : CallbackClaim)
  | finished
  deriving DecidableEq

/-- A call of `run_once`: the time it read at its start and the turns of its loop that are left. -/
structure RunningPass where
  current : Time
  remaining : Nat
  phase : PassPhase
  deriving DecidableEq

/-- The pass after one of its transactions, where `none` means that it does not make the call. -/
def RunningPass.next (pass : RunningPass) : CallbackLabel → Option RunningPass
  | .returned (.materialize _ limit _ now) _ | .raised (.materialize _ limit _ now) _ =>
      if pass.phase = .materializing ∧ limit = 500 ∧ now = pass.current then
        some { pass with phase := .claiming }
      else none
  | .returned (.claimDue _ _ time) (.delivery answer) =>
      if pass.phase = .claiming ∧ time.now = pass.current then
        match pass.remaining, answer with
        | 0, _ => none
        | _ + 1, none => some { pass with phase := .finished }
        | remaining + 1, some record =>
            some { pass with remaining := remaining, phase := .sending record.request }
      else none
  | .returned (.recordResult _ claim _ time) _ =>
      if pass.phase = .sending claim ∧ time.now = pass.current then
        some { pass with phase := .claiming }
      else none
  | .raised (.recordResult _ claim _ time) _ =>
      if pass.phase = .sending claim ∧ time.now = pass.current then
        some { pass with phase := .finished }
      else none
  | _ => none

/-- What other parts of the service do at a time: an operator's retry, a list request that
materializes, and writes to other tables. -/
def CallbackLabel.RequestedAt (clock : Time) : CallbackLabel → Prop
  | .returned (.materialize _ _ _ now) _ | .raised (.materialize _ _ _ now) _ => now = clock
  | .returned (.retry _ time) _ | .raised (.retry _ time) _ =>
      time.now = clock ∧ time.began = clock
  | .elsewhere => True
  | _ => False

/-- The transactions of a pass begin when they are made, whatever time the pass works with. -/
def CallbackLabel.BegunAt (clock : Time) : CallbackLabel → Prop
  | .returned (.claimDue _ _ time) _ | .returned (.recordResult _ _ _ time) _
  | .raised (.recordResult _ _ _ time) _ => time.began = clock
  | _ => True

instance (clock : Time) : DecidablePred (CallbackLabel.BegunAt clock)
  | .returned (.claimDue _ _ time) _ | .returned (.recordResult _ _ _ time) _
  | .raised (.recordResult _ _ _ time) _ => inferInstanceAs (Decidable (time.began = clock))
  | .returned (.materialize ..) _ | .returned (.retry ..) _ | .raised (.materialize ..) _
  | .raised (.claimDue ..) _ | .raised (.retry ..) _ | .elsewhere => isTrue trivial

/-- The database with the requests in flight, the real time and every pass so far. -/
structure DispatchState where
  callbacks : CallbackState
  clock : Time
  passes : List RunningPass

inductive DispatchLabel
  | waited
  | started
  | called (pass : Nat) (label : CallbackLabel)
  | stopped (pass : Nat)
  | requested (label : CallbackLabel)

inductive DispatchStep (self : CallbackDispatcher) (batchSize : Nat) :
    DispatchState → DispatchLabel → DispatchState → Prop
  | waited {s : DispatchState} {clock : Time} : s.clock ≤ clock →
      DispatchStep self batchSize s .waited { s with clock := clock }
  | started {s : DispatchState} :
      DispatchStep self batchSize s .started
        { s with passes := s.passes ++ [⟨s.clock, batchSize, .materializing⟩] }
  | called {s : DispatchState} {i : Nat} {pass pass' : RunningPass} {label : CallbackLabel}
      {callbacks : CallbackState} : s.passes[i]? = some pass → pass.next label = some pass' →
        label.BegunAt s.clock → CallbackStep self s.callbacks label callbacks →
        DispatchStep self batchSize s (.called i label)
          ⟨callbacks, s.clock, s.passes.set i pass'⟩
  | stopped {s : DispatchState} {i : Nat} {pass : RunningPass} : s.passes[i]? = some pass →
      DispatchStep self batchSize s (.stopped i)
        { s with passes := s.passes.set i { pass with phase := .finished } }
  | requested {s : DispatchState} {label : CallbackLabel} {callbacks : CallbackState} :
      label.RequestedAt s.clock → CallbackStep self s.callbacks label callbacks →
        DispatchStep self batchSize s (.requested label) ⟨callbacks, s.clock, s.passes⟩

/-- A service starts with no delivery and no pass. -/
def dispatchers (self : CallbackDispatcher) (batchSize : Nat) :
    System DispatchState DispatchLabel where
  Initial s := (ParserServe.callbacks self).Initial s.callbacks ∧ s.passes = []
  Step := DispatchStep self batchSize

/-- The delivery and the attempt of a claim, and the time with which its pass works. -/
structure ClaimMade where
  deliveryId : String
  sequence : Nat
  now : Time
  deriving DecidableEq

def DispatchLabel.claim? : DispatchLabel → Option ClaimMade
  | .called _ (.returned (.claimDue _ _ time) (.delivery (some record))) =>
      some ⟨record.deliveryId, record.attemptSequence, time.now⟩
  | _ => none

/-- The delivery and the attempt whose result a step takes. -/
def DispatchLabel.reported? : DispatchLabel → Option (String × Nat)
  | .called _ label => label.reported?
  | _ => none

/-! ## Running a script of moves -/

inductive DispatchMove
  | wait (clock : Time)
  | start
  | call (pass : Nat) (made : CallbackCall)

/-- The step of a move; one that is not possible waits for no time. -/
def DispatchMove.take (self : CallbackDispatcher) (batchSize : Nat) (s : DispatchState) :
    DispatchMove → DispatchLabel × DispatchState
  | .wait clock => (.waited, { s with clock := max s.clock clock })
  | .start => (.started, { s with passes := s.passes ++ [⟨s.clock, batchSize, .materializing⟩] })
  | .call i made =>
      if made.Sent s.callbacks.inFlight ∧
          (made.take self s.callbacks).1.BegunAt s.clock then
        match (s.passes[i]?).bind (·.next (made.take self s.callbacks).1) with
        | none => (.waited, s)
        | some pass =>
            (.called i (made.take self s.callbacks).1,
              ⟨(made.take self s.callbacks).2, s.clock, s.passes.set i pass⟩)
      else (.waited, s)

def runMoves (self : CallbackDispatcher) (batchSize : Nat) (s : DispatchState) :
    List DispatchMove → List DispatchLabel × DispatchState
  | [] => ([], s)
  | move :: moves =>
      let (label, t) := move.take self batchSize s
      let (labels, u) := runMoves self batchSize t moves
      (label :: labels, u)

theorem DispatchMove.take_step (self : CallbackDispatcher) (batchSize : Nat) (s : DispatchState)
    (move : DispatchMove) :
    DispatchStep self batchSize s (move.take self batchSize s).1
      (move.take self batchSize s).2 := by
  have hwaited : DispatchStep self batchSize s .waited s := .waited (le_refl s.clock)
  cases move with
  | wait clock => exact .waited (le_max_left _ _)
  | start => exact .started
  | call i made =>
      simp only [DispatchMove.take]
      split
      · next hsent =>
          split
          · exact hwaited
          · next pass hnext =>
              obtain ⟨_, hpass, hnext⟩ := Option.bind_eq_some_iff.mp hnext
              exact .called hpass hnext hsent.2 (ParserServe.take_step hsent.1)
      · exact hwaited

theorem runMoves_run (self : CallbackDispatcher) (batchSize : Nat) (s : DispatchState)
    (moves : List DispatchMove) :
    (dispatchers self batchSize).Run s (runMoves self batchSize s moves).1
      (runMoves self batchSize s moves).2 := by
  induction moves generalizing s with
  | nil => exact .nil s
  | cons move moves ih =>
      have hstep : (dispatchers self batchSize).Step s (move.take self batchSize s).1
          (move.take self batchSize s).2 := DispatchMove.take_step self batchSize s move
      exact (System.Run.single hstep).trans (ih _)

end ParserServe
