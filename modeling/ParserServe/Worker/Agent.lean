import ParserServe.Foundation.Runs
import ParserServe.Schema.Worker

/-! # The worker agent

`worker/agent.py`: one poll leases a batch of stages and executes them side by side under
`asyncio.gather`.  The execution of a lease is a coroutine with two tasks of its own, the
work and the lease renewal; every call to the control plane is a point where the others may
run.  An event is what the environment decides next: the answer to a call in flight, what
the source or the backend came to, or that a coroutine is resumed.
-/

namespace ParserServe

open Foundation

/-- The answer to a call: a success, with the URI of an uploaded artifact, or a rejection,
which the client turns into `ControlPlaneError`. -/
inductive Answer
  | accepted (storageUri : String)
  | rejected
  deriving DecidableEq

/-- The calls of a lease, all made with its stage and token. -/
inductive Call
  | start
  | renew
  | progress (progressPercent : ℚ)
  | uploadArtifact (idempotencyKey : String)
  | complete (request : CompleteStageRequest)
  deriving DecidableEq

/-- The exceptions the handlers of `_execute` tell apart. -/
inductive WorkError
  | timeout
  | backendExecution (message : String) (retryable : Bool)
  | other (typeName : String)
  deriving DecidableEq

def controlPlaneError : String := "ControlPlaneError"

structure BackendOutput where
  artifacts : List String
  primaryArtifactIndex : Nat := 0
  index_valid : primaryArtifactIndex < artifacts.length := by decide
  deriving DecidableEq

/-- What happens to the coroutines of one lease. -/
inductive Event
  | began
  | answered (call : Call) (answer : Answer)
  | resolved (result : Except WorkError Unit)
  | executed (result : Except WorkError BackendOutput)
  | woke
  deriving DecidableEq

/-! ## The two tasks of a lease -/

/-- The task of `_produce_result_uri`: the source is resolved and preprocessed, the backend
runs, its artifacts are uploaded. -/
inductive Work
  | resolving
  | executing
  | uploading (output : BackendOutput) (uris : List String)
  | finished (result : Except WorkError String)
  deriving DecidableEq

/-- The task of `_renew_loop`, which only a rejected renewal ends by itself. -/
inductive Renewal
  | waiting
  | failed
  deriving DecidableEq

def artifactKey (lease : LeasedStage) (index : Nat) : String :=
  lease.stageId ++ ":" ++ toString lease.attempt ++ ":" ++ toString index

/-- After an upload: the next artifact, or the URI of the primary one. -/
def Work.uploaded (output : BackendOutput) (uris : List String) : Work :=
  if uris.length < output.artifacts.length then .uploading output uris
  else match uris[output.primaryArtifactIndex]? with
    | some uri => .finished (.ok uri)
    | none => .finished (.error (.other "IndexError"))

/-- A rejected progress report is raised inside the backend, which may go on or give up. -/
def Work.step (lease : LeasedStage) : Work → Event → Option Work
  | .resolving, .resolved (.ok ()) => some .executing
  | .resolving, .resolved (.error error) => some (.finished (.error error))
  | .executing, .answered (.progress _) _ => some .executing
  | .executing, .executed (.ok output) => some (.uploading output [])
  | .executing, .executed (.error error) => some (.finished (.error error))
  | .uploading output uris, .answered (.uploadArtifact key) answer =>
      if key = artifactKey lease uris.length then
        match answer with
        | .accepted uri => some (.uploaded output (uris ++ [uri]))
        | .rejected => some (.finished (.error (.other controlPlaneError)))
      else none
  | _, _ => none

def Renewal.step : Renewal → Answer → Option Renewal
  | .waiting, .accepted _ => some .waiting
  | .waiting, .rejected => some .failed
  | .failed, _ => none

/-! ## The errors reported -/

/-- The code points of Unicode's `White_Space`. -/
def whiteSpace (c : Char) : Bool :=
  (9 ≤ c.toNat && c.toNat ≤ 13) || (0x2000 ≤ c.toNat && c.toNat ≤ 0x200a) ||
    [0x20, 0x85, 0xa0, 0x1680, 0x2028, 0x2029, 0x202f, 0x205f, 0x3000].contains c.toNat

/-- The validator `NonEmptyStr`: stripped, and refused when nothing is left. -/
def nonEmptyStr (text : String) : Option String :=
  match ((text.toList.dropWhile whiteSpace).reverse.dropWhile whiteSpace).reverse with
  | [] => none
  | stripped => some (String.ofList stripped)

/-- The handlers of `_execute`; a message that is blank fails the validation of
`ErrorDetail`, and the validation error leaves the handler. -/
def errorDetail (lease : LeasedStage) : WorkError → Option ErrorDetail
  | .timeout => some
      { code := .timeout
        message := "Backend execution exceeded " ++ toString lease.timeoutSeconds ++ " seconds"
        retryable := true }
  | .backendExecution message retryable => (nonEmptyStr message).map fun message =>
      { code := .backendNotAvailable, message := message, retryable := retryable }
  | .other typeName => some
      { code := .internalError
        message := "Worker execution failed: " ++ typeName
        retryable := false }

def renewalError : ErrorDetail where
  code := .backendNotAvailable
  message := "Stage lease renewal failed: " ++ controlPlaneError
  retryable := true

def completionError : ErrorDetail where
  code := .internalError
  message := "Worker execution failed: " ++ controlPlaneError
  retryable := false

def succeededRequest (workerId : String) (lease : LeasedStage) (resultUri : String) :
    CompleteStageRequest :=
  .success workerId lease.leaseToken (some resultUri)

def failedRequest (workerId : String) (lease : LeasedStage) (error : ErrorDetail) :
    CompleteStageRequest :=
  .failure workerId lease.leaseToken error

/-! ## The execution of a lease -/

/-- Where `execute` is suspended.  `racing` waits for the first of the two tasks, `completing`
and `failing` for the answer to a completion; `returned` and `raised` are its two ends. -/
inductive Phase
  | scheduled
  | starting
  | racing (work : Work) (renewal : Renewal)
  | completing (resultUri : String) (renewal : Renewal)
  | failing (error : ErrorDetail)
  | returned (succeeded : Bool)
  | raised (typeName : String)
  deriving DecidableEq

/-- `_execute` after `asyncio.wait`; a renewal that failed is looked at before the work. -/
def wake (lease : LeasedStage) : Work → Renewal → Option Phase
  | _, .failed => some (.failing renewalError)
  | .finished (.ok resultUri), .waiting => some (.completing resultUri .waiting)
  | .finished (.error error), .waiting =>
      match errorDetail lease error with
      | some detail => some (.failing detail)
      | none => some (.raised "ValidationError")
  | _, .waiting => none

/-- One event of `execute`; `start` and the failed completion stand outside its `try`. -/
def Phase.step (workerId : String) (lease : LeasedStage) : Phase → Event → Option Phase
  | .scheduled, .began => some .starting
  | .starting, .answered .start (.accepted _) => some (.racing .resolving .waiting)
  | .starting, .answered .start .rejected => some (.raised controlPlaneError)
  | .racing work renewal, event =>
      match event with
      | .woke => wake lease work renewal
      | .answered .renew answer => (renewal.step answer).map (.racing work)
      | event => (work.step lease event).map (.racing · renewal)
  | .completing resultUri renewal, .answered call answer =>
      if call = .renew then (renewal.step answer).map (.completing resultUri)
      else if call = .complete (succeededRequest workerId lease resultUri) then
        match answer with
        | .accepted _ => some (.returned true)
        | .rejected => some (.failing completionError)
      else none
  | .failing error, .answered call answer =>
      if call = .complete (failedRequest workerId lease error) then
        match answer with
        | .accepted _ => some (.returned false)
        | .rejected => some (.raised controlPlaneError)
      else none
  | _, _ => none

def Phase.ended : Phase → Bool
  | .returned _ | .raised _ => true
  | _ => false

/-! ## A batch of leases -/

structure Execution where
  lease : LeasedStage
  phase : Phase
  deriving DecidableEq

/-- What `run_once` came to. -/
inductive Outcome
  | gathering
  | returned (count : Nat)
  | raised (typeName : String)
  deriving DecidableEq

structure AgentState where
  executions : List Execution
  activeCount : Int
  outcome : Outcome
  deriving DecidableEq

/-- `run_once` with the leases it got. -/
def AgentState.start (leases : List LeasedStage) (activeCount : Int) : AgentState where
  executions := leases.map (⟨·, .scheduled⟩)
  activeCount := activeCount
  outcome := .gathering

inductive AgentLabel
  | lease (index : Nat) (event : Event)
  | gathered
  | escaped (index : Nat)
  deriving DecidableEq

/-- The change `execute` makes to `_active_count`: up as it begins, down in its `finally`. -/
def activeChange (event : Event) (phase : Phase) : Int :=
  if event = .began then 1 else if phase.ended then -1 else 0

def Phase.hasReturned : Phase → Bool
  | .returned _ => true
  | _ => false

/-- `gather` returns when every execution has returned and hands the first exception on;
the other executions are tasks of their own and go on. -/
def AgentState.step (workerId : String) (s : AgentState) : AgentLabel → Option AgentState
  | .lease index event => do
      let execution ← s.executions[index]?
      let phase ← execution.phase.step workerId execution.lease event
      some { s with
        executions := s.executions.set index { execution with phase := phase }
        activeCount := s.activeCount + activeChange event phase }
  | .gathered =>
      if s.outcome = .gathering ∧
          ∀ execution ∈ s.executions, execution.phase.hasReturned then
        some { s with outcome := .returned s.executions.length }
      else none
  | .escaped index => do
      let execution ← s.executions[index]?
      match s.outcome, execution.phase with
      | .gathering, .raised typeName => some { s with outcome := .raised typeName }
      | _, _ => none

def workerAgent (workerId : String) : System AgentState AgentLabel :=
  .ofStep (fun s => ∃ leases count, s = .start leases count) (AgentState.step workerId)

/-- `_poll_loop` between two polls, or after the exception that ended it. -/
inductive PollState
  | polling (activeCount : Int)
  | ended (typeName : String)
  deriving DecidableEq

/-- One poll: a batch and the events until `run_once` returns or raises. -/
inductive PollStep (agent : System AgentState AgentLabel) :
    PollState → List LeasedStage × List AgentLabel → PollState → Prop
  | returned {count : Int} {n : Nat} {leases : List LeasedStage} {labels : List AgentLabel}
      {s : AgentState} : agent.Run (.start leases count) labels s → s.outcome = .returned n →
        PollStep agent (.polling count) (leases, labels) (.polling s.activeCount)
  | raised {count : Int} {typeName : String} {leases : List LeasedStage}
      {labels : List AgentLabel} {s : AgentState} : agent.Run (.start leases count) labels s →
      s.outcome = .raised typeName →
        PollStep agent (.polling count) (leases, labels) (.ended typeName)

def pollLoop (agent : System AgentState AgentLabel) :
    System PollState (List LeasedStage × List AgentLabel) where
  Initial p := ∃ count, p = .polling count
  Step := PollStep agent

end ParserServe
