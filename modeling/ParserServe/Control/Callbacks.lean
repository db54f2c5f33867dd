import ParserServe.Foundation.Runs
import ParserServe.Persistence.Callbacks

/-! # Callback dispatchers

`control/callbacks.py`: any number of `CallbackDispatcher.run_once` loops, each of which
materializes, claims a delivery, sends the request outside of any transaction and reports
the result in a transaction of its own, beside operators who retry deliveries and the rest of
the service, which writes no callback table.
-/

namespace ParserServe

open Foundation

/-- A request that was sent for a claim and not reported yet. -/
structure CallbackClaim where
  deliveryId : String
  sequence : Nat
  attemptNumber : Nat
  deriving DecidableEq

structure CallbackDispatcher where
  timing : RetryTiming
  claimTimeoutSeconds : ℚ

structure CallbackState where
  db : Db
  inFlight : List CallbackClaim

inductive CallbackCall
  | materialize (maximumAttempts limit : Nat) (deliveryIds : Nat → String) (now : Time)
  | claimDue (lockedFirst lockedSecond : List String) (time : CallTime)
  | recordResult (attemptId : String) (claim : CallbackClaim) (result : CallbackResult)
      (time : CallTime)
  | retry (deliveryId : String) (time : CallTime)

inductive CallbackResponse
  | materialized (records : List CallbackDeliveryRecord)
  | delivery (record : Option CallbackDeliveryRecord)

def CallbackCall.exec (self : CallbackDispatcher) (db : Db) :
    CallbackCall → Except CallbackError (Db × CallbackResponse)
  | .materialize maximumAttempts limit deliveryIds now => do
      let (db, records) ← ParserServe.materialize db maximumAttempts limit deliveryIds now
      .ok (db, .materialized records)
  | .claimDue lockedFirst lockedSecond time =>
      let (db, record) :=
        ParserServe.claimDue db self.claimTimeoutSeconds lockedFirst lockedSecond time
      .ok (db, .delivery record)
  | .recordResult attemptId claim result time => do
      let (db, record) ← ParserServe.recordResult db self.timing attemptId claim.deliveryId
        claim.sequence claim.attemptNumber result time
      .ok (db, .delivery record)
  | .retry deliveryId time => do
      let (db, record) ← retryDelivery db deliveryId time
      .ok (db, .delivery record)

/-- A dispatcher reports on a request it has sent. -/
def CallbackCall.Sent (inFlight : List CallbackClaim) : CallbackCall → Prop
  | .recordResult _ claim _ _ => claim ∈ inFlight
  | _ => True

def CallbackDeliveryRecord.request (record : CallbackDeliveryRecord) : CallbackClaim :=
  ⟨record.deliveryId, record.attemptSequence, record.attempt⟩

/-- A claim sends a request; a report, also one that raises, ends it. -/
def CallbackCall.inFlightAfter (inFlight : List CallbackClaim) :
    CallbackCall → Option CallbackResponse → List CallbackClaim
  | .claimDue .., some (.delivery (some record)) => inFlight ++ [record.request]
  | .recordResult _ claim _ _, _ => inFlight.erase claim
  | _, _ => inFlight

inductive CallbackLabel
  | returned (call : CallbackCall) (response : CallbackResponse)
  | raised (call : CallbackCall) (error : CallbackError)
  | elsewhere

inductive CallbackStep (self : CallbackDispatcher) :
    CallbackState → CallbackLabel → CallbackState → Prop
  | returned {s : CallbackState} {db' : Db} {call : CallbackCall} {response : CallbackResponse} :
      call.Sent s.inFlight → call.exec self s.db = .ok (db', response) →
        CallbackStep self s (.returned call response)
          ⟨db', call.inFlightAfter s.inFlight (some response)⟩
  | raised {s : CallbackState} {call : CallbackCall} {error : CallbackError} :
      call.Sent s.inFlight → call.exec self s.db = .error error →
        CallbackStep self s (.raised call error) ⟨s.db, call.inFlightAfter s.inFlight none⟩
  | elsewhere {s : CallbackState} {db' : Db} : db'.deliveries = s.db.deliveries →
      db'.attempts = s.db.attempts → CallbackStep self s .elsewhere ⟨db', s.inFlight⟩

/-- A service starts with no delivery. -/
def callbacks (self : CallbackDispatcher) : System CallbackState CallbackLabel where
  Initial s := s.db.deliveries = [] ∧ s.db.attempts = [] ∧ s.inFlight = []
  Step := CallbackStep self

/-! ## What a label says of a delivery -/

/-- The attempt of a delivery that a step claims. -/
def CallbackLabel.claimed? (deliveryId : String) : CallbackLabel → Option Nat
  | .returned (.claimDue ..) (.delivery (some record)) =>
      if record.deliveryId = deliveryId then some record.attemptSequence else none
  | _ => none

/-- The delivery that a step retries by hand. -/
def CallbackLabel.retried? : CallbackLabel → Option String
  | .returned (.retry deliveryId _) (.delivery (some _)) => some deliveryId
  | _ => none

/-- The delivery and the attempt whose result a step takes. -/
def CallbackLabel.reported? : CallbackLabel → Option (String × Nat)
  | .returned (.recordResult _ claim _ _) (.delivery (some _)) =>
      some (claim.deliveryId, claim.sequence)
  | _ => none

/-- The attempts of a delivery in the order in which they were claimed. -/
def claimsOf (deliveryId : String) (labels : List CallbackLabel) : List Nat :=
  labels.filterMap (·.claimed? deliveryId)

/-- The clock of a call. -/
def CallbackCall.time : CallbackCall → Time
  | .materialize _ _ _ now => now
  | .claimDue _ _ time | .recordResult _ _ _ time | .retry _ time => time.now

def CallbackLabel.time? : CallbackLabel → Option Time
  | .returned call _ | .raised call _ => some call.time
  | .elsewhere => none

/-! ## Running a script of calls -/

def CallbackCall.take (self : CallbackDispatcher) (s : CallbackState) (call : CallbackCall) :
    CallbackLabel × CallbackState :=
  match call.exec self s.db with
  | .ok (db, response) =>
      (.returned call response, ⟨db, call.inFlightAfter s.inFlight (some response)⟩)
  | .error error => (.raised call error, ⟨s.db, call.inFlightAfter s.inFlight none⟩)

instance (inFlight : List CallbackClaim) : DecidablePred (CallbackCall.Sent inFlight)
  | .recordResult _ claim _ _ => inferInstanceAs (Decidable (claim ∈ inFlight))
  | .materialize .. | .claimDue .. | .retry .. => isTrue trivial

/-- The labels of a script and the state it leads to; it stops where a report is not due. -/
def runCalls (self : CallbackDispatcher) (s : CallbackState) :
    List CallbackCall → List CallbackLabel × CallbackState
  | [] => ([], s)
  | call :: calls =>
      if call.Sent s.inFlight then
        let (label, t) := call.take self s
        let (labels, u) := runCalls self t calls
        (label :: labels, u)
      else ([], s)

theorem take_step {self : CallbackDispatcher} {s : CallbackState} {call : CallbackCall}
    (h : call.Sent s.inFlight) :
    CallbackStep self s (call.take self s).1 (call.take self s).2 := by
  unfold CallbackCall.take
  split
  · next hexec => exact .returned h hexec
  · next hexec => exact .raised h hexec

theorem runCalls_run (self : CallbackDispatcher) (s : CallbackState) (calls : List CallbackCall) :
    (callbacks self).Run s (runCalls self s calls).1 (runCalls self s calls).2 := by
  induction calls generalizing s with
  | nil => exact .nil s
  | cons call calls ih =>
      unfold runCalls
      split
      · next hsent => exact (System.Run.single (take_step hsent)).trans (ih _)
      · exact .nil s

end ParserServe
