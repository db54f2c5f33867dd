import ParserServe.Api.Files
import ParserServe.Control.Artifacts

/-! # Artifact uploads and the object store

`upload_stage_artifact` with the objects it writes and deletes, beside other calls of the endpoint
and all transactions that write no artifact.  `storage.write` stores the whole object or nothing,
and `storage.delete` succeeds.
-/

namespace ParserServe

open Foundation

/-! ## Objects -/

/-- What the store holds under a key. -/
def ObjectStore.object? (store : ObjectStore) (key : String) : Option (List UInt8) :=
  if key ∈ store.keys then some (store.contents key) else none

def ObjectStore.delete (store : ObjectStore) (key : String) : ObjectStore :=
  { store with keys := store.keys.filter (· ≠ key) }

/-! ## The endpoint -/

/-- How often a step calls `storage.delete`: a conflict found in the transaction is an `ApiError`,
and the handler of these deletes the object once more. -/
def UploadPhase.deletes : UploadPhase → UploadPhase → Nat
  | .stored, .answered (.conflict _) => 2
  | .stored, .answered _ => 1
  | .inserting _, .collided => 1
  | .inserting _, .answered .unavailable => 1
  | _, _ => 0

/-- Where a call is: it deletes its object `deletes` times before it goes on with `phase`, or an
exception that no handler names has ended it in `phase`. -/
inductive StoragePhase
  | going (deletes : Nat) (phase : UploadPhase)
  | raised (phase : UploadPhase)

/-- A call with the bytes that are uploaded. -/
structure StorageCall where
  upload : ArtifactUpload
  body : List UInt8
  phase : StoragePhase

inductive StorageEvent
  | upload (event : UploadEvent)
  | integrityError
  | delete
  | raise

/-- The store after an event of the upload. -/
def ObjectStore.afterUpload (store : ObjectStore) (key : String) (body : List UInt8) :
    UploadEvent → ObjectStore
  | .write true => store.write key body
  | _ => store

/-- One step of `upload_stage_artifact`; `none` when the call does not wait for the event. -/
def StorageCall.step (call : StorageCall) (retention : Option Nat) (db : Db)
    (store : ObjectStore) : StorageEvent → Option (Db × ObjectStore × StoragePhase)
  | .upload event =>
      match call.phase with
      | .going 0 phase =>
          (call.upload.step retention db phase event).map fun (db', phase') =>
            (db', store.afterUpload call.upload.storageKey call.body event,
              .going (phase.deletes phase') phase')
      | _ => none
  | .integrityError =>
      match call.phase with
      | .going 0 (.inserting _) => some (db, store, .going 1 .collided)
      | _ => none
  | .delete =>
      match call.phase with
      | .going (deletes + 1) phase =>
          some (db, store.delete call.upload.storageKey, .going deletes phase)
      | _ => none
  -- before the write the request and its settings may be refused; from then on it is an exception
  -- outside the handlers: a connection that is refused or timed out, a cancellation
  | .raise =>
      match call.phase with
      | .going 0 phase => some (db, store, .raised phase)
      -- a conflict leaves the session between its two deletes
      | .going 1 (.answered (.conflict record)) =>
          some (db, store, .raised (.answered (.conflict record)))
      | _ => none

/-- The call has returned or raised. -/
def StoragePhase.ended : StoragePhase → Prop
  | .going 0 (.answered _) | .raised _ => True
  | _ => False

/-- The object has been written, and neither recorded nor deleted. -/
def StoragePhase.unrecorded : StoragePhase → Bool
  | .going 0 .stored | .going 0 (.inserting _) => true
  | _ => false

/-! ## The service -/

structure StorageState where
  db : Db
  store : ObjectStore
  calls : List StorageCall

inductive StorageLabel
  | called (upload : ArtifactUpload)
  | advanced (upload : ArtifactUpload) (event : StorageEvent)
  | elsewhere

/-- The keys of recorded artifacts and of uploads. -/
def StorageState.artifactKeys (s : StorageState) : List String :=
  s.db.artifacts.map (·.storageKey) ++ s.calls.map (·.upload.storageKey)

/-- The retention service, which removes an expired artifact with its object, takes no step. -/
inductive StorageStep (retention : Option Nat) : StorageState → StorageLabel → StorageState → Prop
  | called {s : StorageState} {upload : ArtifactUpload} {body : List UInt8} :
      -- the key of a new artifact is drawn by `uuid4`
      upload.storageKey ∉ s.artifactKeys → s.store.object? upload.storageKey = none →
        StorageStep retention s (.called upload)
          { s with calls := s.calls ++ [⟨upload, body, .going 0 .requested⟩] }
  | advanced {s : StorageState} {before after : List StorageCall} {call : StorageCall}
      {event : StorageEvent} {db' : Db} {store' : ObjectStore} {phase : StoragePhase} :
      s.calls = before ++ call :: after →
      call.step retention s.db s.store event = some (db', store', phase) →
        StorageStep retention s (.advanced call.upload event)
          ⟨db', store', before ++ { call with phase := phase } :: after⟩
  | elsewhere {s : StorageState} {db' : Db} {store' : ObjectStore} :
      db'.artifacts = s.db.artifacts →
      (∀ key ∈ s.artifactKeys, store'.object? key = s.store.object? key) →
        StorageStep retention s .elsewhere { s with db := db', store := store' }

/-- The unique constraint over the stage and the idempotency digest; nulls are distinct. -/
def Db.IdempotencyUnique (db : Db) : Prop :=
  ∀ record ∈ db.artifacts, ∀ other ∈ db.artifacts, ∀ stageId digest,
    record.stageId = some stageId → record.idempotencyDigest = some digest →
      other.stageId = some stageId → other.idempotencyDigest = some digest → record = other

structure StorageStart (s : StorageState) : Prop where
  calls : s.calls = []
  idempotency : s.db.IdempotencyUnique
  objects : ∀ record ∈ s.db.artifacts, (s.store.object? record.storageKey).isSome

def artifactStorage (retention : Option Nat) : System StorageState StorageLabel where
  Initial := StorageStart
  Step := StorageStep retention

/-- No exception outside the handlers ends a call between its write and its record. -/
def StorageState.Handled (s : StorageState) : StorageLabel → Prop
  | .advanced upload .raise => ∀ call ∈ s.calls,
      call.upload.storageKey = upload.storageKey → call.phase.unrecorded = false
  | _ => True

instance StorageState.decidableHandled (s : StorageState) :
    ∀ label, Decidable (s.Handled label)
  | .called _ | .elsewhere => isTrue trivial
  | .advanced _ event =>
      match event with
      | .raise => inferInstanceAs (Decidable (∀ _ ∈ _, _ → _))
      | .upload _ | .integrityError | .delete => isTrue trivial

/-! ## Running a script of moves -/

inductive StorageMove
  | call (upload : ArtifactUpload) (body : List UInt8)
  | advance (position : Nat) (event : StorageEvent)

/-- The step of a move; for one that is not possible nothing happens elsewhere. -/
def StorageMove.take (retention : Option Nat) (s : StorageState) :
    StorageMove → StorageLabel × StorageState
  | .call upload body =>
      if upload.storageKey ∉ s.artifactKeys ∧ s.store.object? upload.storageKey = none then
        (.called upload, { s with calls := s.calls ++ [⟨upload, body, .going 0 .requested⟩] })
      else (.elsewhere, s)
  | .advance position event =>
      match s.calls[position]? with
      | none => (.elsewhere, s)
      | some found =>
          match found.step retention s.db s.store event with
          | none => (.elsewhere, s)
          | some (db', store', phase) =>
              let call := { found with phase := phase }
              (.advanced found.upload event,
                ⟨db', store', s.calls.take position ++ call :: s.calls.drop (position + 1)⟩)

theorem StorageMove.take_step (retention : Option Nat) (s : StorageState) (move : StorageMove) :
    StorageStep retention s (move.take retention s).1 (move.take retention s).2 := by
  have hidle : StorageStep retention s .elsewhere s := .elsewhere rfl fun _ _ => rfl
  unfold StorageMove.take
  split
  · split
    · next hfresh => exact .called hfresh.1 hfresh.2
    · exact hidle
  · split
    · exact hidle
    · next hcall =>
        obtain ⟨hlt, hget⟩ := List.getElem?_eq_some_iff.mp hcall
        split
        · exact hidle
        · next hstep =>
            refine .advanced ?_ hstep
            rw [← hget, List.getElem_cons_drop, List.take_append_drop]

end ParserServe
