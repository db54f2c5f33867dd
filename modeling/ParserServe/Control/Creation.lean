import ParserServe.Control.Operations

/-! # Concurrent task creation

`create_task` of `api/routes/tasks.py` with `TaskRepository.create` as the steps of its
transaction: any number of calls run beside each other and beside the other calls of the control
plane.  A row that is inserted and not committed yet is seen by no other transaction, but the
unique indexes make an insert of the same key wait until its transaction has ended.
-/

namespace ParserServe

open Foundation

/-- Two rows of the task table, or of their stages, that a unique index does not allow together:
the primary keys and the column `idempotency_digest`, where nulls are distinct. -/
def TaskRecord.clashes (a b : TaskRecord) : Prop :=
  a.taskId = b.taskId ∨ (a.idempotencyDigest ≠ none ∧ a.idempotencyDigest = b.idempotencyDigest) ∨
    ∃ stage ∈ a.stages, stage.stageId ∈ b.stages.map (·.stageId)

instance (a b : TaskRecord) : Decidable (a.clashes b) :=
  inferInstanceAs (Decidable (_ ∨ _ ∨ _))

/-- `CreateTaskData`, or the error of the endpoint; `failed` is an error of the database. -/
inductive CreationAnswer
  | accepted (taskId : String) (status : TaskStatus) (createdAt : Time)
  | conflict
  | refused (error : ServiceError)
  | failed
  deriving DecidableEq

/-- How far a call has come.  `second` says that `create` runs for the second time, after an
integrity error. -/
inductive CreationPhase
  | started
  | unused (second : Bool)
  | validated (second : Bool) (metadata : Option SourceMetadata)
  | inserted (record : TaskRecord)
  | flushed (record : TaskRecord) (payloads : List EventPayload)
  | collided
  | answered (answer : CreationAnswer)
  deriving DecidableEq

/-- The row a transaction has inserted and not committed. -/
def CreationPhase.row? : CreationPhase → Option TaskRecord
  | .inserted record | .flushed record _ => some record
  | _ => none

/-- The call looks its key up next. -/
def CreationPhase.looksUp : CreationPhase → Bool
  | .started | .collided => true
  | _ => false

structure CreationCall where
  request : CreateTaskRequest
  idempotencyKey : Option String
  now : Time
  phase : CreationPhase := .started

/-- The next step, with the values it draws or reads: what `_source_metadata` returns or raises,
and the identifiers of the new rows. -/
inductive CreationEvent
  | lookup
  | validate (metadata : Except ServiceError (Option SourceMetadata))
  | insert (taskId : String)
  | route (stageIds : Nat → String)
  | commit
  | databaseError

def TaskRecord.accepted (record : TaskRecord) : CreationAnswer :=
  .accepted record.taskId record.status record.createdAt

/-- The first query of `create`. -/
def CreationCall.lookup (call : CreationCall) (db : Db) (second : Bool) : CreationPhase :=
  match call.idempotencyKey.bind fun key =>
    db.tasks.find? (·.idempotencyDigest = some ⟨key⟩) with
  | none => .unused second
  | some record => .answered <|
      if record.requestDigest = ⟨call.request⟩ then record.accepted else .conflict

def CreationCall.validate (call : CreationCall) (db : Db) (second : Bool)
    (metadata : Except ServiceError (Option SourceMetadata)) : CreationPhase :=
  match validatePipeline db call.request.options false, metadata with
  | .error error, _ | .ok (), .error error => .answered (.refused error)
  | .ok (), .ok metadata => .validated second metadata

/-- An integrity error ends the transaction; with a key the endpoint calls `create` once more. -/
def CreationCall.collide (call : CreationCall) (second : Bool) : CreationPhase :=
  if second ∨ call.idempotencyKey = none then .answered .failed else .collided

/-- The flush of `create`; `none` while an index waits for another transaction. -/
def CreationCall.insert (call : CreationCall) (db : Db) (uncommitted : List TaskRecord)
    (second : Bool) (metadata : Option SourceMetadata) (taskId : String) :
    Option CreationPhase :=
  let record := newTask call.request call.idempotencyKey taskId metadata call.now
  if ∃ row ∈ uncommitted, row.clashes record then none
  else if ∃ task ∈ db.tasks, task.clashes record then some (call.collide second)
  else some (if second then .flushed record [] else .inserted record)

/-- Routing in a savepoint: three errors only undo the savepoint. -/
def CreationCall.route (call : CreationCall) (db : Db) (uncommitted : List TaskRecord)
    (record : TaskRecord) (stageIds : Nat → String) : Option CreationPhase :=
  match record.route db false stageIds call.now with
  | .ok (routed, payloads) =>
      if ∃ row ∈ uncommitted, row.clashes routed then none else some (.flushed routed payloads)
  | .error .taskAlreadyRouted | .error .taskRoutingUnavailable | .error .taskSourceUnresolved =>
      some (.flushed record [])
  | .error _ => some (call.collide false)

/-- The commit of the inserted row and its events. -/
def Db.commitTask (db : Db) (record : TaskRecord) (payloads : List EventPayload) (now : Time) :
    Db :=
  ({ db with tasks := db.tasks ++ [record] }).publishAll now
    (.taskCreated record.taskId :: payloads)

/-- One step of `create_task`, given the rows that the other transactions have not committed;
`none` when the call waits or does not take this step. -/
def CreationCall.step (call : CreationCall) (db : Db) (uncommitted : List TaskRecord) :
    CreationEvent → Option (Db × CreationPhase)
  | .lookup =>
      match call.phase with
      | .started => some (db, call.lookup db false)
      | .collided => some (db, call.lookup db true)
      | _ => none
  | .validate metadata =>
      match call.phase with
      | .unused second => some (db, call.validate db second metadata)
      | _ => none
  | .insert taskId =>
      match call.phase with
      | .validated second metadata =>
          (call.insert db uncommitted second metadata taskId).map (db, ·)
      | _ => none
  | .route stageIds =>
      match call.phase with
      | .inserted record => (call.route db uncommitted record stageIds).map (db, ·)
      | _ => none
  | .commit =>
      match call.phase with
      | .flushed record payloads =>
          some (db.commitTask record payloads call.now, .answered record.accepted)
      | _ => none
  | .databaseError =>
      match call.phase with
      | .answered _ => none
      | _ => some (db, .answered .failed)

structure CreationState where
  db : Db
  calls : List CreationCall

/-- The rows of the transactions that have not been committed. -/
def uncommittedRows (calls : List CreationCall) : List TaskRecord :=
  calls.filterMap (·.phase.row?)

inductive CreationLabel
  | control (label : Label)
  | requested (position : Nat)
  | advanced (position : Nat)

/-- The call that takes the step. -/
def CreationLabel.caller? : CreationLabel → Option Nat
  | .control _ | .requested _ => none
  | .advanced position => some position

/-- Another call of the control plane commits no row that clashes with an uncommitted one. -/
inductive CreationStep (self : StageScheduler) :
    CreationState → CreationLabel → CreationState → Prop
  | control {s : CreationState} {label : Label} {db' : Db} : ControlStep self s.db label db' →
      (∀ row ∈ uncommittedRows s.calls, ∀ task ∈ db'.tasks, ¬ task.clashes row) →
      CreationStep self s (.control label) ⟨db', s.calls⟩
  | requested {s : CreationState} {request : CreateTaskRequest} {idempotencyKey : Option String}
      {now : Time} : CreationStep self s (.requested s.calls.length)
        ⟨s.db, s.calls ++ [⟨request, idempotencyKey, now, .started⟩]⟩
  | advanced {s : CreationState} {before after : List CreationCall} {call : CreationCall}
      {event : CreationEvent} {db' : Db} {phase : CreationPhase} :
      s.calls = before ++ call :: after →
      call.step s.db (uncommittedRows (before ++ after)) event = some (db', phase) →
      CreationStep self s (.advanced before.length)
        ⟨db', before ++ { call with phase := phase } :: after⟩

/-- The service starts without tasks, events and calls. -/
def creations (self : StageScheduler) : System CreationState CreationLabel where
  Initial s := (controlPlane self).Initial s.db ∧ s.calls = []
  Step := CreationStep self

/-! ## Running a script -/

inductive CreationAct
  | arrive (request : CreateTaskRequest) (idempotencyKey : Option String) (now : Time)
  | advance (position : Nat) (event : CreationEvent)

/-- The label of an act and the state it leads to; `none` when it cannot be taken. -/
def CreationAct.take (s : CreationState) : CreationAct → Option (CreationLabel × CreationState)
  | .arrive request idempotencyKey now => some (.requested s.calls.length,
      ⟨s.db, s.calls ++ [⟨request, idempotencyKey, now, .started⟩]⟩)
  | .advance position event =>
      match s.calls[position]? with
      | none => none
      | some call =>
          match call.step s.db (uncommittedRows (s.calls.eraseIdx position)) event with
          | none => none
          | some (db', phase) => some (.advanced position, ⟨db', s.calls.take position ++
              { call with phase := phase } :: s.calls.drop (position + 1)⟩)

/-- The labels of a script and the state it leads to; it stops at an act that cannot be taken. -/
def runCreations (s : CreationState) : List CreationAct → List CreationLabel × CreationState
  | [] => ([], s)
  | act :: acts =>
      match act.take s with
      | none => ([], s)
      | some (label, t) =>
          let (labels, u) := runCreations t acts
          (label :: labels, u)

theorem creationAct_step {self : StageScheduler} {s t : CreationState} {act : CreationAct}
    {label : CreationLabel} (h : act.take s = some (label, t)) : CreationStep self s label t := by
  unfold CreationAct.take at h
  split at h
  · cases h
    exact .requested
  · split at h
    · cases h
    · next position _ _ call hcall =>
        obtain ⟨hlt, hget⟩ := List.getElem?_eq_some_iff.mp hcall
        split at h
        · cases h
        · next hstep =>
            cases h
            have hsplit :
                s.calls = s.calls.take position ++ call :: s.calls.drop (position + 1) := by
              rw [← hget, List.getElem_cons_drop, List.take_append_drop]
            rw [List.eraseIdx_eq_take_drop_succ] at hstep
            have htaken : CreationStep self s (.advanced (s.calls.take position).length) _ :=
              .advanced hsplit hstep
            rwa [List.length_take_of_le hlt.le] at htaken

theorem runCreations_run (self : StageScheduler) (s : CreationState) (acts : List CreationAct) :
    (creations self).Run s (runCreations s acts).1 (runCreations s acts).2 := by
  induction acts generalizing s with
  | nil => exact .nil s
  | cons act acts ih =>
      unfold runCreations
      split
      · exact .nil s
      · next htake => exact (System.Run.single (creationAct_step htake)).trans (ih _)

end ParserServe
