import ParserServe.Control.Operations
import ParserServe.Worker.Agent

/-! # Artifact uploads

`upload_stage_artifact` of `api/routes/files.py` beside the control plane: workers upload the
artifacts of the leases they were granted.  A call authorizes the upload, stores the object,
authorizes it once more and looks its idempotency key up, and inserts the record; other
transactions may be taken between any two of these steps.
-/

namespace ParserServe

open Foundation

/-! ## The repository -/

/-- `ArtifactRepository.get_by_idempotency`. -/
def Db.artifactByIdempotency (db : Db) (stageId : String) (idempotencyDigest : Digest String) :
    Option ArtifactRecord :=
  db.artifacts.find? fun record =>
    record.stageId = some stageId ∧ record.idempotencyDigest = some idempotencyDigest

/-- The primary key and the unique constraints of the artifact table. -/
def Db.acceptsArtifact (db : Db) (record : ArtifactRecord) : Prop :=
  ∀ other ∈ db.artifacts, other.artifactId ≠ record.artifactId ∧
    other.storageKey ≠ record.storageKey ∧
      ¬(other.stageId = record.stageId ∧ other.idempotencyDigest = record.idempotencyDigest)

instance (db : Db) (record : ArtifactRecord) : Decidable (db.acceptsArtifact record) :=
  inferInstanceAs (Decidable (∀ _ ∈ _, _))

theorem artifactByIdempotency_eq_some {db : Db} {stageId : String} {digest : Digest String}
    {record : ArtifactRecord} (h : db.artifactByIdempotency stageId digest = some record) :
    record ∈ db.artifacts ∧ record.stageId = some stageId ∧
      record.idempotencyDigest = some digest := by
  refine ⟨List.mem_of_find?_eq_some h, ?_⟩
  simpa using List.find?_some h

/-! ## The endpoint -/

/-- An upload as it arrives, with the identifier drawn for the artifact and the URI under which
the storage keeps the object. -/
structure ArtifactUpload extends ArtifactContent where
  workerId : String
  stageId : String
  leaseToken : String
  idempotencyKey : String
  artifactId : String
  storageUri : String

/-- `f"artifacts/{artifact_id[9:11]}/{artifact_id}"`. -/
def ArtifactUpload.storageKey (upload : ArtifactUpload) : String :=
  "artifacts/" ++ String.ofList ((upload.artifactId.toList.drop 9).take 2) ++ "/" ++
    upload.artifactId

def ArtifactUpload.idempotencyDigest (upload : ArtifactUpload) : Digest String :=
  ⟨upload.idempotencyKey⟩

def ArtifactUpload.requestDigest (upload : ArtifactUpload) : Digest ArtifactContent :=
  ⟨upload.toArtifactContent⟩

/-- `ArtifactRepository.create`, as the endpoint calls it. -/
def ArtifactUpload.record (upload : ArtifactUpload) (taskId : String) (retention : Option Nat)
    (now : Time) : ArtifactRecord where
  toArtifactContent := upload.toArtifactContent
  artifactId := upload.artifactId
  taskId := taskId
  stageId := some upload.stageId
  workerId := some upload.workerId
  storageKey := upload.storageKey
  storageUri := upload.storageUri
  idempotencyDigest := some upload.idempotencyDigest
  requestDigest := some upload.requestDigest
  createdAt := now
  expiresAt := retention.map fun seconds => now + seconds

/-- The answers; `conflict` names the record whose content differs. -/
inductive UploadAnswer
  | created (record : ArtifactRecord)
  | replayed (record : ArtifactRecord)
  | conflict (record : ArtifactRecord)
  | refused (error : ServiceError)
  | notFound
  | tooLarge
  | unavailable

/-- How far a call has come. -/
inductive UploadPhase
  | requested
  | authorized
  | stored
  | inserting (taskId : String)
  | collided
  | answered (answer : UploadAnswer)

inductive UploadEvent
  | authorize (now : Time)
  | write (fits : Bool)
  | lookup (now : Time)
  | insert (now : Time)
  | lookupAgain
  | databaseError

/-- The answer when the idempotency key is in use. -/
def ArtifactUpload.found (upload : ArtifactUpload) (record : ArtifactRecord) : UploadAnswer :=
  if record.requestDigest = some upload.requestDigest then .replayed record else .conflict record

/-- The lookup runs in the transaction of the second authorization. -/
def ArtifactUpload.lookup (upload : ArtifactUpload) (db : Db) (now : Time) : UploadPhase :=
  match authorizeArtifactUpload db upload.stageId upload.workerId upload.leaseToken now with
  | .error error => .answered (.refused error)
  | .ok (_, none) => .answered .notFound
  | .ok (_, some _) =>
      match db.artifactByIdempotency upload.stageId upload.idempotencyDigest,
        db.stageForUpdate upload.stageId with
      | some record, _ => .answered (upload.found record)
      | none, some (task, _) => .inserting task.taskId
      | none, none => .answered .notFound

/-- One step of `upload_stage_artifact`; `none` when the call does not wait for the event. -/
def ArtifactUpload.step (upload : ArtifactUpload) (retention : Option Nat) (db : Db) :
    UploadPhase → UploadEvent → Option (Db × UploadPhase)
  | .requested, .authorize now => some (db,
      match authorizeArtifactUpload db upload.stageId upload.workerId upload.leaseToken now with
      | .error error => .answered (.refused error)
      | .ok (_, none) => .answered .notFound
      | .ok (_, some _) => .authorized)
  | .requested, .databaseError => some (db, .answered .unavailable)
  | .authorized, .write fits => some (db, if fits then .stored else .answered .tooLarge)
  | .stored, .lookup now => some (db, upload.lookup db now)
  | .stored, .databaseError => some (db, .answered .unavailable)
  | .inserting taskId, .insert now =>
      let record := upload.record taskId retention now
      if db.acceptsArtifact record then
        some ({ db with artifacts := db.artifacts ++ [record] }, .answered (.created record))
      else some (db, .collided)
  | .inserting _, .databaseError => some (db, .answered .unavailable)
  -- after an integrity error the record is looked up in a new session
  | .collided, .lookupAgain => some (db, .answered
      (match db.artifactByIdempotency upload.stageId upload.idempotencyDigest with
      | some record => upload.found record
      | none => .unavailable))
  | .collided, .databaseError => some (db, .answered .unavailable)
  | _, _ => none

/-! ## Workers -/

/-- `upload_artifact` of the worker's client for the artifact at `index`. -/
def LeasedStage.artifactUpload (lease : LeasedStage) (workerId : String) (index : Nat)
    (content : ArtifactContent) (artifactId storageUri : String) : ArtifactUpload where
  toArtifactContent := content
  workerId := workerId
  stageId := lease.stageId
  leaseToken := lease.leaseToken
  idempotencyKey := artifactKey lease index
  artifactId := artifactId
  storageUri := storageUri

/-- A call made under the lease that was granted as number `grant`. -/
structure UploadCall where
  grant : Nat
  upload : ArtifactUpload
  phase : UploadPhase

/-- `granted` holds every lease with the worker that received it, oldest first. -/
structure UploadState where
  db : Db
  granted : List (String × LeasedStage)
  calls : List UploadCall

inductive UploadLabel
  | control (label : Label)
  | requested (grant : Nat)
  | advanced (call : UploadCall) (phase : UploadPhase)

/-- The leases a step grants with the worker that receives them. -/
def Label.granted : Label → List (String × LeasedStage)
  | .returned (.lease request ..) (.leases stages) =>
      stages.map fun lease => (request.workerId, lease)
  | _ => []

inductive UploadStep (self : StageScheduler) (retention : Option Nat) :
    UploadState → UploadLabel → UploadState → Prop
  | control {s : UploadState} {label : Label} {db' : Db} : ControlStep self s.db label db' →
      UploadStep self retention s (.control label) ⟨db', s.granted ++ label.granted, s.calls⟩
  | requested {s : UploadState} {grant index : Nat} {workerId artifactId storageUri : String}
      {lease : LeasedStage} {content : ArtifactContent} :
      s.granted[grant]? = some (workerId, lease) →
      UploadStep self retention s (.requested grant) ⟨s.db, s.granted, s.calls ++
        [⟨grant, lease.artifactUpload workerId index content artifactId storageUri, .requested⟩]⟩
  | advanced {s : UploadState} {before after : List UploadCall} {call : UploadCall}
      {event : UploadEvent} {db' : Db} {phase : UploadPhase} :
      s.calls = before ++ call :: after →
      call.upload.step retention s.db call.phase event = some (db', phase) →
      UploadStep self retention s (.advanced call phase)
        ⟨db', s.granted, before ++ { call with phase := phase } :: after⟩

/-- The control plane with uploads; it starts without tasks and calls. -/
def uploads (self : StageScheduler) (retention : Option Nat) :
    System UploadState UploadLabel where
  Initial s := (controlPlane self).Initial s.db ∧ s.granted = [] ∧ s.calls = []
  Step := UploadStep self retention

/-! ## Running a script -/

inductive UploadAct
  | call (operation : Operation)
  | request (grant index : Nat) (content : ArtifactContent) (artifactId storageUri : String)
  | advance (position : Nat) (event : UploadEvent)

/-- The label of an act and the state it leads to; `none` when it cannot be taken. -/
def UploadAct.take (self : StageScheduler) (retention : Option Nat) (s : UploadState) :
    UploadAct → Option (UploadLabel × UploadState)
  | .call operation =>
      if operation.answeredInOrder s.db then
        match operation.exec self s.db with
        | .error _ => none
        | .ok (db', response) => some (.control (.returned operation response),
            ⟨db', s.granted ++ (Label.returned operation response).granted, s.calls⟩)
      else none
  | .request grant index content artifactId storageUri =>
      match s.granted[grant]? with
      | none => none
      | some (workerId, lease) => some (.requested grant, ⟨s.db, s.granted, s.calls ++
          [⟨grant, lease.artifactUpload workerId index content artifactId storageUri,
            .requested⟩]⟩)
  | .advance position event =>
      match s.calls[position]? with
      | none => none
      | some found =>
          match found.upload.step retention s.db found.phase event with
          | none => none
          | some (db', phase) => some (.advanced found phase, ⟨db', s.granted,
              s.calls.take position ++ { found with phase := phase } ::
                s.calls.drop (position + 1)⟩)

/-- The labels of a script and the state it leads to; it stops at an act that cannot be taken. -/
def runActs (self : StageScheduler) (retention : Option Nat) (s : UploadState) :
    List UploadAct → List UploadLabel × UploadState
  | [] => ([], s)
  | act :: acts =>
      match act.take self retention s with
      | none => ([], s)
      | some (label, t) =>
          let (labels, u) := runActs self retention t acts
          (label :: labels, u)

theorem uploadAct_step {self : StageScheduler} {retention : Option Nat} {s t : UploadState}
    {act : UploadAct} {label : UploadLabel} (h : act.take self retention s = some (label, t)) :
    UploadStep self retention s label t := by
  unfold UploadAct.take at h
  split at h
  · split at h
    · next hanswered =>
        split at h
        · cases h
        · next hexec =>
            cases h
            exact .control (.returned (answerable_of_answeredInOrder hanswered) hexec)
    · cases h
  · split at h
    · cases h
    · next hgrant =>
        cases h
        exact .requested hgrant
  · split at h
    · cases h
    · next hcall =>
        obtain ⟨hlt, hget⟩ := List.getElem?_eq_some_iff.mp hcall
        split at h
        · cases h
        · next hstep =>
            cases h
            refine .advanced ?_ hstep
            rw [← hget, List.getElem_cons_drop, List.take_append_drop]

theorem runActs_run (self : StageScheduler) (retention : Option Nat) (s : UploadState)
    (acts : List UploadAct) :
    (uploads self retention).Run s (runActs self retention s acts).1
      (runActs self retention s acts).2 := by
  induction acts generalizing s with
  | nil => exact .nil s
  | cons act acts ih =>
      unfold runActs
      split
      · exact .nil s
      · next htake => exact (System.Run.single (uploadAct_step htake)).trans (ih _)

end ParserServe
