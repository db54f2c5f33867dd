import ParserServe.Control.Operations
import ParserServe.Control.Retention

/-! # Uploaded files

Uploads and their downloads in `api/routes/files.py`, beside the calls of the control plane and the
passes of the retention service.  A pass reads the active tasks first and deletes afterwards, and
its commit may fail when objects are already gone.
-/

namespace ParserServe

open Foundation

/-! ## Downloads -/

/-- The objects of the store: the keys that hold one, and their bytes. -/
structure ObjectStore where
  keys : List String
  contents : String → List UInt8

def ObjectStore.write (store : ObjectStore) (key : String) (content : List UInt8) :
    ObjectStore where
  keys := store.keys ++ [key]
  contents := Function.update store.contents key content

/-- `FileRepository.get`. -/
def FileRepository.get (db : Db) (fileId : String) (now : Option Time) :
    Option UploadedFileRecord :=
  (db.uploads.find? (·.fileId = fileId)).filter fun record =>
    !(now.any fun now => record.expiresAt.any fun expiresAt => expiresAt ≤ now)

/-- `_record`. -/
def fileRecord (db : Db) (store : ObjectStore) (fileId : String) (clock : Time) :
    Except ApiError UploadedFileRecord :=
  match FileRepository.get db fileId (some clock) with
  | none => .error ⟨404, .notFound, "The uploaded file does not exist or has expired", false⟩
  | some record =>
      if record.storageKey ∈ store.keys then .ok record
      else .error ⟨404, .notFound, "The uploaded file does not exist or has expired", false⟩

/-- `_worker_can_read`: the worker holds a stage of a task that reads the file. -/
def workerCanRead (db : Db) (workerId fileId : String) : Bool :=
  db.tasks.any fun task => task.source = .uploadedFile fileId &&
    task.stages.any fun stage => stage.workerId = some workerId && stage.status.active

structure FileResponse where
  record : UploadedFileRecord
  content : List UInt8
  deriving DecidableEq

/-- `download_worker_source_file`; the key of the request may be bound to one worker. -/
def downloadWorkerSourceFile (db : Db) (store : ObjectStore)
    (authenticatedWorkerId : Option String) (workerId fileId : String) (clock : Time) :
    Except ApiError FileResponse := do
  ensure (∀ bound ∈ authenticatedWorkerId, bound = workerId)
    ⟨403, .authenticationFailed, "The Worker API Key is bound to a different worker", false⟩
  ensure (workerCanRead db workerId fileId)
    ⟨403, .authenticationFailed, "The Worker has no active lease for this file", false⟩
  let record ← fileRecord db store fileId clock
  return ⟨record, store.contents record.storageKey⟩

/-! ## Retention passes in two parts -/

/-- What `run_once` has read of the active tasks, with its time and limit. -/
structure RetentionPass where
  current : Time
  limit : Nat
  activeFileIds : List String
  activeTaskIds : List String
  deriving DecidableEq

def RetentionService.begin (self : RetentionService) (db : Db) (now : Time)
    (maximumRecords : Option Nat) : Option RetentionPass :=
  let limit := maximumRecords.getD self.batchSize
  if ¬ (1 ≤ limit ∧ limit ≤ 10000) then none
  else some ⟨now, limit, activeFileIds db, activeTaskIds db⟩

/-- The uploads that the rest of the pass deletes. -/
def RetentionPass.uploads (pass : RetentionPass) (self : RetentionService) (db : Db) :
    List UploadedFileRecord :=
  (self.expiredUploads db pass.current pass.limit).filter (!pass.activeFileIds.contains ·.fileId)

def RetentionPass.artifacts (pass : RetentionPass) (self : RetentionService) (db : Db) :
    List ArtifactRecord :=
  (self.expiredArtifacts db pass.current pass.limit).filter
    (!pass.activeTaskIds.contains ·.taskId)

/-- The rest of `run_once`: the database to commit and the keys that still hold an object. -/
def RetentionPass.finish (pass : RetentionPass) (self : RetentionService) (db : Db)
    (storage : List String) (deleteFails : String → Bool) : Db × List String :=
  let events := self.expiredEvents db pass.current pass.limit
  let state := (pass.uploads self db).foldl (deleteUpload deleteFails) ⟨db, storage, 0⟩
  let state := (pass.artifacts self db).foldl (deleteArtifact deleteFails pass.current) state
  ({ state.db with
    events := state.db.events.filter
      fun event => !(events.map (·.eventId)).contains event.eventId }, state.storage)

/-- A pass that nothing interrupts is one call. -/
theorem runOnce_eq_finish (self : RetentionService) (db : Db) (storage : List String)
    (deleteFails : String → Bool) (now : Time) (maximumRecords : Option Nat) :
    (self.runOnce db storage deleteFails now false maximumRecords).map
        (fun result => (result.1, result.2.1)) =
      (self.begin db now maximumRecords).map (·.finish self db storage deleteFails) := by
  simp only [RetentionService.runOnce, RetentionService.begin]
  split
  · rfl
  · rfl

/-! ## The files of a service -/

/-- The tables and the objects, the real time, the passes that are running and every row that was
ever inserted into the table of uploads. -/
structure FileState where
  db : Db
  store : ObjectStore
  clock : Time
  passes : List RetentionPass
  issued : List UploadedFileRecord

/-- The key of a new file; `{file_id[5:7]}` is a directory. -/
def uploadKey (fileId : String) : String :=
  "uploads/" ++ String.ofList ((fileId.toList.drop 5).take 2) ++ "/" ++ fileId

/-- The row `upload_file` creates under the setting `uploaded_file_retention_seconds`. -/
def newUpload (fileId : String) (retentionSeconds : Option Nat) (now : Time) :
    UploadedFileRecord where
  fileId := fileId
  storageKey := uploadKey fileId
  createdAt := now
  expiresAt := retentionSeconds.map fun seconds : Nat => now + seconds

inductive FileLabel
  | waited
  | uploaded (record : UploadedFileRecord)
  | stored (key : String)
  | called (label : Label)
  | administered
  | began
  | finished (pass : Nat) (deleteFails : String → Bool) (committed : Bool)

/-- The metadata `create` gets are those of a source that `_source_metadata` finds. -/
def ParseSource.Finds (db : Db) (metadata : Except ServiceError (Option SourceMetadata))
    (now : Time) : ParseSource → Prop
  | .uploadedFile fileId =>
      metadata = .error .uploadedFileNotFound ↔ FileRepository.get db fileId (some now) = none
  | _ => True

/-- A call is made at a time the clock has shown, and `create` reads its source. -/
def Operation.ReadsSource (db : Db) (clock : Time) (operation : Operation) : Prop :=
  operation.now ≤ clock ∧
    match operation with
    | .create request _ _ _ metadata now => request.source.Finds db metadata now
    | _ => True

def Label.ReadsSource (db : Db) (clock : Time) : Label → Prop
  | .returned operation _ | .raised operation _ => operation.ReadsSource db clock
  | .reordered => True
  | .administered => False

inductive FileStep (scheduler : StageScheduler) (retention : RetentionService) :
    FileState → FileLabel → FileState → Prop
  | waited {s : FileState} {clock : Time} : s.clock ≤ clock →
      FileStep scheduler retention s .waited { s with clock := clock }
  | uploaded {s : FileState} {fileId : String} {content : List UInt8}
      {retentionSeconds : Option Nat} :
      fileId ∉ s.issued.map (·.fileId) → uploadKey fileId ∉ s.issued.map (·.storageKey) →
        uploadKey fileId ∉ s.db.artifacts.map (·.storageKey) →
        FileStep scheduler retention s (.uploaded (newUpload fileId retentionSeconds s.clock))
          { s with
            db := { s.db with
              uploads := s.db.uploads ++ [newUpload fileId retentionSeconds s.clock] }
            store := s.store.write (uploadKey fileId) content
            issued := s.issued ++ [newUpload fileId retentionSeconds s.clock] }
  | stored {s : FileState} {key : String} {content : List UInt8} :
      key ∉ s.issued.map (·.storageKey) →
        FileStep scheduler retention s (.stored key)
          { s with store := s.store.write key content }
  | called {s : FileState} {label : Label} {db : Db} :
      ControlStep scheduler s.db label db → label.ReadsSource s.db s.clock →
        FileStep scheduler retention s (.called label) { s with db := db }
  | administered {s : FileState} {db : Db} : Administered s.db db → db.uploads = s.db.uploads →
      (∀ artifact ∈ db.artifacts, artifact.storageKey ∉ s.issued.map (·.storageKey)) →
        FileStep scheduler retention s .administered { s with db := db }
  | began {s : FileState} {maximumRecords : Option Nat} {pass : RetentionPass} :
      retention.begin s.db s.clock maximumRecords = some pass →
        FileStep scheduler retention s .began { s with passes := s.passes ++ [pass] }
  | finished {s : FileState} {i : Nat} {pass : RetentionPass} {deleteFails : String → Bool}
      {committed : Bool} : s.passes[i]? = some pass →
        FileStep scheduler retention s (.finished i deleteFails committed)
          { s with
            db := if committed then (pass.finish retention s.db s.store.keys deleteFails).1
              else s.db
            store := { s.store with
              keys := (pass.finish retention s.db s.store.keys deleteFails).2 }
            passes := s.passes.eraseIdx i }

/-- No task yet; every upload has its object, and no object belongs to two rows. -/
structure FilesStart (s : FileState) : Prop where
  tasks : s.db.tasks = []
  passes : s.passes = []
  issued : s.issued = s.db.uploads
  ids : (s.db.uploads.map (·.fileId)).Nodup
  keys : (s.db.uploads.map (·.storageKey)).Nodup
  artifacts : ∀ artifact ∈ s.db.artifacts, artifact.storageKey ∉ s.db.uploads.map (·.storageKey)
  objects : ∀ record ∈ s.db.uploads, record.storageKey ∈ s.store.keys

def files (scheduler : StageScheduler) (retention : RetentionService) :
    System FileState FileLabel where
  Initial := FilesStart
  Step := FileStep scheduler retention

/-! ## Running a script of moves -/

inductive FileMove
  | wait (clock : Time)
  | upload (fileId : String) (content : List UInt8) (retentionSeconds : Option Nat)
  | call (operation : Operation)
  | begin
  | finish (pass : Nat)

instance (db : Db) (metadata : Except ServiceError (Option SourceMetadata)) (now : Time) :
    DecidablePred (ParseSource.Finds db metadata now)
  | .uploadedFile _ => inferInstanceAs (Decidable (_ ↔ _))
  | .url _ | .text .. | .objectStorage .. => isTrue trivial

instance (db : Db) (clock : Time) : DecidablePred (Operation.ReadsSource db clock)
  | .create .. => inferInstanceAs (Decidable (_ ∧ ParseSource.Finds db _ _ _))
  | .route .. | .lease .. | .renew .. | .start .. | .progress .. | .complete ..
  | .authorizeArtifactUpload .. | .requeueExpired .. | .cancel .. | .retry .. =>
      inferInstanceAs (Decidable (_ ∧ True))

/-- The step of a move; one that is not possible waits for no time. -/
def FileMove.take (scheduler : StageScheduler) (retention : RetentionService) (s : FileState) :
    FileMove → FileLabel × FileState
  | .wait clock => (.waited, { s with clock := max s.clock clock })
  | .upload fileId content retentionSeconds =>
      if fileId ∉ s.issued.map (·.fileId) ∧ uploadKey fileId ∉ s.issued.map (·.storageKey) ∧
          uploadKey fileId ∉ s.db.artifacts.map (·.storageKey) then
        (.uploaded (newUpload fileId retentionSeconds s.clock), { s with
          db := { s.db with
            uploads := s.db.uploads ++ [newUpload fileId retentionSeconds s.clock] }
          store := s.store.write (uploadKey fileId) content
          issued := s.issued ++ [newUpload fileId retentionSeconds s.clock] })
      else (.waited, s)
  | .call operation =>
      if operation.answeredInOrder s.db ∧ operation.ReadsSource s.db s.clock then
        match operation.exec scheduler s.db with
        | .ok (db, response) => (.called (.returned operation response), { s with db := db })
        | .error error => (.called (.raised operation error), s)
      else (.waited, s)
  | .begin =>
      match retention.begin s.db s.clock none with
      | none => (.waited, s)
      | some pass => (.began, { s with passes := s.passes ++ [pass] })
  | .finish i =>
      match s.passes[i]? with
      | none => (.waited, s)
      | some pass => (.finished i (fun _ => false) true, { s with
          db := (pass.finish retention s.db s.store.keys fun _ => false).1
          store := { s.store with
            keys := (pass.finish retention s.db s.store.keys fun _ => false).2 }
          passes := s.passes.eraseIdx i })

theorem FileMove.take_step (scheduler : StageScheduler) (retention : RetentionService)
    (s : FileState) (move : FileMove) :
    (files scheduler retention).Step s (move.take scheduler retention s).1
      (move.take scheduler retention s).2 := by
  have hwaited : FileStep scheduler retention s .waited s := .waited (le_refl s.clock)
  cases move with
  | wait clock => exact .waited (le_max_left _ _)
  | upload fileId content retentionSeconds =>
      simp only [FileMove.take]
      split
      · next hnew => exact .uploaded hnew.1 hnew.2.1 hnew.2.2
      · exact hwaited
  | call operation =>
      simp only [FileMove.take]
      split
      · next hcall =>
          have hanswered := answerable_of_answeredInOrder hcall.1
          split
          · next hexec => exact .called (.returned hanswered hexec) hcall.2
          · next hexec => exact .called (.raised hanswered hexec) hcall.2
      · exact hwaited
  | begin =>
      simp only [FileMove.take]
      split
      · exact hwaited
      · next hbegin => exact .began hbegin
  | finish i =>
      simp only [FileMove.take]
      split
      · exact hwaited
      · next pass hpass =>
          have hfinished : FileStep scheduler retention s
              (.finished i (fun _ => false) true) _ := .finished hpass
          exact hfinished

end ParserServe
