import Mathlib.Data.String.Basic
import ParserServe.Persistence.Models

/-! # Retention

`control/retention.py`: one pass removes expired uploads, artifacts and events.  The object
store is the list of keys that hold an object; `deleteFails` says for which keys
`storage.delete` raises.
-/

namespace ParserServe

open Foundation

structure RetentionService where
  uploadedFileRetentionSeconds : Option Nat
  artifactRetentionSeconds : Option Nat
  eventRetentionSeconds : Option Nat
  batchSize : Nat := 500
  batch_pos : 1 ≤ batchSize := by decide
  durations_pos : ∀ seconds ∈ [uploadedFileRetentionSeconds, artifactRetentionSeconds,
    eventRetentionSeconds], seconds ≠ some 0 := by decide

structure RetentionRunData where
  dryRun : Bool
  cutoffTime : Time
  uploadedFilesSelected : Nat
  uploadedFilesSkippedActive : Nat
  artifactsSelected : Nat
  artifactsSkippedActive : Nat
  eventsSelected : Nat
  storageDeleteFailures : Nat
  deriving DecidableEq

/-- `expires_at <= now`, or the age of a row without `expires_at`. -/
def expiredRow (expiresAt : Option Time) (createdAt : Time) (retention : Nat) (now : Time) : Bool :=
  match expiresAt with
  | some expiresAt => decide (expiresAt ≤ now)
  | none => decide (createdAt ≤ now - retention)

def uploadBefore (a b : UploadedFileRecord) : Prop :=
  a.createdAt < b.createdAt ∨ (a.createdAt = b.createdAt ∧ a.fileId ≤ b.fileId)

instance : DecidableRel uploadBefore := fun _ _ => inferInstanceAs (Decidable (_ ∨ _))

/-- `_expired_uploads`. -/
def RetentionService.expiredUploads (self : RetentionService) (db : Db) (now : Time)
    (limit : Nat) : List UploadedFileRecord :=
  match self.uploadedFileRetentionSeconds with
  | none => []
  | some retention =>
      ((db.uploads.filter fun record =>
        expiredRow record.expiresAt record.createdAt retention now).insertionSort
          uploadBefore).take limit

def artifactBefore (a b : ArtifactRecord) : Prop :=
  a.createdAt < b.createdAt ∨ (a.createdAt = b.createdAt ∧ a.artifactId ≤ b.artifactId)

instance : DecidableRel artifactBefore := fun _ _ => inferInstanceAs (Decidable (_ ∨ _))

/-- `_expired_artifacts`. -/
def RetentionService.expiredArtifacts (self : RetentionService) (db : Db) (now : Time)
    (limit : Nat) : List ArtifactRecord :=
  match self.artifactRetentionSeconds with
  | none => []
  | some retention =>
      ((db.artifacts.filter fun record =>
        expiredRow record.expiresAt record.createdAt retention now).insertionSort
          artifactBefore).take limit

/-- `_expired_events`. -/
def RetentionService.expiredEvents (self : RetentionService) (db : Db) (now : Time)
    (limit : Nat) : List EventRecord :=
  match self.eventRetentionSeconds with
  | none => []
  | some retention =>
      ((db.events.filter fun record => decide (record.occurredAt ≤ now - retention) &&
        (record.callbackProcessed || !record.payload.callbackSource)).insertionSort
          eventBefore).take limit

def activeFileIds (db : Db) : List String :=
  (db.tasks.filter (·.status.active)).filterMap fun task =>
    match task.source with
    | .uploadedFile fileId => some fileId
    | _ => none

def activeTaskIds (db : Db) : List String :=
  (db.tasks.filter (·.status.active)).map (·.taskId)

/-- The database, the object store and the number of failed deletes. -/
structure RetentionState where
  db : Db
  storage : List String
  failures : Nat

def deleteUpload (deleteFails : String → Bool) (state : RetentionState)
    (record : UploadedFileRecord) : RetentionState :=
  if deleteFails record.storageKey then { state with failures := state.failures + 1 }
  else
    { state with
      db := { state.db with
        uploads := state.db.uploads.filter (·.fileId ≠ record.fileId) }
      storage := state.storage.filter (· ≠ record.storageKey) }

/-- `UPDATE ... SET result_uri = NULL WHERE result_uri = :uri`, on both tables. -/
def StageRecord.forgetResult (stage : StageRecord) (uri : String) (now : Time) : StageRecord :=
  if stage.resultUri = some uri then { stage with resultUri := none, updatedAt := now } else stage

def TaskRecord.forgetResult (task : TaskRecord) (uri : String) (now : Time) : TaskRecord :=
  { task with
    resultUri := if task.resultUri = some uri then none else task.resultUri
    updatedAt := if task.resultUri = some uri then now else task.updatedAt
    stages := task.stages.map (·.forgetResult uri now) }

def deleteArtifact (deleteFails : String → Bool) (now : Time) (state : RetentionState)
    (record : ArtifactRecord) : RetentionState :=
  if deleteFails record.storageKey then { state with failures := state.failures + 1 }
  else
    { state with
      db := { state.db with
        tasks := state.db.tasks.map (·.forgetResult record.storageUri now)
        artifacts := state.db.artifacts.filter (·.artifactId ≠ record.artifactId) }
      storage := state.storage.filter (· ≠ record.storageKey) }

/-- `RetentionService.run_once`; `none` is the refusal of a limit outside 1..10000. -/
def RetentionService.runOnce (self : RetentionService) (db : Db) (storage : List String)
    (deleteFails : String → Bool) (now : Time) (dryRun : Bool) (maximumRecords : Option Nat) :
    Option (Db × List String × RetentionRunData) :=
  let limit := maximumRecords.getD self.batchSize
  if ¬ (1 ≤ limit ∧ limit ≤ 10000) then none
  else
    let uploads := self.expiredUploads db now limit
    let eligibleUploads := uploads.filter (!(activeFileIds db).contains ·.fileId)
    let artifacts := self.expiredArtifacts db now limit
    let eligibleArtifacts := artifacts.filter (!(activeTaskIds db).contains ·.taskId)
    let events := self.expiredEvents db now limit
    let report := fun failures : Nat =>
      { dryRun := dryRun
        cutoffTime := now
        uploadedFilesSelected := eligibleUploads.length
        uploadedFilesSkippedActive := uploads.length - eligibleUploads.length
        artifactsSelected := eligibleArtifacts.length
        artifactsSkippedActive := artifacts.length - eligibleArtifacts.length
        eventsSelected := events.length
        storageDeleteFailures := failures : RetentionRunData }
    if dryRun then some (db, storage, report 0)
    else
      let state := eligibleUploads.foldl (deleteUpload deleteFails) ⟨db, storage, 0⟩
      let state := eligibleArtifacts.foldl (deleteArtifact deleteFails now) state
      let db := { state.db with
        events := state.db.events.filter
          fun event => !(events.map (·.eventId)).contains event.eventId }
      some (db, state.storage, report state.failures)

end ParserServe
