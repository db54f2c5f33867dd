import ParserServe.Control.Retention

/-! # What a retention pass removes

A pass is the selection of expired rows that nothing active needs, followed by the deletes that
storage lets through.  The loops over the selected rows are filters of the tables and of the
store, and of the references to the results that are gone.
-/

namespace ParserServe

open Foundation

variable {self : RetentionService} {db db' : Db} {storage storage' : List String}
  {deleteFails : String → Bool} {now : Time} {limit : Nat}

/-! ## Expired rows -/

def RetentionService.uploadExpired (self : RetentionService) (now : Time)
    (record : UploadedFileRecord) : Bool :=
  self.uploadedFileRetentionSeconds.any fun retention =>
    expiredRow record.expiresAt record.createdAt retention now

def RetentionService.artifactExpired (self : RetentionService) (now : Time)
    (record : ArtifactRecord) : Bool :=
  self.artifactRetentionSeconds.any fun retention =>
    expiredRow record.expiresAt record.createdAt retention now

/-- Old enough for the retention period of events. -/
def RetentionService.eventExpired (self : RetentionService) (now : Time) (record : EventRecord) :
    Bool :=
  self.eventRetentionSeconds.any fun retention => decide (record.occurredAt ≤ now - retention)

/-- A task that is not over reads this upload. -/
def Db.uploadInUse (db : Db) (record : UploadedFileRecord) : Bool :=
  (activeFileIds db).contains record.fileId

def Db.artifactInUse (db : Db) (record : ArtifactRecord) : Bool :=
  (activeTaskIds db).contains record.taskId

theorem expiredUploads_eq (self : RetentionService) (db : Db) (now : Time) (limit : Nat) :
    self.expiredUploads db now limit =
      ((db.uploads.filter (self.uploadExpired now)).insertionSort uploadBefore).take limit := by
  unfold RetentionService.expiredUploads RetentionService.uploadExpired
  split
  · next hnone => simp [hnone]
  · next retention hsome => simp [hsome]

theorem expiredArtifacts_eq (self : RetentionService) (db : Db) (now : Time) (limit : Nat) :
    self.expiredArtifacts db now limit =
      ((db.artifacts.filter (self.artifactExpired now)).insertionSort artifactBefore).take
        limit := by
  unfold RetentionService.expiredArtifacts RetentionService.artifactExpired
  split
  · next hnone => simp [hnone]
  · next retention hsome => simp [hsome]

theorem mem_expiredUploads {record : UploadedFileRecord}
    (h : record ∈ self.expiredUploads db now limit) :
    record ∈ db.uploads ∧ self.uploadExpired now record := by
  rw [expiredUploads_eq] at h
  exact List.mem_filter.mp ((List.mem_insertionSort _).mp (List.mem_of_mem_take h))

theorem mem_expiredArtifacts {record : ArtifactRecord}
    (h : record ∈ self.expiredArtifacts db now limit) :
    record ∈ db.artifacts ∧ self.artifactExpired now record := by
  rw [expiredArtifacts_eq] at h
  exact List.mem_filter.mp ((List.mem_insertionSort _).mp (List.mem_of_mem_take h))

theorem mem_expiredEvents {event : EventRecord} (h : event ∈ self.expiredEvents db now limit) :
    event ∈ db.events ∧ self.eventExpired now event ∧
      (event.callbackProcessed ∨ event.payload.callbackSource = false) := by
  unfold RetentionService.expiredEvents at h
  split at h
  · cases h
  · next retention hsome =>
      have hmem := (List.mem_insertionSort _).mp (List.mem_of_mem_take h)
      rw [List.mem_filter, Bool.and_eq_true, Bool.or_eq_true, Bool.not_eq_true'] at hmem
      exact ⟨hmem.1, by simpa [RetentionService.eventExpired, hsome] using hmem.2.1, hmem.2.2⟩

/-! ## The selection -/

/-- The uploads a pass tries to delete. -/
def RetentionService.eligibleUploads (self : RetentionService) (db : Db) (now : Time)
    (limit : Nat) : List UploadedFileRecord :=
  (self.expiredUploads db now limit).filter (!db.uploadInUse ·)

/-- The artifacts a pass tries to delete. -/
def RetentionService.eligibleArtifacts (self : RetentionService) (db : Db) (now : Time)
    (limit : Nat) : List ArtifactRecord :=
  (self.expiredArtifacts db now limit).filter (!db.artifactInUse ·)

/-- What a pass reports. -/
def RetentionService.report (self : RetentionService) (db : Db) (now : Time) (dryRun : Bool)
    (limit failures : Nat) : RetentionRunData where
  dryRun := dryRun
  cutoffTime := now
  uploadedFilesSelected := (self.eligibleUploads db now limit).length
  uploadedFilesSkippedActive :=
    (self.expiredUploads db now limit).length - (self.eligibleUploads db now limit).length
  artifactsSelected := (self.eligibleArtifacts db now limit).length
  artifactsSkippedActive :=
    (self.expiredArtifacts db now limit).length - (self.eligibleArtifacts db now limit).length
  eventsSelected := (self.expiredEvents db now limit).length
  storageDeleteFailures := failures

/-- The deletes of a pass over what it selected. -/
def RetentionService.deletes (self : RetentionService) (db : Db) (storage : List String)
    (deleteFails : String → Bool) (now : Time) (limit : Nat) : RetentionState :=
  (self.eligibleArtifacts db now limit).foldl (deleteArtifact deleteFails now)
    ((self.eligibleUploads db now limit).foldl (deleteUpload deleteFails) ⟨db, storage, 0⟩)

theorem runOnce_eq (self : RetentionService) (db : Db) (storage : List String)
    (deleteFails : String → Bool) (now : Time) (dryRun : Bool) (maximumRecords : Option Nat) :
    self.runOnce db storage deleteFails now dryRun maximumRecords =
      let limit := maximumRecords.getD self.batchSize
      let state := self.deletes db storage deleteFails now limit
      if ¬ (1 ≤ limit ∧ limit ≤ 10000) then none
      else if dryRun then some (db, storage, self.report db now dryRun limit 0)
      else some ({ state.db with
          events := state.db.events.filter fun event =>
            !((self.expiredEvents db now limit).map (·.eventId)).contains event.eventId },
        state.storage, self.report db now dryRun limit state.failures) := rfl

/-! ## The deletes -/

/-- The rows of a selection whose object storage gives up. -/
def deletedUploads (deleteFails : String → Bool) (records : List UploadedFileRecord) :
    List UploadedFileRecord :=
  records.filter (!deleteFails ·.storageKey)

def deletedArtifacts (deleteFails : String → Bool) (records : List ArtifactRecord) :
    List ArtifactRecord :=
  records.filter (!deleteFails ·.storageKey)

/-- The uploads of the first list are gone, and with them their objects. -/
structure UploadsDeleted (deleted : List UploadedFileRecord) (s t : RetentionState) : Prop where
  uploads : t.db.uploads = s.db.uploads.filter (·.fileId ∉ deleted.map (·.fileId))
  storage : t.storage = s.storage.filter (· ∉ deleted.map (·.storageKey))
  artifacts : t.db.artifacts = s.db.artifacts
  tasks : t.db.tasks = s.db.tasks
  events : t.db.events = s.db.events

theorem foldl_deleteUpload (records : List UploadedFileRecord) (state : RetentionState) :
    UploadsDeleted (deletedUploads deleteFails records) state
      (records.foldl (deleteUpload deleteFails) state) := by
  induction records generalizing state with
  | nil => exact ⟨by simp [deletedUploads], by simp [deletedUploads], rfl, rfl, rfl⟩
  | cons record records ih =>
      rw [List.foldl_cons]
      have hrest := ih (deleteUpload deleteFails state record)
      by_cases hfails : deleteFails record.storageKey
      · have hdeleted : deletedUploads deleteFails (record :: records) =
            deletedUploads deleteFails records := by simp [deletedUploads, hfails]
        rw [deleteUpload, if_pos hfails] at hrest ⊢
        rw [hdeleted]
        exact ⟨hrest.uploads, hrest.storage, hrest.artifacts, hrest.tasks, hrest.events⟩
      · have hdeleted : deletedUploads deleteFails (record :: records) =
            record :: deletedUploads deleteFails records := by simp [deletedUploads, hfails]
        rw [deleteUpload, if_neg hfails] at hrest ⊢
        rw [hdeleted]
        refine ⟨?_, ?_, hrest.artifacts, hrest.tasks, hrest.events⟩
        · rw [hrest.uploads, List.map_cons, filter_notMem_cons]
        · exact hrest.storage.trans (filter_notMem_cons id _ _ _)

/-- The references of a task and of its stages to these results are gone. -/
def TaskRecord.forgetResults (task : TaskRecord) (uris : List String) (now : Time) : TaskRecord :=
  uris.foldl (fun task uri => task.forgetResult uri now) task

/-- The artifacts of the first list are gone, with their objects and the references to them. -/
structure ArtifactsDeleted (now : Time) (deleted : List ArtifactRecord) (s t : RetentionState) :
    Prop where
  artifacts : t.db.artifacts = s.db.artifacts.filter (·.artifactId ∉ deleted.map (·.artifactId))
  storage : t.storage = s.storage.filter (· ∉ deleted.map (·.storageKey))
  tasks : t.db.tasks = s.db.tasks.map (·.forgetResults (deleted.map (·.storageUri)) now)
  uploads : t.db.uploads = s.db.uploads
  events : t.db.events = s.db.events

theorem foldl_deleteArtifact (records : List ArtifactRecord) (state : RetentionState) :
    ArtifactsDeleted now (deletedArtifacts deleteFails records) state
      (records.foldl (deleteArtifact deleteFails now) state) := by
  induction records generalizing state with
  | nil =>
      exact ⟨by simp [deletedArtifacts], by simp [deletedArtifacts],
        (List.map_id state.db.tasks).symm, rfl, rfl⟩
  | cons record records ih =>
      rw [List.foldl_cons]
      have hrest := ih (deleteArtifact deleteFails now state record)
      by_cases hfails : deleteFails record.storageKey
      · have hdeleted : deletedArtifacts deleteFails (record :: records) =
            deletedArtifacts deleteFails records := by simp [deletedArtifacts, hfails]
        rw [deleteArtifact, if_pos hfails] at hrest ⊢
        rw [hdeleted]
        exact ⟨hrest.artifacts, hrest.storage, hrest.tasks, hrest.uploads, hrest.events⟩
      · have hdeleted : deletedArtifacts deleteFails (record :: records) =
            record :: deletedArtifacts deleteFails records := by simp [deletedArtifacts, hfails]
        rw [deleteArtifact, if_neg hfails] at hrest ⊢
        rw [hdeleted]
        refine ⟨?_, ?_, ?_, hrest.uploads, hrest.events⟩
        · rw [hrest.artifacts, List.map_cons, filter_notMem_cons]
        · exact hrest.storage.trans (filter_notMem_cons id _ _ _)
        · rw [hrest.tasks, List.map_map]
          rfl

/-! ## The pass -/

/-- The tables and the store after a pass that deleted these uploads, artifacts and events. -/
structure PassEffect (now : Time) (files : List UploadedFileRecord)
    (results : List ArtifactRecord) (expired : List EventRecord) (db db' : Db)
    (storage storage' : List String) : Prop where
  uploads : db'.uploads = db.uploads.filter (·.fileId ∉ files.map (·.fileId))
  artifacts : db'.artifacts = db.artifacts.filter (·.artifactId ∉ results.map (·.artifactId))
  events : db'.events = db.events.filter (·.eventId ∉ expired.map (·.eventId))
  tasks : db'.tasks = db.tasks.map (·.forgetResults (results.map (·.storageUri)) now)
  objects : storage' = storage.filter fun key =>
    key ∉ files.map (·.storageKey) ∧ key ∉ results.map (·.storageKey)

/-- The deletes of a pass over any selection. -/
theorem deletes_effect (files : List UploadedFileRecord) (results : List ArtifactRecord)
    (events : List EventRecord) (db : Db) (storage : List String) :
    let state := results.foldl (deleteArtifact deleteFails now)
      (files.foldl (deleteUpload deleteFails) ⟨db, storage, 0⟩)
    PassEffect now (deletedUploads deleteFails files) (deletedArtifacts deleteFails results) events
      db { state.db with
        events := state.db.events.filter
          fun event => !(events.map (·.eventId)).contains event.eventId }
      storage state.storage := by
  intro state
  set first : RetentionState := files.foldl (deleteUpload deleteFails) ⟨db, storage, 0⟩
  have hfirst : UploadsDeleted (deletedUploads deleteFails files) ⟨db, storage, 0⟩ first :=
    foldl_deleteUpload _ _
  have hsecond : ArtifactsDeleted now (deletedArtifacts deleteFails results) first state :=
    foldl_deleteArtifact _ _
  refine ⟨?_, ?_, ?_, ?_, ?_⟩
  · exact hsecond.uploads.trans hfirst.uploads
  · exact hsecond.artifacts.trans (by rw [hfirst.artifacts])
  · refine (congrArg _ (hsecond.events.trans hfirst.events)).trans ?_
    refine List.filter_congr fun event _ => ?_
    rw [List.contains_eq_mem, ← decide_not]
  · exact hsecond.tasks.trans (by rw [hfirst.tasks])
  · refine hsecond.storage.trans ?_
    rw [hfirst.storage, List.filter_filter]
    refine List.filter_congr fun key _ => ?_
    rw [Bool.decide_and, Bool.and_comm]

theorem runOnce_effect {maximumRecords : Option Nat} {report : RetentionRunData}
    (h : self.runOnce db storage deleteFails now false maximumRecords =
      some (db', storage', report)) :
    let limit := maximumRecords.getD self.batchSize
    PassEffect now (deletedUploads deleteFails (self.eligibleUploads db now limit))
      (deletedArtifacts deleteFails (self.eligibleArtifacts db now limit))
      (self.expiredEvents db now limit) db db' storage storage' := by
  intro limit
  rw [runOnce_eq] at h
  dsimp only at h
  split at h
  · cases h
  rw [if_neg Bool.false_ne_true] at h
  cases h
  exact deletes_effect _ _ _ db storage

end ParserServe
