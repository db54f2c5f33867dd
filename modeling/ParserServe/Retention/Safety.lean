import ParserServe.Persistence.Tasks
import ParserServe.Retention.Pass

/-! # Retention keeps what is needed

No pass deletes what is not expired or what an active task needs, a failed delete keeps its
record, and no record that stays loses its object.
-/

namespace ParserServe

open Foundation

variable {self : RetentionService} {db db' : Db} {storage storage' : List String}
  {deleteFails : String → Bool} {now : Time} {limit : Nat}

/-- A task that is pending, leased or running was created from the upload. -/
def Db.UploadReferenced (db : Db) (record : UploadedFileRecord) : Prop :=
  ∃ task ∈ db.tasks, task.status.active ∧ task.source = .uploadedFile record.fileId

/-- The artifact belongs to a task that is pending, leased or running. -/
def Db.ArtifactReferenced (db : Db) (record : ArtifactRecord) : Prop :=
  ∃ task ∈ db.tasks, task.status.active ∧ task.taskId = record.taskId

theorem uploadInUse_iff {record : UploadedFileRecord} :
    db.uploadInUse record ↔ db.UploadReferenced record := by
  simp only [Db.uploadInUse, List.contains_iff_mem, activeFileIds, List.mem_filterMap,
    List.mem_filter, Db.UploadReferenced, and_assoc]
  refine exists_congr fun task => and_congr_right fun _ => and_congr_right fun _ => ?_
  cases task.source <;> simp

theorem artifactInUse_iff {record : ArtifactRecord} :
    db.artifactInUse record ↔ db.ArtifactReferenced record := by
  simp [Db.artifactInUse, activeTaskIds, Db.ArtifactReferenced, and_assoc]

/-- The primary keys of the tables, and the objects of different records are different. -/
structure Db.RecordKeys (db : Db) : Prop where
  files : (db.uploads.map (·.fileId)).Nodup
  artifacts : (db.artifacts.map (·.artifactId)).Nodup
  events : (db.events.map (·.eventId)).Nodup
  objects : (db.uploads.map (·.storageKey) ++ db.artifacts.map (·.storageKey)).Nodup

/-! ## What is deleted -/

theorem mem_deletedUploads {record : UploadedFileRecord}
    (h : record ∈ deletedUploads deleteFails (self.eligibleUploads db now limit)) :
    record ∈ db.uploads ∧ self.uploadExpired now record ∧ ¬ db.UploadReferenced record ∧
      ¬ deleteFails record.storageKey := by
  rw [deletedUploads, List.mem_filter, RetentionService.eligibleUploads, List.mem_filter] at h
  obtain ⟨⟨hexpired, hunused⟩, hdeleted⟩ := h
  obtain ⟨hmem, hexpired⟩ := mem_expiredUploads hexpired
  exact ⟨hmem, hexpired, fun hin => by simp [uploadInUse_iff.mpr hin] at hunused,
    by simpa using hdeleted⟩

theorem mem_deletedArtifacts {record : ArtifactRecord}
    (h : record ∈ deletedArtifacts deleteFails (self.eligibleArtifacts db now limit)) :
    record ∈ db.artifacts ∧ self.artifactExpired now record ∧ ¬ db.ArtifactReferenced record ∧
      ¬ deleteFails record.storageKey := by
  rw [deletedArtifacts, List.mem_filter, RetentionService.eligibleArtifacts, List.mem_filter] at h
  obtain ⟨⟨hexpired, hunused⟩, hdeleted⟩ := h
  obtain ⟨hmem, hexpired⟩ := mem_expiredArtifacts hexpired
  exact ⟨hmem, hexpired, fun hin => by simp [artifactInUse_iff.mpr hin] at hunused,
    by simpa using hdeleted⟩

/-! ## What stays -/

section Effect

variable {files : List UploadedFileRecord} {results : List ArtifactRecord}
  {expired : List EventRecord}

/-- A record that stays keeps its object. -/
theorem PassEffect.upload_object (he : PassEffect now files results expired db db' storage storage')
    (hkeys : db.RecordKeys) (hfiles : ∀ record ∈ files, record ∈ db.uploads)
    (hresults : ∀ record ∈ results, record ∈ db.artifacts) {record : UploadedFileRecord}
    (hmem : record ∈ db.uploads) (hkept : record ∉ files) (hobject : record.storageKey ∈ storage) :
    record.storageKey ∈ storage' := by
  obtain ⟨hnodup, -, hdisjoint⟩ := List.nodup_append'.mp hkeys.objects
  rw [he.objects, List.mem_filter, decide_eq_true_eq]
  refine ⟨hobject, fun hkey => ?_, fun hkey => ?_⟩
  · obtain ⟨other, hother, heq⟩ := List.mem_map.mp hkey
    rw [List.inj_on_of_nodup_map hnodup (hfiles other hother) hmem heq] at hother
    exact hkept hother
  · obtain ⟨other, hother, heq⟩ := List.mem_map.mp hkey
    refine hdisjoint (List.mem_map_of_mem hmem) ?_
    rw [← heq]
    exact List.mem_map_of_mem (hresults other hother)

theorem PassEffect.artifact_object
    (he : PassEffect now files results expired db db' storage storage')
    (hkeys : db.RecordKeys) (hfiles : ∀ record ∈ files, record ∈ db.uploads)
    (hresults : ∀ record ∈ results, record ∈ db.artifacts) {record : ArtifactRecord}
    (hmem : record ∈ db.artifacts) (hkept : record ∉ results)
    (hobject : record.storageKey ∈ storage) : record.storageKey ∈ storage' := by
  obtain ⟨-, hnodup, hdisjoint⟩ := List.nodup_append'.mp hkeys.objects
  rw [he.objects, List.mem_filter, decide_eq_true_eq]
  refine ⟨hobject, fun hkey => ?_, fun hkey => ?_⟩
  · obtain ⟨other, hother, heq⟩ := List.mem_map.mp hkey
    refine hdisjoint ?_ (List.mem_map_of_mem hmem)
    rw [← heq]
    exact List.mem_map_of_mem (hfiles other hother)
  · obtain ⟨other, hother, heq⟩ := List.mem_map.mp hkey
    rw [List.inj_on_of_nodup_map hnodup (hresults other hother) hmem heq] at hother
    exact hkept hother

end Effect

/-- Neither the task nor one of its stages refers to the result. -/
def TaskRecord.Forgets (task : TaskRecord) (uri : String) : Prop :=
  task.resultUri ≠ some uri ∧ ∀ stage ∈ task.stages, stage.resultUri ≠ some uri

theorem forgetResult_forgets (task : TaskRecord) (uri : String) (now : Time) :
    (task.forgetResult uri now).Forgets uri := by
  refine ⟨?_, ?_⟩
  · by_cases h : task.resultUri = some uri <;> simp [TaskRecord.forgetResult, h]
  · intro stage hstage
    obtain ⟨row, -, rfl⟩ := List.mem_map.mp hstage
    by_cases h : row.resultUri = some uri <;> simp [StageRecord.forgetResult, h]

theorem TaskRecord.Forgets.forgetResult {task : TaskRecord} {uri : String} (h : task.Forgets uri)
    (other : String) (now : Time) : (task.forgetResult other now).Forgets uri := by
  refine ⟨?_, ?_⟩
  · by_cases heq : task.resultUri = some other
    · simp [TaskRecord.forgetResult, heq]
    · simpa [TaskRecord.forgetResult, heq] using h.1
  · intro stage hstage
    obtain ⟨row, hrow, rfl⟩ := List.mem_map.mp hstage
    by_cases heq : row.resultUri = some other
    · simp [StageRecord.forgetResult, heq]
    · simpa [StageRecord.forgetResult, heq] using h.2 row hrow

theorem forgetResults_forgets {uri : String} {uris : List String} (task : TaskRecord)
    (h : uri ∈ uris) (now : Time) : (task.forgetResults uris now).Forgets uri := by
  have hkeep : ∀ (others : List String) (task : TaskRecord), task.Forgets uri →
      (task.forgetResults others now).Forgets uri := by
    intro others
    induction others with
    | nil => exact fun task htask => htask
    | cons other others ih => exact fun task htask => ih _ (htask.forgetResult other now)
  induction uris generalizing task with
  | nil => cases h
  | cons other uris ih =>
      rcases List.mem_cons.mp h with rfl | h
      · exact hkeep uris _ (forgetResult_forgets task uri now)
      · exact ih _ h

/-! ## The pass -/

/-- What a pass may not do. -/
structure RetentionSafe (self : RetentionService) (now : Time) (deleteFails : String → Bool)
    (db db' : Db) (storage storage' : List String) : Prop where
  uploads : ∀ record ∈ db.uploads,
    ¬ self.uploadExpired now record ∨ db.UploadReferenced record →
      record ∈ db'.uploads ∧ (record.storageKey ∈ storage → record.storageKey ∈ storage')
  artifacts : ∀ record ∈ db.artifacts,
    ¬ self.artifactExpired now record ∨ db.ArtifactReferenced record →
      record ∈ db'.artifacts ∧ (record.storageKey ∈ storage → record.storageKey ∈ storage')
  events : ∀ event ∈ db.events,
    ¬ self.eventExpired now event ∨ (event.payload.callbackSource ∧ ¬ event.callbackProcessed) →
      event ∈ db'.events
  failedUploads : ∀ record ∈ db.uploads, deleteFails record.storageKey → record ∈ db'.uploads
  failedArtifacts : ∀ record ∈ db.artifacts, deleteFails record.storageKey →
    record ∈ db'.artifacts
  uploadObjects : ∀ record ∈ db'.uploads, record ∈ db.uploads ∧
    (record.storageKey ∈ storage → record.storageKey ∈ storage')
  artifactObjects : ∀ record ∈ db'.artifacts, record ∈ db.artifacts ∧
    (record.storageKey ∈ storage → record.storageKey ∈ storage')
  results : ∀ record ∈ db.artifacts, record ∉ db'.artifacts →
    ∀ task ∈ db'.tasks, task.Forgets record.storageUri

theorem RetentionSafe.refl (self : RetentionService) (now : Time) (deleteFails : String → Bool)
    (db : Db) (storage : List String) :
    RetentionSafe self now deleteFails db db storage storage where
  uploads _ hmem _ := ⟨hmem, id⟩
  artifacts _ hmem _ := ⟨hmem, id⟩
  events _ hmem _ := hmem
  failedUploads _ hmem _ := hmem
  failedArtifacts _ hmem _ := hmem
  uploadObjects _ hmem := ⟨hmem, id⟩
  artifactObjects _ hmem := ⟨hmem, id⟩
  results _ hmem hgone := absurd hmem hgone

theorem runOnce_retentionSafe {maximumRecords : Option Nat} {report : RetentionRunData}
    (hkeys : db.RecordKeys)
    (h : self.runOnce db storage deleteFails now false maximumRecords =
      some (db', storage', report)) :
    RetentionSafe self now deleteFails db db' storage storage' := by
  have he := runOnce_effect h
  dsimp only at he
  set limit := maximumRecords.getD self.batchSize
  set files := deletedUploads deleteFails (self.eligibleUploads db now limit)
  set results := deletedArtifacts deleteFails (self.eligibleArtifacts db now limit)
  have hfiles : ∀ record ∈ files, record ∈ db.uploads := fun _ h => (mem_deletedUploads h).1
  have hresults : ∀ record ∈ results, record ∈ db.artifacts := fun _ h => (mem_deletedArtifacts h).1
  have huploads : ∀ record, record ∈ db'.uploads ↔ record ∈ db.uploads ∧ record ∉ files := by
    intro record
    rw [he.uploads]
    exact mem_filter_notMem_keys hkeys.files hfiles
  have hartifacts : ∀ record, record ∈ db'.artifacts ↔
      record ∈ db.artifacts ∧ record ∉ results := by
    intro record
    rw [he.artifacts]
    exact mem_filter_notMem_keys hkeys.artifacts hresults
  refine ⟨?_, ?_, ?_, ?_, ?_, ?_, ?_, ?_⟩
  · intro record hmem hneeded
    have hkept : record ∉ files := fun hdeleted => by
      obtain ⟨-, hexpired, hunused, -⟩ := mem_deletedUploads hdeleted
      exact hneeded.elim (· hexpired) hunused
    exact ⟨(huploads record).mpr ⟨hmem, hkept⟩, he.upload_object hkeys hfiles hresults hmem hkept⟩
  · intro record hmem hneeded
    have hkept : record ∉ results := fun hdeleted => by
      obtain ⟨-, hexpired, hunused, -⟩ := mem_deletedArtifacts hdeleted
      exact hneeded.elim (· hexpired) hunused
    exact ⟨(hartifacts record).mpr ⟨hmem, hkept⟩,
      he.artifact_object hkeys hfiles hresults hmem hkept⟩
  · intro event hmem hneeded
    rw [he.events, mem_filter_notMem_keys hkeys.events fun _ h => (mem_expiredEvents h).1]
    refine ⟨hmem, fun hexpired => ?_⟩
    obtain ⟨-, hold, hprocessed⟩ := mem_expiredEvents hexpired
    rcases hneeded with hyoung | ⟨hsource, hunprocessed⟩
    · exact hyoung hold
    · rcases hprocessed with hprocessed | hother
      · exact hunprocessed hprocessed
      · rw [hother] at hsource
        cases hsource
  · intro record hmem hfails
    exact (huploads record).mpr ⟨hmem, fun h => (mem_deletedUploads h).2.2.2 hfails⟩
  · intro record hmem hfails
    exact (hartifacts record).mpr ⟨hmem, fun h => (mem_deletedArtifacts h).2.2.2 hfails⟩
  · intro record hmem
    obtain ⟨hmem, hkept⟩ := (huploads record).mp hmem
    exact ⟨hmem, he.upload_object hkeys hfiles hresults hmem hkept⟩
  · intro record hmem
    obtain ⟨hmem, hkept⟩ := (hartifacts record).mp hmem
    exact ⟨hmem, he.artifact_object hkeys hfiles hresults hmem hkept⟩
  · intro record hmem hgone task htask
    have hdeleted : record ∈ results := by
      by_contra hkept
      exact hgone ((hartifacts record).mpr ⟨hmem, hkept⟩)
    rw [he.tasks] at htask
    obtain ⟨row, -, rfl⟩ := List.mem_map.mp htask
    exact forgetResults_forgets row (List.mem_map_of_mem hdeleted) now

/-- The counts of what was selected. -/
def RetentionRunData.selection (data : RetentionRunData) : Nat × Nat × Nat × Nat × Nat :=
  (data.uploadedFilesSelected, data.uploadedFilesSkippedActive, data.artifactsSelected,
    data.artifactsSkippedActive, data.eventsSelected)

/-- A pass is safe, and a dry run changes nothing and counts what a real pass selects. -/
theorem retention_safe {dryRun : Bool} {maximumRecords : Option Nat} {report : RetentionRunData}
    (hkeys : db.RecordKeys)
    (h : self.runOnce db storage deleteFails now dryRun maximumRecords =
      some (db', storage', report)) :
    RetentionSafe self now deleteFails db db' storage storage' ∧
      (dryRun → db' = db ∧ storage' = storage ∧
        ∃ db'' storage'' report'',
          self.runOnce db storage deleteFails now false maximumRecords =
            some (db'', storage'', report'') ∧ report.selection = report''.selection) := by
  cases dryRun with
  | false => exact ⟨runOnce_retentionSafe hkeys h, fun hdry => absurd hdry Bool.false_ne_true⟩
  | true =>
      rw [runOnce_eq] at h ⊢
      dsimp only at h ⊢
      split at h
      · cases h
      · next hlimit =>
          cases h
          refine ⟨.refl _ _ _ _ _, fun _ => ⟨rfl, rfl, ?_⟩⟩
          rw [if_neg hlimit, if_neg Bool.false_ne_true]
          exact ⟨_, _, _, rfl, rfl⟩

/-! ## A store with a task that waits -/

def sampleRetention : RetentionService where
  uploadedFileRetentionSeconds := some 86400
  artifactRetentionSeconds := some 100
  eventRetentionSeconds := some 50

/-- Both uploads and the artifact have expired at 200; the task that waits reads the older
upload, and the callback of one of the old events is not made yet. -/
def storedDb : Db where
  tasks :=
    [newTask { source := .uploadedFile "file-old", options := default } none "task-waiting" none 0,
      { newTask { source := .uploadedFile "file-new", options := default } none "task-done" none 0
        with status := .succeeded, resultUri := some "s3://result" }]
  workers := []
  backends := []
  pipelines := []
  events := [⟨"event-a", .taskCreated "task-waiting", 0, false⟩,
    ⟨"event-b", .taskCreated "task-done", 0, true⟩]
  uploads := [⟨"file-old", "uploads/old", 0, some 100⟩, ⟨"file-new", "uploads/new", 1, some 100⟩]
  artifacts :=
    [{ artifactType := .resultJson, filename := "result.json", mimeType := ⟨"application", "json"⟩
       sizeBytes := 2, sha256 := "44136fa3", artifactId := "artifact", taskId := "task-done"
       stageId := none, workerId := none, storageKey := "artifacts/result"
       storageUri := "s3://result", idempotencyDigest := none, requestDigest := none
       createdAt := 2, expiresAt := none }]
  deliveries := []
  eventIdFactory := fun n => toString n
  published := 2
  workers_nodup := List.nodup_nil
  backends_nodup := List.nodup_nil
  deliveries_nodup := List.nodup_nil

theorem storedDb_recordKeys : storedDb.RecordKeys := by
  constructor <;> decide

def storedObjects : List String := ["uploads/old", "uploads/new", "artifacts/result"]

/-- The pass at 200 deletes the newer upload and the artifact with its reference, and nothing
else. -/
theorem retention_safe_stored : ∃ db' storage' report,
    sampleRetention.runOnce storedDb storedObjects (fun _ => false) 200 false none =
      some (db', storage', report) ∧
    db'.uploads.map (·.fileId) = ["file-old"] ∧ db'.artifacts = [] ∧
    db'.events.map (·.eventId) = ["event-a"] ∧ db'.tasks.map (·.resultUri) = [none, none] ∧
    storage' = ["uploads/old"] ∧
    RetentionSafe sampleRetention 200 (fun _ => false) storedDb db' storedObjects storage' := by
  have hrun : sampleRetention.runOnce storedDb storedObjects (fun _ => false) 200 false none =
      some (_, _, _) := rfl
  refine ⟨_, _, _, hrun, ?_, ?_, ?_, ?_, ?_, (retention_safe storedDb_recordKeys hrun).1⟩
  all_goals decide +kernel

end ParserServe
