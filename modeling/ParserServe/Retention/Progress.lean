import ParserServe.Foundation.Batch
import ParserServe.Retention.Safety

/-! # Retention makes progress when the batch reaches a record it may delete

The queries take the oldest expired rows up to the limit, and only then are the rows that active
tasks need left out.  A pass deletes something exactly when the rows it has to leave do not fill
the batch in front of the first one it may delete.
-/

namespace ParserServe

open Foundation

variable {self : RetentionService} {db db' : Db} {storage storage' : List String} {now : Time}

/-- An expired upload that no active task reads. -/
def RetentionService.UploadDue (self : RetentionService) (db : Db) (now : Time)
    (record : UploadedFileRecord) : Prop :=
  self.uploadExpired now record ∧ ¬ db.UploadReferenced record

/-- An expired artifact of a task that is over. -/
def RetentionService.ArtifactDue (self : RetentionService) (db : Db) (now : Time)
    (record : ArtifactRecord) : Prop :=
  self.artifactExpired now record ∧ ¬ db.ArtifactReferenced record

/-- The expired uploads of active tasks that are older than the upload. -/
def RetentionService.uploadsInFront (self : RetentionService) (db : Db) (now : Time)
    (record : UploadedFileRecord) : List UploadedFileRecord :=
  db.uploads.filter fun other =>
    self.uploadExpired now other && db.uploadInUse other && uploadBefore other record

/-- The expired artifacts of active tasks that are older than the artifact. -/
def RetentionService.artifactsInFront (self : RetentionService) (db : Db) (now : Time)
    (record : ArtifactRecord) : List ArtifactRecord :=
  db.artifacts.filter fun other =>
    self.artifactExpired now other && db.artifactInUse other && artifactBefore other record

/-! ## The batch -/

theorem uploadBefore_iff (a b : UploadedFileRecord) :
    uploadBefore a b ↔ toLex (a.createdAt, a.fileId) ≤ toLex (b.createdAt, b.fileId) := by
  rw [Prod.Lex.toLex_le_toLex]
  rfl

theorem artifactBefore_iff (a b : ArtifactRecord) :
    artifactBefore a b ↔ toLex (a.createdAt, a.artifactId) ≤ toLex (b.createdAt, b.artifactId) := by
  rw [Prod.Lex.toLex_le_toLex]
  rfl

theorem exists_eligibleUploads_iff (hkeys : db.RecordKeys) (limit : Nat) :
    (∃ record, record ∈ self.eligibleUploads db now limit) ↔
      ∃ record ∈ db.uploads, self.UploadDue db now record ∧
        (self.uploadsInFront db now record).length < limit := by
  have hbatch := exists_mem_batch_iff (n := limit) uploadBefore_iff
    (nodup_map_rank _ hkeys.files) (self.uploadExpired now) db.uploadInUse
  simp only [RetentionService.eligibleUploads, List.mem_filter, expiredUploads_eq,
    Bool.not_eq_true', hbatch, RetentionService.UploadDue, RetentionService.uploadsInFront,
    ← uploadInUse_iff, Bool.not_eq_true, and_assoc]

theorem exists_eligibleArtifacts_iff (hkeys : db.RecordKeys) (limit : Nat) :
    (∃ record, record ∈ self.eligibleArtifacts db now limit) ↔
      ∃ record ∈ db.artifacts, self.ArtifactDue db now record ∧
        (self.artifactsInFront db now record).length < limit := by
  have hbatch := exists_mem_batch_iff (n := limit) artifactBefore_iff
    (nodup_map_rank _ hkeys.artifacts) (self.artifactExpired now) db.artifactInUse
  simp only [RetentionService.eligibleArtifacts, List.mem_filter, expiredArtifacts_eq,
    Bool.not_eq_true', hbatch, RetentionService.ArtifactDue, RetentionService.artifactsInFront,
    ← artifactInUse_iff, Bool.not_eq_true, and_assoc]

/-! ## The pass -/

theorem deletedUploads_all (records : List UploadedFileRecord) :
    deletedUploads (fun _ => false) records = records := by
  simp [deletedUploads]

theorem deletedArtifacts_all (records : List ArtifactRecord) :
    deletedArtifacts (fun _ => false) records = records := by
  simp [deletedArtifacts]

/-- What a pass removes when storage fails nowhere. -/
theorem exists_removed_upload_iff {maximumRecords : Option Nat} {report : RetentionRunData}
    (hkeys : db.RecordKeys)
    (hrun : self.runOnce db storage (fun _ => false) now false maximumRecords =
      some (db', storage', report)) :
    (∃ record ∈ db.uploads, self.UploadDue db now record ∧ record ∉ db'.uploads) ↔
      ∃ record, record ∈ self.eligibleUploads db now (maximumRecords.getD self.batchSize) := by
  have he := (runOnce_effect hrun).uploads
  rw [deletedUploads_all] at he
  have hsub : ∀ record ∈ self.eligibleUploads db now (maximumRecords.getD self.batchSize),
      record ∈ db.uploads ∧ self.UploadDue db now record := by
    intro record hrecord
    rw [← deletedUploads_all (self.eligibleUploads db now _)] at hrecord
    obtain ⟨hmem, hexpired, hunused, -⟩ := mem_deletedUploads hrecord
    exact ⟨hmem, hexpired, hunused⟩
  have hremoved : ∀ record ∈ db.uploads, record ∉ db'.uploads ↔
      record ∈ self.eligibleUploads db now (maximumRecords.getD self.batchSize) := by
    intro record hmem
    rw [he, mem_filter_notMem_keys hkeys.files fun record h => (hsub record h).1]
    simp [hmem]
  constructor
  · rintro ⟨record, hmem, -, hgone⟩
    exact ⟨record, (hremoved record hmem).mp hgone⟩
  · rintro ⟨record, hrecord⟩
    obtain ⟨hmem, hdue⟩ := hsub record hrecord
    exact ⟨record, hmem, hdue, (hremoved record hmem).mpr hrecord⟩

theorem exists_removed_artifact_iff {maximumRecords : Option Nat} {report : RetentionRunData}
    (hkeys : db.RecordKeys)
    (hrun : self.runOnce db storage (fun _ => false) now false maximumRecords =
      some (db', storage', report)) :
    (∃ record ∈ db.artifacts, self.ArtifactDue db now record ∧ record ∉ db'.artifacts) ↔
      ∃ record, record ∈ self.eligibleArtifacts db now (maximumRecords.getD self.batchSize) := by
  have he := (runOnce_effect hrun).artifacts
  rw [deletedArtifacts_all] at he
  have hsub : ∀ record ∈ self.eligibleArtifacts db now (maximumRecords.getD self.batchSize),
      record ∈ db.artifacts ∧ self.ArtifactDue db now record := by
    intro record hrecord
    rw [← deletedArtifacts_all (self.eligibleArtifacts db now _)] at hrecord
    obtain ⟨hmem, hexpired, hunused, -⟩ := mem_deletedArtifacts hrecord
    exact ⟨hmem, hexpired, hunused⟩
  have hremoved : ∀ record ∈ db.artifacts, record ∉ db'.artifacts ↔
      record ∈ self.eligibleArtifacts db now (maximumRecords.getD self.batchSize) := by
    intro record hmem
    rw [he, mem_filter_notMem_keys hkeys.artifacts fun record h => (hsub record h).1]
    simp [hmem]
  constructor
  · rintro ⟨record, hmem, -, hgone⟩
    exact ⟨record, (hremoved record hmem).mp hgone⟩
  · rintro ⟨record, hrecord⟩
    obtain ⟨hmem, hdue⟩ := hsub record hrecord
    exact ⟨record, hmem, hdue, (hremoved record hmem).mpr hrecord⟩

/-- Where a record of a kind is due, a pass deletes one exactly when for some of them fewer
expired records of active tasks than the limit are older. -/
theorem retention_progress_iff {maximumRecords : Option Nat} {report : RetentionRunData}
    (hkeys : db.RecordKeys)
    (hrun : self.runOnce db storage (fun _ => false) now false maximumRecords =
      some (db', storage', report)) :
    ((∃ record ∈ db.uploads, self.UploadDue db now record) →
      ((∃ record ∈ db.uploads, self.UploadDue db now record ∧ record ∉ db'.uploads) ↔
        ∃ record ∈ db.uploads, self.UploadDue db now record ∧
          (self.uploadsInFront db now record).length < maximumRecords.getD self.batchSize)) ∧
    ((∃ record ∈ db.artifacts, self.ArtifactDue db now record) →
      ((∃ record ∈ db.artifacts, self.ArtifactDue db now record ∧ record ∉ db'.artifacts) ↔
        ∃ record ∈ db.artifacts, self.ArtifactDue db now record ∧
          (self.artifactsInFront db now record).length <
            maximumRecords.getD self.batchSize)) := by
  refine ⟨fun _ => ?_, fun _ => ?_⟩
  · rw [exists_removed_upload_iff hkeys hrun, exists_eligibleUploads_iff hkeys]
  · rw [exists_removed_artifact_iff hkeys hrun, exists_eligibleArtifacts_iff hkeys]

def newerUpload : UploadedFileRecord := ⟨"file-new", "uploads/new", 1, some 100⟩

theorem newerUpload_due : sampleRetention.UploadDue storedDb 200 newerUpload := by
  refine ⟨by decide +kernel, fun hreferenced => ?_⟩
  have hused : storedDb.uploadInUse newerUpload = true := uploadInUse_iff.mpr hreferenced
  exact absurd hused (by decide +kernel)

/-- A batch of two reaches the newer upload. -/
theorem retention_progress_two : ∃ db' storage' report,
    sampleRetention.runOnce storedDb storedObjects (fun _ => false) 200 false (some 2) =
      some (db', storage', report) ∧
    ∃ record ∈ storedDb.uploads, sampleRetention.UploadDue storedDb 200 record ∧
      record ∉ db'.uploads := by
  have hrun : sampleRetention.runOnce storedDb storedObjects (fun _ => false) 200 false (some 2) =
      some (_, _, _) := rfl
  have hmem : newerUpload ∈ storedDb.uploads := by decide +kernel
  refine ⟨_, _, _, hrun, ?_⟩
  exact ((retention_progress_iff storedDb_recordKeys hrun).1
    ⟨newerUpload, hmem, newerUpload_due⟩).mpr
      ⟨newerUpload, hmem, newerUpload_due, by decide +kernel⟩

/-- A batch of one is filled by the upload of the task that waits. -/
theorem retention_stalls : ∃ db' storage' report,
    sampleRetention.runOnce storedDb storedObjects (fun _ => false) 200 false (some 1) =
      some (db', storage', report) ∧
    (∃ record ∈ storedDb.uploads, sampleRetention.UploadDue storedDb 200 record) ∧
    db'.uploads = storedDb.uploads := by
  have hmem : newerUpload ∈ storedDb.uploads := by decide +kernel
  exact ⟨_, _, _, rfl, ⟨newerUpload, hmem, newerUpload_due⟩, by decide +kernel⟩

end ParserServe
