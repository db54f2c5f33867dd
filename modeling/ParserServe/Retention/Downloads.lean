import ParserServe.Api.Files
import ParserServe.Lifecycle.Frames
import ParserServe.Lifecycle.Progress
import ParserServe.Retention.Safety

/-! # Downloads of a task's upload

An upload is kept as long as a pass finds an active task that reads it, and hidden from every
download once its `expires_at` has come.  The worker of an active task therefore gets its file
exactly when that time has not come, or there is none and no pass has deleted the file.
-/

namespace ParserServe

open Foundation

variable {scheduler : StageScheduler} {retention : RetentionService} {db db' : Db}
  {s t : FileState} {label : FileLabel} {labels : List FileLabel} {record : UploadedFileRecord}
  {now : Time}

/-! ## Calls leave the files alone -/

def Db.SameFiles (db db' : Db) : Prop := db'.uploads = db.uploads ∧ db'.artifacts = db.artifacts

theorem Db.SameFiles.trans {db'' : Db} (h : db.SameFiles db') (h' : db'.SameFiles db'') :
    db.SameFiles db'' := ⟨h'.1.trans h.1, h'.2.trans h.2⟩

theorem sameFiles_frame : Frame Db.SameFiles where
  refl _ := ⟨rfl, rfl⟩
  trans h h' := h.trans h'
  tasks _ _ := ⟨rfl, rfl⟩
  publish _ _ _ := ⟨rfl, rfl⟩
  worker _ _ := ⟨rfl, rfl⟩

theorem control_sameFiles {call : Label} (h : ControlStep scheduler db call db')
    (hcall : call ≠ .administered) : db.SameFiles db' :=
  sameFiles_frame.control h hcall

/-! ## The source of a task -/

theorem Settled.source {task settled : TaskRecord} (h : Settled now task settled) :
    settled.source = task.source := by
  cases h with
  | failed | succeeded | released | unsettled => rfl

theorem TaskMove.source {manual : Prop} {task task' : TaskRecord} {granted : Option LeaseGrant}
    {payloads : List EventPayload} (h : TaskMove manual now task granted payloads task') :
    task'.source = task.source := by
  cases h with
  | ended _ _ hsettled => exact hsettled.source
  | leased | renewed | started | progressed | cancelled | retried => rfl

/-- The task is there and reads this source. -/
def Db.TaskReads (db : Db) (taskId : String) (source : ParseSource) : Prop :=
  ∃ task ∈ db.tasks, task.taskId = taskId ∧ task.source = source

theorem saveTask_taskReads {taskId : String} {source : ParseSource} (hkeys : db.KeysNodup)
    {task task' : TaskRecord} (hmem : task ∈ db.tasks) (hid : task'.taskId = task.taskId)
    (hsource : task'.source = task.source) (h : db.TaskReads taskId source) :
    (db.saveTask task').TaskReads taskId source := by
  obtain ⟨reader, hreader, rfl, rfl⟩ := h
  by_cases heq : reader.taskId = task'.taskId
  · have hsame : reader = task := List.inj_on_of_nodup_map hkeys.tasks hreader hmem
      (heq.trans hid)
    refine ⟨task', mem_replaceKey_self hreader heq, heq.symm, hsource.trans ?_⟩
    rw [hsame]
  · exact ⟨reader, mem_replaceKey_of_ne hreader heq, rfl, rfl⟩

theorem control_taskReads {call : Label} {taskId : String} {source : ParseSource}
    (h : ControlStep scheduler db call db') (hkeys : db.KeysNodup)
    (hreads : db.TaskReads taskId source) : db'.TaskReads taskId source := by
  refine h.keeps (I := fun db => db.TaskReads taskId source) ?_ ?_ ?_ hkeys hreads
  · intro manual now db granted db' hkeys hreads hchange
    cases hchange with
    | untouched htasks _ _ =>
        rw [Db.TaskReads, htasks]
        exact hreads
    | created =>
        obtain ⟨reader, hreader, hid, hsource⟩ := hreads
        exact ⟨reader, List.mem_append_left _ hreader, hid, hsource⟩
    | routed hmem _ hrouted =>
        rw [Db.TaskReads, Db.publishAll_tasks]
        obtain ⟨_, _, _, _, _, htask, _⟩ := hrouted.plan
        exact saveTask_taskReads hkeys hmem (by rw [htask]) (by rw [htask]) hreads
    | moved hmem hmove =>
        rw [Db.TaskReads, Db.publishAll_tasks]
        exact saveTask_taskReads hkeys hmem hmove.taskId hmove.source hreads
  · intro db db' hreads hadmin
    rw [Db.TaskReads, hadmin.tasks]
    exact hreads
  · intro db task stages hkeys hreads hmem _
    exact saveTask_taskReads hkeys hmem rfl rfl hreads

theorem forgetResults_same (task : TaskRecord) (uris : List String) (now : Time) :
    (task.forgetResults uris now).taskId = task.taskId ∧
      (task.forgetResults uris now).source = task.source ∧
      (task.forgetResults uris now).stages.map (·.stageId) = task.stages.map (·.stageId) := by
  induction uris generalizing task with
  | nil => exact ⟨rfl, rfl, rfl⟩
  | cons uri uris ih =>
      obtain ⟨hid, hsource, hstages⟩ := ih (task.forgetResult uri now)
      refine ⟨hid, hsource, hstages.trans ?_⟩
      rw [TaskRecord.forgetResult, List.map_map]
      refine List.map_congr_left fun stage _ => ?_
      simp only [Function.comp_apply, StageRecord.forgetResult]
      split <;> rfl

/-! ## The second part of a pass -/

theorem finish_effect (retention : RetentionService) (pass : RetentionPass) (db : Db)
    (storage : List String) (deleteFails : String → Bool) :
    PassEffect pass.current (deletedUploads deleteFails (pass.uploads retention db))
      (deletedArtifacts deleteFails (pass.artifacts retention db))
      (retention.expiredEvents db pass.current pass.limit) db
      (pass.finish retention db storage deleteFails).1 storage
      (pass.finish retention db storage deleteFails).2 :=
  deletes_effect _ _ _ db storage

theorem PassEffect.keysNodup {files : List UploadedFileRecord} {results : List ArtifactRecord}
    {expired : List EventRecord} {storage storage' : List String}
    (h : PassEffect now files results expired db db' storage storage') (hkeys : db.KeysNodup) :
    db'.KeysNodup := by
  constructor
  · rw [h.tasks, List.map_map]
    simpa [Function.comp_def, forgetResults_same] using hkeys.tasks
  · have hstages := hkeys.stages
    rw [Db.stages, List.map_flatMap] at hstages ⊢
    simpa [h.tasks, List.flatMap_map, forgetResults_same] using hstages

theorem PassEffect.taskReads {files : List UploadedFileRecord} {results : List ArtifactRecord}
    {expired : List EventRecord} {storage storage' : List String} {taskId : String}
    {source : ParseSource} (h : PassEffect now files results expired db db' storage storage')
    (hreads : db.TaskReads taskId source) : db'.TaskReads taskId source := by
  obtain ⟨task, hmem, rfl, rfl⟩ := hreads
  obtain ⟨hid, hsource, -⟩ := forgetResults_same task (results.map (·.storageUri)) now
  exact ⟨_, h.tasks ▸ List.mem_map_of_mem hmem, hid, hsource⟩

/-! ## The invariant -/

/-- Every row in the table was issued, and no two issued rows have an identifier or an object in
common. -/
structure FilesKept (s : FileState) : Prop where
  tasks : s.db.KeysNodup
  uploads : s.db.uploads.Sublist s.issued
  ids : (s.issued.map (·.fileId)).Nodup
  keys : (s.issued.map (·.storageKey)).Nodup
  artifacts : ∀ artifact ∈ s.db.artifacts, artifact.storageKey ∉ s.issued.map (·.storageKey)
  passes : ∀ pass ∈ s.passes, pass.current ≤ s.clock

theorem filesKept_initial (h : FilesStart s) : FilesKept s := by
  refine ⟨⟨by simp [h.tasks], by simp [Db.stages, h.tasks]⟩, ?_, ?_, ?_, ?_, by simp [h.passes]⟩
  · rw [h.issued]
  · exact h.issued ▸ h.ids
  · exact h.issued ▸ h.keys
  · exact h.issued ▸ h.artifacts

theorem begin_current {maximumRecords : Option Nat} {pass : RetentionPass}
    (h : retention.begin db now maximumRecords = some pass) : pass.current = now := by
  unfold RetentionService.begin at h
  dsimp only at h
  split at h
  · cases h
  · cases h
    rfl

theorem filesKept_step (hs : FilesKept s) (hstep : FileStep scheduler retention s label t) :
    FilesKept t := by
  cases hstep with
  | waited hle =>
      exact ⟨hs.tasks, hs.uploads, hs.ids, hs.keys, hs.artifacts,
        fun pass hpass => (hs.passes pass hpass).trans hle⟩
  | uploaded hid hkey hartifacts =>
      refine ⟨⟨hs.tasks.tasks, hs.tasks.stages⟩, hs.uploads.append (.refl _), ?_, ?_, ?_, hs.passes⟩
      · rw [List.map_append, List.map_singleton, List.nodup_append']
        exact ⟨hs.ids, List.nodup_singleton _, by simpa [newUpload] using hid⟩
      · rw [List.map_append, List.map_singleton, List.nodup_append']
        exact ⟨hs.keys, List.nodup_singleton _, by simpa [newUpload] using hkey⟩
      · intro artifact hmem
        rw [List.map_append, List.map_singleton, List.mem_append, List.mem_singleton, not_or]
        refine ⟨hs.artifacts artifact hmem, fun heq => hartifacts ?_⟩
        exact List.mem_map.mpr ⟨artifact, hmem, heq⟩
  | stored => exact ⟨hs.tasks, hs.uploads, hs.ids, hs.keys, hs.artifacts, hs.passes⟩
  | called hcontrol hreads =>
      have hsame : s.db.SameFiles _ := control_sameFiles hcontrol (by rintro rfl; exact hreads)
      refine ⟨hcontrol.keysNodup hs.tasks, ?_, hs.ids, hs.keys, ?_, hs.passes⟩
      · exact hsame.1 ▸ hs.uploads
      · exact hsame.2 ▸ hs.artifacts
  | administered hadmin huploads hartifacts =>
      refine ⟨?_, huploads ▸ hs.uploads, hs.ids, hs.keys, hartifacts, hs.passes⟩
      exact ⟨hadmin.tasks ▸ hs.tasks.tasks,
        by simpa [Db.stages, hadmin.tasks] using hs.tasks.stages⟩
  | began hbegin =>
      refine ⟨hs.tasks, hs.uploads, hs.ids, hs.keys, hs.artifacts, fun pass hpass => ?_⟩
      rcases List.mem_append.mp hpass with hpass | hpass
      · exact hs.passes pass hpass
      · rw [List.mem_singleton.mp hpass, begin_current hbegin]
  | @finished i pass deleteFails committed hpass =>
      have he := finish_effect retention pass s.db s.store.keys deleteFails
      have hpasses : ∀ other ∈ s.passes.eraseIdx i, other.current ≤ s.clock :=
        fun other hother => hs.passes other (List.mem_of_mem_eraseIdx hother)
      cases committed with
      | false => exact ⟨hs.tasks, hs.uploads, hs.ids, hs.keys, hs.artifacts, hpasses⟩
      | true =>
          refine ⟨he.keysNodup hs.tasks, ?_, hs.ids, hs.keys, ?_, hpasses⟩
          · exact he.uploads ▸ List.filter_sublist.trans hs.uploads
          · intro artifact hmem
            rw [if_pos rfl, he.artifacts] at hmem
            exact hs.artifacts artifact (List.mem_filter.mp hmem).1

/-! ## Deletes -/

/-- The row and its object are there. -/
def FileState.Holds (s : FileState) (record : UploadedFileRecord) : Prop :=
  record ∈ s.db.uploads ∧ record.storageKey ∈ s.store.keys

/-- A pass that read no active task of this upload finds it old enough, and storage gives its
object up. -/
def DeletesUpload (retention : RetentionService) (record : UploadedFileRecord) (s : FileState) :
    FileLabel → Prop
  | .finished i deleteFails _ => ∃ pass ∈ s.passes[i]?,
      record ∈ deletedUploads deleteFails (pass.uploads retention s.db)
  | _ => False

theorem mem_pass_uploads {pass : RetentionPass} (h : record ∈ pass.uploads retention db) :
    record ∈ db.uploads ∧ retention.uploadExpired pass.current record :=
  mem_expiredUploads (List.mem_filter.mp h).1

theorem mem_issued_keys (hs : FilesKept s) {deleted : List UploadedFileRecord}
    (hsub : ∀ other ∈ deleted, other ∈ s.issued) (hrecord : record ∈ s.issued) :
    (record.fileId ∈ deleted.map (·.fileId) ↔ record ∈ deleted) ∧
      (record.storageKey ∈ deleted.map (·.storageKey) ↔ record ∈ deleted) := by
  refine ⟨⟨fun h => ?_, List.mem_map_of_mem⟩, ⟨fun h => ?_, List.mem_map_of_mem⟩⟩
  · obtain ⟨other, hother, heq⟩ := List.mem_map.mp h
    rwa [← List.inj_on_of_nodup_map hs.ids (hsub other hother) hrecord heq]
  · obtain ⟨other, hother, heq⟩ := List.mem_map.mp h
    rwa [← List.inj_on_of_nodup_map hs.keys (hsub other hother) hrecord heq]

/-- An upload stays through a step exactly when no pass deletes it. -/
theorem holds_step (hs : FilesKept s) (hrecord : record ∈ s.issued)
    (hstep : FileStep scheduler retention s label t) :
    t.Holds record ↔ s.Holds record ∧ ¬ DeletesUpload retention record s label := by
  have hkey : record.storageKey ∈ s.issued.map (·.storageKey) := List.mem_map_of_mem hrecord
  have hid : record.fileId ∈ s.issued.map (·.fileId) := List.mem_map_of_mem hrecord
  cases hstep with
  | waited | began => simp [FileState.Holds, DeletesUpload]
  | @uploaded fileId _ retentionSeconds hnewId hnewKey _ =>
      have hne : record ≠ newUpload fileId retentionSeconds s.clock := by
        rintro rfl
        exact hnewId hid
      have hneKey : record.storageKey ≠ uploadKey fileId := fun heq => hnewKey (heq ▸ hkey)
      simp [FileState.Holds, DeletesUpload, ObjectStore.write, hne, hneKey]
  | @stored key _ hnew =>
      have hneKey : record.storageKey ≠ key := fun heq => hnew (heq ▸ hkey)
      simp [FileState.Holds, DeletesUpload, ObjectStore.write, hneKey]
  | called hcontrol hreads =>
      have hsame : s.db.SameFiles _ := control_sameFiles hcontrol (by rintro rfl; exact hreads)
      simp [FileState.Holds, DeletesUpload, hsame.1]
  | administered _ huploads _ => simp [FileState.Holds, DeletesUpload, huploads]
  | @finished i pass deleteFails committed hpass =>
      have he := finish_effect retention pass s.db s.store.keys deleteFails
      set deleted := deletedUploads deleteFails (pass.uploads retention s.db) with hdeleted
      have hsub : ∀ other ∈ deleted, other ∈ s.issued := fun other hother =>
        hs.uploads.subset (mem_pass_uploads (List.mem_filter.mp hother).1).1
      obtain ⟨hids, hkeys⟩ := mem_issued_keys hs hsub hrecord
      have hartifact : record.storageKey ∉ (deletedArtifacts deleteFails
          (pass.artifacts retention s.db)).map (·.storageKey) := by
        intro hmem
        obtain ⟨artifact, hartifact, heq⟩ := List.mem_map.mp hmem
        have hrow := mem_expiredArtifacts
          (List.mem_filter.mp (List.mem_filter.mp hartifact).1).1
        exact hs.artifacts artifact hrow.1 (heq ▸ hkey)
      have hobject : record.storageKey ∈ (pass.finish retention s.db s.store.keys deleteFails).2 ↔
          record.storageKey ∈ s.store.keys ∧ record ∉ deleted := by
        rw [he.objects, List.mem_filter, decide_eq_true_eq, hkeys, and_iff_left hartifact]
      have hrow : record ∈ (pass.finish retention s.db s.store.keys deleteFails).1.uploads ↔
          record ∈ s.db.uploads ∧ record ∉ deleted := by
        rw [he.uploads, List.mem_filter, decide_eq_true_eq, hids]
      simp only [FileState.Holds, DeletesUpload, hpass, Option.mem_def, Option.some.injEq,
        exists_eq_left', hobject, ← hdeleted]
      cases committed with
      | false => simp [and_assoc]
      | true =>
          simp only [if_true, hrow]
          tauto

/-- A row that is issued by a step is there with its object. -/
theorem holds_of_issued (hstep : FileStep scheduler retention s label t)
    (hnew : record ∈ t.issued) (hrecord : record ∉ s.issued) : t.Holds record := by
  cases hstep with
  | uploaded =>
      rw [List.mem_append, or_iff_right hrecord, List.mem_singleton] at hnew
      simp [FileState.Holds, ObjectStore.write, hnew, newUpload]
  | waited | began | stored | called | administered | finished => exact absurd hnew hrecord

theorem issued_step (hstep : FileStep scheduler retention s label t)
    (hrecord : record ∈ s.issued) :
    record ∈ t.issued ∧
      t.store.contents record.storageKey = s.store.contents record.storageKey := by
  have hkey : record.storageKey ∈ s.issued.map (·.storageKey) := List.mem_map_of_mem hrecord
  cases hstep with
  | uploaded _ hnewKey _ =>
      refine ⟨List.mem_append_left _ hrecord, Function.update_of_ne ?_ _ _⟩
      exact fun heq => hnewKey (heq ▸ hkey)
  | stored hnew =>
      refine ⟨hrecord, Function.update_of_ne ?_ _ _⟩
      exact fun heq => hnew (heq ▸ hkey)
  | waited | began | called | administered | finished => exact ⟨hrecord, rfl⟩

theorem clock_step (hstep : FileStep scheduler retention s label t) : s.clock ≤ t.clock := by
  cases hstep with
  | waited hle => exact hle
  | uploaded | stored | called | administered | began | finished => exact le_rfl

theorem deletesUpload_spec (hs : FilesKept s) (h : DeletesUpload retention record s label) :
    record ∈ s.issued ∧ ∃ pass ∈ s.passes, retention.uploadExpired pass.current record := by
  cases label with
  | finished i deleteFails committed =>
      obtain ⟨pass, hpass, hmem⟩ := h
      obtain ⟨hrow, hexpired⟩ := mem_pass_uploads (List.mem_filter.mp hmem).1
      exact ⟨hs.uploads.subset hrow, pass, List.mem_of_getElem? hpass, hexpired⟩
  | waited | uploaded | stored | called | administered | began => exact h.elim

/-- A pass that deletes an upload began after its `expires_at`. -/
theorem expired_of_deletes (hs : FilesKept s) {expiresAt : Time}
    (hexpires : record.expiresAt = some expiresAt)
    (h : DeletesUpload retention record s label) : expiresAt ≤ s.clock := by
  obtain ⟨-, pass, hpass, hexpired⟩ := deletesUpload_spec hs h
  rw [RetentionService.uploadExpired, Option.any_eq_true] at hexpired
  obtain ⟨seconds, -, hexpired⟩ := hexpired
  simp only [expiredRow, hexpires, decide_eq_true_eq] at hexpired
  exact hexpired.trans (hs.passes pass hpass)

/-! ## Runs -/

theorem filesKept_run (hs : FilesKept s) (hrun : (files scheduler retention).Run s labels t) :
    FilesKept t :=
  hrun.keeps (fun _ _ _ => filesKept_step) hs

theorem issued_run (hrun : (files scheduler retention).Run s labels t)
    (hrecord : record ∈ s.issued) :
    record ∈ t.issued ∧
      t.store.contents record.storageKey = s.store.contents record.storageKey := by
  refine hrun.keeps (I := fun u => record ∈ u.issued ∧
    u.store.contents record.storageKey = s.store.contents record.storageKey) ?_ ⟨hrecord, rfl⟩
  rintro u label v ⟨hissued, hcontent⟩ hstep
  obtain ⟨hissued', hcontent'⟩ := issued_step hstep hissued
  exact ⟨hissued', hcontent'.trans hcontent⟩

/-- An upload is there with its object exactly when no pass of the run has deleted it. -/
theorem holds_iff (hstart : (files scheduler retention).Initial s)
    (hrun : (files scheduler retention).Run s labels t) (hrecord : record ∈ t.issued) :
    t.Holds record ↔
      ((files scheduler retention).restrict fun u label =>
        ¬ DeletesUpload retention record u label).Run s labels t := by
  have hs := filesKept_initial hstart
  constructor
  · intro hholds
    -- what a delete leaves behind stays
    have hor := hrun.restrict_or (I := FilesKept)
      (P := fun u label => ¬ DeletesUpload retention record u label)
      (B := fun u => record ∈ u.issued ∧ ¬ u.Holds record) (fun _ _ _ => filesKept_step) ?_ ?_ hs
    · exact hor.resolve_right fun hgone => hgone.2 hholds
    · intro u label v hu hstep hdeletes
      rw [not_not] at hdeletes
      have hissued := (deletesUpload_spec hu hdeletes).1
      exact ⟨(issued_step hstep hissued).1,
        fun hholds => ((holds_step hu hissued hstep).mp hholds).2 hdeletes⟩
    · rintro u label v hu ⟨hissued, hgone⟩ hstep
      exact ⟨(issued_step hstep hissued).1,
        fun hholds => hgone ((holds_step hu hissued hstep).mp hholds).1⟩
  · intro hkept
    have hall := hkept.keeps (I := fun u => FilesKept u ∧ (record ∈ u.issued → u.Holds record)) ?_
      ⟨hs, ?_⟩
    · exact hall.2 hrecord
    · rintro u label v ⟨hu, hholds⟩ ⟨hstep, hnot⟩
      refine ⟨filesKept_step hu hstep, fun hnew => ?_⟩
      by_cases hissued : record ∈ u.issued
      · exact (holds_step hu hissued hstep).mpr ⟨hholds hissued, hnot⟩
      · exact holds_of_issued hstep hnew hissued
    · intro hissued
      have hmem : record ∈ s.db.uploads := by
        rw [← hstart.issued]
        exact hissued
      exact ⟨hmem, hstart.objects record hmem⟩

/-- Before its `expires_at` nothing deletes an upload. -/
theorem not_deleted_before (hstart : (files scheduler retention).Initial s)
    (hrun : (files scheduler retention).Run s labels t) {expiresAt : Time}
    (hexpires : record.expiresAt = some expiresAt) (hbefore : t.clock < expiresAt) :
    ((files scheduler retention).restrict fun u label =>
      ¬ DeletesUpload retention record u label).Run s labels t := by
  have hor := hrun.restrict_or (I := FilesKept)
    (P := fun u label => ¬ DeletesUpload retention record u label)
    (B := fun u => expiresAt ≤ u.clock) (fun _ _ _ => filesKept_step) ?_ ?_
    (filesKept_initial hstart)
  · exact hor.resolve_right (not_le.mpr hbefore)
  · intro u label v hu hstep hdeletes
    exact (expired_of_deletes hu hexpires (not_not.mp hdeletes)).trans (clock_step hstep)
  · exact fun u label v _ hexpired hstep => hexpired.trans (clock_step hstep)

/-! ## The download -/

theorem get_eq_some_iff {fileId : String} {now : Time} (hids : (db.uploads.map (·.fileId)).Nodup) :
    FileRepository.get db fileId (some now) = some record ↔
      record ∈ db.uploads ∧ record.fileId = fileId ∧
        ∀ expiresAt ∈ record.expiresAt, now < expiresAt := by
  have hrow : db.uploads.find? (·.fileId = fileId) = some record ↔
      record ∈ db.uploads ∧ record.fileId = fileId := by
    constructor
    · intro hfind
      exact ⟨List.mem_of_find?_eq_some hfind, by simpa using List.find?_some hfind⟩
    · rintro ⟨hmem, rfl⟩
      exact find?_key_eq_some hids hmem
  rw [FileRepository.get, Option.filter_eq_some_iff, hrow, and_assoc]
  refine and_congr_right fun _ => and_congr_right fun _ => ?_
  cases record.expiresAt <;> simp

theorem fileRecord_eq_ok_iff {store : ObjectStore} {fileId : String} :
    fileRecord db store fileId now = .ok record ↔
      FileRepository.get db fileId (some now) = some record ∧
        record.storageKey ∈ store.keys := by
  unfold fileRecord
  cases FileRepository.get db fileId (some now) with
  | none => simp
  | some found =>
      by_cases hkey : found.storageKey ∈ store.keys
      · simp only [hkey, if_true, Except.ok.injEq, Option.some.injEq]
        exact ⟨fun heq => ⟨heq, heq ▸ hkey⟩, fun h => h.1⟩
      · simp only [hkey, if_false, Option.some.injEq, reduceCtorEq, false_iff]
        rintro ⟨rfl, hmem⟩
        exact hkey hmem

/-- A worker that may read a file gets it exactly when its row has not expired and its object is
there. -/
theorem download_eq_ok_iff {boundWorker : Option String} {workerId : String}
    {store : ObjectStore} (hids : (db.uploads.map (·.fileId)).Nodup)
    (hbound : ∀ worker ∈ boundWorker, worker = workerId)
    (hheld : workerCanRead db workerId record.fileId) :
    downloadWorkerSourceFile db store boundWorker workerId record.fileId now =
        .ok ⟨record, store.contents record.storageKey⟩ ↔
      (record ∈ db.uploads ∧ record.storageKey ∈ store.keys) ∧
        ∀ expiresAt ∈ record.expiresAt, now < expiresAt := by
  have hread : downloadWorkerSourceFile db store boundWorker workerId record.fileId now =
      .ok ⟨record, store.contents record.storageKey⟩ ↔
        fileRecord db store record.fileId now = .ok record := by
    simp only [downloadWorkerSourceFile, bind_eq_ok, ensure_eq_ok]
    constructor
    · rintro ⟨_, _, _, _, found, hfound, heq⟩
      cases heq
      exact hfound
    · exact fun h => ⟨(), hbound, (), hheld, record, h, rfl⟩
  rw [hread, fileRecord_eq_ok_iff, get_eq_some_iff hids]
  tauto

theorem create_taskReads {request : CreateTaskRequest} {idempotencyKey : Option String}
    {allowUnpublished : Bool} {taskId : String}
    {metadata : Except ServiceError (Option SourceMetadata)} {created : TaskRecord}
    (h : (Operation.create request idempotencyKey allowUnpublished taskId metadata now).exec
      scheduler db = .ok (db', .created created true)) :
    db'.TaskReads created.taskId request.source := by
  simp only [Operation.exec, createTask, bind_eq_ok] at h
  obtain ⟨⟨db₁, task, isNew⟩, hcreate, h⟩ := h
  cases h
  split at hcreate
  · obtain ⟨_, _, hcreate⟩ := bind_eq_ok.mp hcreate
    cases hcreate
  · simp only [bind_eq_ok] at hcreate
    obtain ⟨_, _, _, _, _, _, hcreate⟩ := hcreate
    cases hcreate
    exact ⟨_, List.mem_append_right _ List.mem_cons_self, rfl, rfl⟩

theorem taskReads_run {taskId : String} {source : ParseSource} (hs : FilesKept s)
    (hrun : (files scheduler retention).Run s labels t) (hreads : s.db.TaskReads taskId source) :
    t.db.TaskReads taskId source := by
  have hall := hrun.keeps (I := fun u => FilesKept u ∧ u.db.TaskReads taskId source) ?_
    ⟨hs, hreads⟩
  · exact hall.2
  rintro u label v ⟨hu, hreads⟩ hstep
  refine ⟨filesKept_step hu hstep, ?_⟩
  cases hstep with
  | called hcontrol _ => exact control_taskReads hcontrol hu.tasks hreads
  | administered hadmin _ _ =>
      rw [Db.TaskReads, hadmin.tasks]
      exact hreads
  | @finished i pass deleteFails committed _ =>
      cases committed with
      | false => exact hreads
      | true => exact (finish_effect retention pass u.db u.store.keys deleteFails).taskReads hreads
  | waited | uploaded | stored | began => exact hreads

/-- A worker with a stage of the task gets the upload the task was created from exactly when the
time in `expires_at` has not come, or there is none and no pass has deleted the upload. -/
theorem worker_download_iff {before after : List FileLabel} {u v : FileState}
    (hstart : (files scheduler retention).Initial s)
    {request : CreateTaskRequest} {idempotencyKey : Option String} {allowUnpublished : Bool}
    {taskId fileId : String} {metadata : Option SourceMetadata} {created : TaskRecord}
    (hcreated : (files scheduler retention).At s labels t before u
      (.called (.returned (.create request idempotencyKey allowUnpublished taskId (.ok metadata)
        now) (.created created true))) v after)
    (hsource : request.source = .uploadedFile fileId)
    {task : TaskRecord} (htask : task ∈ t.db.tasks) (hid : task.taskId = created.taskId)
    {stage : StageRecord} (hstage : stage ∈ task.stages) {workerId : String}
    (hheld : stage.workerId = some workerId ∧ stage.status.active)
    {boundWorker : Option String} (hbound : ∀ worker ∈ boundWorker, worker = workerId) :
    ∃ record, FileRepository.get u.db fileId (some now) = some record ∧
      (downloadWorkerSourceFile t.db t.store boundWorker workerId fileId t.clock =
          .ok ⟨record, u.store.contents record.storageKey⟩ ↔
        (∀ expiresAt ∈ record.expiresAt, t.clock < expiresAt) ∧
          (record.expiresAt = none →
            ((files scheduler retention).restrict fun u label =>
              ¬ DeletesUpload retention record u label).Run s labels t)) := by
  obtain ⟨rfl, hbefore, hstep, hafter⟩ := hcreated
  have hrest : (files scheduler retention).Run u _ t := (System.Run.single hstep).trans hafter
  have hrun : (files scheduler retention).Run s _ t := hbefore.trans hrest
  have hu : FilesKept u := filesKept_run (filesKept_initial hstart) hbefore
  have hv : FilesKept v := filesKept_step hu hstep
  have ht : FilesKept t := filesKept_run hv hafter
  have hids : ∀ {w : FileState}, FilesKept w → (w.db.uploads.map (·.fileId)).Nodup :=
    fun hw => hw.ids.sublist (hw.uploads.map _)
  cases hstep with
  | @called _ db hcontrol hreads =>
      obtain ⟨record, hget⟩ :
          ∃ record, FileRepository.get u.db fileId (some now) = some record := by
        rw [← Option.ne_none_iff_exists']
        intro hnone
        have hfinds : ParseSource.Finds u.db (.ok metadata) now request.source := hreads.2
        rw [hsource] at hfinds
        cases hfinds.mpr hnone
      obtain ⟨hrow, rfl, -⟩ := (get_eq_some_iff (hids hu)).mp hget
      have hissued : record ∈ u.issued := hu.uploads.subset hrow
      obtain ⟨hissued', hcontent⟩ := issued_run hrest hissued
      -- the row of the task still names the upload
      have hcan : workerCanRead t.db workerId record.fileId := by
        obtain ⟨reader, hreader, hreaderId, hreads⟩ := taskReads_run hv hafter
          (create_taskReads (by cases hcontrol with | returned _ hexec => exact hexec))
        have hsame : reader = task :=
          List.inj_on_of_nodup_map ht.tasks.tasks hreader htask (hreaderId.trans hid.symm)
        simp only [workerCanRead, List.any_eq_true, Bool.and_eq_true, decide_eq_true_eq]
        exact ⟨task, htask, hsame ▸ hreads.trans hsource, stage, hstage, hheld⟩
      refine ⟨record, hget, ?_⟩
      rw [← hcontent, download_eq_ok_iff (hids ht) hbound hcan]
      change t.Holds record ∧ _ ↔ _
      rw [holds_iff hstart hrun hissued', and_comm]
      refine and_congr_right fun hbefore => ⟨fun h _ => h, fun h => ?_⟩
      cases hexpires : record.expiresAt with
      | none => exact h hexpires
      | some expiresAt => exact not_deleted_before hstart hrun hexpires (hbefore expiresAt hexpires)

/-! ## A task that waits for its worker -/

def fileStart : FileState where
  db := sampleDb
  store := ⟨[], fun _ => []⟩
  clock := 0
  passes := []
  issued := []

theorem fileStart_initial : (files sampleScheduler retention).Initial fileStart :=
  ⟨rfl, rfl, rfl, List.nodup_nil, List.nodup_nil, fun _ h => (List.not_mem_nil h).elim,
    fun _ h => (List.not_mem_nil h).elim⟩

def fileMoves (s : FileState) (moves : List FileMove) : List FileLabel × FileState :=
  System.script (FileMove.take sampleScheduler sampleRetention) s moves

theorem fileMoves_run (s : FileState) (moves : List FileMove) :
    (files sampleScheduler sampleRetention).Run s (fileMoves s moves).1 (fileMoves s moves).2 :=
  System.script_run (FileMove.take_step sampleScheduler sampleRetention) s moves

/-- At 50 there is an upload that expires at 100. -/
def uploadedFile : FileState :=
  (fileMoves fileStart [.upload "file_0" [37, 80, 68, 70] (some 100), .wait 50]).2

def fileRequest : CreateTaskRequest where
  source := .uploadedFile "file_0"
  options := default

/-- A task is created from it. -/
def fileTask : FileState :=
  { uploadedFile with
    db := ({ uploadedFile.db with
      tasks := [newTask fileRequest none "task" (some sampleMetadata) 50] }).publish 50
        (.taskCreated "task") }

theorem fileTask_created : FileStep sampleScheduler sampleRetention uploadedFile
    (.called (.returned (.create fileRequest none false "task" (.ok (some sampleMetadata)) 50)
      (.created (newTask fileRequest none "task" (some sampleMetadata) 50) true))) fileTask := by
  have hreads : (Operation.create fileRequest none false "task" (.ok (some sampleMetadata))
      50).ReadsSource uploadedFile.db uploadedFile.clock := by decide +kernel
  exact .called (.returned trivial rfl) hreads

/-- The task is routed, and the worker leases two of its stages. -/
def heldMoves : List FileMove :=
  [.wait 60, .call (.route "task" false sampleStageIds 51),
    .call (.lease { workerId := "worker", availableSlots := 7 }
      ["stage-layout", "stage-tables", "stage-merge"]
      (fun n => if n = 0 then "token-layout" else "token-tables") 52)]

def heldFile (moves : List FileMove) : FileState := (fileMoves fileTask (heldMoves ++ moves)).2

theorem heldFile_reachable (moves : List FileMove) :
    (files sampleScheduler sampleRetention).Reachable (heldFile moves) := by
  have hcreated : (files sampleScheduler sampleRetention).Run uploadedFile _ fileTask :=
    .single fileTask_created
  exact ⟨fileStart, _, fileStart_initial,
    ((fileMoves_run fileStart _).trans hcreated).trans (fileMoves_run fileTask _)⟩

/-- At 60 the worker gets the file. -/
theorem worker_download_held : ∃ record,
    FileRepository.get uploadedFile.db "file_0" (some 50) = some record ∧
      downloadWorkerSourceFile (heldFile []).db (heldFile []).store none "worker" "file_0"
        (heldFile []).clock = .ok ⟨record, uploadedFile.store.contents record.storageKey⟩ := by
  have hget : FileRepository.get uploadedFile.db "file_0" (some 50) =
      some (newUpload "file_0" (some 100) 0) := by decide +kernel
  have hstage : ∃ task ∈ (heldFile []).db.tasks, task.taskId = "task" ∧
      ∃ stage ∈ task.stages, stage.workerId = some "worker" ∧ stage.status.active := by
    decide +kernel
  obtain ⟨task, htask, hid, stage, hstage, hheld⟩ := hstage
  have hbound : ∀ worker ∈ (none : Option String), worker = "worker" := by simp
  obtain ⟨record, hrecord, hiff⟩ := worker_download_iff fileStart_initial
    ⟨rfl, fileMoves_run fileStart _, fileTask_created, fileMoves_run fileTask _⟩
    rfl htask hid hstage hheld hbound
  obtain rfl : newUpload "file_0" (some 100) 0 = record :=
    Option.some.inj (hget.symm.trans hrecord)
  refine ⟨_, hget, hiff.mpr ⟨by decide +kernel, fun hnone => ?_⟩⟩
  cases hnone

/-- At 150 the task still runs, and the worker does not get the file although it is there. -/
theorem worker_download_hidden : ∃ t, (files sampleScheduler sampleRetention).Reachable t ∧
    (∃ task ∈ t.db.tasks, task.source = .uploadedFile "file_0" ∧ task.status.active ∧
      ∃ stage ∈ task.stages, stage.workerId = some "worker" ∧ stage.status.active) ∧
    uploadKey "file_0" ∈ t.store.keys ∧
    ∀ response,
      downloadWorkerSourceFile t.db t.store none "worker" "file_0" t.clock ≠ .ok response := by
  refine ⟨heldFile [.wait 150], heldFile_reachable _, ?_, ?_, ?_⟩
  · decide +kernel
  · decide +kernel
  · have hrefused : downloadWorkerSourceFile (heldFile [.wait 150]).db (heldFile [.wait 150]).store
        none "worker" "file_0" (heldFile [.wait 150]).clock = .error
          ⟨404, .notFound, "The uploaded file does not exist or has expired", false⟩ := by
      decide +kernel
    rw [hrefused]
    exact fun _ h => by cases h

end ParserServe
