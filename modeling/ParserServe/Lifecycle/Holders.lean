import ParserServe.Lifecycle.Retry

/-! # Who holds a stage

The columns that name the holder of a stage are set in one place and cleared in three:
`_clear_lease` clears all four, a cancel only the two of the lease, and a retry those two and
the worker.  They agree with the status as long as no retry finds a stage that a cancel took
from its worker.
-/

namespace ParserServe

open Foundation

variable {self : StageScheduler} {manual : Prop} {now : Time} {db db' : Db} {label : Label}
  {s s' : StageRecord} {task : TaskRecord} {granted : Option LeaseGrant}

/-- The columns that name the holder agree with the status. -/
structure StageRecord.HolderColumns (s : StageRecord) : Prop where
  lease : s.leaseTokenDigest.isSome ↔ s.status = .leased ∨ s.status = .running
  expiry : s.leaseExpiresAt.isSome ↔ s.status = .leased ∨ s.status = .running
  held : s.status = .leased ∨ s.status = .running → s.workerId.isSome ∧ s.deviceId.isSome
  free : s.status = .pending ∨ s.status = .succeeded ∨ s.status = .failed ∨ s.status = .skipped →
    s.workerId = none ∧ s.deviceId = none

/-! ## One row -/

theorem Ending.holderColumns (h : Ending now s s') : s'.HolderColumns := by
  cases h <;> constructor <;>
    simp [StageRecord.finish, StageRecord.requeue, StageRecord.skip, StageRecord.fail,
      StageRecord.clearLease]

theorem StageMove.holderColumns (h : StageMove False now s s') (hs : s.HolderColumns) :
    s'.HolderColumns := by
  have hlease := hs.lease
  have hexpiry := hs.expiry
  have hheld := hs.held
  cases h with
  | renewed expiresAt hactive =>
      have hstatus : s.status = .leased ∨ s.status = .running := by
        cases hstatus : s.status <;> simp_all [StageStatus.active]
      exact ⟨hlease, by simp [hstatus], hheld, hs.free⟩
  | started hleased => constructor <;> simp_all
  | progressed => exact ⟨hlease, hexpiry, hheld, hs.free⟩
  | ended hend =>
      cases hend with
      | completed _ _ _ _ _ hend | expired hend => exact hend.holderColumns
  | stopped =>
      unfold StageRecord.stop
      split
      · constructor <;> simp [StageRecord.clearLease]
      · exact hs
  | cancelled hmanual => exact hmanual.elim
  | reset hmanual => exact hmanual.elim
  | forgot uri =>
      unfold StageRecord.forgetResult
      split
      · exact ⟨hlease, hexpiry, hheld, hs.free⟩
      · exact hs

theorem StageRecord.HolderColumns.cancel (hs : s.HolderColumns) (now : Time) :
    (s.cancel now).HolderColumns := by
  unfold StageRecord.cancel
  split
  · constructor <;> simp
  · exact hs

/-- A row that is reset keeps its device. -/
theorem holderColumns_reset_iff (hs : s.HolderColumns) (now : Time) :
    (s.reset now).HolderColumns ↔ (s.status = .cancelled → s.deviceId = none) := by
  unfold StageRecord.reset
  split
  · next hended =>
      constructor
      · intro h _
        exact (h.free (.inl rfl)).2
      · intro hdevice
        have hnone : s.deviceId = none := by
          rcases hended with hfailed | hcancelled
          · exact (hs.free (.inr (.inr (.inl hfailed)))).2
          · exact hdevice hcancelled
        constructor <;> simp [hnone]
  · next hkept =>
      have hne : s.status ≠ .cancelled := fun h => hkept (.inr h)
      simp [hs, hne]

theorem StageChange.holderColumns (h : StageChange False now task granted s s')
    (hs : s.HolderColumns) : s'.HolderColumns := by
  cases h with
  | moved hmoves =>
      induction hmoves with
      | refl => exact hs
      | tail _ hmove ih => exact hmove.holderColumns ih
  | granted grant => constructor <;> simp [StageRecord.grant]

theorem Planned.holderColumns {definition : PipelineStageDefinition}
    (h : Planned now definition s) : s.HolderColumns := by
  have hlease := h.sound.lease
  have hexpiry := h.sound.expiry
  constructor <;> simp_all [h.status, h.workerId, h.deviceId, StageStatus.active]

/-! ## Steps -/

/-- All rows of the stage table agree with their status. -/
def Db.HolderColumns (db : Db) : Prop := ∀ stage ∈ db.stages, stage.HolderColumns

theorem Db.holderColumns_iff :
    db.HolderColumns ↔ ∀ task ∈ db.tasks, ∀ stage ∈ task.stages, stage.HolderColumns :=
  List.forall_mem_flatMap

/-- The step is no retry of a task with a cancelled stage that still names a device. -/
def ReleasesDevices (db : Db) : Label → Prop
  | .returned (.retry taskId _) _ => ∀ task ∈ db.tasks, task.taskId = taskId →
      ∀ stage ∈ task.stages, stage.status = .cancelled → stage.deviceId = none
  | _ => True

theorem DbChange.holderColumns (h : DbChange False now db granted db') (hkeys : db.KeysNodup)
    (hdb : db.HolderColumns) : db'.HolderColumns := by
  rw [Db.holderColumns_iff] at hdb ⊢
  refine h.all_tasks (P := fun task => ∀ stage ∈ task.stages, stage.HolderColumns) hkeys hdb
    (fun _ h => h) (by simp [newTask]) ?_ ?_
  · intro task task' payloads _ _ hrouted stage hstage
    obtain ⟨pipeline, stages, hplan, _, _, rfl, _⟩ := hrouted.plan
    obtain ⟨definition, _, hplanned⟩ := planned_definition hplan stage hstage
    exact hplanned.holderColumns
  · intro task granted payloads task' hP hnodup hmove stage' hstage'
    obtain ⟨f, hf, hchange⟩ := hmove.stages hnodup
    rw [hf] at hstage'
    obtain ⟨stage, hstage, rfl⟩ := List.mem_map.mp hstage'
    exact (hchange stage hstage).holderColumns (hP stage hstage)

theorem Changes.holderColumns {grants : List LeaseGrant} (h : Changes False now db grants db')
    (hkeys : db.KeysNodup) (hdb : db.HolderColumns) : db'.HolderColumns := by
  have hboth := h.keeps (I := fun db => db.KeysNodup ∧ db.HolderColumns)
    (fun _ _ _ hI hchange => ⟨hchange.keysNodup hI.1, hchange.holderColumns hI.1 hI.2⟩)
    ⟨hkeys, hdb⟩
  exact hboth.2

/-- A step keeps the agreement exactly when it is no retry of a stage that still names a
device. -/
theorem ControlStep.holderColumns_iff (h : ControlStep self db label db') (hkeys : db.KeysNodup)
    (hdb : db.HolderColumns) : ReleasesDevices db label ↔ db'.HolderColumns := by
  cases h with
  | @returned _ operation response hanswerable hexec =>
      cases operation with
      | cancel taskId now =>
          simp only [Operation.exec, bind_eq_ok] at hexec
          obtain ⟨⟨db₁, record⟩, hcancel, hexec⟩ := hexec
          cases hexec
          refine iff_of_true trivial ?_
          rw [Db.holderColumns_iff] at hdb ⊢
          intro task' htask' stage' hstage'
          rcases cancel_tasks hcancel task' htask' with ⟨hold, _⟩ | ⟨task, htask, _, hstages⟩
          · exact hdb task' hold stage' hstage'
          · rw [hstages] at hstage'
            obtain ⟨stage, hstage, rfl⟩ := List.mem_map.mp hstage'
            exact (hdb task htask stage hstage).cancel now
      | retry taskId now =>
          simp only [Operation.exec, bind_eq_ok] at hexec
          obtain ⟨⟨db₁, record⟩, hretry, hexec⟩ := hexec
          cases hexec
          constructor
          · intro hreleases
            rw [Db.holderColumns_iff] at hdb ⊢
            intro task' htask' stage' hstage'
            rcases retry_tasks hretry task' htask' with ⟨hold, _⟩ | ⟨task, htask, hid, hstages⟩
            · exact hdb task' hold stage' hstage'
            · rw [hstages] at hstage'
              obtain ⟨stage, hstage, rfl⟩ := List.mem_map.mp hstage'
              exact (holderColumns_reset_iff (hdb task htask stage hstage) now).mpr
                (hreleases task htask hid stage hstage)
          · intro hdb' task htask hid stage hstage
            have hcolumns := hdb stage (Db.mem_stages.mpr ⟨task, htask, hstage⟩)
            rcases retry_rows hkeys hretry htask hstage with ⟨_, hrow⟩ | ⟨hne, _⟩
            · exact (holderColumns_reset_iff hcolumns now).mp (hdb' _ hrow)
            · exact absurd hid hne
      | create | route | lease | renew | start | progress | complete | authorizeArtifactUpload
        | requeueExpired =>
          exact iff_of_true trivial ((exec_changes hkeys hanswerable hexec).holderColumns hkeys hdb)
  | raised => exact iff_of_true trivial hdb
  | administered hadmin =>
      refine iff_of_true trivial fun stage hstage => hdb stage ?_
      rwa [Db.stages, hadmin.tasks] at hstage
  | reordered hmem hperm =>
      exact iff_of_true trivial fun stage hstage =>
        hdb stage ((reordered_stages hkeys hmem hperm).mem_iff.mp hstage)

/-! ## Results -/

/-- The columns agree in every state of a run exactly when no retry of the run finds a
cancelled stage that still names a device. -/
theorem holder_columns_agree_iff {labels : List Label} (hinit : (controlPlane self).Initial db) :
    ((controlPlane self).through Db.HolderColumns).Run db labels db' ↔
      ((controlPlane self).restrict ReleasesDevices).Run db labels db' := by
  have htasks : db.tasks = [] := hinit.1
  have hstart : db.HolderColumns := by simp [Db.HolderColumns, Db.stages, htasks]
  exact (System.restrict_run_iff_through (I := Db.KeysNodup)
    (fun _ _ _ hkeys hstep => ControlStep.keysNodup hstep hkeys)
    (fun _ _ _ hkeys hdb hstep => ControlStep.holderColumns_iff hstep hkeys hdb)
    (initial_keysNodup hinit) hstart).symm

/-- The step is a retry. -/
def Label.retries : Label → Bool
  | .returned (.retry _ _) _ => true
  | _ => false

theorem releasesDevices_of_not_retries (h : label.retries = false) (db : Db) :
    ReleasesDevices db label := by
  unfold ReleasesDevices
  split
  · simp [Label.retries] at h
  · trivial

theorem holder_columns_agree_leased :
    ((controlPlane sampleScheduler).through Db.HolderColumns).Run sampleDb
      (scriptLabels sampleScheduler sampleDb leaseScript) leasedDb := by
  have hrun : (controlPlane sampleScheduler).Run sampleDb
      (scriptLabels sampleScheduler sampleDb leaseScript) leasedDb :=
    afterScript_run (by decide +kernel)
  have hlabels : ∀ label ∈ scriptLabels sampleScheduler sampleDb leaseScript,
      label.retries = false := by
    decide +kernel
  refine (holder_columns_agree_iff ⟨rfl, rfl⟩).mpr (hrun.to_restrict fun label hlabel db => ?_)
  exact releasesDevices_of_not_retries (hlabels label hlabel) db

/-- Cancelled while it is leased and then retried, a stage is pending and names a device. -/
theorem device_survives_retry : ∃ db, (controlPlane sampleScheduler).Reachable db ∧
    ∃ stage ∈ db.stages, stage.status = .pending ∧ stage.deviceId = some "cpu" ∧
      ¬ stage.HolderColumns := by
  have hexists : ∃ stage ∈ (afterScript sampleScheduler leasedDb
      [.cancel "task" 3, .retry "task" 4]).stages,
        stage.status = .pending ∧ stage.deviceId = some "cpu" := by
    decide +kernel
  obtain ⟨stage, hstage, hpending, hdevice⟩ := hexists
  refine ⟨_, afterScript_reachable leasedDb_reachable, stage, hstage, hpending, hdevice, ?_⟩
  intro hcolumns
  have hnone := (hcolumns.free (.inl hpending)).2
  rw [hdevice] at hnone
  cases hnone

end ParserServe
