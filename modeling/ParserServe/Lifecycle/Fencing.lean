import ParserServe.Lifecycle.History
import ParserServe.Lifecycle.Leases
import ParserServe.Lifecycle.Recovery

/-! # Lease fencing

A stage accepts the token of its latest lease and no other; a lease that was ended, in
whatever way, has no effect any more; and of all completions under one lease at most one
changes anything, while the others are answered from its record or refused.
-/

namespace ParserServe

open Foundation

variable {self : StageScheduler} {manual : Prop} {now : Time} {db db' : Db}
  {task task' : TaskRecord} {stage : StageRecord} {payloads : List EventPayload}
  {token stageId : String} {request : CompleteStageRequest} {grant : LeaseGrant}
  {labels : List Label} {label : Label}

/-- No two leases were granted under one token. -/
def FreshTokens (labels : List Label) : Prop :=
  ((labels.flatMap Label.grants).map (·.token)).Nodup

theorem FreshTokens.left {as bs : List Label} (h : FreshTokens (as ++ bs)) : FreshTokens as := by
  unfold FreshTokens at h ⊢
  rw [List.flatMap_append, List.map_append] at h
  exact (List.nodup_append'.mp h).1

/-- A token that was granted is not granted again. -/
theorem FreshTokens.ne {as bs : List Label} (h : FreshTokens (as ++ bs)) {first later : LeaseGrant}
    (hfirst : first ∈ as.flatMap Label.grants) (hlater : later ∈ bs.flatMap Label.grants) :
    later.token ≠ first.token := by
  unfold FreshTokens at h
  rw [List.flatMap_append, List.map_append] at h
  intro heq
  exact (List.nodup_append'.mp h).2.2 (List.mem_map_of_mem hfirst)
    (heq ▸ List.mem_map_of_mem hlater)

/-- The token a call presents. -/
def Operation.leaseToken? : Operation → Option String
  | .renew _ _ leaseToken _ | .start _ _ leaseToken _
  | .authorizeArtifactUpload _ _ leaseToken _ => some leaseToken
  | .progress _ request _ => some request.leaseToken
  | .complete _ request _ => some request.leaseToken
  | _ => none

/-! ## Stages that are not held -/

theorem soundStages_invariant : TaskInvariant fun task => ∀ stage ∈ task.stages, stage.Sound where
  created _ _ _ _ _ := by simp [newTask]
  routed := by
    rintro now db task task' payloads _ _ ⟨_, _, pipeline, stages, hplanned, _, _, rfl, _⟩ stage
      hmem
    obtain ⟨_, _, hp⟩ := planned_definition hplanned stage hmem
    exact hp.sound
  moved := by
    intro manual now task granted payloads task' hs hkeys hmove stage hmem
    obtain ⟨f, hf, hchange⟩ := hmove.stages hkeys
    rw [hf] at hmem
    obtain ⟨stage₀, hmem₀, rfl⟩ := List.mem_map.mp hmem
    exact (hchange stage₀ hmem₀).sound (hs stage₀ hmem₀)
  reordered hs hperm stage hmem := hs stage (hperm.mem_iff.mp hmem)

theorem reachable_stage_sound (h : (controlPlane self).Reachable db) (hmem : stage ∈ db.stages) :
    stage.Sound := by
  obtain ⟨task, htask, hstage⟩ := Db.mem_stages.mp hmem
  exact soundStages_invariant.reachable h task htask stage hstage

theorem StageRecord.Sound.lease_eq_none (h : stage.Sound) (hidle : ¬ stage.status.active) :
    stage.leaseTokenDigest = none := by
  simpa [hidle] using h.lease

/-- Where the task is not `LEASED` or `RUNNING`, none of its stages is held. -/
theorem lease_eq_none_of_status (h : (controlPlane self).Reachable db) (htask : task ∈ db.tasks)
    (hstatus : task.status ≠ .leased ∧ task.status ≠ .running) (hmem : stage ∈ task.stages) :
    stage.leaseTokenDigest = none := by
  refine (reachable_stage_sound h (Db.mem_stages.mpr ⟨task, htask, hmem⟩)).lease_eq_none ?_
  intro hactive
  have hagrees := (reachable_consistent h task htask).agrees
  exact (hagrees.of_active hmem hactive).elim hstatus.1 hstatus.2

/-- A lease is over once its own stage is held no more, or under another token. -/
theorem fenced_of_stage {grants : List LeaseGrant} (hl : Ledger grants db)
    (hfresh : (grants.map (·.token)).Nodup) (hgrant : grant ∈ grants)
    (hstage : ∀ stage ∈ db.stages, stage.stageId = grant.stageId →
      stage.leaseTokenDigest ≠ some (leaseDigest grant.token)) : db.Fenced grant.token := by
  intro stage hmem hlease
  obtain ⟨workerId, _, hlatest⟩ := hl.held stage hmem _ hlease
  have heq := List.inj_on_of_nodup_map hfresh (latestGrant_mem hlatest) hgrant rfl
  exact hstage stage hmem (by rw [← heq]) hlease

/-! ## Calls under a fenced token -/

theorem requireValidLease_fenced (hfenced : db.Fenced token) (hmem : stage ∈ db.stages)
    {workerId : String} {u : Unit} : stage.requireValidLease workerId token now ≠ .ok u :=
  fun h => hfenced stage hmem (requireValidLease_eq_ok.mp h).1.2

/-- A call that asks for the lease first changes nothing under a fenced token. -/
theorem withStage_of_fenced {β : Type} {answered : Option β}
    {operation : TaskRecord → StageRecord → Except ServiceError (TaskRecord × List EventPayload)}
    {answer : TaskRecord → StageRecord → β} (hfenced : db.Fenced token)
    (hop : ∀ task stage result, operation task stage = .ok result →
      ∃ workerId, stage.requireValidLease workerId token now = .ok ())
    (h : db.withStage stageId now operation answer = .ok (db', answered)) : db' = db := by
  unfold Db.withStage at h
  cases hfind : db.stageForUpdate stageId with
  | none =>
      simp only [hfind] at h
      cases h
      rfl
  | some found =>
      obtain ⟨task, stage⟩ := found
      simp only [hfind, bind_eq_ok] at h
      obtain ⟨result, hoperation, _⟩ := h
      obtain ⟨htask, hstage, _⟩ := Db.stageForUpdate_mem hfind
      obtain ⟨workerId, hvalid⟩ := hop task stage result hoperation
      exact absurd hvalid
        (requireValidLease_fenced hfenced (Db.mem_stages.mpr ⟨task, htask, hstage⟩))

/-- The three ways in which `complete` returns. -/
theorem complete_cases {data : Option StageExecutionData}
    (h : completeStage db stageId request now = .ok (db', data)) :
    (db.stageForUpdate stageId = none ∧ db' = db ∧ data = none) ∨
      ∃ task stage, db.stageForUpdate stageId = some (task, stage) ∧
        ((stage.completionMatches request ∧ db' = db ∧ data = some (executionData task stage)) ∨
          (stage.completionRequestDigest = none ∧ ∃ task' payloads,
            task.complete stage request now = .ok (task', payloads) ∧
              db'.tasks = (db.saveTask task').tasks)) := by
  unfold completeStage at h
  cases hfind : db.stageForUpdate stageId with
  | none =>
      simp only [hfind] at h
      cases h
      exact .inl ⟨rfl, rfl, rfl⟩
  | some found =>
      obtain ⟨task, stage⟩ := found
      refine .inr ⟨task, stage, rfl, ?_⟩
      simp only [hfind] at h
      split at h
      · simp only [bind_eq_ok, ensure_eq_ok] at h
        obtain ⟨_, hmatches, h⟩ := h
        cases h
        exact .inl ⟨hmatches, rfl, rfl⟩
      · next hnone =>
          simp only [bind_eq_ok, Db.withStage, hfind] at h
          obtain ⟨⟨db₁, data₁⟩, ⟨⟨task', payloads⟩, hcomplete, hwith⟩, h⟩ := h
          cases hwith
          cases h
          refine .inr ⟨not_not.mp hnone, task', payloads, hcomplete, ?_⟩
          rw [(releaseWorkerIfIdle_tasks _ _ _).1, Db.publishAll_tasks]

theorem complete_of_fenced {data : Option StageExecutionData}
    (hfenced : db.Fenced request.leaseToken)
    (h : completeStage db stageId request now = .ok (db', data)) : db' = db := by
  rcases complete_cases h with ⟨_, heq, _⟩ | ⟨task, stage, hfind, ⟨_, heq, _⟩ | ⟨_, hcomplete⟩⟩
  · exact heq
  · exact heq
  · obtain ⟨task', payloads, hcomplete, _⟩ := hcomplete
    obtain ⟨htask, hstage, _⟩ := Db.stageForUpdate_mem hfind
    simp only [TaskRecord.complete, bind_eq_ok] at hcomplete
    obtain ⟨_, hvalid, _⟩ := hcomplete
    exact absurd hvalid (requireValidLease_fenced hfenced (Db.mem_stages.mpr ⟨task, htask, hstage⟩))

/-- No call changes anything under the token of an ended lease. -/
theorem exec_of_fenced {operation : Operation} {response : Response} (hfenced : db.Fenced token)
    (htoken : operation.leaseToken? = some token)
    (h : operation.exec self db = .ok (db', response)) : db' = db := by
  cases operation with
  | renew stageId workerId leaseToken now =>
      cases htoken
      simp only [Operation.exec, bind_eq_ok] at h
      obtain ⟨⟨db₁, data⟩, hrenew, h⟩ := h
      cases h
      refine withStage_of_fenced hfenced ?_ hrenew
      intro task stage result hok
      obtain ⟨_, hvalid, _⟩ := bind_eq_ok.mp hok
      exact ⟨_, hvalid⟩
  | start stageId workerId leaseToken now =>
      cases htoken
      simp only [Operation.exec, bind_eq_ok] at h
      obtain ⟨⟨db₁, data⟩, hstart, h⟩ := h
      cases h
      refine withStage_of_fenced hfenced ?_ hstart
      intro task stage result hok
      obtain ⟨_, hvalid, _⟩ := bind_eq_ok.mp hok
      exact ⟨_, hvalid⟩
  | progress stageId request now =>
      cases htoken
      simp only [Operation.exec, bind_eq_ok] at h
      obtain ⟨⟨db₁, data⟩, hprogress, h⟩ := h
      cases h
      refine withStage_of_fenced hfenced ?_ hprogress
      intro task stage result hok
      obtain ⟨_, hvalid, _⟩ := bind_eq_ok.mp hok
      exact ⟨_, hvalid⟩
  | complete stageId request now =>
      cases htoken
      simp only [Operation.exec, bind_eq_ok] at h
      obtain ⟨⟨db₁, data⟩, hcomplete, h⟩ := h
      cases h
      exact complete_of_fenced hfenced hcomplete
  | authorizeArtifactUpload stageId workerId leaseToken now =>
      simp only [Operation.exec, bind_eq_ok] at h
      obtain ⟨⟨db₁, stage⟩, hauthorize, h⟩ := h
      cases h
      exact authorizeArtifactUpload_db hauthorize
  | create | route | lease | requeueExpired | cancel | retry => cases htoken

/-! ## What ends a lease -/

/-- The lease `grant` is ended by a step labelled `label` that leads to `db'`. -/
inductive EndsLease (grant : LeaseGrant) (db' : Db) : Label → Prop
  | completed {request : CompleteStageRequest} {now : Time} {data : StageExecutionData} :
      EndsLease grant db'
        (.returned (.complete grant.stageId request now) (.execution (some data)))
  | expired {rows stageIds : List String} {now : Time} : grant.stageId ∈ rows →
      EndsLease grant db' (.returned (.requeueExpired rows now) (.requeued stageIds))
  | cancelled {taskId : String} {now : Time} {record : TaskRecord} :
      grant.stageId ∈ record.stages.map (·.stageId) →
        EndsLease grant db' (.returned (.cancel taskId now) (.task (some record)))
  | retried {taskId : String} {now : Time} {record : TaskRecord} :
      grant.stageId ∈ record.stages.map (·.stageId) →
        EndsLease grant db' (.returned (.retry taskId now) (.task (some record)))
  | siblingFailed {label : Label} {task : TaskRecord} : task ∈ db'.tasks →
      task.status = .failed → grant.stageId ∈ task.stages.map (·.stageId) →
        EndsLease grant db' label
  | superseded {label : Label} {later : LeaseGrant} : later ∈ label.grants →
      later.stageId = grant.stageId → EndsLease grant db' label

/-- The completion is recorded, and the lease given up. -/
theorem complete_records (hmem : stage ∈ task.stages)
    (h : task.complete stage request now = .ok (task', payloads)) :
    stage.leaseTokenDigest = some (leaseDigest request.leaseToken) ∧
      task'.taskId = task.taskId ∧ ∃ stage' ∈ task'.stages, stage'.stageId = stage.stageId ∧
        stage'.leaseTokenDigest = none ∧ stage'.completionMatches request := by
  simp only [TaskRecord.complete, bind_eq_ok, ensure_eq_ok] at h
  obtain ⟨_, hvalid, _, hrunning, stage', hcomplete, hreconcile⟩ := h
  obtain ⟨⟨_, htoken⟩, _⟩ := requireValidLease_eq_ok.mp hvalid
  have hend := Ending.of_complete hrunning hcomplete
  obtain ⟨hlease, hcworker, hctoken, hcrequest⟩ := hend.columns
  obtain ⟨settled, hsettle, rfl, _⟩ := reconcile_eq_ok.mp hreconcile
  have hsettled := Settled.of_settle hsettle
  have hsaved : stage' ∈ (task.saveStage stage').stages :=
    saveStage_mem hmem hend.samePlan.stageId
  have hmatches : stage'.completionMatches request := ⟨hcworker, hctoken, hcrequest⟩
  obtain ⟨f, hf, hmoves⟩ := hsettled.stages
  have hkept : StageMoves False now stage' (f stage') := hmoves stage'
  refine ⟨htoken, hsettled.taskId, f stage', hf ▸ List.mem_map_of_mem hsaved, ?_, ?_,
    hkept.completionMatches hmatches⟩
  · exact hkept.samePlan.stageId.trans hend.samePlan.stageId
  · cases hlease' : (f stage').leaseTokenDigest with
    | none => rfl
    | some digest =>
        have := (hkept.lease hlease').1
        simp [hlease] at this

theorem withTask_record {taskId : String} {record : TaskRecord}
    {operation : TaskRecord → Except ServiceError (TaskRecord × List EventPayload)}
    (hid : ∀ task task' payloads, operation task = .ok (task', payloads) →
      task'.taskId = task.taskId)
    (h : db.withTask taskId now operation = .ok (db', some record)) :
    record ∈ db'.tasks ∧ ∃ task ∈ db.tasks, ∃ payloads,
      operation task = .ok (record, payloads) := by
  unfold Db.withTask at h
  cases hfind : db.task? taskId with
  | none =>
      simp only [hfind] at h
      cases h
  | some task =>
      simp only [hfind, bind_eq_ok] at h
      obtain ⟨⟨task', payloads⟩, hoperation, h⟩ := h
      cases h
      rw [Db.publishAll_tasks]
      have hmem : task ∈ db.tasks := List.mem_of_find?_eq_some hfind
      exact ⟨mem_replaceKey_self hmem (hid _ _ _ hoperation).symm, task, hmem, payloads,
        hoperation⟩

theorem cancel_eq_ok (h : task.cancel now = .ok (task', payloads)) :
    task'.taskId = task.taskId ∧ task'.status = .cancelled ∧
      task'.stages = task.stages.map (·.cancel now) := by
  simp only [TaskRecord.cancel, bind_eq_ok] at h
  obtain ⟨_, _, _, _, h⟩ := h
  cases h
  exact ⟨rfl, rfl, rfl⟩

theorem retry_eq_ok (h : task.retry now = .ok (task', payloads)) :
    task'.taskId = task.taskId ∧ task'.status = .pending ∧
      task'.stages = task.stages.map (·.reset now) := by
  simp only [TaskRecord.retry, bind_eq_ok] at h
  obtain ⟨_, _, _, _, h⟩ := h
  cases h
  exact ⟨rfl, rfl, rfl⟩

/-- What a completion that changes the database finds and leaves. -/
theorem complete_changed {data : Option StageExecutionData}
    (h : completeStage db stageId request now = .ok (db', data)) (hne : db' ≠ db) :
    ∃ stage ∈ db.stages, stage.stageId = stageId ∧
      stage.leaseTokenDigest = some (leaseDigest request.leaseToken) ∧
        ∃ stage' ∈ db'.stages, stage'.stageId = stageId ∧ stage'.leaseTokenDigest = none ∧
          stage'.completionMatches request := by
  rcases complete_cases h with ⟨_, heq, _⟩ | ⟨task, stage, hfind, ⟨_, heq, _⟩ | ⟨_, hrecorded⟩⟩
  · exact absurd heq hne
  · exact absurd heq hne
  · obtain ⟨task', payloads, hcomplete, htasks⟩ := hrecorded
    obtain ⟨htask, hstage, rfl⟩ := Db.stageForUpdate_mem hfind
    obtain ⟨htoken, hid, stage', hstage', hid', hlease', hmatches⟩ :=
      complete_records hstage hcomplete
    have htask' : task' ∈ db'.tasks := htasks ▸ mem_replaceKey_self htask hid.symm
    exact ⟨stage, Db.mem_stages.mpr ⟨task, htask, hstage⟩, rfl, htoken, stage',
      Db.mem_stages.mpr ⟨task', htask', hstage'⟩, hid', hlease', hmatches⟩

/-- After an answered completion the stage is not held. -/
theorem complete_released (h : (controlPlane self).Reachable db) {data : StageExecutionData}
    (hcomplete : completeStage db stageId request now = .ok (db', some data)) :
    ∃ stage ∈ db'.stages, stage.stageId = stageId ∧ stage.leaseTokenDigest = none := by
  by_cases heq : db' = db
  · rcases complete_cases hcomplete with ⟨_, _, hnone⟩ | ⟨task, stage, hfind, hcases⟩
    · cases hnone
    · obtain ⟨htask, hstage, rfl⟩ := Db.stageForUpdate_mem hfind
      have hmem : stage ∈ db.stages := Db.mem_stages.mpr ⟨task, htask, hstage⟩
      rcases hcases with ⟨hmatches, _, _⟩ | ⟨_, task', payloads, hop, htasks⟩
      · refine ⟨stage, heq ▸ hmem, rfl, ?_⟩
        have hsound := reachable_stage_sound h hmem
        refine hsound.lease_eq_none fun hactive => ?_
        have hrequest := hmatches.2.2
        rw [hsound.completion hactive] at hrequest
        cases hrequest
      · obtain ⟨_, hid, stage', hstage', hid', hlease', _⟩ := complete_records hstage hop
        have htask' : task' ∈ db'.tasks := htasks ▸ mem_replaceKey_self htask hid.symm
        exact ⟨stage', Db.mem_stages.mpr ⟨task', htask', hstage'⟩, hid', hlease'⟩
  · obtain ⟨_, _, _, _, stage', hmem', hid', hlease', _⟩ :=
      complete_changed hcomplete heq
    exact ⟨stage', hmem', hid', hlease'⟩

theorem EndsLease.fenced {before : List Label} {db₀ : Db} (h : EndsLease grant db' label)
    (hinit : (controlPlane self).Initial db₀) (hbefore : (controlPlane self).Run db₀ before db)
    (hgrant : grant ∈ before.flatMap Label.grants) (hstep : (controlPlane self).Step db label db')
    (hfresh : FreshTokens (before ++ [label])) : db'.Fenced grant.token := by
  have hreach : (controlPlane self).Reachable db := ⟨db₀, before, hinit, hbefore⟩
  have hreach' := hreach.step hstep
  have hkeys' := reachable_keysNodup hreach'
  have hledger := run_ledger hinit (hbefore.snoc hstep)
  have hmem : grant ∈ (before ++ [label]).flatMap Label.grants := by simp [hgrant]
  -- a row of the stage that is not held is the only row of the stage
  have hrow : (∃ stage ∈ db'.stages, stage.stageId = grant.stageId ∧
      stage.leaseTokenDigest = none) → db'.Fenced grant.token := by
    rintro ⟨stage, hstage, hid, hnone⟩
    refine fenced_of_stage hledger hfresh hmem ?_
    intro other hother hid'
    rw [List.inj_on_of_nodup_map hkeys'.stages hother hstage (hid'.trans hid.symm), hnone]
    simp
  have htask : ∀ task ∈ db'.tasks, task.status ≠ .leased ∧ task.status ≠ .running →
      grant.stageId ∈ task.stages.map (·.stageId) → db'.Fenced grant.token := by
    intro task htask hstatus hid
    obtain ⟨stage, hstage, hid⟩ := List.mem_map.mp hid
    exact hrow ⟨stage, Db.mem_stages.mpr ⟨task, htask, hstage⟩, hid,
      lease_eq_none_of_status hreach' htask hstatus hstage⟩
  cases h with
  | @completed request now data =>
      cases hstep with
      | returned _ hexec =>
          simp only [Operation.exec, bind_eq_ok] at hexec
          obtain ⟨⟨db₁, data₁⟩, hcomplete, hexec⟩ := hexec
          cases hexec
          exact hrow (complete_released hreach hcomplete)
  | @expired rows stageIds now hin =>
      cases hstep with
      | returned hrows hexec =>
          simp only [Operation.exec, bind_eq_ok] at hexec
          obtain ⟨⟨db₁, ids⟩, hrequeue, hexec⟩ := hexec
          cases hexec
          refine fenced_of_stage hledger hfresh hmem ?_
          intro stage hstage hid
          have hreleased := requeueExpired_released (reachable_coherent hreach) hrows hrequeue
          rw [(reachable_stage_sound hreach' hstage).lease_eq_none fun hactive =>
            (hreleased stage hstage hactive).2 (hid ▸ hin)]
          simp
  | @cancelled taskId now record hid =>
      cases hstep with
      | returned _ hexec =>
          simp only [Operation.exec, bind_eq_ok] at hexec
          obtain ⟨⟨db₁, found⟩, hcancel, hexec⟩ := hexec
          cases hexec
          obtain ⟨hrecord, task, _, payloads, hop⟩ :=
            withTask_record (fun _ _ _ hop => (cancel_eq_ok hop).1) hcancel
          exact htask record hrecord (by simp [(cancel_eq_ok hop).2.1]) hid
  | @retried taskId now record hid =>
      cases hstep with
      | returned _ hexec =>
          simp only [Operation.exec, bind_eq_ok] at hexec
          obtain ⟨⟨db₁, found⟩, hretry, hexec⟩ := hexec
          cases hexec
          obtain ⟨hrecord, task, _, payloads, hop⟩ :=
            withTask_record (fun _ _ _ hop => (retry_eq_ok hop).1) hretry
          exact htask record hrecord (by simp [(retry_eq_ok hop).2.1]) hid
  | siblingFailed hmem hfailed hid => exact htask _ hmem (by simp [hfailed]) hid
  | @superseded _ later hlater hid =>
      refine fenced_of_stage hledger hfresh hmem ?_
      intro stage hstage hsid hlease
      obtain ⟨workerId, _, hlatest⟩ := hledger.held stage hstage _ hlease
      have hnew : (⟨stage.stageId, workerId, grant.token⟩ : LeaseGrant) ∈ label.grants := by
        rw [hsid, ← hid] at hlatest
        rw [List.flatMap_append, List.flatMap_singleton] at hlatest
        rw [hsid, ← hid]
        exact latestGrant_append_mem hlater hlatest
      rw [← List.flatMap_singleton Label.grants label] at hnew
      exact hfresh.ne hgrant hnew rfl

/-! ## The record of a completion -/

/-- The step takes the record of the stage's completion away: a new lease, a cancel that
finds the stage unfinished, or a retry that finds it failed or cancelled. -/
def Forgets (stageId : String) (db : Db) : Label → Prop
  | .returned (.cancel taskId _) _ => ∃ task ∈ db.tasks, task.taskId = taskId ∧
      ∃ stage ∈ task.stages, stage.stageId = stageId ∧ stage.status.unfinished
  | .returned (.retry taskId _) _ => ∃ task ∈ db.tasks, task.taskId = taskId ∧
      ∃ stage ∈ task.stages, stage.stageId = stageId ∧
        (stage.status = .failed ∨ stage.status = .cancelled)
  | label => ∃ grant ∈ label.grants, grant.stageId = stageId

/-- The control plane without the steps that take the record away. -/
def remembering (self : StageScheduler) (stageId : String) : System Db Label :=
  (controlPlane self).restrict fun db label => ¬ Forgets stageId db label

/-- The stage has a record of this completion. -/
def Db.Completed (db : Db) (stageId : String) (request : CompleteStageRequest) : Prop :=
  ∃ stage ∈ db.stages, stage.stageId = stageId ∧ stage.completionMatches request

/-- A replay of the recorded request is answered. -/
theorem Db.Completed.answered (h : db.Completed stageId request) (hkeys : db.KeysNodup)
    (now : Time) : ∃ data, completeStage db stageId request now = .ok (db, some data) := by
  obtain ⟨stage, hmem, rfl, hmatches⟩ := h
  obtain ⟨task, htask, hstage⟩ := Db.mem_stages.mp hmem
  have hrecorded : stage.completionRequestDigest ≠ none := by simp [hmatches.2.2]
  refine ⟨executionData task stage, ?_⟩
  simp only [completeStage, stageForUpdate_eq hkeys htask hstage, if_pos hrecorded,
    ensure_of_true hmatches]
  rfl

theorem DbChange.completed {granted : Option LeaseGrant} (h : DbChange False now db granted db')
    (hkeys : db.KeysNodup) (hother : ∀ g ∈ granted, g.stageId ≠ stageId)
    (hdb : db.Completed stageId request) : db'.Completed stageId request := by
  obtain ⟨stage, hmem, rfl, hmatches⟩ := hdb
  obtain ⟨stage', hmem', hid, _⟩ := (h.follows hkeys).stages stage hmem
  refine ⟨stage', hmem', hid, ?_⟩
  rcases h.stage_cases hkeys stage' hmem' with ⟨_, _, hnew, _⟩ | ⟨task, htask, s, hs, hchange⟩
  · exact absurd (hid ▸ List.mem_map_of_mem hmem) hnew
  · have hs' : s ∈ db.stages := Db.mem_stages.mpr ⟨task, htask, hs⟩
    obtain rfl : s = stage :=
      List.inj_on_of_nodup_map hkeys.stages hs' hmem (hchange.samePlan.stageId.symm.trans hid)
    cases hchange with
    | moved hmoves => exact hmoves.completionMatches hmatches
    | granted grant _ _ hgranted => exact absurd rfl (hother _ hgranted)

theorem Changes.completed {grants : List LeaseGrant} (h : Changes False now db grants db')
    (hkeys : db.KeysNodup) (hother : ∀ g ∈ grants, g.stageId ≠ stageId)
    (hdb : db.Completed stageId request) : db'.Completed stageId request := by
  obtain ⟨labels, hrun, rfl⟩ := h
  have hboth : db'.KeysNodup ∧ db'.Completed stageId request := by
    induction hrun with
    | nil => exact ⟨hkeys, hdb⟩
    | @snoc _ _ labels granted _ hstep ih =>
        rw [List.reduceOption_append] at hother
        obtain ⟨hkeys₁, hdb₁⟩ := ih fun g hg => hother g (List.mem_append_left _ hg)
        refine ⟨DbChange.keysNodup hstep hkeys₁, DbChange.completed hstep hkeys₁ ?_ hdb₁⟩
        rintro g rfl
        exact hother g (List.mem_append_right _ (by simp [List.reduceOption]))
  exact hboth.2

/-- A user's call on one task writes `f` to each of its rows, and no other row. -/
theorem withTask_rows {taskId : String} {record : Option TaskRecord}
    {operation : TaskRecord → Except ServiceError (TaskRecord × List EventPayload)}
    {f : StageRecord → StageRecord} (hkeys : db.KeysNodup)
    (hop : ∀ task task' payloads, operation task = .ok (task', payloads) →
      task'.taskId = task.taskId ∧ task'.stages = task.stages.map f)
    (h : db.withTask taskId now operation = .ok (db', record)) (htask : task ∈ db.tasks)
    (hmem : stage ∈ task.stages) :
    (task.taskId = taskId ∧ f stage ∈ db'.stages) ∨
      (task.taskId ≠ taskId ∧ stage ∈ db'.stages) := by
  unfold Db.withTask at h
  cases hfind : db.task? taskId with
  | none =>
      simp only [hfind] at h
      cases h
      have hne : task.taskId ≠ taskId := by simpa using List.find?_eq_none.mp hfind task htask
      exact .inr ⟨hne, Db.mem_stages.mpr ⟨task, htask, hmem⟩⟩
  | some found =>
      simp only [hfind, bind_eq_ok] at h
      obtain ⟨⟨task', payloads⟩, hoperation, h⟩ := h
      cases h
      obtain ⟨hid, hstages⟩ := hop _ _ _ hoperation
      have hfound : found ∈ db.tasks := List.mem_of_find?_eq_some hfind
      have hfoundId : found.taskId = taskId := by simpa using List.find?_some hfind
      by_cases heq : task.taskId = taskId
      · obtain rfl : task = found :=
          List.inj_on_of_nodup_map hkeys.tasks htask hfound (heq.trans hfoundId.symm)
        refine .inl ⟨heq, Db.mem_stages.mpr ⟨task', ?_, hstages ▸ List.mem_map_of_mem hmem⟩⟩
        rw [Db.publishAll_tasks]
        exact mem_replaceKey_self htask hid.symm
      · refine .inr ⟨heq, Db.mem_stages.mpr ⟨task, ?_, hmem⟩⟩
        rw [Db.publishAll_tasks]
        exact mem_replaceKey_of_ne htask fun h => heq (h.trans (hid.trans hfoundId))

theorem cancel_rows {taskId : String} {record : Option TaskRecord} (hkeys : db.KeysNodup)
    (h : cancelTask db taskId now = .ok (db', record)) (htask : task ∈ db.tasks)
    (hmem : stage ∈ task.stages) :
    (task.taskId = taskId ∧ stage.cancel now ∈ db'.stages) ∨
      (task.taskId ≠ taskId ∧ stage ∈ db'.stages) :=
  withTask_rows (f := fun stage => stage.cancel now) hkeys
    (fun _ _ _ hop => ⟨(cancel_eq_ok hop).1, (cancel_eq_ok hop).2.2⟩) h htask hmem

theorem retry_rows {taskId : String} {record : Option TaskRecord} (hkeys : db.KeysNodup)
    (h : retryTask db taskId now = .ok (db', record)) (htask : task ∈ db.tasks)
    (hmem : stage ∈ task.stages) :
    (task.taskId = taskId ∧ stage.reset now ∈ db'.stages) ∨
      (task.taskId ≠ taskId ∧ stage ∈ db'.stages) :=
  withTask_rows (f := fun stage => stage.reset now) hkeys
    (fun _ _ _ hop => ⟨(retry_eq_ok hop).1, (retry_eq_ok hop).2.2⟩) h htask hmem

theorem ControlStep.completed (h : ControlStep self db label db') (hkeys : db.KeysNodup)
    (hforget : ¬ Forgets stageId db label) (hdb : db.Completed stageId request) :
    db'.Completed stageId request := by
  obtain ⟨stage, hmem, hid, hmatches⟩ := hdb
  obtain ⟨task, htask, hstage⟩ := Db.mem_stages.mp hmem
  cases h with
  | @returned _ operation response hanswerable hexec =>
      cases operation with
      | cancel taskId now =>
          simp only [Operation.exec, bind_eq_ok] at hexec
          obtain ⟨⟨db₁, record⟩, hcancel, hexec⟩ := hexec
          cases hexec
          rcases cancel_rows hkeys hcancel htask hstage with ⟨htaskId, hrow⟩ | ⟨_, hrow⟩
          · have hended : ¬ stage.status.unfinished := fun hopen =>
              hforget ⟨task, htask, htaskId, stage, hstage, hid, hopen⟩
            rw [StageRecord.cancel, if_neg hended] at hrow
            exact ⟨stage, hrow, hid, hmatches⟩
          · exact ⟨stage, hrow, hid, hmatches⟩
      | retry taskId now =>
          simp only [Operation.exec, bind_eq_ok] at hexec
          obtain ⟨⟨db₁, record⟩, hretry, hexec⟩ := hexec
          cases hexec
          rcases retry_rows hkeys hretry htask hstage with ⟨htaskId, hrow⟩ | ⟨_, hrow⟩
          · have hkept : ¬ (stage.status = .failed ∨ stage.status = .cancelled) := fun hended =>
              hforget ⟨task, htask, htaskId, stage, hstage, hid, hended⟩
            rw [StageRecord.reset, if_neg hkept] at hrow
            exact ⟨stage, hrow, hid, hmatches⟩
          · exact ⟨stage, hrow, hid, hmatches⟩
      | create | route | lease | renew | start | progress | complete | authorizeArtifactUpload
        | requeueExpired =>
          exact (exec_changes hkeys hanswerable hexec).completed hkeys
            (fun g hg heq => hforget ⟨g, hg, heq⟩) ⟨stage, hmem, hid, hmatches⟩
  | raised => exact ⟨stage, hmem, hid, hmatches⟩
  | administered hadmin =>
      exact ⟨stage, Db.mem_stages.mpr ⟨task, hadmin.tasks ▸ htask, hstage⟩, hid, hmatches⟩
  | reordered hmem₀ hperm =>
      exact ⟨stage, (reordered_stages hkeys hmem₀ hperm).mem_iff.mpr hmem, hid, hmatches⟩

theorem run_completed (h : (remembering self stageId).Run db labels db') (hkeys : db.KeysNodup)
    (hdb : db.Completed stageId request) : db'.KeysNodup ∧ db'.Completed stageId request := by
  refine h.keeps (I := fun db => db.KeysNodup ∧ db.Completed stageId request) ?_ ⟨hkeys, hdb⟩
  rintro db label db' ⟨hkeys, hdb⟩ ⟨hstep, hforget⟩
  exact ⟨ControlStep.keysNodup hstep hkeys, ControlStep.completed hstep hkeys hforget hdb⟩

/-- A user's call that takes the record away leaves the row without one. -/
theorem Forgets.row (h : Forgets stageId db label) (hstep : ControlStep self db label db')
    (hkeys : db.KeysNodup) (hlease : ∀ grant ∈ label.grants, grant.stageId ≠ stageId) :
    ∃ stage ∈ db'.stages, stage.stageId = stageId ∧ stage.completionLeaseTokenDigest = none := by
  unfold Forgets at h
  split at h
  · obtain ⟨task, htask, htaskId, stage, hstage, hid, hopen⟩ := h
    cases hstep with
    | returned _ hexec =>
        simp only [Operation.exec, bind_eq_ok] at hexec
        obtain ⟨⟨db₁, record⟩, hcancel, hexec⟩ := hexec
        cases hexec
        rcases cancel_rows hkeys hcancel htask hstage with ⟨_, hrow⟩ | ⟨hne, _⟩
        · refine ⟨_, hrow, ?_⟩
          simp [StageRecord.cancel, hopen, hid]
        · exact absurd htaskId hne
  · obtain ⟨task, htask, htaskId, stage, hstage, hid, hended⟩ := h
    cases hstep with
    | returned _ hexec =>
        simp only [Operation.exec, bind_eq_ok] at hexec
        obtain ⟨⟨db₁, record⟩, hretry, hexec⟩ := hexec
        cases hexec
        rcases retry_rows hkeys hretry htask hstage with ⟨_, hrow⟩ | ⟨hne, _⟩
        · refine ⟨_, hrow, ?_⟩
          simp [StageRecord.reset, hended, hid]
        · exact absurd htaskId hne
  · obtain ⟨grant, hgrant, hid⟩ := h
    exact absurd hid (hlease grant hgrant)

/-! ## Results -/

section Completion

variable {db₀ db₁ db₂ db₃ : Db} {before after : List Label} {response : Response}

/-- A completion that changed the database was made under a lease of its stage, and from
then on that lease is fenced and only this request is on record under it. -/
theorem completion_sealed (hinit : (controlPlane self).Initial db₀)
    (hbefore : (controlPlane self).Run db₀ before db₁)
    (hstep : (controlPlane self).Step db₁ (.returned (.complete stageId request now) response) db₂)
    (hne : db₂ ≠ db₁) (hfresh : FreshTokens before) :
    (∃ grant ∈ before.flatMap Label.grants, grant.stageId = stageId ∧
      grant.token = request.leaseToken) ∧ db₂.Completed stageId request ∧
        db₂.Sealed request.leaseToken (· = some (completionDigest request)) [] := by
  have hkeys₂ := run_keysNodup (hbefore.snoc hstep) (initial_keysNodup hinit)
  have hledger := run_ledger hinit (hbefore.snoc hstep)
  simp only [List.flatMap_append, List.flatMap_singleton, Label.grants, List.append_nil] at hledger
  cases hstep with
  | returned _ hexec =>
      simp only [Operation.exec, bind_eq_ok] at hexec
      obtain ⟨⟨db', data⟩, hcomplete, hexec⟩ := hexec
      cases hexec
      obtain ⟨stage, hmem, hid, htoken, stage', hmem', hid', hlease', hmatches⟩ :=
        complete_changed hcomplete hne
      obtain ⟨workerId, _, hlatest⟩ := (run_ledger hinit hbefore).held stage hmem _ htoken
      have hgrant := latestGrant_mem hlatest
      rw [hid] at hgrant
      have hrow : ∀ s ∈ db'.stages, s.stageId = stageId → s = stage' := fun s hs heq =>
        List.inj_on_of_nodup_map hkeys₂.stages hs hmem' (heq.trans hid'.symm)
      refine ⟨⟨_, hgrant, rfl, rfl⟩, ⟨stage', hmem', hid', hmatches⟩, ?_⟩
      have hfenced : db'.Fenced request.leaseToken := by
        refine fenced_of_stage hledger hfresh hgrant ?_
        intro s hs heq
        rw [hrow s hs heq, hlease']
        simp
      intro s hs
      refine ⟨hfenced s hs, fun hcompletion => ⟨?_, by simp⟩⟩
      obtain ⟨other, hother, hsid, hotoken⟩ := hledger.recorded s hs _ hcompletion
      have heq := List.inj_on_of_nodup_map hfresh hother hgrant hotoken
      rw [hrow s hs (by rw [← hsid, heq])]
      exact hmatches.2.2

/-- Whatever is answered under a token that is sealed is a replay of the recorded request. -/
theorem replay_of_sealed {grants since : List LeaseGrant}
    {Q : Option (Digest CompleteStageRequest) → Prop} (hl : Ledger grants db)
    (hfresh : (grants.map (·.token)).Nodup) (hgrant : grant ∈ grants)
    (hsealed : db.Sealed grant.token Q since) (htoken : request.leaseToken = grant.token)
    {data : StageExecutionData}
    (h : completeStage db stageId request now = .ok (db', some data)) :
    stageId = grant.stageId ∧ Q (some (completionDigest request)) ∧
      ∀ later ∈ since, later.stageId ≠ stageId := by
  rcases complete_cases h with ⟨_, _, hnone⟩ | ⟨task, stage, hfind, hcases⟩
  · cases hnone
  · obtain ⟨htask, hstage, rfl⟩ := Db.stageForUpdate_mem hfind
    have hmem : stage ∈ db.stages := Db.mem_stages.mpr ⟨task, htask, hstage⟩
    obtain ⟨hlease, hrecorded⟩ := hsealed stage hmem
    rcases hcases with ⟨hmatches, _, _⟩ | ⟨_, task', payloads, hop, _⟩
    · have hcompletion := hmatches.2.1
      rw [htoken] at hcompletion
      obtain ⟨hQ, hsince⟩ := hrecorded hcompletion
      obtain ⟨other, hother, hid, hotoken⟩ := hl.recorded stage hmem _ hcompletion
      rw [List.inj_on_of_nodup_map hfresh hother hgrant hotoken] at hid
      rw [hmatches.2.2] at hQ
      exact ⟨hid.symm, hQ, hsince⟩
    · exact absurd (htoken ▸ (complete_records hstage hop).1) hlease

/-- After a step that takes the record away nothing is answered under the token. -/
theorem refused_of_forgets {as bs : List Label} {dbₐ dbᵦ : Db}
    (hinit : (controlPlane self).Initial db₀)
    (hbefore : (controlPlane self).Run db₀ before db₂)
    (hgrant : grant ∈ before.flatMap Label.grants)
    (hfresh : FreshTokens (before ++ (as ++ label :: bs)))
    (hsealed : db₂.Sealed grant.token (· = some (completionDigest request)) [])
    (has : (controlPlane self).Run db₂ as dbₐ) (hstep : (controlPlane self).Step dbₐ label dbᵦ)
    (hbs : (controlPlane self).Run dbᵦ bs db₃) (hforgets : Forgets grant.stageId dbₐ label)
    {request' : CompleteStageRequest} (htoken : request'.leaseToken = grant.token)
    {data : StageExecutionData}
    (h : completeStage db₃ stageId request' now = .ok (db', some data)) : False := by
  have hsplit : as ++ label :: bs = (as ++ [label]) ++ bs := by simp
  rw [hsplit] at hfresh
  have hother : ∀ later ∈ ((as ++ [label]) ++ bs).flatMap Label.grants,
      later.token ≠ grant.token := fun later hlater => hfresh.ne hgrant hlater
  have hkeys₂ := run_keysNodup hbefore (initial_keysNodup hinit)
  have hrunᵦ := has.snoc hstep
  have hledger := run_ledger hinit (hbefore.trans (hrunᵦ.trans hbs))
  have hgrant' : grant ∈ (before ++ ((as ++ [label]) ++ bs)).flatMap Label.grants := by
    rw [List.flatMap_append]
    exact List.mem_append_left _ hgrant
  by_cases hlease : ∃ later ∈ label.grants, later.stageId = grant.stageId
  · obtain ⟨later, hlater, hid⟩ := hlease
    have hsealed₃ := run_sealed (hrunᵦ.trans hbs) hkeys₂ hother hsealed
    obtain ⟨hstage, _, hsince⟩ := replay_of_sealed hledger hfresh hgrant' hsealed₃ htoken h
    refine hsince later ?_ (hid.trans hstage.symm)
    simp [hlater]
  · push Not at hlease
    have hkeysₐ := run_keysNodup has hkeys₂
    have hkeysᵦ := run_keysNodup hrunᵦ hkeys₂
    have hotherᵦ : ∀ later ∈ (as ++ [label]).flatMap Label.grants, later.token ≠ grant.token :=
      fun later hlater => hother later
        (by rw [List.flatMap_append]; exact List.mem_append_left _ hlater)
    have hsealedᵦ := run_sealed hrunᵦ hkeys₂ hotherᵦ hsealed
    obtain ⟨row, hrow, hid, hnone⟩ := hforgets.row hstep hkeysₐ hlease
    have hforgotten : dbᵦ.Sealed grant.token (fun _ => False) [] := by
      intro stage hmem
      refine ⟨(hsealedᵦ stage hmem).1, fun hcompletion => ?_⟩
      have hledgerᵦ := run_ledger hinit (hbefore.trans hrunᵦ)
      rw [← List.append_assoc] at hfresh
      obtain ⟨other, hmem', hsid, hotoken⟩ := hledgerᵦ.recorded stage hmem _ hcompletion
      have heq := List.inj_on_of_nodup_map hfresh.left hmem'
        (by rw [List.flatMap_append]; exact List.mem_append_left _ hgrant) hotoken
      have hstage : stage = row := List.inj_on_of_nodup_map hkeysᵦ.stages hmem hrow
        (by rw [hid, ← hsid, heq])
      rw [hstage, hnone] at hcompletion
      cases hcompletion
    have hsealed₃ := run_sealed hbs hkeysᵦ (fun later hlater => hother later
      (by rw [List.flatMap_append]; exact List.mem_append_right _ hlater)) hforgotten
    exact (replay_of_sealed hledger hfresh hgrant' hsealed₃ htoken h).2.1

end Completion

/-- For every run with fresh tokens: (a) a stage accepts the worker and token of its latest
lease only; (b) once a lease has been ended, no call under its token changes anything; (c)
once a completion has changed the database, every later completion under its token leaves the
database as it is, and is answered exactly when it repeats the request and no lease of the
stage, cancel of the unfinished stage or retry of the failed or cancelled stage came between. -/
theorem lease_fencing {db₀ : Db} (hinit : (controlPlane self).Initial db₀) :
    (∀ labels db, (controlPlane self).Run db₀ labels db →
      ∀ stage ∈ db.stages, ∀ workerId token now,
        stage.requireValidLease workerId token now = .ok () →
          latestGrant (labels.flatMap Label.grants) stage.stageId =
            some ⟨stage.stageId, workerId, token⟩) ∧
    (∀ before db₁ grant label db₂ after db₃, (controlPlane self).Run db₀ before db₁ →
      grant ∈ before.flatMap Label.grants → (controlPlane self).Step db₁ label db₂ →
      EndsLease grant db₂ label → (controlPlane self).Run db₂ after db₃ →
      FreshTokens (before ++ label :: after) →
        ∀ operation : Operation, operation.leaseToken? = some grant.token →
          ∀ db₄ response, operation.exec self db₃ = .ok (db₄, response) → db₄ = db₃) ∧
    (∀ before db₁ stageId request now response db₂ after db₃,
      (controlPlane self).Run db₀ before db₁ →
      (controlPlane self).Step db₁ (.returned (.complete stageId request now) response) db₂ →
      db₂ ≠ db₁ → (controlPlane self).Run db₂ after db₃ → FreshTokens (before ++ after) →
        (∀ stageId' request' now', request'.leaseToken = request.leaseToken →
          ∀ db₄ data, completeStage db₃ stageId' request' now' = .ok (db₄, data) →
            db₄ = db₃ ∧ (data ≠ none → stageId' = stageId ∧ request' = request)) ∧
        ((remembering self stageId).Run db₂ after db₃ → ∀ now', ∃ data,
          completeStage db₃ stageId request now' = .ok (db₃, some data)) ∧
        ∀ as dbₐ label dbᵦ bs, after = as ++ label :: bs →
          (controlPlane self).Run db₂ as dbₐ → (controlPlane self).Step dbₐ label dbᵦ →
          (controlPlane self).Run dbᵦ bs db₃ → Forgets stageId dbₐ label →
            ∀ stageId' request' now', request'.leaseToken = request.leaseToken →
              ∀ db₄ data, completeStage db₃ stageId' request' now' = .ok (db₄, data) →
                data = none) := by
  refine ⟨?_, ?_, ?_⟩
  · intro labels db hrun stage hmem workerId token now hvalid
    obtain ⟨⟨hworker, htoken⟩, _⟩ := requireValidLease_eq_ok.mp hvalid
    obtain ⟨holder, hholder, hlatest⟩ := (run_ledger hinit hrun).held stage hmem token htoken
    rw [hworker] at hholder
    cases hholder
    exact hlatest
  · intro before db₁ grant label db₂ after db₃ hbefore hgrant hstep hends hafter hfresh operation
      htoken db₄ response hexec
    have hsplit : before ++ label :: after = (before ++ [label]) ++ after := by simp
    rw [hsplit] at hfresh
    have hkeys₂ := run_keysNodup (hbefore.snoc hstep) (initial_keysNodup hinit)
    have hfenced := hends.fenced hinit hbefore hgrant hstep hfresh.left
    have hgrant' : grant ∈ (before ++ [label]).flatMap Label.grants := by simp [hgrant]
    exact exec_of_fenced
      (run_fenced hafter hkeys₂ (fun later hlater => hfresh.ne hgrant' hlater) hfenced) htoken hexec
  · intro before db₁ stageId request now response db₂ after db₃ hbefore hstep hne hafter hfresh
    have hrun₂ := hbefore.snoc hstep
    have hkeys₂ := run_keysNodup hrun₂ (initial_keysNodup hinit)
    obtain ⟨⟨grant, hgrant, hid, htoken⟩, hcompleted, hsealed⟩ :=
      completion_sealed hinit hbefore hstep hne hfresh.left
    have hnew : ∀ later ∈ after.flatMap Label.grants, later.token ≠ request.leaseToken :=
      fun later hlater => htoken ▸ hfresh.ne hgrant hlater
    have hsame : ∀ labels : List Label, ((before ++ [Label.returned (.complete stageId request now)
        response]) ++ labels).flatMap Label.grants = (before ++ labels).flatMap Label.grants := by
      simp [Label.grants]
    have hledger := run_ledger hinit (hrun₂.trans hafter)
    rw [hsame] at hledger
    have hgrant' : grant ∈ (before ++ after).flatMap Label.grants := by
      rw [List.flatMap_append]
      exact List.mem_append_left _ hgrant
    have hsealed₃ := run_sealed hafter hkeys₂ hnew hsealed
    refine ⟨?_, ?_, ?_⟩
    · intro stageId' request' now' htoken' db₄ data hcomplete
      have hfenced : db₃.Fenced request'.leaseToken := fun stage hmem =>
        htoken' ▸ (hsealed₃ stage hmem).1
      refine ⟨complete_of_fenced hfenced hcomplete, fun hsome => ?_⟩
      obtain ⟨answer, rfl⟩ := Option.ne_none_iff_exists'.mp hsome
      rw [← htoken] at hsealed₃ htoken'
      obtain ⟨hstage, hrequest, _⟩ :=
        replay_of_sealed hledger hfresh hgrant' hsealed₃ htoken' hcomplete
      cases hrequest
      exact ⟨hstage.trans hid, rfl⟩
    · intro hquiet now'
      obtain ⟨hkeys₃, hcompleted₃⟩ := run_completed hquiet hkeys₂ hcompleted
      exact hcompleted₃.answered hkeys₃ now'
    · intro as dbₐ label dbᵦ bs rfl has hstepₐ hbs hforgets stageId' request' now' htoken' db₄ data
        hcomplete
      cases data with
      | none => rfl
      | some answer =>
          subst hid
          rw [← htoken] at hsealed htoken'
          have hgrant₂ : grant ∈ (before ++ [Label.returned (.complete grant.stageId request now)
              response]).flatMap Label.grants := by
            simpa [Label.grants] using hgrant
          unfold FreshTokens at hfresh
          rw [← hsame] at hfresh
          exact (refused_of_forgets hinit hrun₂ hgrant₂ hfresh hsealed has hstepₐ hbs hforgets
            htoken' hcomplete).elim

/-! ## The deployment with one stage running -/

def layoutScript : List Operation :=
  leaseScript ++ [.start "stage-layout" "worker" "token-layout" 3]

def layoutDb : Db := afterScript sampleScheduler sampleDb layoutScript

def layoutCompletion : CompleteStageRequest := sampleCompletion "token-layout" "s3://layout"

/-- The first completion changes the database, its replay is answered, and no call under its
token changes anything. -/
theorem lease_fencing_layout : ∃ db₂ response,
    (controlPlane sampleScheduler).Step layoutDb
      (.returned (.complete "stage-layout" layoutCompletion 4) response) db₂ ∧ db₂ ≠ layoutDb ∧
    (∃ data, completeStage db₂ "stage-layout" layoutCompletion 5 = .ok (db₂, some data)) ∧
    ∀ operation : Operation, operation.leaseToken? = some "token-layout" → ∀ db₃ response,
      operation.exec sampleScheduler db₂ = .ok (db₃, response) → db₃ = db₂ := by
  have hexec : ∃ result, completeStage layoutDb "stage-layout" layoutCompletion 4 = .ok result ∧
      result.2.isSome ∧ result.1.stages.map (·.status) ≠ layoutDb.stages.map (·.status) := by
    decide +kernel
  obtain ⟨⟨db₂, data⟩, hcomplete, hsome, hchanged⟩ := hexec
  obtain ⟨answer, rfl⟩ := Option.isSome_iff_exists.mp hsome
  have hstep : (controlPlane sampleScheduler).Step layoutDb
      (.returned (.complete "stage-layout" layoutCompletion 4) (.execution (some answer))) db₂ :=
    .returned trivial (bind_eq_ok.mpr ⟨_, hcomplete, rfl⟩)
  have hne : db₂ ≠ layoutDb := fun heq => hchanged (by rw [heq])
  have hinit : (controlPlane sampleScheduler).Initial sampleDb := ⟨rfl, rfl⟩
  have hrun : (controlPlane sampleScheduler).Run sampleDb
      (scriptLabels sampleScheduler sampleDb layoutScript) layoutDb :=
    afterScript_run (by decide +kernel)
  have hfresh : (((scriptLabels sampleScheduler sampleDb layoutScript).flatMap
      Label.grants).map (·.token)).Nodup := by decide +kernel
  have hgrant : (⟨"stage-layout", "worker", "token-layout"⟩ : LeaseGrant) ∈
      (scriptLabels sampleScheduler sampleDb layoutScript).flatMap Label.grants := by
    decide +kernel
  refine ⟨db₂, _, hstep, hne, ?_, ?_⟩
  · exact ((lease_fencing hinit).2.2 _ _ _ _ _ _ _ _ _ hrun hstep hne (.nil db₂)
      (by simpa [FreshTokens] using hfresh)).2.1 (.nil db₂) 5
  · exact (lease_fencing hinit).2.1 _ _ _ _ _ _ _ hrun hgrant hstep .completed (.nil db₂)
      (by simpa [FreshTokens, Label.grants] using hfresh)

/-- The task is cancelled after one of its stages has been completed: the record of that
completion stays, and a replay is still answered. -/
theorem replay_answered_after_cancel : ∃ db₂ db₃ response₂ response₃,
    (controlPlane sampleScheduler).Reachable layoutDb ∧
    (controlPlane sampleScheduler).Step layoutDb
      (.returned (.complete "stage-layout" layoutCompletion 4) response₂) db₂ ∧ db₂ ≠ layoutDb ∧
    (controlPlane sampleScheduler).Step db₂ (.returned (.cancel "task" 5) response₃) db₃ ∧
    (∀ task ∈ db₃.tasks, task.status = .cancelled) ∧
    ∃ data, completeStage db₃ "stage-layout" layoutCompletion 6 = .ok (db₃, some data) := by
  have hexec : ∃ result, completeStage layoutDb "stage-layout" layoutCompletion 4 = .ok result ∧
      result.1.stages.map (·.status) ≠ layoutDb.stages.map (·.status) ∧
      ∃ cancelled, cancelTask result.1 "task" 5 = .ok cancelled ∧
        (∀ task ∈ cancelled.1.tasks, task.status = .cancelled) ∧
        ∃ stage ∈ cancelled.1.stages, stage.stageId = "stage-layout" ∧
          stage.completionMatches layoutCompletion := by
    decide +kernel
  obtain ⟨⟨db₂, data⟩, hcomplete, hchanged, ⟨db₃, record⟩, hcancel, hstatus, hcompleted⟩ := hexec
  have hreach : (controlPlane sampleScheduler).Reachable layoutDb :=
    afterScript_reachable sampleDb_reachable
  have hstep₂ : (controlPlane sampleScheduler).Step layoutDb
      (.returned (.complete "stage-layout" layoutCompletion 4) (.execution data)) db₂ :=
    .returned trivial (bind_eq_ok.mpr ⟨_, hcomplete, rfl⟩)
  have hstep₃ : (controlPlane sampleScheduler).Step db₂
      (.returned (.cancel "task" 5) (.task record)) db₃ :=
    .returned trivial (bind_eq_ok.mpr ⟨_, hcancel, rfl⟩)
  have hkeys₃ := reachable_keysNodup ((hreach.step hstep₂).step hstep₃)
  exact ⟨db₂, db₃, _, _, hreach, hstep₂, fun heq => hchanged (by rw [heq]), hstep₃, hstatus,
    Db.Completed.answered hcompleted hkeys₃ 6⟩

end ParserServe
