import ParserServe.Lifecycle.Fencing
import ParserServe.Lifecycle.Placed

/-! # The attempts of a stage

Each lease of a stage takes the next number of its attempt counter, which nothing but a manual
retry sets back.
-/

namespace ParserServe

open Foundation

variable {self : StageScheduler} {manual : Prop} {now : Time} {db db' : Db}
  {task : TaskRecord} {stage stage' : StageRecord} {stageId : String}
  {granted : Option LeaseGrant} {label : Label} {labels : List Label}

/-! ## The row of a stage -/

def Db.stage? (db : Db) (stageId : String) : Option StageRecord :=
  db.stages.find? (·.stageId = stageId)

theorem Db.stage?_of_mem (hkeys : db.KeysNodup) (h : stage ∈ db.stages) :
    db.stage? stage.stageId = some stage :=
  find?_key_eq_some hkeys.stages h

theorem Db.stage?_mem (h : db.stage? stageId = some stage) :
    stage ∈ db.stages ∧ stage.stageId = stageId :=
  ⟨List.mem_of_find?_eq_some h, by simpa using List.find?_some h⟩

theorem Db.stage?_eq_none : db.stage? stageId = none ↔ stageId ∉ db.stages.map (·.stageId) := by
  simp [Db.stage?]

/-- The attempt counter of a stage; a stage that does not exist yet has made none. -/
def Db.attemptOf (db : Db) (stageId : String) : Nat :=
  (db.stage? stageId).elim 0 (·.attempt)

theorem attemptOf_of_mem (hkeys : db.KeysNodup) (h : stage ∈ db.stages) :
    db.attemptOf stage.stageId = stage.attempt := by
  rw [Db.attemptOf, Db.stage?_of_mem hkeys h]
  rfl

/-- What a change does to the row of a stage. -/
theorem DbChange.row (h : DbChange manual now db granted db') (hkeys : db.KeysNodup)
    (stageId : String) :
    (db.stage? stageId = none ∧ ∀ s' ∈ db'.stage? stageId, s'.attempt = 0) ∨
      ∃ task ∈ db.tasks, ∃ s s', db.stage? stageId = some s ∧ db'.stage? stageId = some s' ∧
        s ∈ task.stages ∧ StageChange manual now task granted s s' := by
  have hkeys' := h.keysNodup hkeys
  cases hrow : db.stage? stageId with
  | none =>
      refine .inl ⟨rfl, fun s' hs' => ?_⟩
      obtain ⟨hmem', hid'⟩ := Db.stage?_mem hs'
      rcases h.stage_cases hkeys s' hmem' with ⟨_, _, _, hzero⟩ | ⟨task, htask, s, hs, hchange⟩
      · exact hzero
      · refine absurd ?_ (Db.stage?_eq_none.mp hrow)
        rw [← hid', hchange.samePlan.stageId]
        exact List.mem_map_of_mem (Db.mem_stages.mpr ⟨task, htask, hs⟩)
  | some s =>
      obtain ⟨hmem, hid⟩ := Db.stage?_mem hrow
      obtain ⟨s', hmem', hid', _⟩ := (h.follows hkeys).stages s hmem
      have hrow' : db'.stage? stageId = some s' := by
        rw [← hid, ← hid']
        exact Db.stage?_of_mem hkeys' hmem'
      rcases h.stage_cases hkeys s' hmem' with ⟨_, _, hnew, _⟩ | ⟨task, htask, s₀, hs₀, hchange⟩
      · exact absurd (hid' ▸ List.mem_map_of_mem hmem) hnew
      · obtain rfl : s₀ = s := List.inj_on_of_nodup_map hkeys.stages
          (Db.mem_stages.mpr ⟨task, htask, hs₀⟩) hmem (hchange.samePlan.stageId.symm.trans hid')
        exact .inr ⟨task, htask, s₀, s', rfl, hrow', hs₀, hchange⟩

/-! ## Calls that grant nothing -/

theorem Ending.attempt {s s' : StageRecord} (h : Ending now s s') : s'.attempt = s.attempt := by
  cases h <;> rfl

/-- Without a user's call a row keeps its counter between two leases. -/
theorem StageMove.attempt {s s' : StageRecord} (h : StageMove False now s s') :
    s'.attempt = s.attempt := by
  cases h with
  | renewed | started | progressed => rfl
  | ended hend =>
      cases hend with
      | completed _ _ _ _ _ hend => exact hend.attempt
      | expired hend => exact hend.attempt
  | stopped =>
      unfold StageRecord.stop
      split <;> rfl
  | cancelled hmanual | reset hmanual => exact hmanual.elim
  | forgot =>
      unfold StageRecord.forgetResult
      split <;> rfl

theorem StageMoves.attempt {s s' : StageRecord} (h : StageMoves False now s s') :
    s'.attempt = s.attempt := by
  induction h with
  | refl => rfl
  | tail _ hmove ih => exact hmove.attempt.trans ih

theorem DbChange.attemptOf (h : DbChange False now db none db') (hkeys : db.KeysNodup) :
    db'.attemptOf stageId = db.attemptOf stageId := by
  unfold Db.attemptOf
  rcases h.row hkeys stageId with ⟨hnone, hzero⟩ | ⟨_, _, s, s', hrow, hrow', _, hchange⟩
  · rw [hnone]
    cases hrow' : db'.stage? stageId with
    | none => rfl
    | some s' => exact hzero s' hrow'
  · rw [hrow, hrow']
    exact hchange.moves.attempt

theorem Changes.attemptOf (h : Changes False now db [] db') (hkeys : db.KeysNodup) :
    db'.attemptOf stageId = db.attemptOf stageId := by
  obtain ⟨labels, hrun, hnone⟩ := h
  have hboth : db'.KeysNodup ∧ db'.attemptOf stageId = db.attemptOf stageId := by
    induction hrun with
    | nil => exact ⟨hkeys, rfl⟩
    | @snoc _ _ labels granted _ hstep ih =>
        rw [List.reduceOption_append, List.append_eq_nil_iff] at hnone
        obtain ⟨hkeys₁, hsame⟩ := ih hnone.1
        cases granted with
        | none =>
            exact ⟨DbChange.keysNodup hstep hkeys₁,
              (DbChange.attemptOf hstep hkeys₁).trans hsame⟩
        | some grant => simp [List.reduceOption] at hnone
  exact hboth.2

/-! ## The loop of `lease` -/

/-- The leases of one stage among those granted. -/
def leasesOf (stageId : String) (leases : List LeasedStage) : List LeasedStage :=
  leases.filter (·.stageId = stageId)

theorem leasesOf_append (stageId : String) (leases leases' : List LeasedStage) :
    leasesOf stageId (leases ++ leases') = leasesOf stageId leases ++ leasesOf stageId leases' :=
  List.filter_append _ _

/-- The leases are the next ones after attempt `first`, in order. -/
def NumberedFrom (first : Nat) (leases : List LeasedStage) : Prop :=
  leases.map (·.attempt) = List.range' (first + 1) leases.length

theorem NumberedFrom.append {first : Nat} {leases leases' : List LeasedStage}
    (h : NumberedFrom first leases) (h' : NumberedFrom (first + leases.length) leases') :
    NumberedFrom first (leases ++ leases') := by
  have hnext : first + 1 + leases.length = first + leases.length + 1 := by omega
  rw [NumberedFrom, List.map_append, h, h', List.length_append, ← hnext, List.range'_append_1]

/-- A grant written back advances the counter of its stage and of no other. -/
theorem attemptOf_granted {grant : Grant} {saved : TaskRecord} {payloads : List EventPayload}
    (hkeys : db.KeysNodup) (htask : task ∈ db.tasks) (hstage : stage ∈ task.stages)
    (hlease : task.lease stage grant now = .ok (saved, payloads)) :
    ((db.saveTask saved).publishAll now payloads).KeysNodup ∧
      ((db.saveTask saved).publishAll now payloads).attemptOf stage.stageId =
        db.attemptOf stage.stageId + 1 ∧
      ∀ other, other ≠ stage.stageId →
        ((db.saveTask saved).publishAll now payloads).attemptOf other = db.attemptOf other := by
  obtain ⟨hbinding, hstages⟩ := lease_writes hlease
  have hid : (stage.grant grant now).stageId = stage.stageId := rfl
  have hrows := saveTask_stages_replaceKey hkeys htask hstage hid hbinding.taskId hstages
  have hrow := Db.stage?_of_mem hkeys (Db.mem_stages.mpr ⟨task, htask, hstage⟩)
  refine ⟨⟨?_, ?_⟩, ?_, fun other hne => ?_⟩
  · rw [Db.publishAll_tasks, saveTask_taskIds]
    exact hkeys.tasks
  · rw [publishAll_stages, hrows, map_replaceKey]
    exact hkeys.stages
  · rw [Db.attemptOf, Db.stage?, publishAll_stages, hrows, find?_replaceKey_self hrow hid,
      Db.attemptOf, hrow]
    rfl
  · rw [← hid] at hne
    rw [Db.attemptOf, Db.stage?, publishAll_stages, hrows, find?_replaceKey_of_ne hne]
    rfl

theorem leaseOne_numbered {call : LeaseCall} {state state' : LeaseState} {row : String}
    (hkeys : state.db.KeysNodup) (h : self.leaseOne call state row = .ok state') :
    ∃ new, state'.leases = state.leases ++ new ∧ state'.db.KeysNodup ∧
      NumberedFrom (state.db.attemptOf stageId) (leasesOf stageId new) ∧
      state'.db.attemptOf stageId =
        state.db.attemptOf stageId + (leasesOf stageId new).length := by
  unfold StageScheduler.leaseOne at h
  split at h
  · cases h
    exact ⟨[], by simp, hkeys, rfl, rfl⟩
  · next task stage hfind =>
      split at h
      · cases h
        exact ⟨[], by simp, hkeys, rfl, rfl⟩
      · next backend runtime deviceId metadata _ =>
          obtain ⟨⟨saved, payloads⟩, hlease, h⟩ := bind_eq_ok.mp h
          cases h
          obtain ⟨htask, hstage, _⟩ := Db.stageForUpdate_mem hfind
          obtain ⟨hkeys', hself, hother⟩ := attemptOf_granted hkeys htask hstage hlease
          have hcounter := attemptOf_of_mem hkeys (Db.mem_stages.mpr ⟨task, htask, hstage⟩)
          refine ⟨_, rfl, hkeys', ?_⟩
          by_cases hid : stage.stageId = stageId
          · subst hid
            have hnew : ∀ lease : LeasedStage, lease.stageId = stage.stageId →
                leasesOf stage.stageId [lease] = [lease] := fun lease heq => by
              simp [leasesOf, heq]
            rw [hnew _ rfl]
            refine ⟨?_, hself⟩
            rw [hcounter]
            rfl
          · have hnew : ∀ lease : LeasedStage, lease.stageId = stage.stageId →
                leasesOf stageId [lease] = [] := fun lease heq => by
              simp [leasesOf, heq, hid]
            rw [hnew _ rfl]
            exact ⟨rfl, hother stageId (Ne.symm hid)⟩

theorem leaseLoop_numbered {call : LeaseCall} {rows : List String} {state state' : LeaseState}
    (hkeys : state.db.KeysNodup) (h : self.leaseLoop call rows state = .ok state') :
    ∃ new, state'.leases = state.leases ++ new ∧
      NumberedFrom (state.db.attemptOf stageId) (leasesOf stageId new) ∧
      state'.db.attemptOf stageId =
        state.db.attemptOf stageId + (leasesOf stageId new).length := by
  induction rows generalizing state with
  | nil =>
      cases h
      exact ⟨[], by simp, rfl, rfl⟩
  | cons row rest ih =>
      rw [StageScheduler.leaseLoop] at h
      split at h
      · cases h
        exact ⟨[], by simp, rfl, rfl⟩
      · obtain ⟨state₁, hone, hloop⟩ := bind_eq_ok.mp h
        obtain ⟨new₁, hleases₁, hkeys₁, hnumbered₁, hcounter₁⟩ :=
          leaseOne_numbered hkeys hone
        obtain ⟨new₂, hleases₂, hnumbered₂, hcounter₂⟩ := ih hkeys₁ hloop
        refine ⟨new₁ ++ new₂, by rw [hleases₂, hleases₁, List.append_assoc], ?_, ?_⟩
        · rw [leasesOf_append]
          exact hnumbered₁.append (hcounter₁ ▸ hnumbered₂)
        · rw [hcounter₂, hcounter₁, leasesOf_append, List.length_append, Nat.add_assoc]

theorem lease_numbered {request : WorkerLeaseRequest} {rows : List String} {tokens : Nat → String}
    {leases : List LeasedStage} (hkeys : db.KeysNodup)
    (h : self.lease db request rows tokens now = .ok (db', leases)) :
    NumberedFrom (db.attemptOf stageId) (leasesOf stageId leases) ∧
      db'.attemptOf stageId = db.attemptOf stageId + (leasesOf stageId leases).length := by
  unfold StageScheduler.lease at h
  split at h
  · cases h
  · simp only [bind_eq_ok] at h
    obtain ⟨_, _, h⟩ := h
    split at h
    · cases h
      exact ⟨rfl, rfl⟩
    · obtain ⟨state, hloop, h⟩ := bind_eq_ok.mp h
      obtain ⟨new, hnew, hnumbered, hcounter⟩ := leaseLoop_numbered hkeys hloop
      rw [List.nil_append] at hnew
      rw [← hnew] at hnumbered hcounter
      have hsaved : leases = state.leases ∧ db'.stages = state.db.stages := by
        split at h
        · obtain ⟨hdb, hleases⟩ := Prod.mk.inj (Except.ok.inj h)
          exact ⟨hleases.symm, by rw [← hdb]; rfl⟩
        · obtain ⟨hdb, hleases⟩ := Prod.mk.inj (Except.ok.inj h)
          exact ⟨hleases.symm, by rw [← hdb]⟩
      have hstage : db'.stage? stageId = state.db.stage? stageId := by
        rw [Db.stage?, hsaved.2, Db.stage?]
      rw [hsaved.1]
      refine ⟨hnumbered, ?_⟩
      rw [Db.attemptOf, hstage]
      exact hcounter

/-! ## Steps -/

/-- The leases a step grants, as the worker receives them. -/
def Label.leases : Label → List LeasedStage
  | .returned (.lease ..) (.leases stages) => stages
  | _ => []

/-- The stages of the task that a step retries by hand. -/
def Label.retriedStages : Label → List String
  | .returned (.retry ..) (.task (some record)) => record.stages.map (·.stageId)
  | _ => []

theorem Db.stage?_congr (h : ∀ stage, stage ∈ db'.stages ↔ stage ∈ db.stages)
    (hkeys' : db'.KeysNodup) : db'.stage? stageId = db.stage? stageId := by
  cases hrow : db.stage? stageId with
  | none =>
      rw [Db.stage?_eq_none] at hrow ⊢
      simpa [h] using hrow
  | some stage =>
      obtain ⟨hmem, hid⟩ := Db.stage?_mem hrow
      rw [← hid]
      exact Db.stage?_of_mem hkeys' ((h stage).mpr hmem)

/-- A user's call on one task leaves the row of a stage, or writes `f` to it. -/
theorem withTask_stage? {taskId : String} {record : Option TaskRecord}
    {operation : TaskRecord → Except ServiceError (TaskRecord × List EventPayload)}
    {f : StageRecord → StageRecord} (hkeys : db.KeysNodup)
    (hop : ∀ task task' payloads, operation task = .ok (task', payloads) →
      task'.taskId = task.taskId ∧ task'.stages = task.stages.map f)
    (hf : ∀ stage, (f stage).stageId = stage.stageId)
    (h : db.withTask taskId now operation = .ok (db', record)) :
    db'.stage? stageId = db.stage? stageId ∨ ∃ task ∈ db.tasks, ∃ stage ∈ task.stages,
      ∃ saved payloads, operation task = .ok (saved, payloads) ∧ record = some saved ∧
        db.stage? stageId = some stage ∧ db'.stage? stageId = some (f stage) := by
  unfold Db.withTask at h
  split at h
  · cases h
    exact .inl rfl
  · next found hfind =>
      obtain ⟨⟨saved, payloads⟩, hoperation, h⟩ := bind_eq_ok.mp h
      cases h
      obtain ⟨hid, hstages⟩ := hop _ _ _ hoperation
      have hfound : found ∈ db.tasks := List.mem_of_find?_eq_some hfind
      have hids : saved.stages.map (·.stageId) = found.stages.map (·.stageId) := by
        rw [hstages, List.map_map]
        exact List.map_congr_left fun stage _ => hf stage
      have htable := saveTask_stageIds hkeys hfound hid hids
      have hkeys' : ((db.saveTask saved).publishAll now payloads).KeysNodup := by
        refine ⟨?_, ?_⟩
        · rw [Db.publishAll_tasks, saveTask_taskIds]
          exact hkeys.tasks
        · rw [publishAll_stages, htable]
          exact hkeys.stages
      cases hrow : db.stage? stageId with
      | none =>
          rw [Db.stage?_eq_none] at hrow
          refine .inl (Db.stage?_eq_none.mpr ?_)
          rwa [publishAll_stages, htable]
      | some stage =>
          obtain ⟨hmem, rfl⟩ := Db.stage?_mem hrow
          obtain ⟨task, htask, hstage⟩ := Db.mem_stages.mp hmem
          by_cases heq : task = found
          · subst heq
            have hsaved : f stage ∈ ((db.saveTask saved).publishAll now payloads).stages := by
              rw [publishAll_stages]
              refine Db.mem_stages.mpr ⟨saved, mem_replaceKey_self htask hid.symm, ?_⟩
              rw [hstages]
              exact List.mem_map_of_mem hstage
            have hfind' := Db.stage?_of_mem hkeys' hsaved
            rw [hf] at hfind'
            exact .inr ⟨task, htask, stage, hstage, saved, payloads, hoperation, rfl, rfl, hfind'⟩
          · have hkept : stage ∈ ((db.saveTask saved).publishAll now payloads).stages := by
              rw [publishAll_stages]
              refine Db.mem_stages.mpr
                ⟨task, mem_replaceKey_of_ne htask fun hsame => heq ?_, hstage⟩
              exact List.inj_on_of_nodup_map hkeys.tasks htask hfound (hsame.trans hid)
            exact .inl (Db.stage?_of_mem hkeys' hkept)

theorem cancel_attempt (stage : StageRecord) (now : Time) :
    (stage.cancel now).attempt = stage.attempt := by
  unfold StageRecord.cancel
  split <;> rfl

theorem reset_attempt (stage : StageRecord) (now : Time) :
    (stage.reset now).attempt = stage.attempt ∨ (stage.reset now).attempt = 0 := by
  unfold StageRecord.reset
  split
  · exact .inr rfl
  · exact .inl rfl

theorem cancelTask_attemptOf {taskId : String} {record : Option TaskRecord}
    (hkeys : db.KeysNodup) (h : cancelTask db taskId now = .ok (db', record)) :
    db'.attemptOf stageId = db.attemptOf stageId := by
  have hrow : db'.stage? stageId = db.stage? stageId ∨ _ :=
    withTask_stage? (f := fun stage => stage.cancel now) hkeys
      (fun _ _ _ hop => ⟨(cancel_eq_ok hop).1, (cancel_eq_ok hop).2.2⟩)
      (fun stage =>
        (StageMove.samePlan (.cancelled trivial : StageMove True now stage _)).stageId) h
  rcases hrow with hsame | ⟨_, _, stage, _, _, _, _, _, hrow, hrow'⟩
  · rw [Db.attemptOf, hsame]
    rfl
  · rw [Db.attemptOf, hrow', Db.attemptOf, hrow]
    exact cancel_attempt stage now

theorem retryTask_stage? {taskId : String} {record : Option TaskRecord} (hkeys : db.KeysNodup)
    (h : retryTask db taskId now = .ok (db', record)) :
    db'.stage? stageId = db.stage? stageId ∨ ∃ task ∈ db.tasks, ∃ stage ∈ task.stages,
      ∃ saved payloads, task.retry now = .ok (saved, payloads) ∧ record = some saved ∧
        db.stage? stageId = some stage ∧ db'.stage? stageId = some (stage.reset now) :=
  withTask_stage? (f := fun stage => stage.reset now) hkeys
    (fun _ _ _ hop => ⟨(retry_eq_ok hop).1, (retry_eq_ok hop).2.2⟩)
    (fun stage => (StageMove.samePlan (.reset trivial : StageMove True now stage _)).stageId) h

/-- The retry of a stage is one of the task that holds it. -/
theorem mem_retriedStages {taskId : String} {saved : TaskRecord} {payloads : List EventPayload}
    (hretry : task.retry now = .ok (saved, payloads)) (hstage : stage ∈ task.stages) :
    stage.stageId ∈ (Label.returned (.retry taskId now) (.task (some saved))).retriedStages := by
  show stage.stageId ∈ saved.stages.map (·.stageId)
  rw [(retry_eq_ok hretry).2.2, List.map_map]
  exact List.mem_map.mpr ⟨stage, hstage,
    (StageMove.samePlan (.reset trivial : StageMove True now stage _)).stageId⟩

/-- A step numbers its leases of a stage on from the counter; otherwise it leaves the counter,
or it is a manual retry that sets it to zero. -/
theorem ControlStep.attempts (h : ControlStep self db label db') (hkeys : db.KeysNodup)
    (stageId : String) :
    NumberedFrom (db.attemptOf stageId) (leasesOf stageId label.leases) ∧
      (db'.attemptOf stageId = db.attemptOf stageId + (leasesOf stageId label.leases).length ∨
        (stageId ∈ label.retriedStages ∧ label.leases = [] ∧ db'.attemptOf stageId = 0)) := by
  have hkeys' := h.keysNodup hkeys
  cases h with
  | returned hanswerable hexec =>
      rename_i operation response
      cases operation with
      | lease request rows tokens now =>
          obtain ⟨⟨db₁, leases⟩, hlease, heq⟩ := bind_eq_ok.mp hexec
          cases heq
          obtain ⟨hnumbered, hcounter⟩ := lease_numbered hkeys hlease
          exact ⟨hnumbered, .inl hcounter⟩
      | cancel taskId now =>
          obtain ⟨⟨db₁, record⟩, hcancel, heq⟩ := bind_eq_ok.mp hexec
          cases heq
          exact ⟨rfl, .inl (cancelTask_attemptOf hkeys hcancel)⟩
      | retry taskId now =>
          obtain ⟨⟨db₁, record⟩, hretry, heq⟩ := bind_eq_ok.mp hexec
          cases heq
          refine ⟨rfl, ?_⟩
          rcases retryTask_stage? hkeys hretry with
            hsame | ⟨task, _, stage, hstage, saved, _, hop, rfl, hrow, hrow'⟩
          · exact .inl (by rw [Db.attemptOf, hsame]; rfl)
          · rw [Db.attemptOf, Db.attemptOf, hrow, hrow']
            rcases reset_attempt stage now with hkept | hzero
            · exact .inl hkept
            · refine .inr ⟨?_, rfl, hzero⟩
              rw [← (Db.stage?_mem hrow).2]
              exact mem_retriedStages hop hstage
      | create | route | renew | start | progress | complete | authorizeArtifactUpload
        | requeueExpired =>
          exact ⟨rfl, .inl (Changes.attemptOf (exec_changes hkeys hanswerable hexec) hkeys)⟩
  | raised => exact ⟨rfl, .inl rfl⟩
  | administered hadmin =>
      refine ⟨rfl, .inl ?_⟩
      rw [Db.attemptOf, Db.stage?, Db.stages, hadmin.tasks]
      rfl
  | reordered hmem hperm =>
      refine ⟨rfl, .inl ?_⟩
      rw [Db.attemptOf, Db.stage?_congr
        (fun _ => (reordered_stages hkeys hmem hperm).mem_iff) hkeys']
      rfl

/-! ## Runs -/

/-- The leases of a stage in the order in which they were granted. -/
def grantsOf (stageId : String) (labels : List Label) : List LeasedStage :=
  leasesOf stageId (labels.flatMap Label.leases)

theorem grantsOf_append (stageId : String) (labels labels' : List Label) :
    grantsOf stageId (labels ++ labels') = grantsOf stageId labels ++ grantsOf stageId labels' := by
  rw [grantsOf, List.flatMap_append, leasesOf_append]
  rfl

theorem grantsOf_singleton (stageId : String) (label : Label) :
    grantsOf stageId [label] = leasesOf stageId label.leases := by
  rw [grantsOf, List.flatMap_singleton]

theorem NumberedFrom.nodup {first : Nat} {leases : List LeasedStage}
    (h : NumberedFrom first leases) : (leases.map (·.attempt)).Nodup := by
  rw [h]
  exact List.nodup_range'

/-- Once its counter is zero, the first lease of a stage is attempt one. -/
theorem first_attempt (hrun : (controlPlane self).Run db labels db') (hkeys : db.KeysNodup)
    (hzero : db.attemptOf stageId = 0) :
    (grantsOf stageId labels = [] ∧ db'.attemptOf stageId = 0) ∨
      1 ∈ (grantsOf stageId labels).map (·.attempt) := by
  induction hrun with
  | nil => exact .inl ⟨rfl, hzero⟩
  | @snoc t u labels label hrun hstep ih =>
      rw [grantsOf_append, grantsOf_singleton, List.map_append, List.mem_append]
      rcases ih with ⟨hnone, hcounter⟩ | hone
      · obtain ⟨hnumbered, hnext⟩ :=
          ControlStep.attempts hstep (run_keysNodup hrun hkeys) stageId
        rw [hcounter] at hnumbered hnext
        cases hleases : leasesOf stageId label.leases with
        | nil =>
            refine .inl ⟨by rw [hnone, List.append_nil], ?_⟩
            rw [hleases] at hnext
            rcases hnext with hnext | ⟨_, _, hnext⟩
            · exact hnext
            · exact hnext
        | cons lease rest =>
            rw [hleases] at hnumbered
            refine .inr (.inr ?_)
            rw [hnumbered, List.length_cons, List.range'_succ]
            exact List.mem_cons_self
      · exact .inr (.inl hone)

/-- A stage that succeeded or was skipped is not leased again. -/
theorem Changes.finished {grants : List LeaseGrant} {s : StageRecord}
    (h : Changes manual now db grants db') (hkeys : db.KeysNodup)
    (hrow : db.stage? stageId = some s) (hfinished : s.status.finished) :
    (∀ grant ∈ grants, grant.stageId ≠ stageId) ∧
      ∃ s', db'.stage? stageId = some s' ∧ s'.status.finished := by
  obtain ⟨labels, hrun, rfl⟩ := h
  have hall : db'.KeysNodup ∧ (∀ grant ∈ labels.reduceOption, grant.stageId ≠ stageId) ∧
      ∃ s', db'.stage? stageId = some s' ∧ s'.status.finished := by
    induction hrun with
    | nil => exact ⟨hkeys, by simp [List.reduceOption], s, hrow, hfinished⟩
    | @snoc _ _ labels granted _ hstep ih =>
        obtain ⟨hkeys₁, hnone, s₁, hrow₁, hfinished₁⟩ := ih
        refine ⟨DbChange.keysNodup hstep hkeys₁, ?_⟩
        rcases DbChange.row hstep hkeys₁ stageId with
          ⟨hmissing, _⟩ | ⟨_, _, s₀, s', hfound, hrow', _, hchange⟩
        · rw [hmissing] at hrow₁
          cases hrow₁
        · cases hrow₁.symm.trans hfound
          have hid := (Db.stage?_mem hfound).2
          have hsame := hchange.path.eq_of_finished hfinished₁
          refine ⟨?_, s', hrow', by rwa [hsame]⟩
          rw [List.reduceOption_append]
          intro grant hgrant
          rcases List.mem_append.mp hgrant with hgrant | hgrant
          · exact hnone grant hgrant
          · cases hchange with
            | moved _ hother =>
                cases granted with
                | none => simp [List.reduceOption] at hgrant
                | some other =>
                    have heq : grant = other := by simpa [List.reduceOption] using hgrant
                    rw [heq, ← hid]
                    exact hother other rfl
            | granted _ hpending =>
                simp [hpending, StageStatus.finished] at hfinished₁
  exact hall.2

theorem ControlStep.finished (h : ControlStep self db label db') (hkeys : db.KeysNodup)
    (hrow : db.stage? stageId = some stage) (hfinished : stage.status.finished) :
    leasesOf stageId label.leases = [] ∧
      ∃ stage', db'.stage? stageId = some stage' ∧ stage'.status.finished := by
  have hkeys' := h.keysNodup hkeys
  cases h with
  | returned hanswerable hexec =>
      rename_i operation response
      obtain ⟨hnone, hkept⟩ := (exec_changes hkeys hanswerable hexec).finished hkeys hrow hfinished
      refine ⟨?_, hkept⟩
      rw [leasesOf, List.filter_eq_nil_iff]
      intro lease hlease hid
      cases operation with
      | lease request rows tokens now =>
          obtain ⟨⟨db₁, leases⟩, _, heq⟩ := bind_eq_ok.mp hexec
          cases heq
          exact hnone _ (List.mem_map_of_mem hlease) (by simpa using hid)
      | create | route | renew | start | progress | complete | authorizeArtifactUpload
        | requeueExpired | cancel | retry => cases hlease
  | raised => exact ⟨rfl, stage, hrow, hfinished⟩
  | administered hadmin =>
      refine ⟨rfl, stage, ?_, hfinished⟩
      rw [Db.stage?, Db.stages, hadmin.tasks]
      exact hrow
  | reordered hmem hperm =>
      refine ⟨rfl, stage, ?_, hfinished⟩
      rw [Db.stage?_congr (fun _ => (reordered_stages hkeys hmem hperm).mem_iff) hkeys', hrow]

theorem run_finished (hrun : (controlPlane self).Run db labels db') (hkeys : db.KeysNodup)
    (hrow : db.stage? stageId = some stage) (hfinished : stage.status.finished) :
    grantsOf stageId labels = [] ∧
      ∃ stage', db'.stage? stageId = some stage' ∧ stage'.status.finished := by
  induction hrun with
  | nil => exact ⟨rfl, stage, hrow, hfinished⟩
  | snoc hrun hstep ih =>
      obtain ⟨hnone, stage₁, hrow₁, hfinished₁⟩ := ih
      obtain ⟨hnew, hkept⟩ :=
        ControlStep.finished hstep (run_keysNodup hrun hkeys) hrow₁ hfinished₁
      exact ⟨by rw [grantsOf_append, grantsOf_singleton, hnone, hnew, List.append_nil], hkept⟩

/-- The stages of a task that may be retried have ended. -/
theorem terminal_of_retry {saved : TaskRecord} {payloads : List EventPayload}
    (hretry : task.retry now = .ok (saved, payloads)) (hcons : task.Consistent)
    (hstage : stage ∈ task.stages) : stage.status.terminal := by
  simp only [TaskRecord.retry, bind_eq_ok, ensure_eq_ok] at hretry
  obtain ⟨_, hended, _⟩ := hretry
  have hagrees := hcons.agrees
  rcases hended with hended | hended
  · rw [hended] at hagrees
    exact hagrees.1 stage hstage
  · rw [hended] at hagrees
    exact (hagrees.resolve_left (List.ne_nil_of_mem hstage)).1 stage hstage

theorem reset_of_terminal (h : stage.status.terminal) :
    (stage.reset now).attempt = 0 ∨ (stage.reset now).status.finished := by
  unfold StageRecord.reset
  split
  · exact .inl rfl
  · next hdone =>
      refine .inr ?_
      cases hstatus : stage.status <;> simp_all [StageStatus.terminal, StageStatus.finished]

/-- A manual retry sets the counter of a stage to zero, unless the stage is done for good. -/
theorem retried_row (h : ControlStep self db label db') (hdb : (controlPlane self).Reachable db)
    (hretry : stageId ∈ label.retriedStages) :
    db'.attemptOf stageId = 0 ∨
      ∃ stage, db'.stage? stageId = some stage ∧ stage.status.finished := by
  have hkeys' := h.keysNodup (reachable_keysNodup hdb)
  cases h with
  | returned hanswerable hexec =>
      rename_i operation response
      cases operation with
      | retry taskId now =>
          obtain ⟨⟨db₁, record⟩, hcall, heq⟩ := bind_eq_ok.mp hexec
          cases heq
          cases record with
          | none => cases hretry
          | some saved =>
              obtain ⟨hsaved, task, htask, payloads, hop⟩ :=
                withTask_record (fun _ _ _ hop => (retry_eq_ok hop).1) hcall
              obtain ⟨row, hrow, hid⟩ := List.mem_map.mp hretry
              have hmem := Db.stage?_of_mem hkeys' (Db.mem_stages.mpr ⟨saved, hsaved, hrow⟩)
              rw [(retry_eq_ok hop).2.2] at hrow
              obtain ⟨stage, hstage, rfl⟩ := List.mem_map.mp hrow
              have hended := terminal_of_retry hop (reachable_consistent hdb task htask) hstage
              rw [hid] at hmem
              rcases reset_of_terminal hended with hzero | hfinished
              · exact .inl (by rw [Db.attemptOf, hmem]; exact hzero)
              · exact .inr ⟨_, hmem, hfinished⟩
      | create | route | lease | renew | start | progress | complete | authorizeArtifactUpload
        | requeueExpired | cancel => cases hretry
  | raised | administered | reordered => cases hretry

/-- No manual retry of the stage lies between two of its leases. -/
def Unretried (stageId : String) (labels : List Label) : Prop :=
  ∀ before retry after, labels = before ++ retry :: after → stageId ∈ retry.retriedStages →
    grantsOf stageId before = [] ∨ grantsOf stageId after = []

theorem Unretried.left {labels' : List Label} (h : Unretried stageId (labels ++ labels')) :
    Unretried stageId labels := by
  rintro before retry after rfl hretry
  refine (h before retry (after ++ labels') (by simp) hretry).imp id fun hnone => ?_
  rw [grantsOf_append, List.append_eq_nil_iff] at hnone
  exact hnone.1

theorem attemptOf_initial (hinit : (controlPlane self).Initial db) : db.attemptOf stageId = 0 := by
  simp [Db.attemptOf, Db.stage?, Db.stages, hinit.1]

/-- Without such a retry the leases of a stage are numbered one after the other; the counter is
behind only after a manual retry. -/
theorem numbered_of_unretried (hinit : (controlPlane self).Initial db)
    (hrun : (controlPlane self).Run db labels db') (h : Unretried stageId labels) :
    NumberedFrom 0 (grantsOf stageId labels) ∧
      (db'.attemptOf stageId = (grantsOf stageId labels).length ∨
        ∃ before retry after, labels = before ++ retry :: after ∧
          stageId ∈ retry.retriedStages ∧ grantsOf stageId before ≠ []) := by
  induction hrun with
  | nil => exact ⟨rfl, .inl (attemptOf_initial hinit)⟩
  | @snoc t u labels label hrun hstep ih =>
      obtain ⟨hnumbered, hcounter⟩ := ih h.left
      obtain ⟨hnext, hcounter'⟩ :=
        ControlStep.attempts hstep (run_keysNodup hrun (initial_keysNodup hinit)) stageId
      rw [grantsOf_append, grantsOf_singleton]
      rcases hcounter with hcounter | ⟨before, retry, after, rfl, hretry, hne⟩
      · rw [hcounter] at hnext hcounter'
        refine ⟨hnumbered.append (by rwa [Nat.zero_add]), ?_⟩
        rcases hcounter' with hadvanced | ⟨hretry, hnone, hzero⟩
        · exact .inl (by rw [hadvanced, List.length_append])
        · by_cases hempty : grantsOf stageId labels = []
          · exact .inl (by rw [hzero, hempty, hnone]; rfl)
          · exact .inr ⟨labels, label, [], rfl, hretry, hempty⟩
      · have hquiet := (h before retry (after ++ [label]) (by simp) hretry).resolve_left hne
        rw [grantsOf_append, grantsOf_singleton, List.append_eq_nil_iff] at hquiet
        rw [hquiet.2, List.append_nil]
        exact ⟨hnumbered, .inr ⟨before, retry, after ++ [label], by simp, hretry, hne⟩⟩

/-- The attempts of a stage's leases are distinct exactly when no manual retry of it lies
between two of them. -/
theorem attempts_nodup_iff (hinit : (controlPlane self).Initial db)
    (hrun : (controlPlane self).Run db labels db') :
    ((grantsOf stageId labels).map (·.attempt)).Nodup ↔ Unretried stageId labels := by
  constructor
  · rintro hnodup before retry after rfl hretry
    by_contra hboth
    rw [not_or] at hboth
    obtain ⟨t, hbefore, hrest⟩ := hrun.split
    obtain ⟨u, hstep, hafter⟩ := hrest.uncons
    have ht : (controlPlane self).Reachable t := ⟨db, before, hinit, hbefore⟩
    have hkeys := reachable_keysNodup (ht.step hstep)
    have hfirst := (first_attempt hbefore (initial_keysNodup hinit)
      (attemptOf_initial hinit)).resolve_left fun h => hboth.1 h.1
    rcases retried_row hstep ht hretry with hzero | ⟨stage, hrow, hfinished⟩
    · have hsecond := (first_attempt hafter hkeys hzero).resolve_left fun h => hboth.2 h.1
      rw [← List.singleton_append, grantsOf_append, grantsOf_append, List.map_append,
        List.map_append] at hnodup
      exact List.disjoint_of_nodup_append hnodup hfirst (List.mem_append_right _ hsecond)
    · exact hboth.2 (run_finished hafter hkeys hrow hfinished).1
  · intro h
    exact (numbered_of_unretried hinit hrun h).1.nodup

end ParserServe
