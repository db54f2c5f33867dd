import Mathlib.Data.List.Infix
import ParserServe.Lifecycle.Attempts

/-! # What a run may use up

The leases of a stage are counted against its plan: between two manual retries it is leased at most
`maximum_attempts` times, and it is given up only after the last of these.  The leases that a worker
holds at a time are counted against the concurrency it has registered.
-/

namespace ParserServe

open Foundation

variable {self : StageScheduler} {manual : Prop} {now : Time} {db db' : Db}
  {stage : StageRecord} {stageId workerId : String} {granted : Option LeaseGrant} {label : Label}
  {labels : List Label} {bound : Nat}

/-! ## Attempts -/

/-- The manual retries of the task that holds the stage. -/
def retriesOf (stageId : String) (labels : List Label) : Nat :=
  labels.countP fun label => label.retriedStages.contains stageId

/-- The attempts its plan allows a stage; none while there is no row. -/
def Db.maximumOf (db : Db) (stageId : String) : Nat :=
  (db.stage? stageId).elim 0 (·.maximumAttempts)

theorem retriesOf_snoc (stageId : String) (labels : List Label) (label : Label) :
    retriesOf stageId (labels ++ [label]) =
      retriesOf stageId labels + if stageId ∈ label.retriedStages then 1 else 0 := by
  by_cases h : stageId ∈ label.retriedStages <;> simp [retriesOf, h]

theorem DbChange.maximumOf_le (h : DbChange manual now db granted db') (hkeys : db.KeysNodup) :
    db.maximumOf stageId ≤ db'.maximumOf stageId := by
  unfold Db.maximumOf
  rcases h.row hkeys stageId with ⟨hnone, _⟩ | ⟨_, _, s, s', hrow, hrow', _, hchange⟩
  · rw [hnone]
    exact Nat.zero_le _
  · rw [hrow, hrow']
    exact hchange.samePlan.maximumAttempts.ge

theorem maximumOf_congr (h : db'.stage? stageId = db.stage? stageId) :
    db'.maximumOf stageId = db.maximumOf stageId := by
  rw [Db.maximumOf, h, Db.maximumOf]

theorem ControlStep.maximumOf_le (h : ControlStep self db label db') (hkeys : db.KeysNodup) :
    db.maximumOf stageId ≤ db'.maximumOf stageId := by
  refine h.keeps (I := fun db₁ => db.maximumOf stageId ≤ db₁.maximumOf stageId)
    (fun _ _ _ _ _ hkeys hle hchange => hle.trans (hchange.maximumOf_le hkeys)) ?_ ?_ hkeys le_rfl
  · intro db₁ db₂ hle hadmin
    refine hle.trans (maximumOf_congr ?_).ge
    rw [Db.stage?, Db.stages, hadmin.tasks]
    rfl
  · intro db₁ task stages hkeys₁ hle hmem hperm
    refine hle.trans (maximumOf_congr ?_).ge
    exact Db.stage?_congr (fun _ => (reordered_stages hkeys₁ hmem hperm).mem_iff)
      (KeysNodup.reordered hkeys₁ hmem hperm)

theorem attemptOf_le_maximumOf (h : (controlPlane self).Reachable db) (stageId : String) :
    db.attemptOf stageId ≤ db.maximumOf stageId := by
  unfold Db.attemptOf Db.maximumOf
  cases hrow : db.stage? stageId with
  | none => exact le_rfl
  | some s => exact (reachable_stage_sound h (Db.stage?_mem hrow).1).attempts.2

/-- The attempts since the last retry are the first ones, in order, and those before it were within
the plan. -/
structure BudgetHistory (stageId : String) (labels : List Label) (db : Db) : Prop where
  numbered : List.range' 1 (db.attemptOf stageId) <:+ (grantsOf stageId labels).map (·.attempt)
  budget : (grantsOf stageId labels).length ≤
    db.maximumOf stageId * retriesOf stageId labels + db.attemptOf stageId

theorem BudgetHistory.step (h : BudgetHistory stageId labels db)
    (hdb : (controlPlane self).Reachable db) (hstep : ControlStep self db label db') :
    BudgetHistory stageId (labels ++ [label]) db' := by
  obtain ⟨⟨earlier, hnumbered⟩, hbudget⟩ := h
  have hkeys := reachable_keysNodup hdb
  have hmaximum : db.maximumOf stageId ≤ db'.maximumOf stageId := hstep.maximumOf_le hkeys
  have hattempt := attemptOf_le_maximumOf hdb stageId
  obtain ⟨hnew, hcounter⟩ := hstep.attempts hkeys stageId
  rw [NumberedFrom] at hnew
  have hscaled := Nat.mul_le_mul_right (retriesOf stageId labels) hmaximum
  rcases hcounter with hadvanced | ⟨hretry, hnone, hzero⟩
  · constructor
    · refine ⟨earlier, ?_⟩
      rw [grantsOf_append, grantsOf_singleton, List.map_append, ← hnumbered, hnew, hadvanced,
        List.append_assoc, Nat.add_comm _ 1, List.range'_append_1]
    · have hmore : retriesOf stageId labels ≤ retriesOf stageId (labels ++ [label]) := by
        rw [retriesOf_snoc]
        exact Nat.le_add_right _ _
      have hproduct := Nat.mul_le_mul_left (db'.maximumOf stageId) hmore
      rw [grantsOf_append, grantsOf_singleton, List.length_append, hadvanced]
      omega
  · constructor
    · rw [hzero]
      exact List.nil_suffix
    · rw [retriesOf_snoc, if_pos hretry, grantsOf_append, grantsOf_singleton, hnone, Nat.mul_add]
      simp only [leasesOf, List.filter_nil, List.append_nil]
      omega

theorem run_budget (hinit : (controlPlane self).Initial db)
    (hrun : (controlPlane self).Run db labels db') : BudgetHistory stageId labels db' := by
  induction hrun with
  | nil =>
      constructor
      · rw [attemptOf_initial hinit]
        exact List.nil_suffix
      · exact Nat.zero_le _
  | snoc hrun hstep ih => exact ih.step ⟨_, _, hinit, hrun⟩ hstep

/-! ## Giving up -/

/-- A stage that was given up has used its last attempt. -/
def StageRecord.Spent (stage : StageRecord) : Prop :=
  stage.status = .failed ∨ stage.status = .skipped → stage.attempt = stage.maximumAttempts

theorem spent_of_status (status : StageStatus) (h : stage.status = status)
    (hgone : status ≠ .failed ∧ status ≠ .skipped) : stage.Spent := by
  subst h
  rintro (hfailed | hskipped)
  · exact absurd hfailed hgone.1
  · exact absurd hskipped hgone.2

theorem Ending.spent {s s' : StageRecord} (h : Ending now s s')
    (hle : s.attempt ≤ s.maximumAttempts) : s'.Spent := by
  cases h with
  | finished => exact spent_of_status .succeeded rfl (by decide)
  | requeued => exact spent_of_status .pending rfl (by decide)
  | skipped _ hused | failed _ _ hused => exact fun _ => le_antisymm hle (not_lt.mp hused)

theorem StageMove.spent {s s' : StageRecord} (h : StageMove manual now s s') (hs : s.Sound)
    (hspent : s.Spent) : s'.Spent := by
  cases h with
  | renewed | progressed => exact hspent
  | started => exact spent_of_status .running rfl (by decide)
  | ended hend =>
      cases hend with
      | completed _ _ _ _ _ hend => exact hend.spent hs.attempts.2
      | expired hend => exact hend.spent hs.attempts.2
  | stopped =>
      unfold StageRecord.stop
      split
      · exact spent_of_status .cancelled rfl (by decide)
      · exact hspent
  | cancelled =>
      unfold StageRecord.cancel
      split
      · exact spent_of_status .cancelled rfl (by decide)
      · exact hspent
  | reset =>
      unfold StageRecord.reset
      split
      · exact spent_of_status .pending rfl (by decide)
      · exact hspent
  | forgot =>
      unfold StageRecord.forgetResult
      split <;> exact hspent

theorem StageMoves.spent {s s' : StageRecord} (h : StageMoves manual now s s') (hs : s.Sound)
    (hspent : s.Spent) : s'.Spent := by
  induction h with
  | refl => exact hspent
  | tail hmoves hmove ih => exact hmove.spent (StageMoves.sound hmoves hs) ih

theorem StageChange.spent {task : TaskRecord} {s s' : StageRecord}
    (h : StageChange manual now task granted s s') (hs : s.Sound) (hspent : s.Spent) :
    s'.Spent := by
  cases h with
  | moved hmoves _ => exact hmoves.spent hs hspent
  | granted => exact spent_of_status .leased rfl (by decide)

theorem spentStages_invariant :
    TaskInvariant fun task => ∀ stage ∈ task.stages, stage.Sound ∧ stage.Spent where
  created _ _ _ _ _ := by simp [newTask]
  routed := by
    rintro now db task task' payloads _ _ ⟨_, _, pipeline, stages, hplanned, _, _, rfl, _⟩ stage
      hmem
    obtain ⟨_, _, hp⟩ := planned_definition hplanned stage hmem
    exact ⟨hp.sound, spent_of_status .pending hp.status (by decide)⟩
  moved := by
    intro manual now task granted payloads task' hs hkeys hmove stage hmem
    obtain ⟨f, hf, hchange⟩ := hmove.stages hkeys
    rw [hf] at hmem
    obtain ⟨stage₀, hmem₀, rfl⟩ := List.mem_map.mp hmem
    obtain ⟨hsound, hspent⟩ := hs stage₀ hmem₀
    exact ⟨(hchange stage₀ hmem₀).sound hsound, (hchange stage₀ hmem₀).spent hsound hspent⟩
  reordered hs hperm stage hmem := hs stage (hperm.mem_iff.mp hmem)

/-- In every run a stage is leased at most `maximum_attempts` times for its first round and that
often again for each manual retry of its task; its present round has taken the attempts one, two
and so on, and it is failed or skipped only when the last of these is used. -/
theorem attempts_within_budget (hinit : (controlPlane self).Initial db)
    (hrun : (controlPlane self).Run db labels db') (hstage : stage ∈ db'.stages) :
    (grantsOf stage.stageId labels).length ≤
        stage.maximumAttempts * (retriesOf stage.stageId labels + 1) ∧
      List.range' 1 stage.attempt <:+ (grantsOf stage.stageId labels).map (·.attempt) ∧
      stage.Spent := by
  have hdb' : (controlPlane self).Reachable db' := ⟨db, labels, hinit, hrun⟩
  have hrow := Db.stage?_of_mem (reachable_keysNodup hdb') hstage
  have hattempt : db'.attemptOf stage.stageId = stage.attempt := by rw [Db.attemptOf, hrow]; rfl
  have hmaximum : db'.maximumOf stage.stageId = stage.maximumAttempts := by
    rw [Db.maximumOf, hrow]
    rfl
  obtain ⟨hnumbered, hbudget⟩ : BudgetHistory stage.stageId labels db' := run_budget hinit hrun
  rw [hattempt] at hnumbered hbudget
  rw [hmaximum] at hbudget
  obtain ⟨task, htask, hmem⟩ := Db.mem_stages.mp hstage
  obtain ⟨hsound, hspent⟩ := spentStages_invariant.reachable hdb' task htask stage hmem
  refine ⟨?_, hnumbered, hspent⟩
  rw [Nat.mul_add, Nat.mul_one]
  exact hbudget.trans (Nat.add_le_add_left hsound.attempts.2 _)

/-- The task is cancelled and retried by hand, and its first stage leased again. -/
def releasedScript : List Operation :=
  leaseScript ++
    [.cancel "task" 3, .retry "task" 4,
      .lease { workerId := "worker", availableSlots := 30 }
        ["stage-layout", "stage-tables", "stage-merge"] (fun _ => "token-again") 5]

theorem attempts_within_budget_released :
    let labels := scriptLabels sampleScheduler sampleDb releasedScript
    ∃ stage ∈ (afterScript sampleScheduler sampleDb releasedScript).stages,
      (grantsOf stage.stageId labels).map (·.attempt) = [1, 1] ∧
        (grantsOf stage.stageId labels).length ≤
          stage.maximumAttempts * (retriesOf stage.stageId labels + 1) ∧
        List.range' 1 stage.attempt <:+ (grantsOf stage.stageId labels).map (·.attempt) ∧
        stage.Spent := by
  intro labels
  obtain ⟨stage, hstage, htwice⟩ : ∃ stage ∈
      (afterScript sampleScheduler sampleDb releasedScript).stages,
        (grantsOf stage.stageId labels).map (·.attempt) = [1, 1] := by decide +kernel
  have hrun : (controlPlane sampleScheduler).Run sampleDb labels
      (afterScript sampleScheduler sampleDb releasedScript) := afterScript_run (by decide +kernel)
  exact ⟨stage, hstage, htwice, attempts_within_budget ⟨rfl, rfl⟩ hrun hstage⟩

/-! ## Concurrency -/

/-- Whatever rows the worker has, none allows more than `bound` stages at a time. -/
def Db.Allows (db : Db) (workerId : String) (bound : Nat) : Prop :=
  ∀ worker ∈ db.workers, worker.workerId = workerId → worker.maximumConcurrency ≤ bound

instance (db : Db) (workerId : String) (bound : Nat) : Decidable (db.Allows workerId bound) :=
  inferInstanceAs (Decidable (∀ worker ∈ db.workers, _))

/-- The stages whose present lease belongs to the worker. -/
def Db.heldStages (db : Db) (workerId : String) : List String :=
  (db.stages.filter fun stage =>
    stage.leaseTokenDigest.isSome ∧ stage.workerId = some workerId).map (·.stageId)

theorem mem_heldStages : stageId ∈ db.heldStages workerId ↔ ∃ stage ∈ db.stages,
    stage.leaseTokenDigest.isSome ∧ stage.workerId = some workerId ∧ stage.stageId = stageId := by
  simp [Db.heldStages, and_assoc]

theorem heldStages_nodup (hkeys : db.KeysNodup) : (db.heldStages workerId).Nodup :=
  hkeys.stages.sublist (List.filter_sublist.map _)

/-- The scheduler counts the leases of a worker by the status of its stages. -/
theorem length_heldStages (h : (controlPlane self).Reachable db) :
    (db.heldStages workerId).length = db.activeStageCount workerId := by
  rw [Db.heldStages, List.length_map, Db.activeStageCount]
  refine congrArg List.length (List.filter_congr fun stage hstage => ?_)
  rw [decide_eq_decide, (reachable_stage_sound h hstage).lease, and_comm]

theorem DbChange.heldStages_subset (h : DbChange manual now db granted db') (hkeys : db.KeysNodup)
    (hother : ∀ grant ∈ granted, grant.workerId ≠ workerId) :
    db'.heldStages workerId ⊆ db.heldStages workerId := by
  intro stageId hmem
  obtain ⟨s', hrow', hlease, hworker, rfl⟩ := mem_heldStages.mp hmem
  obtain ⟨digest, hdigest⟩ := Option.isSome_iff_exists.mp hlease
  rcases h.stage_cases hkeys s' hrow' with ⟨hnone, _⟩ | ⟨task, htask, s, hs, hchange⟩
  · rw [hnone] at hdigest
    cases hdigest
  · have hid := hchange.samePlan.stageId
    cases hchange with
    | moved hmoves _ =>
        obtain ⟨hkept, hsame⟩ := hmoves.lease hdigest
        exact mem_heldStages.mpr ⟨s, Db.mem_stages.mpr ⟨task, htask, hs⟩,
          Option.isSome_iff_exists.mpr ⟨digest, hkept⟩, hsame ▸ hworker, hid.symm⟩
    | granted grant _ _ hgranted =>
        exact absurd (Option.some.inj hworker) (hother _ (Option.mem_def.mpr hgranted))

theorem Changes.heldStages_subset {grants : List LeaseGrant} (h : Changes manual now db grants db')
    (hkeys : db.KeysNodup) (hother : ∀ grant ∈ grants, grant.workerId ≠ workerId) :
    db'.heldStages workerId ⊆ db.heldStages workerId := by
  obtain ⟨labels, hrun, rfl⟩ := h
  have hboth : db'.KeysNodup ∧ db'.heldStages workerId ⊆ db.heldStages workerId := by
    induction hrun with
    | nil => exact ⟨hkeys, List.Subset.refl _⟩
    | @snoc _ _ labels granted _ hstep ih =>
        rw [List.reduceOption_append] at hother
        obtain ⟨hkeys₁, hsubset⟩ := ih fun grant hgrant =>
          hother grant (List.mem_append_left _ hgrant)
        refine ⟨DbChange.keysNodup hstep hkeys₁, List.Subset.trans ?_ hsubset⟩
        refine DbChange.heldStages_subset hstep hkeys₁ fun grant hgrant => ?_
        apply hother grant
        apply List.mem_append_right
        rw [Option.mem_def.mp hgrant]
        exact List.mem_cons_self
  exact hboth.2

/-- A lease request of the worker itself keeps within its row; no other step gives it a stage. -/
theorem ControlStep.activeStageCount_le (h : ControlStep self db label db')
    (hdb : (controlPlane self).Reachable db) (hallows : db.Allows workerId bound) :
    db'.activeStageCount workerId ≤ max (db.activeStageCount workerId) bound := by
  have hkeys := reachable_keysNodup hdb
  have hdb' : (controlPlane self).Reachable db' := hdb.step h
  have hfewer : db'.heldStages workerId ⊆ db.heldStages workerId →
      db'.activeStageCount workerId ≤ max (db.activeStageCount workerId) bound := by
    intro hsubset
    rw [← length_heldStages hdb', ← length_heldStages hdb]
    have hnodup : (db'.heldStages workerId).Nodup := heldStages_nodup (reachable_keysNodup hdb')
    exact (List.subperm_of_subset hnodup hsubset).length_le.trans (Nat.le_max_left _ _)
  cases h with
  | raised => exact Nat.le_max_left _ _
  | administered hadmin =>
      apply hfewer
      rw [Db.heldStages, Db.stages, hadmin.tasks]
      exact List.Subset.refl _
  | reordered hmem hperm =>
      apply hfewer
      intro stageId hheld
      obtain ⟨stage, hstage, hrest⟩ := mem_heldStages.mp hheld
      exact mem_heldStages.mpr ⟨stage, (reordered_stages hkeys hmem hperm).mem_iff.mp hstage, hrest⟩
  | returned hanswerable hexec =>
      rename_i operation response
      have hchanges := exec_changes hkeys hanswerable hexec
      cases operation with
      | lease request rows tokens now =>
          by_cases hsame : request.workerId = workerId
          · subst hsame
            obtain ⟨⟨db₁, leases⟩, hlease, heq⟩ := bind_eq_ok.mp hexec
            cases heq
            obtain ⟨worker, hworker, hid, _, _, hcount⟩ := lease_placed hkeys hlease
            have hlimit := hallows worker hworker hid
            omega
          · apply hfewer
            apply hchanges.heldStages_subset hkeys
            obtain ⟨⟨db₁, leases⟩, _, heq⟩ := bind_eq_ok.mp hexec
            cases heq
            intro grant hgrant
            obtain ⟨lease, _, rfl⟩ := List.mem_map.mp hgrant
            exact hsame
      | create | route | renew | start | progress | complete | authorizeArtifactUpload
        | requeueExpired | cancel | retry =>
          exact hfewer (hchanges.heldStages_subset hkeys fun _ hgrant => by cases hgrant)

/-- A worker is never given more stages at a time than it allows: as long as its registrations have
allowed at most `bound`, it has held at most that many leases. -/
theorem worker_within_concurrency (hinit : (controlPlane self).Initial db)
    (hallows : db.Allows workerId bound)
    (hrun : ((controlPlane self).through (·.Allows workerId bound)).Run db labels db') :
    db'.activeStageCount workerId ≤ bound := by
  have hempty : db.activeStageCount workerId = 0 := by
    simp [Db.activeStageCount, Db.stages, hinit.1]
  have hboth : (controlPlane self).Reachable db' ∧ db'.Allows workerId bound ∧
      db'.activeStageCount workerId ≤ bound := by
    have hstart : (controlPlane self).Reachable db := ⟨db, [], hinit, .nil db⟩
    refine hrun.keeps (I := fun t => (controlPlane self).Reachable t ∧ t.Allows workerId bound ∧
        t.activeStageCount workerId ≤ bound) (fun t label u ht hstep => ?_)
      ⟨hstart, hallows, hempty.trans_le (Nat.zero_le _)⟩
    have hcount := ControlStep.activeStageCount_le hstep.1 ht.1 ht.2.1
    exact ⟨ht.1.step hstep.1, hstep.2, hcount.trans (max_le ht.2.2 le_rfl)⟩
  exact hboth.2.2

theorem runScript_through {P : Db → Prop} {operations : List Operation}
    (h : runScript self db operations = some db')
    (hvisited : ∀ before ∈ operations.inits, ∀ t ∈ runScript self db before, P t) :
    ((controlPlane self).through P).Run db (scriptLabels self db operations) db' := by
  induction operations generalizing db with
  | nil =>
      cases h
      exact .nil _
  | cons operation rest ih =>
      rw [runScript] at h
      split at h
      · next hanswered =>
          rw [scriptLabels]
          split at h
          · cases h
          · next db₁ response hexec =>
              have hnext : ∀ before, runScript self db (operation :: before) =
                  runScript self db₁ before := fun before => by
                rw [runScript, if_pos hanswered, hexec]
              have hstep : ((controlPlane self).through P).Step db (.returned operation response)
                  db₁ := by
                refine ⟨.returned (answerable_of_answeredInOrder hanswered) hexec, ?_⟩
                exact hvisited [operation] ((List.mem_inits _ _).mpr ⟨rest, rfl⟩) db₁ (hnext [])
              refine (System.Run.single hstep).trans (ih h fun before hbefore t ht => ?_)
              exact hvisited (operation :: before) (by simpa using hbefore) t (hnext before ▸ ht)
      · cases h

theorem worker_within_concurrency_leased :
    let db := afterScript sampleScheduler sampleDb leaseScript
    db.activeStageCount "worker" = 2 ∧ db.activeStageCount "worker" ≤ 4 := by
  intro db
  refine ⟨by decide +kernel, ?_⟩
  have hscript : runScript sampleScheduler sampleDb leaseScript = some db := by
    have hsome : (runScript sampleScheduler sampleDb leaseScript).isSome := by decide +kernel
    obtain ⟨db', hdb'⟩ := Option.isSome_iff_exists.mp hsome
    simp only [db, afterScript, hdb', Option.getD_some]
  exact worker_within_concurrency ⟨rfl, rfl⟩ (by decide)
    (runScript_through hscript (by decide +kernel))

end ParserServe
