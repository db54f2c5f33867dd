import ParserServe.Lifecycle.Invariants

/-! # A task and its stages

Three invariants of one task record: its stages are the plan of an accepted pipeline, the
task's status agrees with theirs, and a stage has begun only where its dependencies are
done.
-/

namespace ParserServe

open Foundation

/-! ## The plan -/

/-- What acceptance of the pipeline means for the stage rows. -/
structure PlanValid (stages : List StageRecord) : Prop where
  names_nodup : (stages.map (·.name)).Nodup
  known : ∀ stage ∈ stages, ∀ d ∈ stage.dependsOn, d ∈ stages.map (·.name)
  ranked : ∃ rank : String → Nat, ∀ stage ∈ stages, ∀ d ∈ stage.dependsOn,
    rank d < rank stage.name

theorem planned_names {now : Time} {definitions : List PipelineStageDefinition}
    {stages : List StageRecord} (h : List.Forall₂ (Planned now) definitions stages) :
    stages.map (·.name) = definitions.map (·.name) := by
  induction h with
  | nil => rfl
  | cons hplanned _ ih => rw [List.map_cons, List.map_cons, hplanned.name, ih]

theorem planned_definition {now : Time} {definitions : List PipelineStageDefinition}
    {stages : List StageRecord} (h : List.Forall₂ (Planned now) definitions stages) :
    ∀ stage ∈ stages, ∃ definition ∈ definitions, Planned now definition stage :=
  fun _ hmem => exists_of_forall₂_mem h hmem

theorem PlanValid.of_planned {now : Time} {definitions : List PipelineStageDefinition}
    {stages : List StageRecord} (hvalid : DagValid definitions)
    (h : List.Forall₂ (Planned now) definitions stages) : PlanValid stages := by
  have hnames := planned_names h
  obtain ⟨rank, hrank⟩ := hvalid.ranked
  refine ⟨hnames ▸ hvalid.names_nodup, ?_, rank, ?_⟩
  · intro stage hmem d hd
    obtain ⟨definition, hdefinition, hplanned⟩ := planned_definition h stage hmem
    rw [hnames]
    exact hvalid.known definition hdefinition d (hplanned.dependsOn ▸ hd)
  · intro stage hmem d hd
    obtain ⟨definition, hdefinition, hplanned⟩ := planned_definition h stage hmem
    rw [hplanned.name]
    exact hrank definition hdefinition d (hplanned.dependsOn ▸ hd)

theorem map_name_of_samePlan {stages : List StageRecord} {f : StageRecord → StageRecord}
    (hf : ∀ stage ∈ stages, SamePlan stage (f stage)) :
    (stages.map f).map (·.name) = stages.map (·.name) := by
  rw [List.map_map]
  exact List.map_congr_left fun stage hmem => (hf stage hmem).name

theorem PlanValid.map {stages : List StageRecord} (h : PlanValid stages)
    {f : StageRecord → StageRecord} (hf : ∀ stage ∈ stages, SamePlan stage (f stage)) :
    PlanValid (stages.map f) := by
  have hnames := map_name_of_samePlan hf
  obtain ⟨rank, hrank⟩ := h.ranked
  refine ⟨hnames ▸ h.names_nodup, ?_, rank, ?_⟩
  · intro stage hmem d hd
    obtain ⟨stage₀, hmem₀, rfl⟩ := List.mem_map.mp hmem
    rw [hnames]
    exact h.known stage₀ hmem₀ d ((hf stage₀ hmem₀).dependsOn ▸ hd)
  · intro stage hmem d hd
    obtain ⟨stage₀, hmem₀, rfl⟩ := List.mem_map.mp hmem
    rw [(hf stage₀ hmem₀).name]
    exact hrank stage₀ hmem₀ d ((hf stage₀ hmem₀).dependsOn ▸ hd)

theorem PlanValid.perm {stages stages' : List StageRecord} (h : PlanValid stages)
    (hperm : stages'.Perm stages) : PlanValid stages' := by
  obtain ⟨rank, hrank⟩ := h.ranked
  refine ⟨(hperm.map _).nodup_iff.mpr h.names_nodup, ?_, rank, ?_⟩
  · intro stage hmem d hd
    exact (hperm.map _).mem_iff.mpr (h.known stage (hperm.mem_iff.mp hmem) d hd)
  · intro stage hmem
    exact hrank stage (hperm.mem_iff.mp hmem)

/-! ## Dependency order -/

/-- With distinct names the lookup by name is about the one stage that has the name. -/
theorem dependenciesSatisfied_iff {task : TaskRecord}
    (hnames : (task.stages.map (·.name)).Nodup) {stage : StageRecord} :
    task.dependenciesSatisfied stage ↔ ∀ d ∈ stage.dependsOn,
      ∃ dependency ∈ task.stages, dependency.name = d ∧ dependency.status.finished := by
  unfold TaskRecord.dependenciesSatisfied
  rw [List.all_eq_true]
  refine forall₂_congr fun d _ => ?_
  constructor
  · intro h
    cases hfind : task.stages.find? (fun s => decide (s.name = d)) with
    | none => simp [hfind] at h
    | some dependency =>
        refine ⟨dependency, List.mem_of_find?_eq_some hfind,
          by simpa using List.find?_some hfind, ?_⟩
        simpa [hfind] using h
  · rintro ⟨dependency, hmem, rfl, hfinished⟩
    have hfind := find?_key_eq_some hnames hmem
    simp only [hfind, Option.map_some, Option.getD_some]
    exact hfinished

/-- A stage has begun only where its dependencies are done. -/
def TaskRecord.InOrder (task : TaskRecord) : Prop :=
  ∀ stage ∈ task.stages, stage.status.begun → task.dependenciesSatisfied stage

/-- Done stages stay done, so satisfied dependencies stay satisfied. -/
theorem dependenciesSatisfied_of_change {now : Time} {granted : Option LeaseGrant}
    {task task' : TaskRecord} {f : StageRecord → StageRecord}
    (hnames : (task.stages.map (·.name)).Nodup) (hstages : task'.stages = task.stages.map f)
    (hchange : ∀ stage ∈ task.stages, StageChange manual now task granted stage (f stage))
    {stage stage' : StageRecord} (hplan : SamePlan stage stage')
    (h : task.dependenciesSatisfied stage) : task'.dependenciesSatisfied stage' := by
  have hnames' : (task'.stages.map (·.name)).Nodup := by
    rw [hstages, map_name_of_samePlan fun stage hmem => (hchange stage hmem).samePlan]
    exact hnames
  rw [dependenciesSatisfied_iff hnames']
  rw [dependenciesSatisfied_iff hnames] at h
  rw [hplan.dependsOn]
  intro d hd
  obtain ⟨dependency, hmem, hname, hfinished⟩ := h d hd
  have hdep := hchange dependency hmem
  refine ⟨f dependency, hstages ▸ List.mem_map_of_mem hmem, hdep.samePlan.name.trans hname, ?_⟩
  rw [hdep.path.eq_of_finished hfinished]
  exact hfinished

theorem TaskRecord.InOrder.of_change {now : Time} {granted : Option LeaseGrant}
    {task task' : TaskRecord} {f : StageRecord → StageRecord} (horder : task.InOrder)
    (hnames : (task.stages.map (·.name)).Nodup) (hstages : task'.stages = task.stages.map f)
    (hchange : ∀ stage ∈ task.stages, StageChange manual now task granted stage (f stage)) :
    task'.InOrder := by
  intro stage' hmem' hbegun
  rw [hstages] at hmem'
  obtain ⟨stage, hmem, rfl⟩ := List.mem_map.mp hmem'
  have hstage := hchange stage hmem
  refine dependenciesSatisfied_of_change hnames hstages hchange hstage.samePlan ?_
  generalize f stage = stage' at hstage hbegun
  cases hstage with
  | moved hmoves _ => exact horder stage hmem (hmoves.begun hbegun)
  | granted _ _ hdeps _ => exact hdeps

/-! ## Status agreement -/

/-- The statuses of the stages that a status of the task allows. -/
def Agrees (stages : List StageRecord) : TaskStatus → Prop
  | .pending => stages = [] ∨
      ((∀ stage ∈ stages, stage.status = .pending ∨ stage.status.finished) ∧
        ∃ stage ∈ stages, stage.status = .pending)
  | .leased | .running =>
      (∀ stage ∈ stages, stage.status.unfinished ∨ stage.status.finished) ∧
        ∃ stage ∈ stages, stage.status.unfinished
  | .succeeded => stages ≠ [] ∧ ∀ stage ∈ stages, stage.status.finished
  | .failed => (∀ stage ∈ stages, stage.status.terminal) ∧
      ∃ stage ∈ stages, stage.status = .failed ∨ stage.status = .cancelled
  | .cancelled => stages = [] ∨ ((∀ stage ∈ stages, stage.status.terminal) ∧
      ∃ stage ∈ stages, stage.status = .failed ∨ stage.status = .cancelled)

variable {manual : Prop} {now : Time} {granted : Option LeaseGrant} {task task' : TaskRecord}
  {payloads : List EventPayload}

/-- Only the statuses of the stages matter. -/
theorem Agrees.congr {stages stages' : List StageRecord} {status : TaskStatus}
    (h : Agrees stages status)
    (hstatus : stages'.map (·.status) = stages.map (·.status)) : Agrees stages' status := by
  have hall : ∀ P : StageStatus → Prop,
      (∀ stage ∈ stages', P stage.status) ↔ ∀ stage ∈ stages, P stage.status := by
    intro P
    simpa using congrArg (fun statuses => ∀ status ∈ statuses, P status) hstatus
  have hex : ∀ P : StageStatus → Prop,
      (∃ stage ∈ stages', P stage.status) ↔ ∃ stage ∈ stages, P stage.status := by
    intro P
    simpa using congrArg (fun statuses => ∃ status ∈ statuses, P status) hstatus
  have hnil : stages' = [] ↔ stages = [] := by
    rw [← List.map_eq_nil_iff (f := StageRecord.status), hstatus, List.map_eq_nil_iff]
  cases status with
  | pending =>
      exact h.imp hnil.mpr fun h =>
        ⟨(hall fun a => a = .pending ∨ a.finished).mpr h.1, (hex fun a => a = .pending).mpr h.2⟩
  | leased | running =>
      exact ⟨(hall fun a => a.unfinished ∨ a.finished).mpr h.1, (hex fun a => a.unfinished).mpr h.2⟩
  | succeeded => exact ⟨fun hn => h.1 (hnil.mp hn), (hall fun a => a.finished).mpr h.2⟩
  | failed =>
      exact ⟨(hall fun a => a.terminal).mpr h.1,
        (hex fun a => a = .failed ∨ a = .cancelled).mpr h.2⟩
  | cancelled =>
      exact h.imp hnil.mpr fun h => ⟨(hall fun a => a.terminal).mpr h.1,
        (hex fun a => a = .failed ∨ a = .cancelled).mpr h.2⟩

theorem Agrees.perm {stages stages' : List StageRecord} {status : TaskStatus}
    (h : Agrees stages status) (hperm : stages'.Perm stages) : Agrees stages' status := by
  have hmem : ∀ stage, stage ∈ stages' ↔ stage ∈ stages := fun stage => hperm.mem_iff
  have hnil : stages' = [] ↔ stages = [] :=
    ⟨fun h => (h ▸ hperm).nil_eq.symm, fun h => (h ▸ hperm).eq_nil⟩
  cases status <;> simpa [Agrees, hmem, hnil] using h

/-- A held stage means that the task has been leased and has not ended. -/
theorem Agrees.of_active {stages : List StageRecord} {status : TaskStatus}
    (h : Agrees stages status) {stage : StageRecord} (hmem : stage ∈ stages)
    (hactive : stage.status.active) : status = .leased ∨ status = .running := by
  have hne : stages ≠ [] := List.ne_nil_of_mem hmem
  have hshape : ∀ a : StageStatus, a.active → a.finished = false ∧ a.terminal = false ∧
      a ≠ .pending := by
    intro a
    cases a <;> simp [StageStatus.active, StageStatus.finished, StageStatus.terminal]
  obtain ⟨hfinished, hterminal, hpending⟩ := hshape _ hactive
  cases status with
  | pending =>
      obtain ⟨hall, _⟩ := h.resolve_left hne
      have := hall stage hmem
      simp_all
  | leased => exact .inl rfl
  | running => exact .inr rfl
  | succeeded =>
      have := h.2 stage hmem
      simp_all
  | failed =>
      have := h.1 stage hmem
      simp_all
  | cancelled =>
      have := (h.resolve_left hne).1 stage hmem
      simp_all

/-- While the task has not ended, none of its stages failed or was cancelled. -/
theorem Agrees.open {stages : List StageRecord} {status : TaskStatus} (h : Agrees stages status)
    (hactive : status.active) (hne : stages ≠ []) :
    (∀ stage ∈ stages, stage.status.unfinished ∨ stage.status.finished) ∧
      ∃ stage ∈ stages, stage.status.unfinished := by
  cases status with
  | pending =>
      obtain ⟨hall, stage, hmem, hpending⟩ := h.resolve_left hne
      refine ⟨fun s hs => ?_, stage, hmem, by simp [hpending, StageStatus.unfinished]⟩
      exact (hall s hs).imp (fun hp => by simp [hp, StageStatus.unfinished]) id
  | leased | running => exact h
  | succeeded | failed | cancelled => simp [TaskStatus.active] at hactive

/-- Statuses after a write of one stage. -/
theorem mem_saveStage {stage stage' : StageRecord} (h : stage ∈ (task.saveStage stage').stages) :
    stage = stage' ∨ stage ∈ task.stages :=
  (mem_replaceKey_cases h).imp id And.left

theorem saveStage_mem {stage stage' : StageRecord} (hmem : stage ∈ task.stages)
    (hid : stage'.stageId = stage.stageId) : stage' ∈ (task.saveStage stage').stages :=
  mem_replaceKey_self hmem hid.symm

/-- A write that keeps the status of its stage keeps the statuses of all. -/
theorem saveStage_status (hkeys : task.KeysNodup) {stage stage' : StageRecord}
    (hmem : stage ∈ task.stages) (hid : stage'.stageId = stage.stageId)
    (hstatus : stage'.status = stage.status) :
    (task.saveStage stage').stages.map (·.status) = task.stages.map (·.status) := by
  obtain ⟨f, hf, hself, hother⟩ := saveStage_stages hkeys hmem hid
  rw [hf, List.map_map]
  refine List.map_congr_left fun s hs => ?_
  by_cases hne : s = stage
  · simp [hne, hself, hstatus]
  · simp [(hother s hs hne).1]

theorem stop_status (stage : StageRecord) (now : Time) :
    (stage.stop now).status = if stage.status.unfinished then .cancelled else stage.status := by
  unfold StageRecord.stop
  split <;> rfl

theorem cancel_status (stage : StageRecord) (now : Time) :
    (stage.cancel now).status = if stage.status.unfinished then .cancelled else stage.status := by
  unfold StageRecord.cancel
  split <;> rfl

theorem reset_status (stage : StageRecord) (now : Time) :
    (stage.reset now).status =
      if stage.status = .failed ∨ stage.status = .cancelled then .pending else stage.status := by
  unfold StageRecord.reset
  split <;> rfl

/-- Reconciliation restores the agreement that the end of a stage breaks. -/
theorem Settled.agrees {settled : TaskRecord} (h : Settled now task settled)
    (hstatus : task.status = .leased ∨ task.status = .running)
    (hall : ∀ stage ∈ task.stages, stage.status.unfinished ∨ stage.status.finished ∨
      stage.status = .failed)
    (hne : task.stages ≠ []) : Agrees settled.stages settled.status := by
  have hnotAll : ¬ (task.stages ≠ [] ∧ ∀ stage ∈ task.stages, stage.status.finished) →
      ∃ stage ∈ task.stages, ¬ stage.status.finished := by
    intro h
    simpa [hne] using h
  cases h with
  | @failed failed hmem hfailed _ =>
      refine ⟨?_, failed.stop now, List.mem_map_of_mem hmem, ?_⟩
      · intro stage hstage
        obtain ⟨stage₀, hmem₀, rfl⟩ := List.mem_map.mp hstage
        rw [stop_status]
        have := hall stage₀ hmem₀
        cases hs : stage₀.status <;> simp_all [StageStatus.unfinished, StageStatus.terminal]
      · simp [stop_status, hfailed, StageStatus.unfinished]
  | succeeded hne hfinished _ => exact ⟨hne, hfinished⟩
  | released hrest hnot _ =>
      obtain ⟨stage, hmem, hopen⟩ := hnotAll hnot
      exact .inr ⟨hrest, stage, hmem, (hrest stage hmem).resolve_right hopen⟩
  | unsettled hnone hnot _ =>
      have hopen : ∀ stage ∈ task.stages, stage.status.unfinished ∨ stage.status.finished := by
        intro stage hmem
        exact (hall stage hmem).imp id fun h => h.resolve_right (hnone stage hmem)
      obtain ⟨stage, hmem, hopenStage⟩ := hnotAll hnot
      have hagrees : Agrees task.stages .leased :=
        ⟨hopen, stage, hmem, (hopen stage hmem).resolve_right hopenStage⟩
      rcases hstatus with hstatus | hstatus <;> rw [hstatus] <;> exact hagrees

theorem TaskMove.agrees (h : TaskMove manual now task granted payloads task')
    (hkeys : task.KeysNodup)
    (hagrees : Agrees task.stages task.status) : Agrees task'.stages task'.status := by
  cases h with
  | @leased stage grant hmem hpending hactive _ =>
      have hopen := hagrees.open hactive (List.ne_nil_of_mem hmem)
      have hleased : Agrees (task.saveStage (stage.grant grant now)).stages .leased := by
        refine ⟨fun s hs => ?_, stage.grant grant now, saveStage_mem hmem rfl, rfl⟩
        rcases mem_saveStage hs with rfl | hs
        · exact .inl rfl
        · exact hopen.1 s hs
      show Agrees _ (if task.status = .pending then .leased else task.status)
      split
      · exact hleased
      · cases hs : task.status <;> simp_all [TaskStatus.active]
        exact hleased
  | renewed expiresAt hmem hactive => exact hagrees.congr (saveStage_status hkeys hmem rfl rfl)
  | @started stage hmem hleased =>
      have hstatus := hagrees.of_active hmem (by simp [hleased, StageStatus.active])
      have hopen := hagrees.open (by rcases hstatus with h | h <;> simp [h, TaskStatus.active])
        (List.ne_nil_of_mem hmem)
      show Agrees _ (if task.status = .leased then .running else task.status)
      have hrunning : Agrees (task.saveStage { stage with
          status := .running
          startedAt := some (stage.startedAt.getD now)
          updatedAt := now }).stages .running := by
        refine ⟨fun s hs => ?_, _, saveStage_mem hmem rfl, rfl⟩
        rcases mem_saveStage hs with rfl | hs
        · exact .inl rfl
        · exact hopen.1 s hs
      rcases hstatus with hstatus | hstatus <;> simpa [hstatus] using hrunning
  | progressed percent total hmem hrunning =>
      exact hagrees.congr (saveStage_status hkeys hmem rfl rfl)
  | @ended stage stage' settled hmem hend hsettled =>
      have hstatus := hagrees.of_active hmem hend.active
      have hopen := hagrees.open (by rcases hstatus with h | h <;> simp [h, TaskStatus.active])
        (List.ne_nil_of_mem hmem)
      refine hsettled.agrees hstatus ?_ (List.ne_nil_of_mem (saveStage_mem hmem
        hend.samePlan.stageId))
      intro s hs
      rcases mem_saveStage hs with rfl | hs
      · rcases hend.status with h | h | h
        · exact .inl (by simp [h, StageStatus.unfinished])
        · exact .inr (.inl h)
        · exact .inr (.inr h)
      · exact (hopen.1 s hs).imp id .inl
  | cancelled _ hactive =>
      by_cases hne : task.stages = []
      · exact .inl (by simp [hne])
      · obtain ⟨hall, stage, hmem, hunfinished⟩ := hagrees.open hactive hne
        refine .inr ⟨?_, stage.cancel now, List.mem_map_of_mem hmem, ?_⟩
        · intro s hs
          obtain ⟨s₀, hs₀, rfl⟩ := List.mem_map.mp hs
          rw [cancel_status]
          have := hall s₀ hs₀
          cases hs : s₀.status <;> simp_all [StageStatus.unfinished, StageStatus.terminal,
            StageStatus.finished]
        · simp [cancel_status, hunfinished]
  | retried _ hended =>
      have hshape : task.stages = [] ∨ ((∀ stage ∈ task.stages, stage.status.terminal) ∧
          ∃ stage ∈ task.stages, stage.status = .failed ∨ stage.status = .cancelled) := by
        rcases hended with hs | hs <;> rw [hs] at hagrees
        · exact .inr hagrees
        · exact hagrees
      refine hshape.imp (fun h => by simp [h]) ?_
      rintro ⟨hall, stage, hmem, hstage⟩
      refine ⟨?_, stage.reset now, List.mem_map_of_mem hmem, by rw [reset_status, if_pos hstage]⟩
      intro s hs
      obtain ⟨s₀, hs₀, rfl⟩ := List.mem_map.mp hs
      rw [reset_status]
      have := hall s₀ hs₀
      cases hs : s₀.status <;> simp_all [StageStatus.terminal, StageStatus.finished]

/-! ## The joint invariant -/

/-- The joint invariant of a task and its stages. -/
structure TaskRecord.Consistent (task : TaskRecord) : Prop where
  plan : PlanValid task.stages
  order : task.InOrder
  agrees : Agrees task.stages task.status

theorem planValid_nil : PlanValid [] := ⟨List.nodup_nil, by simp, fun _ => 0, by simp⟩

theorem consistent_invariant : TaskInvariant TaskRecord.Consistent where
  created _ _ _ _ _ := ⟨planValid_nil, by simp [TaskRecord.InOrder, newTask], .inl rfl⟩
  routed := by
    rintro now db task task' payloads _ _ ⟨hstatus, _, pipeline, stages, hplanned, _, _, rfl, _⟩
    have hdefinition := planned_definition hplanned
    have hpending : ∀ stage ∈ stages, stage.status = .pending := by
      intro stage hmem
      obtain ⟨_, _, hp⟩ := hdefinition stage hmem
      exact hp.status
    refine ⟨.of_planned (validateDag_sound pipeline.dag_valid) hplanned, ?_, ?_⟩
    · intro stage hmem hbegun
      simp [hpending stage hmem, StageStatus.begun] at hbegun
    · show Agrees stages task.status
      rw [hstatus]
      cases stages with
      | nil => exact .inl rfl
      | cons stage rest =>
          exact .inr ⟨fun s hs => .inl (hpending s hs), stage, List.mem_cons_self,
            hpending stage List.mem_cons_self⟩
  moved := by
    intro manual now task granted payloads task' hcons hkeys hmove
    obtain ⟨f, hf, hchange⟩ := hmove.stages hkeys
    refine ⟨?_, hcons.order.of_change hcons.plan.names_nodup hf hchange,
      hmove.agrees hkeys hcons.agrees⟩
    rw [hf]
    exact hcons.plan.map fun stage hmem => (hchange stage hmem).samePlan
  reordered := by
    intro task stages hcons hperm
    have hplan : PlanValid stages := hcons.plan.perm hperm
    refine ⟨hplan, ?_, hcons.agrees.perm hperm⟩
    intro stage hmem hbegun
    have h := hcons.order stage (hperm.mem_iff.mp hmem) hbegun
    rw [dependenciesSatisfied_iff hcons.plan.names_nodup] at h
    rw [dependenciesSatisfied_iff hplan.names_nodup]
    intro d hd
    obtain ⟨dependency, hdep, hrest⟩ := h d hd
    exact ⟨dependency, hperm.mem_iff.mpr hdep, hrest⟩

theorem reachable_consistent {self : StageScheduler} {db : Db}
    (h : (controlPlane self).Reachable db) : ∀ task ∈ db.tasks, task.Consistent :=
  consistent_invariant.reachable h

end ParserServe
