import Mathlib.Algebra.Order.BigOperators.Group.List
import Mathlib.Algebra.Order.Field.Basic
import Mathlib.Tactic.Linarith
import ParserServe.Lifecycle.Consistency

/-! # Columns that agree

Times do not run backwards within a record, and the columns of a task go with its status.
Each move keeps this when its clock reading is not before the times already written.
-/

namespace ParserServe

open Foundation

/-! ## Times of a stage -/

/-- The times of a stage row, read at `clock` or later. -/
structure StageRecord.Timed (clock : Time) (s : StageRecord) : Prop where
  created : s.createdAt ≤ clock
  started : ∀ started ∈ s.startedAt, s.createdAt ≤ started ∧ started ≤ clock
  ordered : ∀ started ∈ s.startedAt, ∀ completed ∈ s.completedAt, started ≤ completed

variable {manual : Prop} {clock now : Time}

theorem StageRecord.Timed.mono {s : StageRecord} (h : s.Timed clock) (hle : clock ≤ now) :
    s.Timed now :=
  ⟨h.created.trans hle, fun t ht => ⟨(h.started t ht).1, (h.started t ht).2.trans hle⟩, h.ordered⟩

theorem Ending.timed {s s' : StageRecord} (h : Ending now s s') (ht : s.Timed now) :
    s'.Timed now := by
  obtain ⟨hcreated, hstarted, _⟩ := ht
  cases h with
  | finished | skipped | failed =>
      exact ⟨hcreated, hstarted, fun t ht c hc => by cases hc; exact (hstarted t ht).2⟩
  | requeued =>
      exact ⟨hcreated, by simp [StageRecord.requeue, StageRecord.clearLease],
        by simp [StageRecord.requeue, StageRecord.clearLease]⟩

theorem StageMove.timed {s s' : StageRecord} (h : StageMove manual now s s') (hs : s.Sound)
    (ht : s.Timed now) : s'.Timed now := by
  have hends : ∀ t ∈ s.startedAt, ∀ c ∈ some now, t ≤ c := by
    intro t hstart c hc
    cases hc
    exact (ht.started t hstart).2
  cases h with
  | renewed | progressed => exact ⟨ht.created, ht.started, ht.ordered⟩
  | started hleased =>
      have hopen : s.completedAt = none :=
        (hs.open (by simp [hleased, StageStatus.unfinished])).1
      refine ⟨ht.created, ?_, by simp [hopen]⟩
      intro t hstart
      cases hstart
      cases hcase : s.startedAt with
      | none => exact ⟨ht.created, le_refl _⟩
      | some t => exact ht.started t hcase
  | ended hend =>
      cases hend with
      | completed request _ _ _ _ hend => exact hend.timed ⟨ht.created, ht.started, ht.ordered⟩
      | expired hend => exact hend.timed ht
  | stopped =>
      unfold StageRecord.stop
      split
      · exact ⟨ht.created, ht.started, hends⟩
      · exact ht
  | cancelled =>
      unfold StageRecord.cancel
      split
      · exact ⟨ht.created, ht.started, hends⟩
      · exact ht
  | reset =>
      unfold StageRecord.reset
      split
      · exact ⟨ht.created, by simp, by simp⟩
      · exact ht
  | forgot uri =>
      unfold StageRecord.forgetResult
      split
      · exact ⟨ht.created, ht.started, ht.ordered⟩
      · exact ht

theorem StageMoves.timed {s s' : StageRecord} (h : StageMoves manual now s s') (hs : s.Sound)
    (ht : s.Timed now) : s'.Timed now := by
  induction h with
  | refl => exact ht
  | tail hmoves hmove ih => exact hmove.timed (StageMoves.sound hmoves hs) ih

theorem StageChange.timed {task : TaskRecord} {granted : Option LeaseGrant} {s s' : StageRecord}
    (h : StageChange manual now task granted s s') (hs : s.Sound) (ht : s.Timed now) :
    s'.Timed now := by
  cases h with
  | moved hmoves => exact hmoves.timed hs ht
  | granted grant hpending => exact ⟨ht.created, ht.started, ht.ordered⟩

/-! ## Columns of a task -/

/-- The status of a task and the columns that go with it. -/
structure TaskRecord.Dated (clock : Time) (task : TaskRecord) : Prop where
  completed : task.completedAt.isSome ↔ task.status.terminal
  error : task.error.isSome ↔ task.status = .failed
  result : task.resultUri.isSome → task.status = .succeeded
  running : task.status = .running → task.startedAt.isSome
  started : ∀ started ∈ task.startedAt, task.createdAt ≤ started ∧ started ≤ clock
  ordered : ∀ started ∈ task.startedAt, ∀ completed ∈ task.completedAt, started ≤ completed

/-- What the columns of a task record say about each other and about its stages. -/
structure TaskRecord.Sound (clock : Time) (task : TaskRecord) : Prop extends
    TaskRecord.Dated clock task where
  stages : ∀ stage ∈ task.stages, stage.Sound ∧ stage.Timed clock
  progress : 0 ≤ task.progressPercent ∧ task.progressPercent ≤ 100
  version : ∀ version ∈ task.pipelineVersion, 1 ≤ version
  pipeline : task.pipelineId = none ↔ task.pipelineVersion = none
  bound : task.stages ≠ [] → task.pipelineId ≠ none
  created : task.createdAt ≤ clock

theorem TaskRecord.Sound.mono {task : TaskRecord} (h : task.Sound clock) (hle : clock ≤ now) :
    task.Sound now :=
  { h with
    stages := fun stage hmem => ⟨(h.stages stage hmem).1, (h.stages stage hmem).2.mono hle⟩
    created := h.created.trans hle
    started := fun t ht => ⟨(h.started t ht).1, (h.started t ht).2.trans hle⟩ }

theorem TaskRecord.Sound.open {task : TaskRecord} (h : task.Sound clock)
    (hactive : task.status.active) :
    task.completedAt = none ∧ task.error = none ∧ task.resultUri = none := by
  have hcompleted := h.completed
  have herror := h.error
  have hresult := h.result
  cases hs : task.status <;> simp_all [TaskStatus.active, TaskStatus.terminal]

/-- An average of percentages is a percentage. -/
theorem average_percent {xs : List ℚ} (hne : xs ≠ []) (h : ∀ x ∈ xs, 0 ≤ x ∧ x ≤ 100) :
    0 ≤ xs.sum / xs.length ∧ xs.sum / xs.length ≤ 100 := by
  have hlen : (0 : ℚ) < xs.length := by exact_mod_cast List.length_pos_iff.mpr hne
  have hnonneg : 0 ≤ xs.sum := List.sum_nonneg fun x hx => (h x hx).1
  have hle : xs.sum ≤ xs.length * 100 := by
    have := List.sum_le_card_nsmul xs 100 fun x hx => (h x hx).2
    simpa using this
  constructor
  · positivity
  · rw [div_le_iff₀ hlen]
    linarith

theorem updateProgress_percent {task : TaskRecord}
    (h : ∀ stage ∈ task.stages, 0 ≤ stage.progressPercent ∧ stage.progressPercent ≤ 100)
    (now : Time) : 0 ≤ (task.updateProgress now).progressPercent ∧
      (task.updateProgress now).progressPercent ≤ 100 := by
  unfold TaskRecord.updateProgress
  dsimp only
  split
  · norm_num
  · next hne =>
      have hlength : (task.stages.length : ℚ) = (task.stages.map fun stage =>
        if stage.status.finished then 100 else stage.progressPercent).length := by simp
      rw [hlength]
      refine average_percent (by simpa using hne) ?_
      intro x hx
      obtain ⟨stage, hmem, rfl⟩ := List.mem_map.mp hx
      split
      · norm_num
      · exact h stage hmem

/-! ## Preservation -/

variable {task task' : TaskRecord} {granted : Option LeaseGrant} {payloads : List EventPayload}
  {db : Db}

theorem newTask_sound {request : CreateTaskRequest} {idempotencyKey : Option String}
    {allowUnpublished : Bool} {taskId : String} {metadata : Option SourceMetadata}
    (hvalid : validatePipeline db request.options allowUnpublished = .ok ()) :
    (newTask request idempotencyKey taskId metadata now).Sound now := by
  -- a pipeline is asked for with its version, and one with that version exists
  have hpipeline : (request.options.pipelineId = none ↔ request.options.pipelineVersion = none) ∧
      ∀ version ∈ request.options.pipelineVersion, 1 ≤ version := by
    unfold validatePipeline at hvalid
    cases hid : request.options.pipelineId with
    | none =>
        have hversion : request.options.pipelineVersion = none := by
          have := request.options.version_valid
          rw [hid] at this
          simpa using this
        simp [hversion]
    | some pipelineId =>
        simp only [hid, ensure_eq_ok, List.any_eq_true, Bool.and_eq_true, beq_iff_eq] at hvalid
        obtain ⟨record, _, ⟨_, hversion⟩, _⟩ := hvalid
        rw [← hversion]
        simpa using record.definition.version_valid
  constructor
  case version => exact hpipeline.2
  case pipeline => exact hpipeline.1
  case toDated => constructor <;> simp [newTask, TaskStatus.terminal]
  all_goals simp [newTask]

theorem Routed.sound {db : Db} (h : Routed now db task task' payloads) (hs : task.Sound now) :
    task'.Sound now := by
  obtain ⟨_, _, pipeline, stages, hplanned, _, _, rfl, _⟩ := h
  refine { hs with
    stages := ?_
    version := by simpa using pipeline.version_valid
    pipeline := by simp
    bound := by simp }
  intro stage hmem
  obtain ⟨definition, _, hp⟩ := planned_definition hplanned stage hmem
  exact ⟨hp.sound, hp.createdAt.le, by simp [hp.startedAt], by simp [hp.startedAt]⟩

/-- The stages of a moved task are sound again. -/
theorem TaskMove.stages_sound (h : TaskMove manual now task granted payloads task')
    (hkeys : task.KeysNodup) (hs : ∀ stage ∈ task.stages, stage.Sound ∧ stage.Timed now) :
    ∀ stage ∈ task'.stages, stage.Sound ∧ stage.Timed now := by
  obtain ⟨f, hf, hchange⟩ := h.stages hkeys
  intro stage hmem
  rw [hf] at hmem
  obtain ⟨stage₀, hmem₀, rfl⟩ := List.mem_map.mp hmem
  obtain ⟨hsound, htimed⟩ := hs stage₀ hmem₀
  exact ⟨(hchange stage₀ hmem₀).sound hsound, (hchange stage₀ hmem₀).timed hsound htimed⟩

/-- A task keeps its pipeline with its stages. -/
theorem TaskMove.bound (h : TaskMove manual now task granted payloads task') :
    task'.pipelineId = task.pipelineId ∧ task'.pipelineVersion = task.pipelineVersion ∧
      task'.createdAt = task.createdAt ∧ (task'.stages ≠ [] → task.stages ≠ []) := by
  have hsave : ∀ stage : StageRecord, (task.saveStage stage).stages ≠ [] → task.stages ≠ [] := by
    intro stage
    simp [TaskRecord.saveStage, replaceKey]
  cases h with
  | leased | renewed | started | progressed => exact ⟨rfl, rfl, rfl, hsave _⟩
  | ended _ _ hsettled =>
      cases hsettled with
      | failed => exact ⟨rfl, rfl, rfl, by simpa [TaskRecord.updateProgress] using hsave _⟩
      | succeeded | released | unsettled => exact ⟨rfl, rfl, rfl, hsave _⟩
  | cancelled | retried => exact ⟨rfl, rfl, rfl, by simp⟩

theorem Settled.dated {settled : TaskRecord} (h : Settled now task settled)
    (hstatus : task.status = .leased ∨ task.status = .running) (hdated : task.Dated now)
    (herror : ∀ stage ∈ task.stages, stage.status = .failed → stage.error.isSome) :
    settled.Dated now := by
  obtain ⟨hcompleted, hnoerror, hresult, hrunning, hstarted, hordered⟩ := hdated
  have hends : ∀ t ∈ task.startedAt, ∀ c ∈ some now, t ≤ c := by
    intro t ht c hc
    cases hc
    exact (hstarted t ht).2
  cases h with
  | failed hmem hfailed _ =>
      have hstage := herror _ hmem hfailed
      refine ⟨by simp [TaskStatus.terminal], by simpa using hstage, ?_, by simp, hstarted, hends⟩
      intro hsome
      have := hresult hsome
      rcases hstatus with h | h <;> simp [h] at this
  | succeeded =>
      refine ⟨by simp [TaskStatus.terminal], ?_, by simp, by simp, hstarted, hends⟩
      rcases hstatus with h | h <;> simpa [h] using hnoerror
  | released _ _ hleased =>
      refine ⟨?_, ?_, ?_, by simp, hstarted, hordered⟩
      · simpa [hleased, TaskStatus.terminal] using hcompleted
      · simpa [hleased] using hnoerror
      · simpa [hleased] using hresult
  | unsettled => exact ⟨hcompleted, hnoerror, hresult, hrunning, hstarted, hordered⟩

theorem TaskMove.dated (h : TaskMove manual now task granted payloads task')
    (hcons : task.Consistent)
    (hs : task.Sound now) : task'.Dated now := by
  obtain ⟨hcompleted, herror, hresult, hrunning, hstarted, hordered⟩ := hs.toDated
  cases h with
  | leased grant hmem hpending hactive =>
      obtain ⟨_, _, _⟩ := hs.open hactive
      by_cases hstatus : task.status = .pending
      · constructor <;> simp_all [TaskRecord.saveStage, TaskStatus.terminal]
      · constructor <;> simp_all [TaskRecord.saveStage]
  | renewed => exact ⟨hcompleted, herror, hresult, hrunning, hstarted, hordered⟩
  | started hmem hleased =>
      have hactive := hcons.agrees.of_active hmem (by simp [hleased, StageStatus.active])
      obtain ⟨hopen, hnoerror, hnoresult⟩ :=
        hs.open (by rcases hactive with h | h <;> simp [h, TaskStatus.active])
      by_cases hstatus : task.status = .leased
      · constructor
        case started =>
          intro t ht
          simp only [hstatus, if_true, Option.mem_some_iff] at ht
          subst ht
          cases hcase : task.startedAt with
          | none => exact ⟨hs.created, le_refl _⟩
          | some t => exact hstarted t hcase
        all_goals simp_all [TaskRecord.saveStage, TaskStatus.terminal]
      · constructor <;> simp_all [TaskRecord.saveStage]
  | progressed => exact ⟨hcompleted, herror, hresult, hrunning, hstarted, hordered⟩
  | @ended stage stage' settled hmem hend hsettled =>
      have hstatus := hcons.agrees.of_active hmem hend.active
      have hsound := hsettled.dated hstatus
        ⟨hcompleted, herror, hresult, hrunning, hstarted, hordered⟩ (by
          intro s hsmem hfailed
          have hssound : s.Sound := by
            rcases mem_saveStage hsmem with rfl | hsmem
            · exact hend.sound (hs.stages stage hmem).1
            · exact (hs.stages s hsmem).1
          exact hssound.error.mpr hfailed)
      exact ⟨hsound.completed, hsound.error, hsound.result, hsound.running, hsound.started,
        hsound.ordered⟩
  | cancelled _ hactive =>
      obtain ⟨_, hnoerror, hnoresult⟩ := hs.open hactive
      refine ⟨by simp [TaskStatus.terminal], by simp [hnoerror], by simp [hnoresult], by simp,
        hstarted, ?_⟩
      intro t ht c hc
      cases hc
      exact (hstarted t ht).2
  | retried => constructor <;> simp [TaskStatus.terminal]

theorem TaskMove.percent (h : TaskMove manual now task granted payloads task')
    (hs : task.Sound now) (hstages : ∀ stage ∈ task'.stages, stage.Sound ∧ stage.Timed now) :
    0 ≤ task'.progressPercent ∧ task'.progressPercent ≤ 100 := by
  cases h with
  | leased | renewed | started | cancelled => exact hs.progress
  | progressed => exact updateProgress_percent (fun s hmem => (hstages s hmem).1.progress) now
  | ended => exact updateProgress_percent (fun s hmem => (hstages s hmem).1.progress) now
  | retried => norm_num

theorem TaskMove.sound (h : TaskMove manual now task granted payloads task')
    (hkeys : task.KeysNodup)
    (hcons : task.Consistent) (hs : task.Sound now) : task'.Sound now := by
  obtain ⟨hpipeline, hversion, hcreated, hbound⟩ := h.bound
  have hstages := h.stages_sound hkeys hs.stages
  exact
    { h.dated hcons hs with
      stages := hstages
      progress := h.percent hs hstages
      version := hversion ▸ hs.version
      pipeline := by rw [hpipeline, hversion]; exact hs.pipeline
      bound := fun hne => by rw [hpipeline]; exact hs.bound (hbound hne)
      created := hcreated.le.trans hs.created }

end ParserServe
