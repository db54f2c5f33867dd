import Mathlib.Data.List.MinMax
import Mathlib.Data.List.Rotate
import ParserServe.Lifecycle.Progress

/-! # The result of a task

`_reconcile_task` takes the result of the last stage row that has one, in the order in which
the database returned the rows, and no query orders them.  The result of the pipeline is that
of the stage with the greatest position; the two are the same for every order of the rows
exactly when the stages with a result have the same one.
-/

namespace ParserServe

open Foundation

/-- The result of the stage with the greatest position among those that have one. -/
def finalResultUri (stages : List StageRecord) : Option String :=
  ((stages.filter (·.resultUri.isSome)).argmax (·.position)).bind (·.resultUri)

/-- All stages with a result have the same one. -/
def ResultsAgree (stages : List StageRecord) : Prop :=
  ∀ a ∈ stages, ∀ b ∈ stages, a.resultUri.isSome → b.resultUri.isSome → a.resultUri = b.resultUri

instance (stages : List StageRecord) : Decidable (ResultsAgree stages) :=
  inferInstanceAs (Decidable (∀ a ∈ stages, ∀ b ∈ stages, _))

theorem lastResultUri_append {stages : List StageRecord} {stage : StageRecord}
    (h : stage.resultUri.isSome) : lastResultUri (stages ++ [stage]) = stage.resultUri := by
  obtain ⟨uri, huri⟩ := Option.isSome_iff_exists.mp h
  simp [lastResultUri, huri]

/-- A result that is reported belongs to one of the rows, and none is reported only if no
row has one. -/
theorem lastResultUri_cases (stages : List StageRecord) :
    (∃ stage ∈ stages, stage.resultUri.isSome ∧ lastResultUri stages = stage.resultUri) ∨
      ((∀ stage ∈ stages, stage.resultUri = none) ∧ lastResultUri stages = none) := by
  cases h : lastResultUri stages with
  | none =>
      right
      refine ⟨fun stage hmem => ?_, rfl⟩
      exact List.findSome?_eq_none_iff.mp h stage (List.mem_reverse.mpr hmem)
  | some uri =>
      left
      obtain ⟨stage, hmem, huri⟩ := List.exists_of_findSome?_eq_some h
      exact ⟨stage, List.mem_reverse.mp hmem, by simp [huri], huri.symm⟩

theorem finalResultUri_cases (stages : List StageRecord) :
    (∃ stage ∈ stages, stage.resultUri.isSome ∧ finalResultUri stages = stage.resultUri) ∨
      ((∀ stage ∈ stages, stage.resultUri = none) ∧ finalResultUri stages = none) := by
  unfold finalResultUri
  cases h : (stages.filter (·.resultUri.isSome)).argmax (·.position) with
  | none =>
      right
      rw [List.argmax_eq_none, List.filter_eq_nil_iff] at h
      exact ⟨fun stage hmem => by simpa using h stage hmem, rfl⟩
  | some stage =>
      left
      obtain ⟨hmem, hsome⟩ := List.mem_filter.mp (List.argmax_mem h)
      exact ⟨stage, hmem, hsome, rfl⟩

/-- Reconciliation of a task whose stages are all done. -/
theorem reconcile_of_finished (task : TaskRecord) (now : Time)
    (hstatus : task.status = .leased ∨ task.status = .running) (hne : task.stages ≠ [])
    (hfinished : ∀ stage ∈ task.stages, stage.status.finished) :
    ∃ task' payloads, task.reconcile now = .ok (task', payloads) ∧ task'.status = .succeeded ∧
      task'.resultUri = lastResultUri task.stages := by
  obtain ⟨settled, hsettle⟩ : ∃ settled, task.settle now = .ok settled := settle_isOk hstatus
  have hreconcile := reconcile_eq_ok.mpr ⟨settled, hsettle, rfl, rfl⟩
  refine ⟨_, _, hreconcile, ?_⟩
  cases Settled.of_settle hsettle with
  | failed hmem hfailed _ =>
      have := hfinished _ hmem
      simp [hfailed, StageStatus.finished] at this
  | succeeded => exact ⟨rfl, rfl⟩
  | released _ hnot _ => exact absurd ⟨hne, hfinished⟩ hnot
  | unsettled _ hnot _ => exact absurd ⟨hne, hfinished⟩ hnot

/-- For every order of the rows the task gets the result of its last stage, exactly when the
stages with a result have the same one. -/
theorem result_uri_order_independent_iff {task : TaskRecord} (now : Time)
    (hstatus : task.status = .leased ∨ task.status = .running) (hne : task.stages ≠ [])
    (hfinished : ∀ stage ∈ task.stages, stage.status.finished) :
    (∀ rows, rows.Perm task.stages → ∃ task' payloads,
      ({ task with stages := rows } : TaskRecord).reconcile now = .ok (task', payloads) ∧
        task'.resultUri = finalResultUri task.stages) ↔ ResultsAgree task.stages := by
  have hrows : ∀ rows, rows.Perm task.stages → ∃ task' payloads,
      ({ task with stages := rows } : TaskRecord).reconcile now = .ok (task', payloads) ∧
        task'.resultUri = lastResultUri rows := by
    intro rows hperm
    have hfinished' : ∀ stage ∈ rows, stage.status.finished := fun stage hmem =>
      hfinished stage (hperm.mem_iff.mp hmem)
    have hne' : rows ≠ [] := fun hnil => hne ((hnil ▸ hperm).nil_eq.symm)
    obtain ⟨task', payloads, hok, _, hresult⟩ :=
      reconcile_of_finished { task with stages := rows } now hstatus hne' hfinished'
    exact ⟨task', payloads, hok, hresult⟩
  constructor
  · intro h a ha b hb hasome hbsome
    -- the row order that ends with a given row reports the result of that row
    have hends : ∀ stage ∈ task.stages, stage.resultUri.isSome →
        stage.resultUri = finalResultUri task.stages := by
      intro stage hmem hsome
      have hperm : (task.stages.erase stage ++ [stage]).Perm task.stages :=
        List.perm_append_comm.trans (List.perm_cons_erase hmem).symm
      obtain ⟨task₁, payloads₁, hok₁, hspec⟩ := h _ hperm
      obtain ⟨task₂, payloads₂, hok₂, hcode⟩ := hrows _ hperm
      rw [hok₁] at hok₂
      cases hok₂
      rw [← hspec, hcode, lastResultUri_append hsome]
    rw [hends a ha hasome, hends b hb hbsome]
  · intro hagree rows hperm
    obtain ⟨task', payloads, hok, hresult⟩ := hrows rows hperm
    refine ⟨task', payloads, hok, hresult.trans ?_⟩
    rcases lastResultUri_cases rows with ⟨a, ha, hasome, hcode⟩ | ⟨hnone, hcode⟩
    · rcases finalResultUri_cases task.stages with ⟨b, hb, hbsome, hspec⟩ | ⟨hnone, _⟩
      · rw [hcode, hspec]
        exact hagree a (hperm.mem_iff.mp ha) b hb hasome hbsome
      · rw [hnone a (hperm.mem_iff.mp ha)] at hasome
        cases hasome
    · rcases finalResultUri_cases task.stages with ⟨b, hb, hbsome, _⟩ | ⟨_, hspec⟩
      · rw [hnone b (hperm.mem_iff.mpr hb)] at hbsome
        cases hbsome
      · rw [hcode, hspec]

/-! ## The deployment with a last stage -/

/-- Both parallel stages delivered a result, and the last stage is running. -/
def lastRunningDb : Db :=
  afterScript sampleScheduler sampleDb
    (mergeScript ++ [.start "stage-merge" "worker" "token-merge" 7])

/-- The deployment's task as if only its last stage had delivered a result. -/
def singleResult (task : TaskRecord) : TaskRecord :=
  { task with
    stages := task.stages.map fun stage =>
      stage.finish (if stage.position = 2 then some "s3://merge" else none) 8 }

theorem result_uri_order_independent_single : ∃ task : TaskRecord,
    finalResultUri task.stages = some "s3://merge" ∧
      ∀ rows, rows.Perm task.stages → ∃ task' payloads,
        ({ task with stages := rows } : TaskRecord).reconcile 8 = .ok (task', payloads) ∧
          task'.resultUri = finalResultUri task.stages := by
  have hexists : ∃ task ∈ lastRunningDb.tasks.map singleResult, task.status = .running ∧
      task.stages ≠ [] ∧ (∀ stage ∈ task.stages, stage.status.finished) ∧
        ResultsAgree task.stages ∧ finalResultUri task.stages = some "s3://merge" := by
    decide +kernel
  obtain ⟨task, _, hstatus, hne, hfinished, hagree, hfinal⟩ := hexists
  exact ⟨task, hfinal,
    (result_uri_order_independent_iff 8 (.inr hstatus) hne hfinished).mpr hagree⟩

def lastCompletion : Operation :=
  .complete "stage-merge" (sampleCompletion "token-merge" "s3://merge") 8

/-- The task succeeded with the result of another stage than its last. -/
def wrongResult (task : TaskRecord) : Prop :=
  task.status = .succeeded ∧ (∀ stage ∈ task.stages, stage.status = .succeeded) ∧
    finalResultUri task.stages = some "s3://merge" ∧ task.resultUri = some "s3://tables"

instance (task : TaskRecord) : Decidable (wrongResult task) := inferInstanceAs (Decidable (_ ∧ _))

/-- The row of the last stage is returned first, and the task gets the result of the stage
whose row is returned last. -/
theorem result_uri_follows_row_order : ∃ db, (controlPlane sampleScheduler).Reachable db ∧
    ∃ task ∈ db.tasks, wrongResult task := by
  have hdecide : ∃ task ∈ lastRunningDb.tasks, ∃ result,
      lastCompletion.exec sampleScheduler
        (lastRunningDb.saveTask { task with stages := task.stages.rotate 2 }) = .ok result ∧
      ∃ task' ∈ result.1.tasks, wrongResult task' := by
    decide +kernel
  obtain ⟨task, hmem, ⟨db, response⟩, hexec, hwrong⟩ := hdecide
  have hstart : (controlPlane sampleScheduler).Reachable lastRunningDb :=
    afterScript_reachable sampleDb_reachable
  have hreordered := hstart.step (.reordered hmem (List.rotate_perm task.stages 2))
  have hanswerable : lastCompletion.Answerable
      (lastRunningDb.saveTask { task with stages := task.stages.rotate 2 }) := trivial
  exact ⟨db, hreordered.step (.returned hanswerable hexec), hwrong⟩

end ParserServe
