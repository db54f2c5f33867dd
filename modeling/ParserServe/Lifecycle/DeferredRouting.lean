import ParserServe.Control.RoutingService
import ParserServe.Foundation.Batch
import ParserServe.Lifecycle.Progress

/-! # Which tasks deferred routing reaches

A task that cannot be routed stays in front of the younger ones in every pass.  A routable task is
reached exactly when fewer such tasks than the batch takes are older.
-/

namespace ParserServe

open Foundation

variable {db db' : Db} {task : TaskRecord} {metadata : SourceMetadata} {now : Time}

/-! ## Routable tasks -/

/-- Some backend may execute the stage. -/
def stageAvailable (db : Db) (options : TaskOptions) (metadata : SourceMetadata)
    (definition : PipelineStageDefinition) : Bool :=
  match stageBackendNames options definition with
  | .error _ => false
  | .ok names => !(stageCandidates db options metadata definition names).isEmpty

/-- A pipeline is found, and each of its stages has a backend. -/
def TaskRecord.routable (task : TaskRecord) (db : Db) : Bool :=
  task.sourceMetadata.any fun metadata =>
    match selectPipeline db task metadata false with
    | .error _ => false
    | .ok pipeline =>
        pipeline.definition.stages.all (stageAvailable db task.options metadata)

theorem stageBackendNames_error {options : TaskOptions} {definition : PipelineStageDefinition}
    {error : ServiceError} (h : stageBackendNames options definition = .error error) :
    error = .taskRoutingUnavailable := by
  unfold stageBackendNames at h
  split at h
  · cases h
  · simp only [ensure, bind, Except.bind] at h
    split at h
    · next hraised =>
        split at hraised <;> cases hraised
        cases h
        rfl
    · cases h

theorem planStage_of_available {options : TaskOptions} {definition : PipelineStageDefinition}
    (h : stageAvailable db options metadata definition) (now : Time) (stageId : String)
    (position : Nat) :
    ∃ stage, planStage db options metadata now stageId position definition = .ok stage ∧
      stage.stageId = stageId := by
  unfold stageAvailable at h
  split at h
  · cases h
  · next names hnames =>
      cases hcandidates : stageCandidates db options metadata definition names with
      | nil => simp [hcandidates] at h
      | cons selected others =>
          exact ⟨_, planStage_eq_ok.mpr ⟨names, selected, others, hnames, hcandidates, rfl⟩, rfl⟩

theorem planStage_of_unavailable {options : TaskOptions} {definition : PipelineStageDefinition}
    (h : stageAvailable db options metadata definition = false) (stageId : String)
    (position : Nat) :
    planStage db options metadata now stageId position definition =
      .error .taskRoutingUnavailable := by
  unfold stageAvailable at h
  unfold planStage
  split at h
  · next error hnames =>
      rw [hnames, stageBackendNames_error hnames]
      rfl
  · next names hnames =>
      have hnone : stageCandidates db options metadata definition names = [] := by simpa using h
      simp only [hnames, bind, Except.bind, hnone]

theorem planStages_of_available {options : TaskOptions}
    {definitions : List PipelineStageDefinition}
    (h : ∀ definition ∈ definitions, stageAvailable db options metadata definition)
    (now : Time) (stageIds : Nat → String) (position : Nat) :
    ∃ stages, planStages db options metadata now stageIds position definitions = .ok stages ∧
      stages.map (·.stageId) = (List.range' position definitions.length).map stageIds := by
  induction definitions generalizing position with
  | nil => exact ⟨[], rfl, rfl⟩
  | cons definition rest ih =>
      obtain ⟨stage, hstage, hid⟩ := planStage_of_available
        (h definition List.mem_cons_self) now (stageIds position) position
      obtain ⟨stages, hstages, hids⟩ :=
        ih (fun other hother => h other (List.mem_cons_of_mem _ hother)) (position + 1)
      refine ⟨stage :: stages, ?_, ?_⟩
      · exact bind_eq_ok.mpr ⟨stage, hstage, bind_eq_ok.mpr ⟨stages, hstages, rfl⟩⟩
      · rw [List.map_cons, hid, hids, List.length_cons, List.range'_succ, List.map_cons]

theorem planStages_of_unavailable {options : TaskOptions}
    {definitions : List PipelineStageDefinition}
    (h : definitions.all (stageAvailable db options metadata) = false)
    (stageIds : Nat → String) (position : Nat) :
    planStages db options metadata now stageIds position definitions =
      .error .taskRoutingUnavailable := by
  induction definitions generalizing position with
  | nil => cases h
  | cons definition rest ih =>
      rw [planStages]
      cases havailable : stageAvailable db options metadata definition with
      | false =>
          rw [planStage_of_unavailable havailable]
          rfl
      | true =>
          obtain ⟨stage, hstage, -⟩ := planStage_of_available havailable now
            (stageIds position) position
          rw [List.all_cons, havailable, Bool.true_and] at h
          rw [hstage, ih h (position + 1)]
          rfl

theorem selectPipeline_error {error : ServiceError}
    (h : selectPipeline db task metadata false = .error error) :
    error = .taskRoutingUnavailable := by
  unfold selectPipeline at h
  split at h
  · split at h
    · cases h
      rfl
    · simp only [ensure, bind, Except.bind] at h
      split at h
      · next hraised =>
          split at hraised <;> cases hraised
          cases h
          rfl
      · split at h
        · next hraised =>
            split at hraised <;> cases hraised
            cases h
            rfl
        · cases h
  · split at h
    · cases h
      rfl
    · cases h

/-- The identifiers drawn for a task are distinct and not in the table. -/
def FreshIds (db : Db) (stageIds : Nat → String) : Prop :=
  Function.Injective stageIds ∧ ∀ n, stageIds n ∉ db.stages.map (·.stageId)

theorem route_of_routable {stageIds : Nat → String} (hunrouted : task.unrouted)
    (hroutable : task.routable db) (hfresh : FreshIds db stageIds) (now : Time) :
    ∃ task' payloads, task.route db false stageIds now = .ok (task', payloads) ∧
      task'.taskId = task.taskId ∧ task'.stages ≠ [] ∧
      ∀ stage ∈ task'.stages, ∃ n, stage.stageId = stageIds n := by
  simp only [TaskRecord.unrouted, Bool.and_eq_true, beq_iff_eq, List.isEmpty_iff] at hunrouted
  obtain ⟨⟨hpending, -⟩, hstages⟩ := hunrouted
  obtain ⟨metadata, hmetadata, hplan⟩ := (Option.any_eq_true _ _).mp hroutable
  cases hpipeline : selectPipeline db task metadata false with
  | error error => simp [hpipeline] at hplan
  | ok pipeline =>
      simp only [hpipeline, List.all_eq_true] at hplan
      obtain ⟨stages, hplanned, hids⟩ := planStages_of_available hplan now stageIds 0
      have hdrawn : ∀ stage ∈ stages, ∃ n, stage.stageId = stageIds n := by
        intro stage hstage
        have hid := List.mem_map_of_mem (f := (·.stageId)) hstage
        rw [hids] at hid
        obtain ⟨n, -, hn⟩ := List.mem_map.mp hid
        exact ⟨n, hn.symm⟩
      have hkeys : (stages.map (·.stageId)).Nodup ∧
          ∀ stage ∈ stages, stage.stageId ∉ db.stages.map (·.stageId) := by
        refine ⟨?_, fun stage hstage => ?_⟩
        · rw [hids]
          exact (List.nodup_range').map hfresh.1
        · obtain ⟨n, hn⟩ := hdrawn stage hstage
          rw [hn]
          exact hfresh.2 n
      have hne : stages ≠ [] := by
        rintro rfl
        have hlength := congrArg List.length hids
        simp only [List.map_nil, List.length_nil, List.length_map, List.length_range'] at hlength
        exact pipeline.definition.stages_ne_nil (List.eq_nil_of_length_eq_zero hlength.symm)
      refine ⟨{ task with
          stages := stages
          pipelineId := some pipeline.definition.pipelineId
          pipelineVersion := some pipeline.definition.version
          updatedAt := now },
        [.taskRouted task.taskId pipeline.definition.pipelineId pipeline.definition.version
          (stages.map (·.stageId))],
        bind_eq_ok.mpr ⟨(), ensure_of_true hpending, ?_⟩, rfl, hne, hdrawn⟩
      rw [if_neg (not_not.mpr hstages), hmetadata]
      exact bind_eq_ok.mpr ⟨pipeline, hpipeline, bind_eq_ok.mpr ⟨stages, hplanned,
        bind_eq_ok.mpr ⟨(), ensure_of_true hkeys, rfl⟩⟩⟩

theorem route_of_not_routable (hunrouted : task.unrouted) (hroutable : task.routable db = false)
    (stageIds : Nat → String) (now : Time) :
    task.route db false stageIds now = .error .taskRoutingUnavailable := by
  simp only [TaskRecord.unrouted, Bool.and_eq_true, beq_iff_eq, List.isEmpty_iff] at hunrouted
  obtain ⟨⟨hpending, hsome⟩, hstages⟩ := hunrouted
  obtain ⟨metadata, hmetadata⟩ := Option.isSome_iff_exists.mp hsome
  rw [TaskRecord.route, ensure_of_true hpending]
  simp only [bind, Except.bind, hstages, ne_eq, not_true, if_false, hmetadata]
  simp only [TaskRecord.routable, hmetadata, Option.any_some] at hroutable
  cases hpipeline : selectPipeline db task metadata false with
  | error error => rw [selectPipeline_error hpipeline]
  | ok pipeline =>
      simp only [hpipeline] at hroutable
      simp only [planStages_of_unavailable hroutable]

/-- Whether a task is routable is read off the catalogue. -/
theorem routable_congr (h : db'.catalogue = db.catalogue) (task : TaskRecord) :
    task.routable db' = task.routable db := by
  have hpipelines : db'.pipelines = db.pipelines := congrArg Prod.fst h
  have hbackends : db'.backends = db.backends := congrArg Prod.snd h
  have hselect : ∀ metadata, selectPipeline db' task metadata false =
      selectPipeline db task metadata false := by
    intro metadata
    simp only [selectPipeline, pipelineByVersion, publishedCandidates, hpipelines]
  have havailable : ∀ metadata, stageAvailable db' task.options metadata =
      stageAvailable db task.options metadata := by
    intro metadata
    funext definition
    simp only [stageAvailable, stageCandidates, enabledByNames, hbackends]
  simp only [TaskRecord.routable, hselect, havailable]

/-! ## One task -/

theorem task?_of_mem (hkeys : (db.tasks.map (·.taskId)).Nodup) (hmem : task ∈ db.tasks) :
    db.task? task.taskId = some task :=
  find?_key_eq_some hkeys hmem

theorem routeTask_of_routable {stageIds : Nat → String}
    (hkeys : (db.tasks.map (·.taskId)).Nodup) (hmem : task ∈ db.tasks)
    (hunrouted : task.unrouted) (hroutable : task.routable db) (hfresh : FreshIds db stageIds)
    (now : Time) :
    ∃ task' payloads, routeTask db task.taskId false stageIds now =
        .ok ((db.saveTask task').publishAll now payloads, some task') ∧
      task'.taskId = task.taskId ∧ task'.stages ≠ [] ∧
      ∀ stage ∈ task'.stages, ∃ n, stage.stageId = stageIds n := by
  obtain ⟨task', payloads, hroute, hid, hne, hdrawn⟩ :=
    route_of_routable hunrouted hroutable hfresh now
  refine ⟨task', payloads, ?_, hid, hne, hdrawn⟩
  rw [routeTask, Db.withTask, task?_of_mem hkeys hmem]
  exact bind_eq_ok.mpr ⟨_, hroute, rfl⟩

theorem routeTask_of_not_routable (hkeys : (db.tasks.map (·.taskId)).Nodup)
    (hmem : task ∈ db.tasks) (hunrouted : task.unrouted) (hroutable : task.routable db = false)
    (stageIds : Nat → String) (now : Time) :
    routeTask db task.taskId false stageIds now = .error .taskRoutingUnavailable := by
  simp only [routeTask, Db.withTask, task?_of_mem hkeys hmem,
    route_of_not_routable hunrouted hroutable]
  rfl

/-! ## One pass -/

/-- What a pass makes of the tasks it tries: those that can be routed have stages now, and no
other row is touched. -/
structure Deferred (tried : List TaskRecord) (drawn : String → Prop) (db db' : Db) : Prop where
  catalogue : db'.catalogue = db.catalogue
  taskIds : db'.tasks.map (·.taskId) = db.tasks.map (·.taskId)
  kept : ∀ task ∈ db.tasks, task ∉ tried ∨ task.routable db = false → task ∈ db'.tasks
  routed : ∀ task ∈ tried, task.routable db →
    ∃ task' ∈ db'.tasks, task'.taskId = task.taskId ∧ task'.stages ≠ []
  stageIds : ∀ stage ∈ db'.stages,
    stage.stageId ∈ db.stages.map (·.stageId) ∨ drawn stage.stageId

theorem Deferred.refl (drawn : String → Prop) (db : Db) : Deferred [] drawn db db where
  catalogue := rfl
  taskIds := rfl
  kept _ hmem _ := hmem
  routed _ hmem := absurd hmem List.not_mem_nil
  stageIds _ hstage := .inl (List.mem_map_of_mem hstage)

/-- Draws that never repeat. -/
def DistinctDraws (stageIds : String → Nat → String) : Prop :=
  ∀ a i b j, stageIds a i = stageIds b j → a = b ∧ i = j

theorem publishAll_catalogue (db : Db) (now : Time) (payloads : List EventPayload) :
    (db.publishAll now payloads).catalogue = db.catalogue := by
  induction payloads generalizing db with
  | nil => rfl
  | cons payload payloads ih => exact ih (db.publish now payload)

theorem mem_stages_saveTask {task' : TaskRecord} {stage : StageRecord}
    (h : stage ∈ (db.saveTask task').stages) : stage ∈ db.stages ∨ stage ∈ task'.stages := by
  obtain ⟨row, hrow, hstage⟩ := Db.mem_stages.mp h
  rcases mem_saveTask hrow with rfl | ⟨hrow, -⟩
  · exact .inr hstage
  · exact .inl (Db.mem_stages.mpr ⟨row, hrow, hstage⟩)

/-- The first task of a pass keeps its row. -/
theorem Deferred.cons_kept {tried : List TaskRecord} {drawn drawn' : String → Prop}
    (h : Deferred tried drawn db db') (hroutable : task.routable db = false)
    (hdrawn : ∀ id, drawn id → drawn' id) : Deferred (task :: tried) drawn' db db' where
  catalogue := h.catalogue
  taskIds := h.taskIds
  kept other hmem hother := h.kept other hmem
    (hother.imp_left fun hnot hin => hnot (List.mem_cons_of_mem _ hin))
  routed other hmem hother := by
    rcases List.mem_cons.mp hmem with rfl | hmem
    · rw [hroutable] at hother
      cases hother
    · exact h.routed other hmem hother
  stageIds stage hstage := (h.stageIds stage hstage).imp_right (hdrawn _)

/-- The first task of a pass is routed, and the rest of the pass follows. -/
theorem Deferred.cons_routed {tried : List TaskRecord} {drawn drawn' : String → Prop}
    {task' : TaskRecord} {payloads : List EventPayload}
    (h : Deferred tried drawn ((db.saveTask task').publishAll now payloads) db')
    (hmem : task ∈ db.tasks) (hroutable : task.routable db) (hid : task'.taskId = task.taskId)
    (hne : task'.stages ≠ []) (hother : task' ∉ tried)
    (hstages : ∀ stage ∈ task'.stages, drawn' stage.stageId)
    (hkeys : (db.tasks.map (·.taskId)).Nodup) (hdrawn : ∀ id, drawn id → drawn' id) :
    Deferred (task :: tried) drawn' db db' := by
  have hcatalogue : ((db.saveTask task').publishAll now payloads).catalogue = db.catalogue :=
    publishAll_catalogue _ _ _
  have htasks : ((db.saveTask task').publishAll now payloads).tasks = (db.saveTask task').tasks :=
    Db.publishAll_tasks _ _ _
  have hsaved : task' ∈ ((db.saveTask task').publishAll now payloads).tasks := by
    rw [htasks]
    exact mem_replaceKey_self hmem hid.symm
  refine ⟨h.catalogue.trans hcatalogue, ?_, ?_, ?_, ?_⟩
  · rw [h.taskIds, htasks, saveTask_taskIds]
  · intro row hrow hcase
    have hne : row.taskId ≠ task'.taskId := by
      intro heq
      have hrow : row = task := List.inj_on_of_nodup_map hkeys hrow hmem (heq.trans hid)
      subst hrow
      rcases hcase with hnot | hnot
      · exact hnot List.mem_cons_self
      · rw [hroutable] at hnot
        cases hnot
    refine h.kept row ?_ ?_
    · rw [htasks]
      exact mem_replaceKey_of_ne hrow hne
    · rw [routable_congr hcatalogue]
      exact hcase.imp_left fun hnot hin => hnot (List.mem_cons_of_mem _ hin)
  · intro row hrow hrowRoutable
    rcases List.mem_cons.mp hrow with rfl | hrow
    · exact ⟨task', h.kept task' hsaved (.inl hother), hid, hne⟩
    · exact h.routed row hrow (by rwa [routable_congr hcatalogue])
  · intro stage hstage
    rcases h.stageIds stage hstage with hold | hnew
    · obtain ⟨row, hrow, heq⟩ := List.mem_map.mp hold
      rw [Db.stages, htasks] at hrow
      rcases mem_stages_saveTask hrow with hrow | hrow
      · exact .inl (heq ▸ List.mem_map_of_mem hrow)
      · exact .inr (heq ▸ hstages row hrow)
    · exact .inr (hdrawn _ hnew)

theorem routeEach_deferred {stageIds : String → Nat → String} (hdistinct : DistinctDraws stageIds)
    (now : Time) {tried : List TaskRecord} (routed : Nat)
    (hkeys : (db.tasks.map (·.taskId)).Nodup)
    (htried : ∀ task ∈ tried, task ∈ db.tasks ∧ task.unrouted) (hnodup : tried.Nodup)
    (hnew : ∀ task ∈ tried, ∀ n, stageIds task.taskId n ∉ db.stages.map (·.stageId)) :
    Deferred tried (fun id => ∃ task ∈ tried, ∃ n, id = stageIds task.taskId n) db
      (routeEach stageIds now db routed (tried.map (·.taskId))).1 := by
  induction tried generalizing db routed with
  | nil => exact Deferred.refl _ db
  | cons task rest ih =>
      obtain ⟨hmem, hunrouted⟩ := htried task List.mem_cons_self
      obtain ⟨hnot, hnodup⟩ := List.nodup_cons.mp hnodup
      have hdrawn : ∀ id, (∃ other ∈ rest, ∃ n, id = stageIds other.taskId n) →
          ∃ other ∈ task :: rest, ∃ n, id = stageIds other.taskId n :=
        fun id ⟨other, hother, hn⟩ => ⟨other, List.mem_cons_of_mem _ hother, hn⟩
      rw [List.map_cons, routeEach]
      cases hroutable : task.routable db with
      | false =>
          rw [routeTask_of_not_routable hkeys hmem hunrouted hroutable]
          refine (ih routed hkeys (fun other hother => ?_) hnodup fun other hother => ?_).cons_kept
            hroutable hdrawn
          · exact htried other (List.mem_cons_of_mem _ hother)
          · exact hnew other (List.mem_cons_of_mem _ hother)
      | true =>
          have hfresh : FreshIds db (stageIds task.taskId) :=
            ⟨fun i j heq => (hdistinct _ _ _ _ heq).2, hnew task List.mem_cons_self⟩
          obtain ⟨task', payloads, hroute, hid, hne, hids⟩ :=
            routeTask_of_routable hkeys hmem hunrouted hroutable hfresh now
          have htasks : ((db.saveTask task').publishAll now payloads).tasks =
              (db.saveTask task').tasks := Db.publishAll_tasks _ _ _
          have hrest : ∀ other ∈ rest, other ∈ db.tasks ∧ other.taskId ≠ task.taskId := by
            intro other hother
            obtain ⟨hin, -⟩ := htried other (List.mem_cons_of_mem _ hother)
            refine ⟨hin, fun heq => hnot ?_⟩
            rwa [← List.inj_on_of_nodup_map hkeys hin hmem heq]
          have hrouted : Option.any (fun record => decide (record.stages ≠ [])) (some task') =
              true := decide_eq_true hne
          simp only [hroute, hrouted, if_true]
          refine (ih (routed + 1) ?_ ?_ hnodup ?_).cons_routed hmem hroutable hid hne ?_ ?_ hkeys
            hdrawn
          · rw [htasks, saveTask_taskIds]
            exact hkeys
          · intro other hother
            obtain ⟨hin, hother'⟩ := hrest other hother
            rw [htasks]
            exact ⟨mem_replaceKey_of_ne hin (hid ▸ hother'),
              (htried other (List.mem_cons_of_mem _ hother)).2⟩
          · intro other hother n hin
            obtain ⟨stage, hstage, heq⟩ := List.mem_map.mp hin
            rw [Db.stages, htasks] at hstage
            rcases mem_stages_saveTask hstage with hstage | hstage
            · exact hnew other (List.mem_cons_of_mem _ hother) n
                (heq ▸ List.mem_map_of_mem hstage)
            · obtain ⟨k, hk⟩ := hids stage hstage
              exact (hrest other hother).2 (hdistinct _ _ _ _ (heq.symm.trans hk)).1
          · intro hin
            exact (hrest task' hin).2 hid
          · intro stage hstage
            obtain ⟨n, hn⟩ := hids stage hstage
            exact ⟨task, List.mem_cons_self, n, hn⟩

/-- A task that waits after the pass waited before it, and was not routed by it. -/
theorem Deferred.unrouted {tried : List TaskRecord} {drawn : String → Prop}
    (h : Deferred tried drawn db db') (hkeys : (db.tasks.map (·.taskId)).Nodup)
    (hmem : task ∈ db'.tasks) (hunrouted : task.unrouted) :
    task ∈ db.tasks ∧ (task ∉ tried ∨ task.routable db = false) := by
  have hkeys' : (db'.tasks.map (·.taskId)).Nodup := h.taskIds ▸ hkeys
  have hid : task.taskId ∈ db.tasks.map (·.taskId) := h.taskIds ▸ List.mem_map_of_mem hmem
  obtain ⟨row, hrow, hid⟩ := List.mem_map.mp hid
  by_cases hcase : row ∉ tried ∨ row.routable db = false
  · have heq : row = task :=
      List.inj_on_of_nodup_map hkeys' (h.kept row hrow hcase) hmem hid
    exact heq ▸ ⟨hrow, hcase⟩
  · rw [not_or, not_not, Bool.not_eq_false] at hcase
    obtain ⟨row', hrow', hid', hne⟩ := h.routed row hcase.1 hcase.2
    have heq : row' = task := List.inj_on_of_nodup_map hkeys' hrow' hmem (hid'.trans hid)
    subst heq
    simp [TaskRecord.unrouted, hne] at hunrouted

/-! ## The batch of a pass -/

/-- The order of the selection. -/
def TaskRecord.age (task : TaskRecord) : Time ×ₗ String :=
  toLex (task.createdAt, task.taskId)

theorem taskBefore_iff (a b : TaskRecord) : taskBefore a b ↔ a.age ≤ b.age := by
  rw [TaskRecord.age, TaskRecord.age, Prod.Lex.toLex_le_toLex]
  rfl

/-- The tasks that wait in front of a task and cannot be routed. -/
def blockers (db : Db) (task : TaskRecord) : List TaskRecord :=
  db.tasks.filter fun other =>
    other.unrouted && !other.routable db && decide (taskBefore other task)

theorem mem_blockers {other : TaskRecord} :
    other ∈ blockers db task ↔ other ∈ db.tasks ∧ other.unrouted ∧ other.routable db = false ∧
      taskBefore other task := by
  simp [blockers, and_assoc]

section Selected

variable (self : TaskRoutingService) (hkeys : (db.tasks.map (·.taskId)).Nodup)

include hkeys

theorem nodup_selected : (self.selected db).Nodup := by
  have hrows : (db.tasks.filter (·.unrouted)).Nodup := hkeys.of_map.filter _
  exact ((List.perm_insertionSort taskBefore _).nodup_iff.mpr hrows).sublist (List.take_sublist _ _)

omit hkeys in
theorem mem_of_mem_selected (h : task ∈ self.selected db) : task ∈ db.tasks ∧ task.unrouted := by
  have hmem := List.mem_of_mem_take h
  rw [List.mem_insertionSort, List.mem_filter] at hmem
  exact hmem

/-- With fewer blockers than the batch takes, a pass tries a task that can be routed. -/
theorem exists_routable_selected (hmem : task ∈ db.tasks) (hunrouted : task.unrouted)
    (hroutable : task.routable db) (hfew : (blockers db task).length < self.batchSize) :
    ∃ other ∈ self.selected db, other.routable db := by
  have hbatch := (exists_mem_batch_iff (n := self.batchSize) taskBefore_iff
    (nodup_map_rank TaskRecord.createdAt hkeys) (·.unrouted) fun other => !other.routable db).mpr
      ⟨task, hmem, hunrouted, by simp [hroutable], hfew⟩
  obtain ⟨other, hother, hnot⟩ := hbatch
  exact ⟨other, hother, by simpa using hnot⟩

/-- With as many blockers as the batch takes, a pass leaves the task out. -/
theorem notMem_selected (hroutable : task.routable db)
    (hmany : self.batchSize ≤ (blockers db task).length) : task ∉ self.selected db := by
  intro hmem
  have hkeys' : ((db.tasks.filter (·.unrouted)).map (·.taskId)).Nodup :=
    hkeys.sublist (List.filter_sublist.map _)
  have hin := (mem_of_mem_selected self hmem).1
  have hlt :=
    ((mem_batch_iff taskBefore_iff (nodup_map_rank TaskRecord.createdAt hkeys')).mp hmem).2
  refine absurd hlt (not_lt.mpr (hmany.trans ?_))
  rw [List.filter_filter, blockers, ← List.countP_eq_length_filter, ← List.countP_eq_length_filter]
  refine List.countP_mono_left fun other hother hblocks => ?_
  simp only [Bool.and_eq_true, Bool.not_eq_true', decide_eq_true_eq] at hblocks ⊢
  obtain ⟨⟨hwaits, hnot⟩, hbefore⟩ := hblocks
  refine ⟨lt_of_le_of_ne ((taskBefore_iff _ _).mp hbefore) fun heq => ?_, hwaits⟩
  have hsame : other = task := List.inj_on_of_nodup_map hkeys hother hin
    (congrArg (fun age => (ofLex age).2) heq)
  rw [hsame, hroutable] at hnot
  cases hnot

end Selected

/-! ## Passes on an otherwise unchanged database -/

/-- Stage identifiers are drawn once, and none is in the table yet. -/
structure NewDraws (draws : Nat → String → Nat → String) (db : Db) : Prop where
  distinct : ∀ m a i n b j, draws m a i = draws n b j → m = n ∧ a = b ∧ i = j
  unused : ∀ n a i, draws n a i ∉ db.stages.map (·.stageId)

/-- What a number of passes keep. -/
structure Passed (draws : Nat → String → Nat → String) (db : Db) (n : Nat) (db' : Db) : Prop where
  catalogue : db'.catalogue = db.catalogue
  taskIds : db'.tasks.map (·.taskId) = db.tasks.map (·.taskId)
  waiting : ∀ task ∈ db'.tasks, task.unrouted → task ∈ db.tasks
  kept : ∀ task ∈ db.tasks, task.unrouted → task.routable db = false → task ∈ db'.tasks
  stageIds : ∀ stage ∈ db'.stages,
    stage.stageId ∈ db.stages.map (·.stageId) ∨ ∃ k < n, ∃ a i, stage.stageId = draws k a i

section Passes

variable (self : TaskRoutingService) {draws : Nat → String → Nat → String} (clock : Nat → Time)
  (hkeys : (db.tasks.map (·.taskId)).Nodup) (hnew : NewDraws draws db)

include hkeys hnew

theorem Passed.pass {n : Nat} (h : Passed draws db n db') (now : Time) :
    Deferred (self.selected db')
      (fun id => ∃ task ∈ self.selected db', ∃ k, id = draws n task.taskId k) db'
      (self.runOnce db' (draws n) now).1 := by
  have hkeys' : (db'.tasks.map (·.taskId)).Nodup := h.taskIds ▸ hkeys
  refine routeEach_deferred (fun a i b j heq => (hnew.distinct n a i n b j heq).2) now 0 hkeys'
    (fun _ => mem_of_mem_selected self) (nodup_selected self hkeys') ?_
  intro task _ i hused
  obtain ⟨stage, hstage, hid⟩ := List.mem_map.mp hused
  rcases h.stageIds stage hstage with hold | ⟨k, hk, a, j, hdrawn⟩
  · exact hnew.unused n task.taskId i (hid ▸ hold)
  · exact absurd (hnew.distinct _ _ _ _ _ _ (hid.symm.trans hdrawn)).1 hk.ne'

theorem passes_passed (n : Nat) : Passed draws db n (self.passes draws clock db n) := by
  induction n with
  | zero => exact ⟨rfl, rfl, fun _ hmem _ => hmem, fun _ hmem _ _ => hmem,
      fun _ hstage => .inl (List.mem_map_of_mem hstage)⟩
  | succ n ih =>
      have hpass := ih.pass self hkeys hnew (clock n)
      have hkeys' : ((self.passes draws clock db n).tasks.map (·.taskId)).Nodup :=
        ih.taskIds ▸ hkeys
      refine ⟨hpass.catalogue.trans ih.catalogue, hpass.taskIds.trans ih.taskIds, ?_, ?_, ?_⟩
      · intro task hmem hunrouted
        exact ih.waiting task (hpass.unrouted hkeys' hmem hunrouted).1 hunrouted
      · intro task hmem hunrouted hroutable
        refine hpass.kept task (ih.kept task hmem hunrouted hroutable) (.inr ?_)
        rw [routable_congr ih.catalogue, hroutable]
      · intro stage hstage
        rcases hpass.stageIds stage hstage with hold | ⟨task, -, k, hdrawn⟩
        · obtain ⟨row, hrow, hid⟩ := List.mem_map.mp hold
          refine (ih.stageIds row hrow).imp (fun h => hid ▸ h) ?_
          rintro ⟨k, hk, a, i, hdrawn⟩
          exact ⟨k, hk.trans n.lt_succ_self, a, i, hid ▸ hdrawn⟩
        · exact .inr ⟨n, n.lt_succ_self, _, _, hdrawn⟩

/-- The tasks that wait in front of a task and cannot be routed stay the same. -/
theorem blockers_passes (n : Nat) (task : TaskRecord) :
    (blockers (self.passes draws clock db n) task).length = (blockers db task).length := by
  have h := passes_passed self clock hkeys hnew n
  have hkeys' : ((self.passes draws clock db n).tasks.map (·.taskId)).Nodup := h.taskIds ▸ hkeys
  have hsame : ∀ other, other ∈ blockers (self.passes draws clock db n) task ↔
      other ∈ blockers db task := by
    intro other
    simp only [mem_blockers, routable_congr h.catalogue]
    constructor
    · rintro ⟨hmem, hunrouted, hrest⟩
      exact ⟨h.waiting other hmem hunrouted, hunrouted, hrest⟩
    · rintro ⟨hmem, hunrouted, hroutable, hbefore⟩
      exact ⟨h.kept other hmem hunrouted hroutable, hunrouted, hroutable, hbefore⟩
  exact ((List.perm_ext_iff_of_nodup (hkeys'.of_map.filter _) (hkeys.of_map.filter _)).mpr
    hsame).length_eq

/-- A pass either routes the task or leaves its row. -/
theorem passes_succ_or (n : Nat) (hroutable : task.routable db)
    (hmem : task ∈ (self.passes draws clock db n).tasks) :
    (task ∈ self.selected (self.passes draws clock db n) ∧
      ∃ record ∈ (self.passes draws clock db (n + 1)).tasks,
        record.taskId = task.taskId ∧ record.stages ≠ []) ∨
    (task ∉ self.selected (self.passes draws clock db n) ∧
      task ∈ (self.passes draws clock db (n + 1)).tasks) := by
  have h := passes_passed self clock hkeys hnew n
  have hpass := h.pass self hkeys hnew (clock n)
  by_cases hselected : task ∈ self.selected (self.passes draws clock db n)
  · refine .inl ⟨hselected, hpass.routed task hselected ?_⟩
    rwa [routable_congr h.catalogue]
  · exact .inr ⟨hselected, hpass.kept task hmem (.inl hselected)⟩

/-- A pass with a routable task in its batch leaves fewer tasks waiting. -/
theorem waiting_decreases (n : Nat) {other : TaskRecord}
    (hselected : other ∈ self.selected (self.passes draws clock db n))
    (hroutable : other.routable db) :
    ((self.passes draws clock db (n + 1)).tasks.filter (·.unrouted)).length <
      ((self.passes draws clock db n).tasks.filter (·.unrouted)).length := by
  have h := passes_passed self clock hkeys hnew n
  have hpass := h.pass self hkeys hnew (clock n)
  have hkeys' : ((self.passes draws clock db n).tasks.map (·.taskId)).Nodup := h.taskIds ▸ hkeys
  have hkeysNext : ((self.passes draws clock db (n + 1)).tasks.map (·.taskId)).Nodup :=
    hpass.taskIds ▸ hkeys'
  have hother : other ∈ (self.passes draws clock db n).tasks.filter (·.unrouted) :=
    List.mem_filter.mpr (mem_of_mem_selected self hselected)
  suffices hsub : (other :: (self.passes draws clock db (n + 1)).tasks.filter (·.unrouted)).Subperm
      ((self.passes draws clock db n).tasks.filter (·.unrouted)) from
    Nat.lt_of_succ_le hsub.length_le
  refine List.subperm_of_subset ?_ ?_
  · refine List.nodup_cons.mpr ⟨fun hin => ?_, hkeysNext.of_map.filter _⟩
    obtain ⟨hin, hunrouted⟩ := List.mem_filter.mp hin
    rcases (hpass.unrouted hkeys' hin hunrouted).2 with hnot | hnot
    · exact hnot hselected
    · rw [routable_congr h.catalogue, hroutable] at hnot
      cases hnot
  · refine List.cons_subset.mpr ⟨hother, fun row hrow => ?_⟩
    obtain ⟨hin, hunrouted⟩ := List.mem_filter.mp hrow
    exact List.mem_filter.mpr ⟨(hpass.unrouted hkeys' hin hunrouted).1, hunrouted⟩

/-- With fewer blockers than the batch takes, the queue in front of the task drains. -/
theorem exists_pass_routes (hunrouted : task.unrouted) (hroutable : task.routable db)
    (hfew : (blockers db task).length < self.batchSize) (m : Nat) :
    ∀ n, ((self.passes draws clock db n).tasks.filter (·.unrouted)).length ≤ m →
      task ∈ (self.passes draws clock db n).tasks →
      ∃ k, ∃ record ∈ (self.passes draws clock db k).tasks,
        record.taskId = task.taskId ∧ record.stages ≠ [] := by
  induction m with
  | zero =>
      intro n hle hmem
      have hwaits : task ∈ (self.passes draws clock db n).tasks.filter (·.unrouted) :=
        List.mem_filter.mpr ⟨hmem, hunrouted⟩
      exact absurd hle (not_le.mpr (List.length_pos_of_mem hwaits))
  | succ m ih =>
      intro n hle hmem
      have h := passes_passed self clock hkeys hnew n
      obtain ⟨other, hother, hotherRoutable⟩ := exists_routable_selected self
        (h.taskIds ▸ hkeys) hmem hunrouted (by rwa [routable_congr h.catalogue])
        (by rwa [blockers_passes self clock hkeys hnew n])
      rcases passes_succ_or self clock hkeys hnew n hroutable hmem with
        ⟨-, hrouted⟩ | ⟨-, hkept⟩
      · exact ⟨n + 1, hrouted⟩
      · have hless := waiting_decreases self clock hkeys hnew n hother
          (by rwa [routable_congr h.catalogue] at hotherRoutable)
        exact ih (n + 1) (by omega) hkept

/-- With as many blockers as the batch takes, the task waits in every state. -/
theorem mem_passes_of_blocked (hmem : task ∈ db.tasks) (hroutable : task.routable db)
    (hmany : self.batchSize ≤ (blockers db task).length) (n : Nat) :
    task ∈ (self.passes draws clock db n).tasks := by
  induction n with
  | zero => exact hmem
  | succ n ih =>
      have h := passes_passed self clock hkeys hnew n
      have hout : task ∉ self.selected (self.passes draws clock db n) :=
        notMem_selected self (h.taskIds ▸ hkeys) (by rwa [routable_congr h.catalogue])
          (by rwa [blockers_passes self clock hkeys hnew n])
      rcases passes_succ_or self clock hkeys hnew n hroutable ih with
        ⟨hin, -⟩ | ⟨-, hkept⟩
      · exact absurd hin hout
      · exact hkept

/-- A waiting task that can be routed now is routed after some number of passes exactly when
fewer waiting tasks than the batch takes are older and cannot be routed. -/
theorem deferred_routing_iff (hmem : task ∈ db.tasks) (hunrouted : task.unrouted)
    (hroute : ∃ stageIds now result, task.route db false stageIds now = .ok result) :
    (∃ n, ∃ record ∈ (self.passes draws clock db n).tasks,
      record.taskId = task.taskId ∧ record.stages ≠ []) ↔
      (blockers db task).length < self.batchSize := by
  have hroutable : task.routable db := by
    obtain ⟨stageIds, now, result, hroute⟩ := hroute
    by_contra hnot
    rw [route_of_not_routable hunrouted (Bool.not_eq_true _ ▸ hnot)] at hroute
    cases hroute
  constructor
  · rintro ⟨n, record, hrecord, hid, hne⟩
    by_contra hmany
    have h := passes_passed self clock hkeys hnew n
    have hkept := mem_passes_of_blocked self clock hkeys hnew hmem hroutable
      (not_lt.mp hmany) n
    have heq : record = task := List.inj_on_of_nodup_map (h.taskIds ▸ hkeys) hrecord hkept hid
    subst heq
    simp [TaskRecord.unrouted, hne] at hunrouted
  · intro hfew
    exact exists_pass_routes self clock hkeys hnew hunrouted hroutable hfew _ 0 le_rfl hmem

end Passes

/-- A draw written as its pass, its index and its task. -/
def sampleDraws (n : Nat) (taskId : String) (i : Nat) : String :=
  String.ofList (List.replicate n 'n' ++ '/' :: (List.replicate i 'i' ++ '/' :: taskId.toList))

theorem replicate_append_inj {c : Char} (hc : c ≠ '/') {m n : Nat} {xs ys : List Char}
    (h : List.replicate m c ++ '/' :: xs = List.replicate n c ++ '/' :: ys) :
    m = n ∧ xs = ys := by
  induction m generalizing n with
  | zero =>
      cases n with
      | zero => simpa using h
      | succ n => simp [List.replicate_succ, Ne.symm hc] at h
  | succ m ih =>
      cases n with
      | zero => simp [List.replicate_succ, hc] at h
      | succ n =>
          simp only [List.replicate_succ, List.cons_append, List.cons.injEq, true_and] at h
          simpa using ih h

theorem sampleDraws_distinct (m : Nat) (a : String) (i n : Nat) (b : String) (j : Nat)
    (h : sampleDraws m a i = sampleDraws n b j) : m = n ∧ a = b ∧ i = j := by
  obtain ⟨hpass, hrest⟩ := replicate_append_inj (by decide) (String.ofList_injective h)
  obtain ⟨hindex, hid⟩ := replicate_append_inj (by decide) hrest
  exact ⟨hpass, String.toList_injective hid, hindex⟩

def stuckOptions : TaskOptions := { (default : TaskOptions) with backendName := some "absent" }

/-- A task that waits for a backend no pipeline names. -/
def stuckTask : TaskRecord where
  taskId := "stuck"
  status := .pending
  progressPercent := 0
  source := .url "https://host/scan.pdf"
  sourceMetadata := some sampleMetadata
  options := stuckOptions
  pipelineId := none
  pipelineVersion := none
  priority := 0
  clientReference := none
  idempotencyDigest := none
  requestDigest := ⟨{ source := .url "https://host/scan.pdf", options := stuckOptions }⟩
  createdAt := 0
  updatedAt := 0

/-- A younger task the report pipeline can take. -/
def laterTask : TaskRecord :=
  { stuckTask with
    taskId := "later"
    options := default
    requestDigest := ⟨{ source := .url "https://host/scan.pdf", options := default }⟩
    createdAt := 1 }

def unroutedDb : Db := { sampleDb with tasks := [stuckTask, laterTask] }

theorem unroutedDb_newDraws : NewDraws sampleDraws unroutedDb where
  distinct := sampleDraws_distinct
  unused n a i h := by
    have hnone : unroutedDb.stages = [] := by decide +kernel
    simp [hnone] at h

theorem laterTask_routes : ∃ stageIds now result,
    laterTask.route unroutedDb false stageIds now = .ok result := by
  have hfresh : FreshIds unroutedDb (sampleDraws 0 "later") :=
    ⟨fun i j heq => (sampleDraws_distinct _ _ _ _ _ _ heq).2.2,
      unroutedDb_newDraws.unused 0 "later"⟩
  obtain ⟨task', payloads, hroute, -⟩ := route_of_routable
    (by decide +kernel : laterTask.unrouted) (by decide +kernel) hfresh 2
  exact ⟨_, _, _, hroute⟩

/-- Two tasks a pass reach the younger one. -/
theorem deferred_routing_two : ∃ n, ∃ record ∈
    (({ batchSize := 2 } : TaskRoutingService).passes sampleDraws (fun n => n + 2) unroutedDb
      n).tasks,
    record.taskId = "later" ∧ record.stages ≠ [] := by
  have hmem : laterTask ∈ unroutedDb.tasks := by decide +kernel
  exact (deferred_routing_iff { batchSize := 2 } (fun n => n + 2) (by decide +kernel)
    unroutedDb_newDraws hmem (by decide +kernel) laterTask_routes).mpr (by decide +kernel)

/-- One task a pass tries the older one for ever. -/
theorem deferred_routing_starves :
    laterTask ∈ unroutedDb.tasks ∧ laterTask.unrouted ∧
    (∃ stageIds now result, laterTask.route unroutedDb false stageIds now = .ok result) ∧
    ∀ n, ∀ record ∈ (({ batchSize := 1 } : TaskRoutingService).passes sampleDraws
      (fun n => n + 2) unroutedDb n).tasks,
      record.taskId = "later" → record.stages = [] := by
  have hmem : laterTask ∈ unroutedDb.tasks := by decide +kernel
  refine ⟨hmem, by decide +kernel, laterTask_routes, fun n record hrecord hid => ?_⟩
  have hkeys : (unroutedDb.tasks.map (·.taskId)).Nodup := by decide +kernel
  have h := passes_passed { batchSize := 1 } (fun n => n + 2) hkeys unroutedDb_newDraws n
  have hkept := mem_passes_of_blocked { batchSize := 1 } (fun n => n + 2) hkeys unroutedDb_newDraws
    hmem (by decide +kernel) (by decide +kernel) n
  have heq : record = laterTask := List.inj_on_of_nodup_map (h.taskIds ▸ hkeys) hrecord hkept hid
  exact heq ▸ rfl

end ParserServe
