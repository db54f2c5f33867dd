import Mathlib.Data.List.Perm.Basic
import ParserServe.Lifecycle.Database

/-! # Invariants of the control plane

A property of single task records is an invariant of the control plane when a new record
has it and routing, moves and another row order keep it.  The keys of the tables are the
one invariant that is about the whole database.
-/

namespace ParserServe

open Foundation

variable {self : StageScheduler} {manual : Prop} {now : Time} {db db' : Db}

/-- One change takes records with `P` to records with `Q`. -/
theorem DbChange.all_tasks {P Q : TaskRecord → Prop} {granted : Option LeaseGrant}
    (h : DbChange manual now db granted db') (hkeys : db.KeysNodup) (hP : ∀ task ∈ db.tasks, P task)
    (hkept : ∀ task, P task → Q task)
    (hcreated : ∀ request idempotencyKey allowUnpublished taskId metadata,
      validatePipeline db request.options allowUnpublished = .ok () →
        Q (newTask request idempotencyKey taskId metadata now))
    (hrouted : ∀ task task' payloads, P task → task.stages = [] →
      Routed now db task task' payloads → Q task')
    (hmoved : ∀ task granted payloads task', P task → task.KeysNodup →
      TaskMove manual now task granted payloads task' → Q task') :
    ∀ task ∈ db'.tasks, Q task := by
  intro task htask
  cases h with
  | untouched htasks _ => exact hkept task (hP task (htasks ▸ htask))
  | created hvalid _ =>
      rw [Db.publish_tasks] at htask
      rcases List.mem_append.mp htask with htask | htask
      · exact hkept task (hP task htask)
      · rw [List.mem_singleton.mp htask]
        exact hcreated _ _ _ _ _ hvalid
  | routed hmem hnone hroute =>
      rw [Db.publishAll_tasks] at htask
      rcases mem_saveTask htask with rfl | ⟨htask, _⟩
      · exact hrouted _ _ _ (hP _ hmem) hnone hroute
      · exact hkept task (hP task htask)
  | moved hmem hmove =>
      rw [Db.publishAll_tasks] at htask
      rcases mem_saveTask htask with rfl | ⟨htask, _⟩
      · exact hmoved _ _ _ _ (hP _ hmem) (hkeys.task hmem) hmove
      · exact hkept task (hP task htask)

/-- What the operations keep of a single record. -/
structure TaskInvariant (P : TaskRecord → Prop) : Prop where
  created : ∀ request idempotencyKey taskId metadata now,
    P (newTask request idempotencyKey taskId metadata now)
  routed : ∀ {now db task task' payloads}, P task → task.stages = [] →
    Routed now db task task' payloads → P task'
  moved : ∀ {manual now task granted payloads task'}, P task → task.KeysNodup →
    TaskMove manual now task granted payloads task' → P task'
  reordered : ∀ {task stages}, P task → stages.Perm task.stages →
    P { task with stages := stages }

theorem TaskInvariant.change {P : TaskRecord → Prop} (hinv : TaskInvariant P)
    {granted : Option LeaseGrant} (h : DbChange manual now db granted db') (hkeys : db.KeysNodup)
    (hP : ∀ task ∈ db.tasks, P task) : ∀ task ∈ db'.tasks, P task :=
  h.all_tasks hkeys hP (fun _ h => h) (fun _ _ _ _ _ _ => hinv.created _ _ _ _ _)
    (fun _ _ _ hP hnone h => hinv.routed hP hnone h) (fun _ _ _ _ hP hk h => hinv.moved hP hk h)

/-! ## Steps of the control plane -/

/-- The induction behind every invariant: a call is a sequence of changes. -/
theorem ControlStep.keeps {I : Db → Prop} {label : Label}
    (hchange : ∀ manual now db granted db', db.KeysNodup → I db →
      DbChange manual now db granted db' → I db')
    (hadministered : ∀ db db', I db → Administered db db' → I db')
    (hreordered : ∀ db task stages, db.KeysNodup → I db → task ∈ db.tasks →
      stages.Perm task.stages → I (db.saveTask { task with stages := stages }))
    (h : ControlStep self db label db') (hkeys : db.KeysNodup) (hI : I db) : I db' := by
  cases h with
  | returned hanswerable hexec =>
      have hchanges := exec_changes hkeys hanswerable hexec
      exact (hchanges.keeps (I := fun db => db.KeysNodup ∧ I db)
        (fun db granted db' hdb hstep =>
          ⟨hstep.keysNodup hdb.1, hchange _ _ db granted db' hdb.1 hdb.2 hstep⟩) ⟨hkeys, hI⟩).2
  | raised => exact hI
  | administered hadmin => exact hadministered db db' hI hadmin
  | reordered hmem hperm => exact hreordered db _ _ hkeys hI hmem hperm

/-- Another order of a task's rows leaves the table with the same rows. -/
theorem reordered_stages (hkeys : db.KeysNodup) {task : TaskRecord} {stages : List StageRecord}
    (hmem : task ∈ db.tasks) (hperm : stages.Perm task.stages) :
    (db.saveTask { task with stages := stages }).stages.Perm db.stages := by
  simp only [Db.stages, Db.saveTask, replaceKey, List.flatMap_map]
  refine List.Perm.flatMap_left db.tasks fun task₀ h₀ => ?_
  by_cases heq : task₀.taskId = task.taskId
  · have : task₀ = task := List.inj_on_of_nodup_map hkeys.tasks h₀ hmem heq
    simpa [this] using hperm
  · simp [heq]

theorem KeysNodup.reordered (hkeys : db.KeysNodup) {task : TaskRecord}
    {stages : List StageRecord} (hmem : task ∈ db.tasks) (hperm : stages.Perm task.stages) :
    (db.saveTask { task with stages := stages }).KeysNodup :=
  ⟨by rw [saveTask_taskIds]; exact hkeys.tasks,
    ((reordered_stages hkeys hmem hperm).map _).nodup_iff.mpr hkeys.stages⟩

theorem ControlStep.keysNodup {label : Label} (h : ControlStep self db label db')
    (hkeys : db.KeysNodup) : db'.KeysNodup := by
  refine h.keeps (I := Db.KeysNodup) (fun _ _ _ _ _ hkeys _ hstep => hstep.keysNodup hkeys) ?_
    (fun _ _ _ hkeys _ hmem hperm => KeysNodup.reordered hkeys hmem hperm) hkeys hkeys
  intro db db' hkeys hadmin
  exact ⟨hadmin.tasks ▸ hkeys.tasks, by simpa [Db.stages, hadmin.tasks] using hkeys.stages⟩

theorem initial_keysNodup (h : (controlPlane self).Initial db) : db.KeysNodup := by
  have htasks : db.tasks = [] := h.1
  constructor <;> simp [Db.stages, htasks]

theorem run_keysNodup {labels : List Label} (h : (controlPlane self).Run db labels db')
    (hkeys : db.KeysNodup) : db'.KeysNodup :=
  h.keeps (I := Db.KeysNodup) (fun _ _ _ hkeys hstep => ControlStep.keysNodup hstep hkeys) hkeys

theorem reachable_keysNodup (h : (controlPlane self).Reachable db) : db.KeysNodup :=
  h.invariant (I := Db.KeysNodup) (fun _ hinit => initial_keysNodup hinit)
    (fun _ _ _ hkeys hstep => ControlStep.keysNodup hstep hkeys)

theorem TaskInvariant.step {P : TaskRecord → Prop} (hinv : TaskInvariant P) {label : Label}
    (h : ControlStep self db label db') (hkeys : db.KeysNodup)
    (hP : ∀ task ∈ db.tasks, P task) : ∀ task ∈ db'.tasks, P task := by
  refine h.keeps (I := fun db => ∀ task ∈ db.tasks, P task)
    (fun _ _ _ _ _ hkeys hP hstep => hinv.change hstep hkeys hP)
    (fun db db' hP hadmin => hadmin.tasks ▸ hP) ?_ hkeys hP
  intro db task stages _ hP hmem hperm task₀ htask₀
  rcases mem_saveTask htask₀ with rfl | ⟨htask₀, _⟩
  · exact hinv.reordered (hP task hmem) hperm
  · exact hP task₀ htask₀

/-- The invariant rule for properties of single records. -/
theorem TaskInvariant.reachable {P : TaskRecord → Prop} (hinv : TaskInvariant P)
    (h : (controlPlane self).Reachable db) : ∀ task ∈ db.tasks, P task := by
  have hboth : db.KeysNodup ∧ ∀ task ∈ db.tasks, P task := by
    refine h.invariant (I := fun db => db.KeysNodup ∧ ∀ task ∈ db.tasks, P task) ?_ ?_
    · intro db hinit
      have htasks : db.tasks = [] := hinit.1
      exact ⟨initial_keysNodup hinit, by simp [htasks]⟩
    · intro db label db' hdb hstep
      exact ⟨ControlStep.keysNodup hstep hdb.1, hinv.step hstep hdb.1 hdb.2⟩
  exact hboth.2

end ParserServe
