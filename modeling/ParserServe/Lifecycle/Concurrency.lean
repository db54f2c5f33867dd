import ParserServe.Control.Transactions
import ParserServe.Lifecycle.Progress

/-! # Completions that overlap

A completion decides from sibling rows it does not lock.  Two completions that read before
either commits miss each other, and the task stays `RUNNING` with all its stages done.  The
task gets its final status exactly when some completion reads the sibling rows after all
of them are done.
-/

namespace ParserServe

open Foundation

/-! ## Running stages -/

/-- A stage runs only in a running task. -/
def TaskRecord.RunsInside (task : TaskRecord) : Prop :=
  ∀ stage ∈ task.stages, stage.status = .running → task.status = .running

theorem Settled.runsInside {now : Time} {task settled : TaskRecord} (h : Settled now task settled)
    (hruns : task.RunsInside) : settled.RunsInside := by
  have hdone : ∀ stage ∈ task.stages, stage.status = .pending ∨ stage.status.finished →
      stage.status ≠ .running := by
    intro stage _ hstage hrunning
    simp [hrunning, StageStatus.finished] at hstage
  cases h with
  | failed =>
      intro stage hstage hrunning
      obtain ⟨stage₀, _, rfl⟩ := List.mem_map.mp hstage
      rw [stop_status] at hrunning
      cases hs : stage₀.status <;> simp [hs, StageStatus.unfinished] at hrunning
  | succeeded _ hfinished =>
      intro stage hstage hrunning
      exact absurd hrunning (hdone stage hstage (.inr (hfinished stage hstage)))
  | released hrest =>
      intro stage hstage hrunning
      exact absurd hrunning (hdone stage hstage (hrest stage hstage))
  | unsettled => exact hruns

theorem TaskMove.runsInside {manual : Prop} {now : Time} {task task' : TaskRecord}
    {granted : Option LeaseGrant} {payloads : List EventPayload}
    (h : TaskMove manual now task granted payloads task')
    (hagrees : Agrees task.stages task.status) (hruns : task.RunsInside) : task'.RunsInside := by
  cases h with
  | leased grant _ _ hactive =>
      intro stage hstage hrunning
      rcases mem_saveStage hstage with rfl | hstage
      · cases hrunning
      · simp [hruns stage hstage hrunning]
  | @renewed own _ hmem =>
      intro stage hstage hrunning
      rcases mem_saveStage hstage with rfl | hstage
      · exact hruns own hmem hrunning
      · exact hruns stage hstage hrunning
  | @started own hmem hleased =>
      intro _ _ _
      have hstatus := hagrees.of_active hmem (by simp [hleased, StageStatus.active])
      rcases hstatus with hstatus | hstatus <;> simp [hstatus]
  | @progressed own _ _ hmem =>
      intro stage hstage hrunning
      rcases mem_saveStage hstage with rfl | hstage
      · exact hruns own hmem hrunning
      · exact hruns stage hstage hrunning
  | ended hmem hend hsettled =>
      refine hsettled.runsInside ?_
      intro stage hstage hrunning
      rcases mem_saveStage hstage with rfl | hstage
      · have := hend.status
        simp [hrunning, StageStatus.finished] at this
      · exact hruns stage hstage hrunning
  | cancelled =>
      intro stage hstage hrunning
      obtain ⟨stage₀, _, rfl⟩ := List.mem_map.mp hstage
      rw [cancel_status] at hrunning
      cases hs : stage₀.status <;> simp [hs, StageStatus.unfinished] at hrunning
  | retried _ hended =>
      intro stage hstage hrunning
      obtain ⟨stage₀, hmem, rfl⟩ := List.mem_map.mp hstage
      rw [reset_status] at hrunning
      split at hrunning
      · cases hrunning
      · have := hruns stage₀ hmem hrunning
        simp [this] at hended

theorem runsInside_invariant :
    TaskInvariant fun task => task.Consistent ∧ task.RunsInside where
  created _ _ _ _ _ := ⟨consistent_invariant.created .., by simp [TaskRecord.RunsInside, newTask]⟩
  routed := by
    intro now db task task' payloads hP hnone hrouted
    refine ⟨consistent_invariant.routed hP.1 hnone hrouted, ?_⟩
    obtain ⟨_, _, pipeline, stages, hplanned, _, _, rfl, _⟩ := hrouted
    intro stage hstage hrunning
    obtain ⟨_, _, hp⟩ := planned_definition hplanned stage hstage
    rw [hp.status] at hrunning
    cases hrunning
  moved hP hkeys hmove :=
    ⟨consistent_invariant.moved hP.1 hkeys hmove, hmove.runsInside hP.1.agrees hP.2⟩
  reordered hP hperm :=
    ⟨consistent_invariant.reordered hP.1 hperm,
      fun stage hstage => hP.2 stage (hperm.mem_iff.mp hstage)⟩

/-! ## What a completion computes -/

/-- The stage row a successful completion writes. -/
def Completion.finished (call : Completion) (stage : StageRecord) : StageRecord :=
  (stage.recordCompletion call.request).finish call.request.resultUri call.now

/-- The rows other than `stageId` are done. -/
def OthersFinished (stageId : String) (stages : List StageRecord) : Prop :=
  ∀ stage ∈ stages, stage.stageId ≠ stageId → stage.status.finished

instance (stageId : String) (stages : List StageRecord) :
    Decidable (OthersFinished stageId stages) := inferInstanceAs (Decidable (∀ _ ∈ _, _))

/-- On a running task with no failed stage a completion writes the row of its stage, and
decides on success from the other rows. -/
theorem complete_running {call : Completion} {stage : StageRecord} {task computed : TaskRecord}
    {payloads : List EventPayload} (hmem : stage ∈ task.stages)
    (hstatus : task.status = .running) (hfailed : ∀ other ∈ task.stages, other.status ≠ .failed)
    (h : task.complete stage call.request call.now = .ok (computed, payloads)) :
    computed.stages = (task.saveStage (call.finished stage)).stages ∧
      ((computed.status = .succeeded ∧ OthersFinished stage.stageId task.stages) ∨
        (computed.status = .running ∧ ¬ OthersFinished stage.stageId task.stages)) := by
  have hsucceed : stage.complete call.request call.now = .ok (call.finished stage) := by
    simp only [StageRecord.complete, call.succeeded, StageRecord.succeed]
    rfl
  simp only [TaskRecord.complete, bind_eq_ok, ensure_eq_ok, hsucceed] at h
  obtain ⟨_, _, _, _, _, hfin, h⟩ := h
  cases hfin
  obtain ⟨settled, hsettle, rfl, _⟩ := reconcile_eq_ok.mp h
  have hsaved : call.finished stage ∈ (task.saveStage (call.finished stage)).stages :=
    saveStage_mem hmem rfl
  have hothers : (∀ row ∈ (task.saveStage (call.finished stage)).stages, row.status.finished) ↔
      OthersFinished stage.stageId task.stages := by
    constructor
    · intro hall row hrow hne
      exact hall row (mem_replaceKey_of_ne hrow hne)
    · intro hall row hrow
      rcases mem_replaceKey_cases hrow with rfl | ⟨hrow, hne⟩
      · rfl
      · exact hall row hrow hne
  cases Settled.of_settle hsettle with
  | failed hrow hrowFailed =>
      rcases mem_saveStage hrow with rfl | hrow
      · cases hrowFailed
      · exact absurd hrowFailed (hfailed _ hrow)
  | succeeded _ hall => exact ⟨rfl, .inl ⟨rfl, hothers.mp hall⟩⟩
  | released _ _ hleased =>
      rw [show task.status = .leased from hleased] at hstatus
      cases hstatus
  | unsettled _ hnot =>
      refine ⟨rfl, .inr ⟨hstatus, fun hall => hnot ⟨List.ne_nil_of_mem hsaved, ?_⟩⟩⟩
      exact hothers.mpr hall

theorem complete_accepts {call : Completion} {stage : StageRecord} {task computed : TaskRecord}
    {payloads : List EventPayload}
    (h : task.complete stage call.request call.now = .ok (computed, payloads)) :
    stage.status = .running := by
  simp only [TaskRecord.complete, bind_eq_ok, ensure_eq_ok] at h
  obtain ⟨_, _, _, hrunning, _⟩ := h
  exact hrunning

theorem StageRecord.merge_unchanged (loaded current : StageRecord) :
    loaded.merge loaded current = current := by
  simp [StageRecord.merge]

theorem StageRecord.merge_current (loaded computed : StageRecord) :
    loaded.merge computed loaded = computed := by
  simp [StageRecord.merge]

theorem TaskRecord.merge_current {loaded computed : TaskRecord} (hkeys : loaded.KeysNodup)
    (hids : computed.stages.map (·.stageId) = loaded.stages.map (·.stageId)) :
    loaded.merge computed loaded = computed := by
  have hstages := writeBackRows_current StageRecord.merge_current hkeys hids
  simp [TaskRecord.merge, hstages]

/-! ## Steps -/

/-- Everything a step of transaction `i` can do. -/
inductive TxnStep {n : Nat} (calls : Fin n → Completion) (s : Overlap n) (i : Fin n) :
    Overlap n → Prop
  | locked {stage : StageRecord} : s.txns i = .begun →
      s.free calls i (.stage (calls i).stageId) →
        s.task.stage? (calls i).stageId = some stage → TxnStep calls s i (s.move i (.locked stage))
  | taskLoaded {stage : StageRecord} : s.txns i = .locked stage →
      TxnStep calls s i (s.move i (.taskLoaded stage s.task))
  | loaded {stage : StageRecord} {row : TaskRecord} : s.txns i = .taskLoaded stage row →
      TxnStep calls s i (s.move i (.loaded stage
        (TaskRecord.saveStage { row with stages := s.task.stages } stage)))
  | flushed {stage : StageRecord} {task computed : TaskRecord} {payloads : List EventPayload} :
      s.txns i = .loaded stage task →
        task.complete stage (calls i).request (calls i).now = .ok (computed, payloads) →
          TxnStep calls s i (s.move i (.flushed stage task computed))
  | released {stage : StageRecord} {task computed : TaskRecord} :
      s.txns i = .flushed stage task computed →
        TxnStep calls s i (s.move i (.released stage task computed))
  | committed {stage : StageRecord} {task computed : TaskRecord} :
      s.txns i = .released stage task computed →
        TxnStep calls s i ({ s with task := task.merge computed s.task }.move i .committed)
  | ended {txn : Txn} : txn.ended → TxnStep calls s i (s.move i txn)

theorem TxnStep.of_advance {n : Nat} {calls : Fin n → Completion} {s t : Overlap n} {i : Fin n}
    (h : s.advance calls i = some t) : TxnStep calls s i t := by
  unfold Overlap.advance at h
  cases htxn : s.txns i with
  | begun =>
      simp only [htxn] at h
      split at h
      · next hfree =>
          cases hstage : s.task.stage? (calls i).stageId with
          | none =>
              simp only [hstage, Option.some.injEq] at h
              exact h ▸ .ended rfl
          | some stage =>
              simp only [hstage, Option.some.injEq] at h
              exact h ▸ .locked htxn hfree hstage
      · cases h
  | locked stage =>
      simp only [htxn, Option.some.injEq] at h
      exact h ▸ .taskLoaded htxn
  | taskLoaded stage row =>
      simp only [htxn, Option.some.injEq] at h
      exact h ▸ .loaded htxn
  | loaded stage task =>
      simp only [htxn] at h
      split at h
      · split at h <;> cases h <;> exact .ended rfl
      · split at h
        · cases h
          exact .ended rfl
        · next computed payloads hcomplete =>
            split at h
            · cases h
              exact .flushed htxn hcomplete
            · cases h
  | flushed stage task computed =>
      simp only [htxn] at h
      split at h
      · cases h
        exact .released htxn
      · cases h
  | released stage task computed =>
      simp only [htxn, Option.some.injEq] at h
      exact h ▸ .committed htxn
  | committed => simp [htxn] at h
  | rolledBack => simp [htxn] at h

/-! ## What a transaction knows -/

/-- The stage row a transaction has locked. -/
def Txn.held : Txn → Option StageRecord
  | .begun | .committed | .rolledBack => none
  | .locked stage | .taskLoaded stage _ | .loaded stage _ | .flushed stage _ _
  | .released stage _ _ => some stage

/-- The locked row and the task with its stages, once they are loaded. -/
def Txn.read : Txn → Option (StageRecord × TaskRecord)
  | .loaded stage task | .flushed stage task _ | .released stage task _ => some (stage, task)
  | _ => none

/-- A loaded task against the committed rows: the rows are the same, and those that were
done when they were loaded still are. -/
structure Loaded (rows : List StageRecord) (stage : StageRecord) (task : TaskRecord) : Prop where
  keys : task.stages.map (·.stageId) = rows.map (·.stageId)
  own : stage ∈ task.stages
  status : stage.status = .running → task.status = .running
  failed : stage.status = .running → ∀ other ∈ task.stages, other.status ≠ .failed
  finished : ∀ other ∈ task.stages, other.status.finished →
    ∃ row ∈ rows, row.stageId = other.stageId ∧ row.status.finished

/-- What the session of a transaction holds, against the committed rows. -/
structure TxnSound (call : Completion) (rows : List StageRecord) (txn : Txn) : Prop where
  held : ∀ stage, txn.held = some stage → stage ∈ rows ∧ stage.stageId = call.stageId
  status : ∀ stage row, txn = .taskLoaded stage row → stage.status = .running →
    row.status = .running
  read : ∀ stage task, txn.read = some (stage, task) → Loaded rows stage task
  computed : ∀ stage task computed,
    txn = .flushed stage task computed ∨ txn = .released stage task computed →
      ∃ payloads, task.complete stage call.request call.now = .ok (computed, payloads)

theorem TxnSound.of_ended {call : Completion} {rows : List StageRecord} {txn : Txn}
    (h : txn.ended) : TxnSound call rows txn := by
  constructor <;> cases txn <;> simp_all [Txn.ended, Txn.held, Txn.read]

/-- A row that another transaction writes as done. -/
theorem Loaded.replace {rows : List StageRecord} {stage row : StageRecord} {task : TaskRecord}
    (h : Loaded rows stage task) (hrow : row.status.finished) :
    Loaded (replaceKey (·.stageId) row rows) stage task := by
  refine ⟨by rw [map_replaceKey]; exact h.keys, h.own, h.status, h.failed, ?_⟩
  intro other hother hfinished
  obtain ⟨found, hfound, hid, hdone⟩ := h.finished other hother hfinished
  by_cases hkey : found.stageId = row.stageId
  · exact ⟨row, mem_replaceKey_self hfound hkey, hkey.symm.trans hid, hrow⟩
  · exact ⟨found, mem_replaceKey_of_ne hfound hkey, hid, hdone⟩

theorem TxnSound.replace {call : Completion} {rows : List StageRecord} {txn : Txn}
    {row : StageRecord} (h : TxnSound call rows txn) (hrow : row.status.finished)
    (hother : ∀ stage, txn.held = some stage → stage.stageId ≠ row.stageId) :
    TxnSound call (replaceKey (·.stageId) row rows) txn where
  held stage hheld :=
    ⟨mem_replaceKey_of_ne (h.held stage hheld).1 (hother stage hheld), (h.held stage hheld).2⟩
  status := h.status
  read stage task hread := (h.read stage task hread).replace hrow
  computed := h.computed

/-! ## The invariant of the interleaving -/

/-- The stage locks exclude each other, and every session holds what `TxnSound` says. -/
structure Coherent {n : Nat} (calls : Fin n → Completion) (s : Overlap n) : Prop where
  keys : s.task.KeysNodup
  runs : s.task.RunsInside
  failed : ∀ stage ∈ s.task.stages, stage.status = .running →
    ∀ other ∈ s.task.stages, other.status ≠ .failed
  exclusive : ∀ i j stage stage', (s.txns i).held = some stage → (s.txns j).held = some stage' →
    stage.stageId = stage'.stageId → i = j
  txn : ∀ i, TxnSound (calls i) s.task.stages (s.txns i)

section Interleaving

variable {n : Nat} {calls : Fin n → Completion} {s t : Overlap n} {i : Fin n}

@[simp] theorem Overlap.move_task (s : Overlap n) (i : Fin n) (txn : Txn) :
    (s.move i txn).task = s.task := rfl

@[simp] theorem Overlap.move_self (s : Overlap n) (i : Fin n) (txn : Txn) :
    (s.move i txn).txns i = txn := by
  simp [Overlap.move]

theorem Overlap.move_of_ne {j : Fin n} (hne : j ≠ i) (s : Overlap n) (txn : Txn) :
    (s.move i txn).txns j = s.txns j := by
  simp [Overlap.move, hne]

@[simp] theorem Overlap.move_move (s : Overlap n) (i : Fin n) (txn txn' : Txn) :
    (s.move i txn).move i txn' = s.move i txn' := by
  simp [Overlap.move]

/-- A transaction that no other overlaps does to the task what the call does to it in one
step. -/
theorem run_alone {stage : StageRecord} {task : TaskRecord} {payloads : List EventPayload}
    (hkeys : s.task.KeysNodup) (hbegun : s.txns i = .begun)
    (hnolocks : ∀ j, j ≠ i → (s.txns j).locks (calls j) = [])
    (hstage : s.task.stage? (calls i).stageId = some stage)
    (hnone : stage.completionRequestDigest = none)
    (hcomplete : s.task.complete stage (calls i).request (calls i).now = .ok (task, payloads)) :
    (completions calls).Run s (List.replicate 6 i) ({ s with task := task }.move i .committed) := by
  have hfree : ∀ txn row, (s.move i txn).free calls i row := by
    intro txn row j hne
    rw [Overlap.move_of_ne hne, hnolocks j hne]
    exact List.not_mem_nil
  have hmem : stage ∈ s.task.stages := List.mem_of_find?_eq_some hstage
  have hsaved : s.task.saveStage stage = s.task := by
    unfold TaskRecord.saveStage
    rw [replaceKey_self hkeys hmem]
  have hmove : TaskMove False (calls i).now s.task none payloads task :=
    .of_complete hmem hnone hcomplete
  have hmerge := TaskRecord.merge_current hkeys (hmove.stageIds hkeys)
  have hlock : s.advance calls i = some (s.move i (.locked stage)) := by
    have hfreeStage : s.free calls i (.stage (calls i).stageId) := by
      intro j hne
      rw [hnolocks j hne]
      exact List.not_mem_nil
    simp [Overlap.advance, hbegun, hfreeStage, hstage]
  have htask : (s.move i (.locked stage)).advance calls i =
      some (s.move i (.taskLoaded stage s.task)) := by
    simp [Overlap.advance]
  have hload : (s.move i (.taskLoaded stage s.task)).advance calls i =
      some (s.move i (.loaded stage s.task)) := by
    simp [Overlap.advance, hsaved]
  have hflush : (s.move i (.loaded stage s.task)).advance calls i =
      some (s.move i (.flushed stage s.task task)) := by
    simp [Overlap.advance, hnone, hcomplete, hfree]
  have hrelease : (s.move i (.flushed stage s.task task)).advance calls i =
      some (s.move i (.released stage s.task task)) := by
    simp [Overlap.advance, hfree]
  have hcommit : (s.move i (.released stage s.task task)).advance calls i =
      some ({ s with task := task }.move i .committed) := by
    simp [Overlap.advance, hmerge, Overlap.move]
  refine System.ofStep_run ?_
  simp [List.replicate, hlock, htask, hload, hflush, hrelease, hcommit]

/-- A transaction that moves on without a commit. -/
theorem Coherent.move (h : Coherent calls s) {txn : Txn}
    (hsound : TxnSound (calls i) s.task.stages txn)
    (hlock : ∀ stage, txn.held = some stage →
      ∀ j, j ≠ i → ∀ stage', (s.txns j).held = some stage' → stage.stageId ≠ stage'.stageId) :
    Coherent calls (s.move i txn) where
  keys := h.keys
  runs := h.runs
  failed := h.failed
  exclusive j k stage stage' hj hk hid := by
    by_cases hji : j = i
    · by_cases hki : k = i
      · rw [hji, hki]
      · rw [hji, Overlap.move_self] at hj
        rw [Overlap.move_of_ne hki] at hk
        exact absurd hid (hlock stage hj k hki stage' hk)
    · rw [Overlap.move_of_ne hji] at hj
      by_cases hki : k = i
      · rw [hki, Overlap.move_self] at hk
        exact absurd hid.symm (hlock stage' hk j hji stage hj)
      · rw [Overlap.move_of_ne hki] at hk
        exact h.exclusive j k stage stage' hj hk hid
  txn j := by
    by_cases hji : j = i
    · rw [hji, Overlap.move_self]
      exact hsound
    · rw [Overlap.move_of_ne hji]
      exact h.txn j

/-- A transaction that keeps its lock keeps the others out. -/
theorem Coherent.keep (h : Coherent calls s) {txn : Txn}
    (hsound : TxnSound (calls i) s.task.stages txn) (hheld : txn.held = (s.txns i).held) :
    Coherent calls (s.move i txn) := by
  refine h.move hsound ?_
  intro stage hstage j hne stage' hstage' hid
  exact hne (h.exclusive i j stage stage' (hheld ▸ hstage) hstage' hid).symm

theorem locks_of_held {call : Completion} {txn : Txn} {stage : StageRecord}
    (h : txn.held = some stage) : Row.stage call.stageId ∈ txn.locks call := by
  cases txn <;> simp_all [Txn.held, Txn.locks]

theorem Loaded.others {rows : List StageRecord} {stage : StageRecord} {task : TaskRecord}
    (h : Loaded rows stage task) (hkeys : (rows.map (·.stageId)).Nodup)
    (hothers : OthersFinished stage.stageId task.stages) : OthersFinished stage.stageId rows := by
  intro row hrow hne
  have hid : row.stageId ∈ task.stages.map (·.stageId) := by
    rw [h.keys]
    exact List.mem_map_of_mem hrow
  obtain ⟨other, hother, hotherId⟩ := List.mem_map.mp hid
  obtain ⟨found, hfound, hfoundId, hfinished⟩ :=
    h.finished other hother (hothers other hother (hotherId ▸ hne))
  have heq : found = row :=
    List.inj_on_of_nodup_map hkeys hfound hrow (hfoundId.trans hotherId)
  exact heq ▸ hfinished

/-- What the commit of a completion leaves: its own stage is done, the other rows stay, and
the task has succeeded if the rows that were loaded said so. -/
theorem Coherent.merge (h : Coherent calls s) {stage : StageRecord} {task computed : TaskRecord}
    (htxn : s.txns i = .released stage task computed) :
    stage ∈ s.task.stages ∧ stage.status = .running ∧
      (task.merge computed s.task).stages =
        replaceKey (·.stageId) ((calls i).finished stage) s.task.stages ∧
      (((task.merge computed s.task).status = .succeeded ∧
          OthersFinished stage.stageId task.stages) ∨
        ((task.merge computed s.task).status = .running ∧
          ¬ OthersFinished stage.stageId task.stages)) := by
  have hsound := h.txn i
  rw [htxn] at hsound
  obtain ⟨hmem, _⟩ := hsound.held stage rfl
  have hloaded := hsound.read stage task rfl
  obtain ⟨payloads, hcomplete⟩ := hsound.computed stage task computed (.inr rfl)
  have hrunning := complete_accepts hcomplete
  have hstatus := hloaded.status hrunning
  obtain ⟨hstages, hdecision⟩ :=
    complete_running hloaded.own hstatus (hloaded.failed hrunning) hcomplete
  have hmerged : (task.merge computed s.task).status = computed.status := by
    show writeBack task.status computed.status s.task.status = computed.status
    rw [h.runs stage hmem hrunning, hstatus, writeBack_current]
  refine ⟨hmem, hrunning, ?_, hmerged ▸ hdecision⟩
  show writeBackRows _ _ task.stages computed.stages s.task.stages = _
  rw [hstages]
  exact writeBackRows_replaceKey StageRecord.merge_unchanged StageRecord.merge_current
    (hloaded.keys ▸ h.keys) h.keys hloaded.own hmem rfl

/-- A row that no transaction has locked is written as done. -/
theorem Coherent.write (h : Coherent calls s) {row : StageRecord} {task : TaskRecord}
    (hrow : row.status.finished) (hstages : task.stages = replaceKey (·.stageId) row s.task.stages)
    (hruns : task.RunsInside) (hfailed : ∀ other ∈ s.task.stages, other.status ≠ .failed)
    (hfree : ∀ j stage, (s.txns j).held = some stage → stage.stageId ≠ row.stageId) :
    Coherent calls { s with task := task } where
  keys := by
    show (task.stages.map (·.stageId)).Nodup
    rw [hstages, map_replaceKey]
    exact h.keys
  runs := hruns
  failed stage _ _ other hother := by
    rw [hstages] at hother
    rcases mem_replaceKey_cases hother with rfl | ⟨hother, _⟩
    · intro hs
      simp [hs, StageStatus.finished] at hrow
    · exact hfailed other hother
  exclusive := h.exclusive
  txn j := by
    show TxnSound (calls j) task.stages (s.txns j)
    rw [hstages]
    exact (h.txn j).replace hrow (hfree j)

theorem Coherent.commit (h : Coherent calls s) {stage : StageRecord} {task computed : TaskRecord}
    (htxn : s.txns i = .released stage task computed) :
    Coherent calls ({ s with task := task.merge computed s.task }.move i .committed) := by
  obtain ⟨hmem, hrunning, hstages, hdecision⟩ := h.merge htxn
  have hsound := h.txn i
  rw [htxn] at hsound
  have hloaded := hsound.read stage task rfl
  have hclosed : Coherent calls (s.move i .committed) :=
    h.move (.of_ended rfl) (fun _ hheld => by cases hheld)
  have hwritten :
      Coherent calls { s.move i .committed with task := task.merge computed s.task } := by
    have hdone : ((calls i).finished stage).status.finished := rfl
    refine hclosed.write hdone hstages ?_ (h.failed stage hmem hrunning) ?_
    · intro row hrow hrowRunning
      rcases hdecision with ⟨_, hothers⟩ | ⟨hstatus, _⟩
      · -- the other rows were done when they were loaded
        rw [hstages] at hrow
        rcases mem_replaceKey_cases hrow with rfl | ⟨hrow, hne⟩
        · cases hrowRunning
        · have := hloaded.others h.keys hothers row hrow hne
          simp [hrowRunning, StageStatus.finished] at this
      · exact hstatus
    · intro j other hother hid
      by_cases hji : j = i
      · rw [hji, Overlap.move_self] at hother
        cases hother
      · rw [Overlap.move_of_ne hji] at hother
        exact hji (h.exclusive j i other stage hother (by rw [htxn]; rfl) hid)
  exact hwritten

theorem TxnStep.coherent (hstep : TxnStep calls s i t) (h : Coherent calls s) :
    Coherent calls t := by
  have hsound := h.txn i
  cases hstep with
  | @locked stage htxn hfree hfind =>
      have hid : stage.stageId = (calls i).stageId := by simpa using List.find?_some hfind
      have hmem : stage ∈ s.task.stages := List.mem_of_find?_eq_some hfind
      refine h.move ⟨?_, by simp, by simp [Txn.read], by simp⟩ ?_
      · intro held hheld
        cases hheld
        exact ⟨hmem, hid⟩
      · intro held hheld j hne other hother hsame
        cases hheld
        have hotherId := ((h.txn j).held other hother).2
        have hlocks : Row.stage (calls j).stageId ∈ (s.txns j).locks (calls j) :=
          locks_of_held hother
        rw [← hotherId, ← hsame, hid] at hlocks
        exact hfree j hne hlocks
  | @taskLoaded stage htxn =>
      rw [htxn] at hsound
      refine h.keep ⟨hsound.held, ?_, by simp [Txn.read], by simp⟩ (by rw [htxn]; rfl)
      intro loaded row hloaded hrunning
      cases hloaded
      exact h.runs stage (hsound.held stage rfl).1 hrunning
  | @loaded stage row htxn =>
      rw [htxn] at hsound
      obtain ⟨hmem, hid⟩ := hsound.held stage rfl
      refine h.keep ⟨hsound.held, by simp, ?_, by simp⟩ (by rw [htxn]; rfl)
      intro own task hread
      cases hread
      -- the locked row is still the committed one, so the loaded rows are the committed rows
      have hrows : (TaskRecord.saveStage { row with stages := s.task.stages } stage).stages =
          s.task.stages := replaceKey_self h.keys hmem
      refine ⟨by rw [hrows], by rw [hrows]; exact hmem, hsound.status stage row rfl, ?_, ?_⟩
      · rw [hrows]
        exact h.failed stage hmem
      · rw [hrows]
        exact fun other hother hfinished => ⟨other, hother, rfl, hfinished⟩
  | @flushed stage task computed payloads htxn hcomplete =>
      rw [htxn] at hsound
      refine h.keep ⟨hsound.held, by simp, hsound.read, ?_⟩ (by rw [htxn]; rfl)
      rintro _ _ _ (heq | heq) <;> cases heq
      exact ⟨payloads, hcomplete⟩
  | @released stage task computed htxn =>
      rw [htxn] at hsound
      refine h.keep ⟨hsound.held, by simp, hsound.read, ?_⟩ (by rw [htxn]; rfl)
      rintro _ _ _ (heq | heq) <;> cases heq
      exact hsound.computed stage task computed (.inl rfl)
  | committed htxn => exact h.commit htxn
  | @ended txn hended =>
      refine h.move (.of_ended hended) ?_
      intro stage hheld
      cases txn <;> simp_all [Txn.ended, Txn.held]

theorem run_coherent {schedule : List (Fin n)} (hrun : (completions calls).Run s schedule t)
    (h : Coherent calls s) : Coherent calls t :=
  hrun.keeps (I := Coherent calls) (fun _ _ _ h hstep => (TxnStep.of_advance hstep).coherent h) h

/-- What the steps of coherent states preserve, a run from a coherent state preserves. -/
theorem run_keeps {I : Overlap n → Prop} {schedule : List (Fin n)}
    (hstep : ∀ s i t, Coherent calls s → TxnStep calls s i t → I s → I t)
    (hrun : (completions calls).Run s schedule t) (h : Coherent calls s) (hI : I s) : I t := by
  have hboth : Coherent calls t ∧ I t := by
    refine hrun.keeps (I := fun s => Coherent calls s ∧ I s) ?_ ⟨h, hI⟩
    intro s i t hs hadvance
    have hmove := TxnStep.of_advance hadvance
    exact ⟨hmove.coherent hs.1, hstep s i t hs.1 hmove hs.2⟩
  exact hboth.2

theorem coherent_start {self : StageScheduler} {db : Db} {task : TaskRecord}
    (hreach : (controlPlane self).Reachable db) (hmem : task ∈ db.tasks) :
    Coherent calls (.start n task) := by
  obtain ⟨hcons, hruns⟩ := runsInside_invariant.reachable hreach task hmem
  refine ⟨(reachable_keysNodup hreach).task hmem, hruns, ?_, by simp [Overlap.start, Txn.held], ?_⟩
  · intro stage hstage hrunning other hother hfailed
    have hagrees := hcons.agrees
    have hstatus : task.status = .running := hruns stage hstage hrunning
    rw [hstatus] at hagrees
    have := hagrees.1 other hother
    simp [hfailed, StageStatus.unfinished, StageStatus.finished] at this
  · intro j
    constructor <;> simp [Overlap.start, Txn.held, Txn.read]

/-! ## The last reader -/

/-- A transaction that is about to read the rows of the task while its own stage runs and
all the others are done. -/
def Txn.ReadsLast (rows : List StageRecord) : Txn → Prop
  | .taskLoaded stage _ => stage.status = .running ∧ OthersFinished stage.stageId rows
  | _ => False

instance (rows : List StageRecord) (txn : Txn) : Decidable (txn.ReadsLast rows) :=
  match txn with
  | .taskLoaded _ _ => inferInstanceAs (Decidable (_ ∧ _))
  | .begun | .locked _ | .loaded _ _ | .flushed _ _ _ | .released _ _ _ | .committed
  | .rolledBack => inferInstanceAs (Decidable False)

/-- Somewhere in the schedule a transaction reads last. -/
def SomeReadsLast (calls : Fin n → Completion) (task : TaskRecord) (schedule : List (Fin n)) :
    Prop :=
  ∃ before i after s, schedule = before ++ i :: after ∧
    (completions calls).Run (.start n task) before s ∧ (s.txns i).ReadsLast s.task.stages

theorem SomeReadsLast.append {task : TaskRecord} {schedule : List (Fin n)}
    (h : SomeReadsLast calls task schedule) (more : List (Fin n)) :
    SomeReadsLast calls task (schedule ++ more) := by
  obtain ⟨before, i, after, s, rfl, hrun, hlast⟩ := h
  exact ⟨before, i, after ++ more, s, by simp, hrun, hlast⟩

/-- Only the transaction that moves can have loaded something new. -/
theorem TxnStep.read_cases (hstep : TxnStep calls s i t) {j : Fin n} {stage : StageRecord}
    {task : TaskRecord} (hread : (t.txns j).read = some (stage, task)) :
    (s.txns j).read = some (stage, task) ∨
      ∃ row, j = i ∧ s.txns i = .taskLoaded stage row ∧
        task = TaskRecord.saveStage { row with stages := s.task.stages } stage := by
  by_cases hji : j = i
  · subst hji
    cases hstep with
    | locked | taskLoaded | committed =>
        rw [Overlap.move_self] at hread
        cases hread
    | loaded htxn =>
        rw [Overlap.move_self] at hread
        cases hread
        exact .inr ⟨_, rfl, htxn, rfl⟩
    | flushed htxn | released htxn =>
        rw [Overlap.move_self] at hread
        exact .inl (by rw [htxn]; exact hread)
    | @ended txn hended =>
        rw [Overlap.move_self] at hread
        cases txn <;> simp_all [Txn.ended, Txn.read]
  · left
    cases hstep with
    | locked | taskLoaded | loaded | flushed | released | committed | ended =>
        rwa [Overlap.move_of_ne hji] at hread

/-- The rows of the task change by a commit only. -/
theorem TxnStep.task_cases (hstep : TxnStep calls s i t) :
    t.task = s.task ∨ ∃ stage task computed, s.txns i = .released stage task computed ∧
      t.task = task.merge computed s.task := by
  cases hstep with
  | committed htxn => exact .inr ⟨_, _, _, htxn, rfl⟩
  | locked | taskLoaded | loaded | flushed | released | ended => exact .inl rfl

/-- A task that succeeded, and a session that will say so, go back to a last reader. -/
structure Explained (calls : Fin n → Completion) (task : TaskRecord) (schedule : List (Fin n))
    (s : Overlap n) : Prop where
  status : s.task.status = .succeeded →
    task.status = .succeeded ∨ SomeReadsLast calls task schedule
  read : ∀ i stage loaded, (s.txns i).read = some (stage, loaded) → stage.status = .running →
    OthersFinished stage.stageId loaded.stages → SomeReadsLast calls task schedule

theorem run_explained {task : TaskRecord} {schedule : List (Fin n)}
    (hstart : Coherent calls (.start n task))
    (hrun : (completions calls).Run (.start n task) schedule s) :
    Explained calls task schedule s := by
  induction hrun with
  | nil => exact ⟨.inl, by simp [Overlap.start, Txn.read]⟩
  | @snoc u t schedule i hrun hstep ih =>
      obtain ⟨hstatus, hread⟩ := ih
      have hcoherent : Coherent calls u := run_coherent hrun hstart
      have hmove := TxnStep.of_advance hstep
      constructor
      · intro hsucceeded
        rcases hmove.task_cases with heq | ⟨stage, loaded, computed, htxn, heq⟩
        · rw [heq] at hsucceeded
          exact (hstatus hsucceeded).imp id (·.append [i])
        · obtain ⟨_, hrunning, _, hdecision⟩ := hcoherent.merge htxn
          rw [heq] at hsucceeded
          rcases hdecision with ⟨_, hothers⟩ | ⟨hopen, _⟩
          · have hsession : (u.txns i).read = some (stage, loaded) := by rw [htxn]; rfl
            exact .inr ((hread i stage loaded hsession hrunning hothers).append [i])
          · rw [hopen] at hsucceeded
            cases hsucceeded
      · intro j stage loaded hloaded hrunning hothers
        rcases hmove.read_cases hloaded with hold | ⟨row, rfl, htxn, rfl⟩
        · exact (hread j stage loaded hold hrunning hothers).append [i]
        · refine ⟨schedule, j, [], u, rfl, hrun, ?_⟩
          rw [htxn]
          refine ⟨hrunning, ?_⟩
          intro other hother hne
          exact hothers other (mem_replaceKey_of_ne hother hne) hne

/-- One stage is left to complete, and whoever completes it has seen that. -/
structure Closing (stageId : String) (s : Overlap n) : Prop where
  others : OthersFinished stageId s.task.stages
  running : ∃ stage ∈ s.task.stages, stage.stageId = stageId ∧ stage.status = .running
  read : ∀ i stage task, (s.txns i).read = some (stage, task) → stage.stageId = stageId →
    OthersFinished stageId task.stages

theorem TxnStep.closing {stageId : String} (hstep : TxnStep calls s i t)
    (h : Coherent calls s) (hclosing : Closing stageId s) :
    t.task.status = .succeeded ∨ Closing stageId t := by
  have hread : ∀ j stage task, (t.txns j).read = some (stage, task) → stage.stageId = stageId →
      OthersFinished stageId task.stages := by
    intro j stage task hread hid
    rcases hstep.read_cases hread with hold | ⟨row, rfl, _, rfl⟩
    · exact hclosing.read j stage task hold hid
    · intro other hother hne
      rcases mem_replaceKey_cases hother with rfl | ⟨hother, _⟩
      · exact absurd hid hne
      · exact hclosing.others other hother hne
  rcases hstep.task_cases with heq | ⟨stage, task, computed, htxn, heq⟩
  · exact .inr ⟨heq ▸ hclosing.others, heq ▸ hclosing.running, hread⟩
  · -- the stage that commits was running, so it is the one that was left
    obtain ⟨hmem, hrunning, _, hdecision⟩ := h.merge htxn
    have hid : stage.stageId = stageId := by
      by_contra hne
      have := hclosing.others stage hmem hne
      simp [hrunning, StageStatus.finished] at this
    have hothers := hclosing.read i stage task (by rw [htxn]; rfl) hid
    rcases hdecision with ⟨hsucceeded, _⟩ | ⟨_, hnot⟩
    · exact .inl (heq ▸ hsucceeded)
    · exact absurd (hid ▸ hothers) hnot

/-- No completion commits on a task that has succeeded. -/
theorem TxnStep.succeeded (hstep : TxnStep calls s i t) (h : Coherent calls s)
    (hsucceeded : s.task.status = .succeeded) : t.task.status = .succeeded := by
  rcases hstep.task_cases with heq | ⟨stage, task, computed, htxn, _⟩
  · rw [heq]
    exact hsucceeded
  · obtain ⟨hmem, hrunning, _, _⟩ := h.merge htxn
    rw [h.runs stage hmem hrunning] at hsucceeded
    cases hsucceeded

theorem Txn.ReadsLast.taskLoaded {rows : List StageRecord} {txn : Txn} (h : txn.ReadsLast rows) :
    ∃ stage row, txn = .taskLoaded stage row ∧ stage.status = .running ∧
      OthersFinished stage.stageId rows := by
  cases txn with
  | taskLoaded stage row => exact ⟨stage, row, rfl, h⟩
  | begun | locked | loaded | flushed | released | committed | rolledBack => cases h

theorem TxnStep.closing_of_readsLast (hstep : TxnStep calls s i t) (h : Coherent calls s)
    (hlast : (s.txns i).ReadsLast s.task.stages) : ∃ stageId, Closing stageId t := by
  obtain ⟨stage, row, htxn, hrunning, hothers⟩ := hlast.taskLoaded
  have hheld : (s.txns i).held = some stage := by rw [htxn]; rfl
  have hmem := ((h.txn i).held stage hheld).1
  have htask : t.task = s.task := by
    rcases hstep.task_cases with heq | ⟨_, _, _, hreleased, _⟩
    · exact heq
    · rw [htxn] at hreleased
      cases hreleased
  refine ⟨stage.stageId, htask ▸ hothers, htask ▸ ⟨stage, hmem, rfl, hrunning⟩, ?_⟩
  intro j other task hread hid
  rcases hstep.read_cases hread with hold | ⟨_, rfl, _, rfl⟩
  · -- another session with this row loaded would hold its lock
    have hother : (s.txns j).held = some other := by
      cases hj : s.txns j <;> simp_all [Txn.read, Txn.held]
    have hji := h.exclusive j i other stage hother hheld hid
    rw [hji, htxn] at hold
    cases hold
  · intro row hrow hne
    rcases mem_replaceKey_cases hrow with rfl | ⟨hrow, _⟩
    · exact absurd hid hne
    · exact hothers row hrow hne

/-- From the last read on the task has succeeded once its stages are done. -/
theorem run_closing {stageId : String} {schedule : List (Fin n)}
    (hrun : (completions calls).Run s schedule t) (h : Coherent calls s)
    (hclosing : Closing stageId s) : t.task.status = .succeeded ∨ Closing stageId t := by
  refine run_keeps (I := fun s => s.task.status = .succeeded ∨ Closing stageId s) ?_ hrun h
    (.inr hclosing)
  intro s i t hs hmove hI
  rcases hI with hsucceeded | hclosing
  · exact .inl (hmove.succeeded hs hsucceeded)
  · exact hmove.closing hs hclosing

/-- In any interleaving of completions, once every stage is done the task has succeeded
exactly when it had before, or when one of them read the rows of the task as the last. -/
theorem overlapping_completions_succeed_iff {self : StageScheduler} {db : Db} {task : TaskRecord}
    (hreach : (controlPlane self).Reachable db) (hmem : task ∈ db.tasks)
    {schedule : List (Fin n)} {final : Overlap n}
    (hrun : (completions calls).Run (.start n task) schedule final)
    (hfinished : ∀ stage ∈ final.task.stages, stage.status.finished) :
    final.task.status = .succeeded ↔
      task.status = .succeeded ∨ SomeReadsLast calls task schedule := by
  have hstart : Coherent calls (.start n task) := coherent_start hreach hmem
  constructor
  · exact (run_explained hstart hrun).status
  · rintro (hsucceeded | ⟨before, i, after, s, rfl, hbefore, hlast⟩)
    · exact run_keeps (I := fun s => s.task.status = .succeeded)
        (fun _ _ _ hs hmove hI => hmove.succeeded hs hI) hrun hstart hsucceeded
    · have hcoherent : Coherent calls s := run_coherent hbefore hstart
      obtain ⟨t, hstep, hafter⟩ := (System.ofStep_run_rest hrun hbefore).uncons
      have hread := TxnStep.of_advance hstep
      obtain ⟨stageId, hclosing⟩ := hread.closing_of_readsLast hcoherent hlast
      rcases run_closing hafter (hread.coherent hcoherent) hclosing with hdone | hopen
      · exact hdone
      · obtain ⟨stage, hstage, _, hrunning⟩ := hopen.running
        have := hfinished stage hstage
        simp [hrunning, StageStatus.finished] at this

end Interleaving

/-! ## A pipeline that ends with two parallel stages -/

def parallelPipeline : PipelineDefinition :=
  { samplePipeline with
    stages := samplePipeline.stages.take 2
    stages_ne_nil := by decide
    dag_valid := by decide +kernel }

/-- Both stages of the pipeline are running. -/
def parallelDb : Db :=
  afterScript sampleScheduler { sampleDb with pipelines := [⟨1, parallelPipeline⟩] }
    (leaseScript.take 2 ++
      [.lease { workerId := "worker", availableSlots := 3 } ["stage-layout", "stage-tables"]
          (fun n => if n = 0 then "token-layout" else "token-tables") 2,
        .start "stage-layout" "worker" "token-layout" 3,
        .start "stage-tables" "worker" "token-tables" 3])

theorem parallelDb_reachable : (controlPlane sampleScheduler).Reachable parallelDb :=
  afterScript_reachable ⟨_, [], ⟨rfl, rfl⟩, .nil _⟩

def bothCompletions : Fin 2 → Completion
  | 0 => ⟨"stage-layout", sampleCompletion "token-layout" "s3://layout", 4, rfl⟩
  | 1 => ⟨"stage-tables", sampleCompletion "token-tables" "s3://tables", 4, rfl⟩

/-- Both transactions committed and both stages succeeded. -/
def Overlap.Completed (s : Overlap 2) : Prop :=
  (∀ i, s.txns i = .committed) ∧ ∀ stage ∈ s.task.stages, stage.status = .succeeded

instance (s : Overlap 2) : Decidable s.Completed := inferInstanceAs (Decidable (_ ∧ _))

/-- The second completion begins after the first has committed. -/
theorem overlapping_completions_succeed_serial : ∃ task ∈ parallelDb.tasks, ∃ final,
    (completions bothCompletions).Run (.start 2 task) [0, 0, 0, 0, 0, 0, 1, 1, 1, 1, 1, 1] final ∧
      final.Completed ∧ final.task.status = .succeeded := by
  have hruns : ∃ task ∈ parallelDb.tasks,
      (∃ s ∈ [0, 0, 0, 0, 0, 0, 1, 1].foldlM (Overlap.advance bothCompletions) (.start 2 task),
        (s.txns 1).ReadsLast s.task.stages) ∧
      ∃ final ∈ [0, 0, 0, 0, 0, 0, 1, 1, 1, 1, 1, 1].foldlM
          (Overlap.advance bothCompletions) (.start 2 task),
        final.Completed ∧ ∀ stage ∈ final.task.stages, stage.status.finished := by
    decide +kernel
  obtain ⟨task, hmem, ⟨s, hs, hlast⟩, final, hfinal, hcompleted, hfinished⟩ := hruns
  refine ⟨task, hmem, final, System.ofStep_run hfinal, hcompleted, ?_⟩
  exact (overlapping_completions_succeed_iff parallelDb_reachable hmem
    (System.ofStep_run hfinal) hfinished).mpr
      (.inr ⟨[0, 0, 0, 0, 0, 0, 1, 1], 1, [1, 1, 1], s, rfl, System.ofStep_run hs, hlast⟩)

/-- Each completion reads the row of the other before that one commits: both commit, and the
task stays `RUNNING`. -/
theorem overlapping_completions_lost : (controlPlane sampleScheduler).Reachable parallelDb ∧
    ∃ task ∈ parallelDb.tasks, ∃ final,
      (completions bothCompletions).Run (.start 2 task)
          [0, 0, 0, 1, 1, 1, 0, 0, 0, 1, 1, 1] final ∧
        final.Completed ∧ final.task.status = .running := by
  have hrun : ∃ task ∈ parallelDb.tasks,
      ∃ final ∈ [0, 0, 0, 1, 1, 1, 0, 0, 0, 1, 1, 1].foldlM
          (Overlap.advance bothCompletions) (.start 2 task),
        final.Completed ∧ final.task.status = .running := by
    decide +kernel
  obtain ⟨task, hmem, final, hfinal, hend⟩ := hrun
  exact ⟨parallelDb_reachable, task, hmem, final, System.ofStep_run hfinal, hend⟩

end ParserServe
