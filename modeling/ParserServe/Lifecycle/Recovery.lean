import ParserServe.Lifecycle.Progress

/-! # Recovery of expired leases

`requeue_expired` walks over rows it selected before its first write.  A row whose stage has
used up its attempts fails the task, and the reconciliation cancels the siblings, also those
that stand later in the same list; the guard of `_fail_or_retry_stage` then raises for them
and the whole pass is rolled back.  This happens for no other reason.
-/

namespace ParserServe

open Foundation

variable {self : StageScheduler} {manual : Prop} {now : Time} {task task' : TaskRecord}
  {stage : StageRecord}
  {payloads : List EventPayload} {db db' : Db}

/-- The next expiry of this stage fails its task. -/
def StageRecord.exhausted (s : StageRecord) : Prop :=
  ¬ s.attempt < s.maximumAttempts ∧ ¬ s.optional

/-! ## One row -/

theorem expire_isOk (hcons : task.Consistent) (hmem : stage ∈ task.stages)
    (hactive : stage.status.active) :
    ∃ task' payloads, task.expire stage now = .ok (task', payloads) := by
  have hfail : ∃ stage', stage.failOrRetry (some (timeoutError stage)) now = .ok stage' := by
    by_cases hattempt : stage.attempt < stage.maximumAttempts
    · exact ⟨_, failOrRetry_eq_ok.mpr ⟨hactive, .inl ⟨hattempt, rfl⟩⟩⟩
    · by_cases hoptional : stage.optional
      · exact ⟨_, failOrRetry_eq_ok.mpr ⟨hactive, .inr (.inl ⟨hattempt, hoptional, rfl⟩)⟩⟩
      · exact ⟨_, failOrRetry_eq_ok.mpr ⟨hactive, .inr (.inr ⟨hattempt, hoptional, rfl⟩)⟩⟩
  obtain ⟨stage', hstage'⟩ := hfail
  have hstatus : (task.saveStage stage').status = .leased ∨
      (task.saveStage stage').status = .running := hcons.agrees.of_active hmem hactive
  obtain ⟨settled, hsettle⟩ : ∃ settled, (task.saveStage stage').settle now = .ok settled :=
    settle_isOk hstatus
  have hreconcile := reconcile_eq_ok.mpr ⟨settled, hsettle, rfl, rfl⟩
  exact ⟨_, _, bind_eq_ok.mpr ⟨stage', hstage', hreconcile⟩⟩

theorem failOrRetry_status_of_not_exhausted {s s' : StageRecord} {error : Option ErrorDetail}
    (h : s.failOrRetry error now = .ok s') (hleft : ¬ s.exhausted) : s'.status ≠ .failed := by
  obtain ⟨_, ⟨_, rfl⟩ | ⟨_, _, rfl⟩ | ⟨hge, hopt, _⟩⟩ := failOrRetry_eq_ok.mp h
  · simp [StageRecord.requeue, StageRecord.clearLease]
  · simp [StageRecord.skip, StageRecord.clearLease]
  · exact absurd ⟨hge, hopt⟩ hleft

theorem failOrRetry_status_of_exhausted {s s' : StageRecord} {error : Option ErrorDetail}
    (h : s.failOrRetry error now = .ok s') (hout : s.exhausted) : s'.status = .failed := by
  obtain ⟨_, ⟨hlt, _⟩ | ⟨_, hopt, _⟩ | ⟨_, _, rfl⟩⟩ := failOrRetry_eq_ok.mp h
  · exact absurd hlt hout.1
  · exact absurd hopt hout.2
  · rfl

theorem failOrRetry_attempt {s s' : StageRecord} {error : Option ErrorDetail}
    (h : s.failOrRetry error now = .ok s') : s'.attempt = s.attempt := by
  obtain ⟨_, ⟨_, rfl⟩ | ⟨_, _, rfl⟩ | ⟨_, _, rfl⟩⟩ := failOrRetry_eq_ok.mp h <;> rfl

theorem stop_attempt (s : StageRecord) (now : Time) : (s.stop now).attempt = s.attempt := by
  unfold StageRecord.stop
  split <;> rfl

/-- What the expiry of one stage does to the stages of its task: those that stay held are
the others, as they were, and none stays held exactly when the attempts were used up. -/
theorem expire_spec (hkeys : task.KeysNodup) (hcons : task.Consistent)
    (hmem : stage ∈ task.stages) (h : task.expire stage now = .ok (task', payloads)) :
    stage.status.active ∧ ∃ f : StageRecord → StageRecord, task'.stages = task.stages.map f ∧
      (∀ s ∈ task.stages, SamePlan s (f s) ∧ (f s).attempt = s.attempt) ∧
      (∀ s ∈ task.stages, (f s).status.active → f s = s ∧ s ≠ stage) ∧
      (stage.exhausted → ∀ s ∈ task.stages, ¬ (f s).status.active) ∧
      (¬ stage.exhausted → ∀ s ∈ task.stages, s ≠ stage → f s = s) := by
  simp only [TaskRecord.expire, bind_eq_ok] at h
  obtain ⟨stage', hfail, h⟩ := h
  obtain ⟨settled, hsettle, rfl, _⟩ := reconcile_eq_ok.mp h
  have hend : Ended now stage stage' := .expired (.of_failOrRetry hfail)
  have hactive := hend.active
  obtain ⟨f, hf, hself, hother⟩ := saveStage_stages hkeys hmem hend.samePlan.stageId
  have hplan : ∀ s ∈ task.stages, SamePlan s (f s) ∧ (f s).attempt = s.attempt := by
    intro s hs
    by_cases hne : s = stage
    · rw [hne, hself]
      exact ⟨hend.samePlan, failOrRetry_attempt hfail⟩
    · rw [(hother s hs hne).1]
      exact ⟨.refl s, rfl⟩
  have hheld : ∀ s ∈ task.stages, (f s).status.active → f s = s ∧ s ≠ stage := by
    intro s hs hheld
    by_cases hne : s = stage
    · rw [hne, hself] at hheld
      rcases hend.status with h | h | h <;>
        cases hs' : stage'.status <;> simp_all [StageStatus.active, StageStatus.finished]
    · exact ⟨(hother s hs hne).1, hne⟩
  have hsaved : stage' ∈ (task.saveStage stage').stages :=
    saveStage_mem hmem hend.samePlan.stageId
  refine ⟨hactive, ?_⟩
  cases Settled.of_settle hsettle with
  | @failed failed hfailed hstatus _ =>
      have hstop : ∀ s : StageRecord, ¬ (s.stop now).status.active := by
        intro s
        rw [stop_status]
        cases hs : s.status <;> simp [StageStatus.unfinished, StageStatus.active]
      refine ⟨fun s => (f s).stop now, by simp [TaskRecord.updateProgress, hf], ?_,
        fun s _ hheld => absurd hheld (hstop _), fun _ s _ => hstop _, ?_⟩
      · intro s hs
        have hstopped : StageMove False now (f s) ((f s).stop now) := .stopped
        refine ⟨(hplan s hs).1.trans hstopped.samePlan, ?_⟩
        rw [stop_attempt, (hplan s hs).2]
      · -- the failed stage is neither the expired one nor one of an open task
        intro hleft
        exfalso
        rcases mem_saveStage hfailed with rfl | hfailed
        · exact failOrRetry_status_of_not_exhausted hfail hleft hstatus
        · have hopen := hcons.agrees.open (by
            rcases hcons.agrees.of_active hmem hactive with h | h <;> simp [h, TaskStatus.active])
            (List.ne_nil_of_mem hmem)
          have := hopen.1 failed hfailed
          simp [hstatus, StageStatus.unfinished, StageStatus.finished] at this
  | succeeded _ hall _ =>
      refine ⟨f, hf, hplan, hheld, ?_, fun _ s hs hne => (hother s hs hne).1⟩
      intro hout
      have := hall stage' hsaved
      simp [failOrRetry_status_of_exhausted hfail hout, StageStatus.finished] at this
  | released hall _ _ =>
      refine ⟨f, hf, hplan, hheld, ?_, fun _ s hs hne => (hother s hs hne).1⟩
      intro hout
      have := hall stage' hsaved
      simp [failOrRetry_status_of_exhausted hfail hout, StageStatus.finished] at this
  | unsettled hnone _ _ =>
      refine ⟨f, hf, hplan, hheld, ?_, fun _ s hs hne => (hother s hs hne).1⟩
      intro hout
      exact absurd (failOrRetry_status_of_exhausted hfail hout) (hnone stage' hsaved)

/-! ## The database -/

/-- What the loop relies on: the keys of the tables and the agreement of each record. -/
structure Db.Coherent (db : Db) : Prop where
  keys : db.KeysNodup
  tasks : ∀ task ∈ db.tasks, task.Consistent

theorem reachable_coherent (h : (controlPlane self).Reachable db) : db.Coherent :=
  ⟨reachable_keysNodup h, reachable_consistent h⟩

theorem DbChange.coherent {granted : Option LeaseGrant} (h : DbChange manual now db granted db')
    (hdb : db.Coherent) : db'.Coherent :=
  ⟨h.keysNodup hdb.keys, consistent_invariant.change h hdb.keys hdb.tasks⟩

/-- The stage is held by a worker. -/
def Db.Held (db : Db) (stageId : String) : Prop :=
  ∃ stage ∈ db.stages, stage.stageId = stageId ∧ stage.status.active

/-- The expiry of the first stage would cancel the second: both are stages of one task, and
the first has no attempt left and is not optional. -/
def Db.Blocks (db : Db) (first second : String) : Prop :=
  ∃ task ∈ db.tasks, (∃ stage ∈ task.stages, stage.stageId = first ∧ stage.exhausted) ∧
    ∃ stage ∈ task.stages, stage.stageId = second

theorem stageForUpdate_eq (hkeys : db.KeysNodup) (htask : task ∈ db.tasks)
    (hstage : stage ∈ task.stages) : db.stageForUpdate stage.stageId = some (task, stage) := by
  cases hfind : db.stageForUpdate stage.stageId with
  | none =>
      have hnone := List.findSome?_eq_none_iff.mp hfind task htask
      rw [Option.map_eq_none_iff] at hnone
      have := List.find?_eq_none.mp hnone stage hstage
      simp at this
  | some found =>
      obtain ⟨hmem, hstage', hid⟩ := Db.stageForUpdate_mem hfind
      obtain ⟨htask', hstage'⟩ := hkeys.eq_of_stageId hmem hstage' htask hstage hid
      rw [← htask', ← hstage']

/-- The effect of one row on the rest of the database. -/
structure Requeued (db : Db) (stage : StageRecord) (db' : Db) : Prop where
  coherent : db'.Coherent
  held : stage.status.active
  ids : db'.stages.map (·.stageId) = db.stages.map (·.stageId)
  blocks : ∀ first second, db'.Blocks first second ↔ db.Blocks first second
  heldBefore : ∀ s ∈ db'.stages, s.status.active → s ∈ db.stages ∧ s.stageId ≠ stage.stageId
  heldAfter : ∀ stageId, db.Held stageId → stageId ≠ stage.stageId →
    (db'.Held stageId ↔ ¬ db.Blocks stage.stageId stageId)

theorem requeueOne_isOk (hdb : db.Coherent) {workers : List String} (htask : task ∈ db.tasks)
    (hstage : stage ∈ task.stages) (hactive : stage.status.active) :
    ∃ acc, requeueOne now (db, workers) stage.stageId = .ok acc := by
  obtain ⟨task', payloads, hexpire⟩ : ∃ task' payloads,
      task.expire stage now = .ok (task', payloads) :=
    expire_isOk (hdb.tasks task htask) hstage hactive
  simp only [requeueOne, stageForUpdate_eq hdb.keys htask hstage]
  exact ⟨_, bind_eq_ok.mpr ⟨_, hexpire, rfl⟩⟩

theorem requeueOne_spec (hdb : db.Coherent) {workers workers' : List String}
    (htask : task ∈ db.tasks) (hstage : stage ∈ task.stages)
    (h : requeueOne now (db, workers) stage.stageId = .ok (db', workers')) :
    Requeued db stage db' := by
  simp only [requeueOne, stageForUpdate_eq hdb.keys htask hstage, bind_eq_ok] at h
  obtain ⟨⟨task', payloads⟩, hexpire, h⟩ := h
  cases h
  have hcons := hdb.tasks task htask
  have hmove : TaskMove False now task none payloads task' := .of_expire hstage hexpire
  have hchange : DbChange False now db none ((db.saveTask task').publishAll now payloads) :=
    .moved htask hmove
  obtain ⟨hactive, f, hf, hplan, hheld, hout, hleft⟩ :=
    expire_spec (hdb.keys.task htask) hcons hstage hexpire
  have hid := hmove.taskId
  have htasks := Db.publishAll_tasks (db.saveTask task') now payloads
  have hself : task' ∈ ((db.saveTask task').publishAll now payloads).tasks := by
    rw [htasks]
    exact mem_replaceKey_self htask hid.symm
  have hother : ∀ task₀ ∈ db.tasks, task₀ ≠ task →
      task₀ ∈ ((db.saveTask task').publishAll now payloads).tasks := by
    intro task₀ h₀ hne
    rw [htasks]
    refine mem_replaceKey_of_ne h₀ fun heq => hne ?_
    exact List.inj_on_of_nodup_map hdb.keys.tasks h₀ htask (heq.trans hid)
  have hcases : ∀ task₀ ∈ ((db.saveTask task').publishAll now payloads).tasks,
      task₀ = task' ∨ (task₀ ∈ db.tasks ∧ task₀ ≠ task) := by
    intro task₀ h₀
    rw [htasks] at h₀
    rcases mem_saveTask h₀ with rfl | ⟨hmem, hne⟩
    · exact .inl rfl
    · refine .inr ⟨hmem, fun heq => hne ?_⟩
      rw [heq, hid]
  have hexhausted : ∀ s ∈ task.stages, (f s).exhausted ↔ s.exhausted := by
    intro s hs
    obtain ⟨hsame, hattempt⟩ := hplan s hs
    simp [StageRecord.exhausted, hattempt, hsame.maximumAttempts, hsame.optional]
  refine ⟨hchange.coherent hdb, hactive, ?_, ?_, ?_, ?_⟩
  · rw [Db.stages, htasks, ← Db.stages]
    exact saveTask_stageIds hdb.keys htask hid (hmove.stageIds (hdb.keys.task htask))
  · intro first second
    constructor
    · rintro ⟨task₀, h₀, ⟨s, hs, rfl, hex⟩, t, ht, rfl⟩
      rcases hcases task₀ h₀ with rfl | ⟨hmem, _⟩
      · rw [hf] at hs ht
        obtain ⟨s₀, hs₀, rfl⟩ := List.mem_map.mp hs
        obtain ⟨t₀, ht₀, rfl⟩ := List.mem_map.mp ht
        exact ⟨task, htask, ⟨s₀, hs₀, (hplan s₀ hs₀).1.stageId.symm, (hexhausted s₀ hs₀).mp hex⟩,
          t₀, ht₀, (hplan t₀ ht₀).1.stageId.symm⟩
      · exact ⟨task₀, hmem, ⟨s, hs, rfl, hex⟩, t, ht, rfl⟩
    · rintro ⟨task₀, h₀, ⟨s, hs, rfl, hex⟩, t, ht, rfl⟩
      by_cases hne : task₀ = task
      · subst hne
        refine ⟨task', hself, ⟨f s, hf ▸ List.mem_map_of_mem hs, (hplan s hs).1.stageId, ?_⟩,
          f t, hf ▸ List.mem_map_of_mem ht, (hplan t ht).1.stageId⟩
        exact (hexhausted s hs).mpr hex
      · exact ⟨task₀, hother task₀ h₀ hne, ⟨s, hs, rfl, hex⟩, t, ht, rfl⟩
  · intro s hs hact
    obtain ⟨task₀, h₀, hrow⟩ := Db.mem_stages.mp hs
    rcases hcases task₀ h₀ with rfl | ⟨hmem, hne⟩
    · rw [hf] at hrow
      obtain ⟨s₀, hs₀, rfl⟩ := List.mem_map.mp hrow
      obtain ⟨heq, hne⟩ := hheld s₀ hs₀ hact
      rw [heq]
      refine ⟨Db.mem_stages.mpr ⟨task, htask, hs₀⟩, fun hsame => hne ?_⟩
      exact List.inj_on_of_nodup_map (hdb.keys.task htask) hs₀ hstage hsame
    · refine ⟨Db.mem_stages.mpr ⟨task₀, hmem, hrow⟩, fun hsame => hne ?_⟩
      exact (hdb.keys.eq_of_stageId hmem hrow htask hstage hsame).1
  · rintro stageId ⟨s, hs, rfl, hact⟩ hdiff
    obtain ⟨task₀, h₀, hs⟩ := Db.mem_stages.mp hs
    constructor
    · rintro ⟨s', hs', hsid, hact'⟩ ⟨task₁, h₁, ⟨s₁, hs₁, hid₁, hex⟩, s₂, hs₂, hid₂⟩
      obtain ⟨rfl, rfl⟩ := hdb.keys.eq_of_stageId h₁ hs₁ htask hstage hid₁
      obtain ⟨task₂, h₂, hrow⟩ := Db.mem_stages.mp hs'
      rcases hcases task₂ h₂ with rfl | ⟨hmem, hne⟩
      · rw [hf] at hrow
        obtain ⟨s₀, hs₀, rfl⟩ := List.mem_map.mp hrow
        exact hout hex s₀ hs₀ hact'
      · exact hne (hdb.keys.eq_of_stageId hmem hrow htask hs₂ (hsid.trans hid₂.symm)).1
    · intro hblocks
      by_cases hne : task₀ = task
      · subst hne
        have hrest : ¬ stage.exhausted := fun hex =>
          hblocks ⟨task₀, htask, ⟨stage, hstage, rfl, hex⟩, s, hs, rfl⟩
        have hkeep := hleft hrest s hs (fun heq => hdiff (heq ▸ rfl))
        refine ⟨s, Db.mem_stages.mpr ⟨task', hself, ?_⟩, rfl, hact⟩
        rw [hf]
        exact List.mem_map.mpr ⟨s, hs, hkeep⟩
      · exact ⟨s, Db.mem_stages.mpr ⟨task₀, hother task₀ h₀ hne, hs⟩, rfl, hact⟩

/-! ## The loop -/

/-- Rows that do not block one another are all requeued. -/
theorem requeueLoop_isOk {rows : List String} {workers : List String} (hdb : db.Coherent)
    (hnodup : rows.Nodup) (hheld : ∀ stageId ∈ rows, db.Held stageId)
    (hfree : rows.Pairwise fun first second => ¬ db.Blocks first second) :
    ∃ acc, rows.foldlM (requeueOne now) (db, workers) = .ok acc := by
  induction rows generalizing db workers with
  | nil => exact ⟨_, rfl⟩
  | cons stageId rest ih =>
      obtain ⟨hnotin, hnodupRest⟩ := List.nodup_cons.mp hnodup
      obtain ⟨hfirst, hfreeRest⟩ := List.pairwise_cons.mp hfree
      obtain ⟨stage, hrow, rfl, hactive⟩ := hheld stageId List.mem_cons_self
      obtain ⟨task, htask, hstage⟩ := Db.mem_stages.mp hrow
      obtain ⟨⟨db₁, workers₁⟩, hone⟩ :
          ∃ acc, requeueOne now (db, workers) stage.stageId = .ok acc :=
        requeueOne_isOk hdb htask hstage hactive
      have hspec := requeueOne_spec hdb htask hstage hone
      have hheld₁ : ∀ other ∈ rest, db₁.Held other := fun other hmem =>
        (hspec.heldAfter other (hheld other (List.mem_cons_of_mem _ hmem))
          (fun heq => hnotin (heq ▸ hmem))).mpr (hfirst other hmem)
      have hfree₁ : rest.Pairwise fun first second => ¬ db₁.Blocks first second :=
        hfreeRest.imp fun {first second} hnot => (hspec.blocks first second).not.mpr hnot
      obtain ⟨acc, hacc⟩ : ∃ acc, rest.foldlM (requeueOne now) (db₁, workers₁) = .ok acc :=
        ih hspec.coherent hnodupRest hheld₁ hfree₁
      exact ⟨acc, foldlM_cons_eq_ok.mpr ⟨_, hone, hacc⟩⟩

/-- What a loop that raised nothing says about its rows, and what it leaves held. -/
theorem requeueLoop_spec {rows : List String} {workers workers' : List String}
    (hdb : db.Coherent) (hnodup : rows.Nodup)
    (hrows : ∀ stageId ∈ rows, stageId ∈ db.stages.map (·.stageId))
    (h : rows.foldlM (requeueOne now) (db, workers) = .ok (db', workers')) :
    (∀ stageId ∈ rows, db.Held stageId) ∧
      (rows.Pairwise fun first second => ¬ db.Blocks first second) ∧
      ∀ s ∈ db'.stages, s.status.active → s ∈ db.stages ∧ s.stageId ∉ rows := by
  induction rows generalizing db workers with
  | nil =>
      cases foldlM_nil_eq_ok.mp h
      exact ⟨by simp, .nil, fun s hs _ => ⟨hs, by simp⟩⟩
  | cons stageId rest ih =>
      obtain ⟨hnotin, hnodupRest⟩ := List.nodup_cons.mp hnodup
      obtain ⟨stage, hrow, rfl⟩ := List.mem_map.mp (hrows stageId List.mem_cons_self)
      obtain ⟨task, htask, hstage⟩ := Db.mem_stages.mp hrow
      obtain ⟨⟨db₁, workers₁⟩, hone, hrest⟩ := foldlM_cons_eq_ok.mp h
      have hspec := requeueOne_spec hdb htask hstage hone
      obtain ⟨hheld, hfree, hafter⟩ := ih hspec.coherent hnodupRest
        (fun other hmem => hspec.ids ▸ hrows other (List.mem_cons_of_mem _ hmem)) hrest
      have hbefore : ∀ other ∈ rest, db.Held other := by
        intro other hmem
        obtain ⟨s, hs, rfl, hact⟩ := hheld other hmem
        exact ⟨s, (hspec.heldBefore s hs hact).1, rfl, hact⟩
      refine ⟨?_, List.pairwise_cons.mpr ⟨?_, ?_⟩, ?_⟩
      · intro other hmem
        rcases List.mem_cons.mp hmem with rfl | hmem
        · exact ⟨stage, hrow, rfl, hspec.held⟩
        · exact hbefore other hmem
      · intro other hmem
        exact (hspec.heldAfter other (hbefore other hmem)
          (fun heq => hnotin (heq ▸ hmem))).mp (hheld other hmem)
      · exact hfree.imp fun {first second} hnot => (hspec.blocks first second).not.mp hnot
      · intro s hs hact
        obtain ⟨hs₁, hnot⟩ := hafter s hs hact
        obtain ⟨hs₀, hne⟩ := hspec.heldBefore s hs₁ hact
        exact ⟨hs₀, by simp [hne, hnot]⟩

/-- The rows the query selects are rows of the table, each of them once. -/
theorem expiredRows {rows : List String} (hkeys : db.KeysNodup)
    (hrows : rows.Perm (db.expiredStages now)) :
    rows.Nodup ∧ ∀ stageId ∈ rows, stageId ∈ db.stages.map (·.stageId) := by
  have hsublist : (db.expiredStages now).Sublist (db.stages.map (·.stageId)) :=
    List.filter_sublist.map _
  exact ⟨hrows.nodup_iff.mpr (hkeys.stages.sublist hsublist),
    fun stageId hmem => hsublist.subset (hrows.mem_iff.mp hmem)⟩

/-- A pass that raised nothing leaves no selected row held. -/
theorem requeueExpired_released {rows stageIds : List String} (hdb : db.Coherent)
    (hrows : rows.Perm (db.expiredStages now))
    (h : requeueExpired db rows now = .ok (db', stageIds)) :
    ∀ s ∈ db'.stages, s.status.active → s ∈ db.stages ∧ s.stageId ∉ rows := by
  obtain ⟨hnodup, hknown⟩ := expiredRows hdb.keys hrows
  simp only [requeueExpired, bind_eq_ok] at h
  obtain ⟨⟨db₁, workers⟩, hloop, h⟩ := h
  cases h
  intro s hs
  exact (requeueLoop_spec hdb hnodup hknown hloop).2.2 s
    (by simpa [Db.stages, (foldl_release_tasks _ _ _).1] using hs)

/-! ## Results -/

/-- Recovery succeeds, and leaves no expired lease behind, exactly when no selected row
stands before another of its task while its own expiry fails the task. -/
theorem requeue_expired_recovers_iff (h : (controlPlane self).Reachable db) (now : Time)
    {rows : List String} (hrows : rows.Perm (db.expiredStages now)) :
    (∃ db' stageIds, requeueExpired db rows now = .ok (db', stageIds) ∧
      ∀ stage ∈ db'.stages, stage.status = .leased ∨ stage.status = .running →
        ∀ expiresAt ∈ stage.leaseExpiresAt, ¬ expiresAt ≤ now) ↔
      rows.Pairwise fun first second => ¬ db.Blocks first second := by
  have hdb := reachable_coherent h
  obtain ⟨hnodup, hknown⟩ := expiredRows hdb.keys hrows
  constructor
  · rintro ⟨db', stageIds, hok, _⟩
    simp only [requeueExpired, bind_eq_ok] at hok
    obtain ⟨⟨db₁, workers⟩, hloop, _⟩ := hok
    exact (requeueLoop_spec hdb hnodup hknown hloop).2.1
  · intro hfree
    have hheld : ∀ stageId ∈ rows, db.Held stageId := by
      intro stageId hmem
      obtain ⟨stage, hstage, rfl⟩ := List.mem_map.mp (hrows.mem_iff.mp hmem)
      obtain ⟨hstage, hexp⟩ := List.mem_filter.mp hstage
      have hexp : stage.expired now := by simpa using hexp
      exact ⟨stage, hstage, rfl, hexp.1⟩
    obtain ⟨⟨db₁, workers⟩, hloop⟩ :
        ∃ acc, rows.foldlM (requeueOne now) (db, []) = .ok acc :=
      requeueLoop_isOk hdb hnodup hheld hfree
    have hok := (bind_eq_ok.mpr ⟨_, hloop, rfl⟩ : requeueExpired db rows now = .ok _)
    refine ⟨_, rows, hok, ?_⟩
    intro stage hstage hstatus expiresAt hexpires hle
    have hactive : stage.status.active := by
      rcases hstatus with h | h <;> rw [h] <;> rfl
    obtain ⟨hstage₀, hnotin⟩ := requeueExpired_released hdb hrows hok stage hstage hactive
    refine hnotin (hrows.mem_iff.mpr (List.mem_map_of_mem (List.mem_filter.mpr ⟨hstage₀, ?_⟩)))
    exact decide_eq_true (⟨hactive, expiresAt, hexpires, hle⟩ : stage.expired now)

/-- Two tasks have two parallel stages leased each, and one of each is renewed. -/
def renewedScript : List Operation :=
  leaseScript ++
    [.create { source := .url "https://host/second.pdf", options := default } none false "second"
        (.ok (some sampleMetadata)) 3,
      .route "second" false (fun n => "second-" ++ toString n) 4,
      .lease { workerId := "worker", availableSlots := 10 }
        ["stage-merge", "second-0", "second-1", "second-2"] (fun n => "second-" ++ toString n) 5,
      .renew "stage-tables" "worker" "token-tables" 50,
      .renew "second-0" "worker" "second-0" 50]

def renewedDb : Db := afterScript sampleScheduler sampleDb renewedScript

theorem requeue_expired_recovers_renewed :
    ∃ db' stageIds,
      requeueExpired renewedDb ["second-1", "stage-layout"] 70 = .ok (db', stageIds) ∧
        ∀ stage ∈ db'.stages, stage.status = .leased ∨ stage.status = .running →
          ∀ expiresAt ∈ stage.leaseExpiresAt, ¬ expiresAt ≤ 70 := by
  have hrows : ["second-1", "stage-layout"].Perm (renewedDb.expiredStages 70) := by decide +kernel
  have hapart : ∀ task ∈ renewedDb.tasks, ∀ first ∈ task.stages, first.stageId = "second-1" →
      ∀ second ∈ task.stages, second.stageId ≠ "stage-layout" := by decide +kernel
  refine (requeue_expired_recovers_iff (afterScript_reachable sampleDb_reachable) 70 hrows).mpr
    (List.pairwise_pair.mpr ?_)
  rintro ⟨task, htask, ⟨first, hfirst, hid, _⟩, second, hsecond, hid'⟩
  exact hapart task htask first hfirst hid second hsecond hid'

/-- Both leases run out: the first row fails the task and cancels the second, and the pass
raises when it reaches it. -/
theorem requeue_expired_stuck : (controlPlane sampleScheduler).Reachable leasedDb ∧
    ["stage-layout", "stage-tables"].Perm (leasedDb.expiredStages 100) ∧
      ¬ ∃ db' stageIds,
        requeueExpired leasedDb ["stage-layout", "stage-tables"] 100 = .ok (db', stageIds) := by
  refine ⟨leasedDb_reachable, by decide +kernel, ?_⟩
  rintro ⟨db', stageIds, hok⟩
  have hraised :
      (requeueExpired leasedDb ["stage-layout", "stage-tables"] 100).toOption.isNone := by
    decide +kernel
  rw [hok] at hraised
  cases hraised

end ParserServe
