import ParserServe.Control.Creation
import ParserServe.Lifecycle.Progress

/-! # Idempotent creation

An idempotency key is bound to the one task that was committed with it.  A call that looks a
bound key up is answered from that task, and no call with a bound key changes the database,
however the calls overlap.
-/

namespace ParserServe

open Foundation

variable {self : StageScheduler} {manual : Prop} {now : Time} {granted : Option LeaseGrant}
  {task task' : TaskRecord} {payloads : List EventPayload} {db db' : Db}

/-! ## What binds a task to its request -/

structure TaskIdentity where
  taskId : String
  idempotencyDigest : Option (Digest String)
  requestDigest : Digest CreateTaskRequest

def TaskRecord.identity (task : TaskRecord) : TaskIdentity :=
  ⟨task.taskId, task.idempotencyDigest, task.requestDigest⟩

theorem TaskMove.identity (h : TaskMove manual now task granted payloads task') :
    task'.identity = task.identity := by
  cases h with
  | ended _ _ hsettled => cases hsettled <;> rfl
  | leased | renewed | started | progressed | cancelled | retried => rfl

theorem Routed.identity (h : Routed now db task task' payloads) :
    task'.identity = task.identity := by
  obtain ⟨_, _, _, _, _, htask, _⟩ := h.plan
  rw [htask]
  rfl

theorem saveTask_identities (hkeys : db.KeysNodup) (hmem : task ∈ db.tasks)
    (hid : task'.identity = task.identity) :
    (db.saveTask task').tasks.map (·.identity) = db.tasks.map (·.identity) := by
  have htaskId : task'.taskId = task.taskId := congrArg TaskIdentity.taskId hid
  rw [Db.saveTask, replaceKey, List.map_map]
  refine List.map_congr_left fun task₀ h₀ => ?_
  by_cases heq : task₀.taskId = task'.taskId
  · have hsame : task₀ = task :=
      List.inj_on_of_nodup_map hkeys.tasks h₀ hmem (heq.trans htaskId)
    simp [hsame, htaskId, hid]
  · simp [heq]

/-! ## Events of creation -/

def EventPayload.createdId? : EventPayload → Option String
  | .taskCreated taskId => some taskId
  | _ => none

/-- The tasks whose creation was published, oldest first. -/
def Db.createdIds (db : Db) : List String :=
  (db.events.map (·.payload)).filterMap (·.createdId?)

theorem createdIds_publishAll (db : Db) (now : Time) (payloads : List EventPayload) :
    (db.publishAll now payloads).createdIds =
      db.createdIds ++ payloads.filterMap (·.createdId?) := by
  simp [Db.createdIds]

theorem createdId?_statusChange (taskId : String) (previous current : TaskStatus) :
    (statusChange taskId previous current).filterMap (·.createdId?) = [] := by
  unfold statusChange
  split <;> rfl

theorem TaskMove.createdIds (h : TaskMove manual now task granted payloads task') :
    payloads.filterMap (·.createdId?) = [] := by
  cases h with
  | leased | started | ended | cancelled | retried => exact createdId?_statusChange _ _ _
  | renewed | progressed => rfl

theorem Routed.createdIds (h : Routed now db task task' payloads) :
    payloads.filterMap (·.createdId?) = [] := by
  obtain ⟨_, _, _, _, _, _, rfl⟩ := h.plan
  rfl

theorem Administered.createdIds (h : Administered db db') : db'.createdIds = db.createdIds := by
  obtain ⟨new, hevents, hworker⟩ := h.events
  have hnone : (new.map (·.payload)).filterMap (·.createdId?) = [] := by
    rw [List.filterMap_eq_nil_iff]
    intro payload hmem
    obtain ⟨event, hevent, rfl⟩ := List.mem_map.mp hmem
    have := hworker event hevent
    cases hp : event.payload <;> simp_all [EventPayload.concernsWorker, EventPayload.createdId?]
  rw [Db.createdIds, hevents, List.map_append, List.filterMap_append, hnone, List.append_nil,
    ← Db.createdIds]

/-! ## Bound keys -/

/-- No two tasks have one key, and each task was published once. -/
structure Db.Bound (db : Db) : Prop where
  keys : (db.tasks.map (·.identity)).Pairwise fun a b =>
    a.idempotencyDigest = none ∨ a.idempotencyDigest ≠ b.idempotencyDigest
  created : db.createdIds = db.tasks.map (·.taskId)

/-- Tasks are added at the end of the table and keep what binds them to their request. -/
def Db.Grows (db db' : Db) : Prop :=
  ∃ new, db'.tasks.map (·.identity) = db.tasks.map (·.identity) ++ new

theorem Db.Grows.refl (db : Db) : db.Grows db := ⟨[], (List.append_nil _).symm⟩

theorem Db.Grows.trans {db₁ db₂ db₃ : Db} (h : db₁.Grows db₂) (h' : db₂.Grows db₃) :
    db₁.Grows db₃ := by
  obtain ⟨new, hnew⟩ := h
  obtain ⟨new', hnew'⟩ := h'
  exact ⟨new ++ new', by rw [hnew', hnew, List.append_assoc]⟩

theorem Db.Grows.mem (h : db.Grows db') (hmem : task ∈ db.tasks) :
    ∃ task' ∈ db'.tasks, task'.identity = task.identity := by
  obtain ⟨new, hnew⟩ := h
  have hidentity : task.identity ∈ db'.tasks.map (·.identity) := by
    rw [hnew]
    exact List.mem_append_left _ (List.mem_map_of_mem hmem)
  exact List.mem_map.mp hidentity

/-- The same tasks, and no event of creation. -/
theorem Db.Bound.of_eq (h : db.Bound)
    (htasks : db'.tasks.map (·.identity) = db.tasks.map (·.identity))
    (hevents : db'.createdIds = db.createdIds) : db'.Bound ∧ db.Grows db' := by
  have hids : db'.tasks.map (·.taskId) = db.tasks.map (·.taskId) := by
    have hmapped := congrArg (List.map TaskIdentity.taskId) htasks
    rwa [List.map_map, List.map_map] at hmapped
  exact ⟨⟨htasks ▸ h.keys, by rw [hevents, h.created, hids]⟩, [], by rw [htasks, List.append_nil]⟩

/-- A new task whose key is free, and the event of its creation. -/
theorem Db.Bound.add (h : db.Bound) (htasks : db'.tasks = db.tasks ++ [task])
    (hevents : db'.createdIds = db.createdIds ++ [task.taskId])
    (hfree : ∀ other ∈ db.tasks, other.idempotencyDigest = none ∨
      other.idempotencyDigest ≠ task.idempotencyDigest) : db'.Bound ∧ db.Grows db' := by
  refine ⟨⟨?_, ?_⟩, [task.identity], by simp [htasks]⟩
  · rw [htasks, List.map_append, List.pairwise_append]
    refine ⟨h.keys, List.pairwise_singleton _ _, ?_⟩
    intro a ha b hb
    obtain ⟨other, hother, rfl⟩ := List.mem_map.mp ha
    rw [List.map_singleton, List.mem_singleton] at hb
    rw [hb]
    exact hfree other hother
  · rw [hevents, htasks, h.created, List.map_append, List.map_singleton]

theorem DbChange.bound (h : DbChange manual now db granted db') (hkeys : db.KeysNodup)
    (hbound : db.Bound) : db'.Bound ∧ db.Grows db' := by
  cases h with
  | untouched htasks hevents =>
      exact hbound.of_eq (by rw [htasks]) (by rw [Db.createdIds, hevents, ← Db.createdIds])
  | created _ _ hunused =>
      refine hbound.add rfl (by simp [Db.createdIds, Db.publish, EventPayload.createdId?, newTask])
        fun other hother => ?_
      rw [or_iff_not_imp_left]
      intro hsome heq
      obtain ⟨digest, hdigest⟩ := Option.ne_none_iff_exists'.mp hsome
      rw [hdigest] at heq
      obtain ⟨key, hkey, rfl⟩ := Option.map_eq_some_iff.mp heq.symm
      exact hunused key hkey other hother hdigest
  | routed hmem _ hrouted =>
      refine hbound.of_eq ?_ ?_
      · rw [Db.publishAll_tasks]
        exact saveTask_identities hkeys hmem hrouted.identity
      · rw [createdIds_publishAll, hrouted.createdIds, List.append_nil]
        rfl
  | moved hmem hmove =>
      refine hbound.of_eq ?_ ?_
      · rw [Db.publishAll_tasks]
        exact saveTask_identities hkeys hmem hmove.identity
      · rw [createdIds_publishAll, hmove.createdIds, List.append_nil]
        rfl

theorem ControlStep.bound {label : Label} (h : ControlStep self db label db')
    (hkeys : db.KeysNodup) (hbound : db.Bound) : db'.Bound ∧ db.Grows db' := by
  refine h.keeps (I := fun later => later.Bound ∧ db.Grows later) ?_ ?_ ?_ hkeys
    ⟨hbound, .refl db⟩
  · intro manual now db₁ granted db₂ hkeys₁ hdb₁ hstep
    obtain ⟨hbound₂, hgrows⟩ := hstep.bound hkeys₁ hdb₁.1
    exact ⟨hbound₂, hdb₁.2.trans hgrows⟩
  · intro db₁ db₂ hdb₁ hadmin
    obtain ⟨hbound₂, hgrows⟩ := hdb₁.1.of_eq (by rw [hadmin.tasks]) hadmin.createdIds
    exact ⟨hbound₂, hdb₁.2.trans hgrows⟩
  · intro db₁ task stages hkeys₁ hdb₁ hmem _
    have hids : (db₁.saveTask { task with stages := stages }).tasks.map (·.identity) =
        db₁.tasks.map (·.identity) := saveTask_identities hkeys₁ hmem rfl
    obtain ⟨hbound₂, hgrows⟩ := hdb₁.1.of_eq hids rfl
    exact ⟨hbound₂, hdb₁.2.trans hgrows⟩

/-! ## Rows that are not committed -/

theorem TaskRecord.clashes_comm {a b : TaskRecord} : a.clashes b ↔ b.clashes a := by
  have himp : ∀ a b : TaskRecord, a.clashes b → b.clashes a := by
    rintro a b (hid | ⟨hsome, hkey⟩ | ⟨stage, hstage, hmem⟩)
    · exact .inl hid.symm
    · exact .inr (.inl ⟨hkey ▸ hsome, hkey.symm⟩)
    · obtain ⟨other, hother, heq⟩ := List.mem_map.mp hmem
      exact .inr (.inr ⟨other, hother, heq ▸ List.mem_map_of_mem hstage⟩)
  exact ⟨himp a b, himp b a⟩

/-- No index refuses the row, and it has the key of its call. -/
structure Insertable (db : Db) (uncommitted : List TaskRecord) (idempotencyKey : Option String)
    (row : TaskRecord) : Prop where
  committed : ∀ task ∈ db.tasks, ¬ task.clashes row
  others : ∀ other ∈ uncommitted, ¬ other.clashes row
  stages : (row.stages.map (·.stageId)).Nodup
  key : row.idempotencyDigest = idempotencyKey.map Digest.mk

/-- The events to be committed besides that of the creation. -/
def CreationPhase.pendingEvents : CreationPhase → List EventPayload
  | .flushed _ payloads => payloads
  | _ => []

structure CreationCall.Sound (call : CreationCall) (db : Db) (uncommitted : List TaskRecord) :
    Prop where
  row : ∀ row ∈ call.phase.row?, Insertable db uncommitted call.idempotencyKey row
  quiet : call.phase.pendingEvents.filterMap (·.createdId?) = []

variable {call : CreationCall} {uncommitted : List TaskRecord} {phase : CreationPhase}
  {event : CreationEvent} {record : TaskRecord}

theorem CreationCall.sound_of_none (hrow : phase.row? = none) :
    CreationCall.Sound { call with phase := phase } db uncommitted := by
  refine ⟨by simp [hrow], ?_⟩
  cases phase with
  | flushed => cases hrow
  | started | unused | validated | inserted | collided | answered => rfl

theorem row?_lookup (second : Bool) : (call.lookup db second).row? = none := by
  unfold CreationCall.lookup
  split <;> rfl

theorem row?_validate (second : Bool) (metadata : Except ServiceError (Option SourceMetadata)) :
    (call.validate db second metadata).row? = none := by
  unfold CreationCall.validate
  split <;> rfl

theorem row?_collide (second : Bool) : (call.collide second).row? = none := by
  unfold CreationCall.collide
  split <;> rfl

theorem insert_sound {second : Bool} {metadata : Option SourceMetadata} {taskId : String}
    (h : call.insert db uncommitted second metadata taskId = some phase) :
    CreationCall.Sound { call with phase := phase } db uncommitted := by
  unfold CreationCall.insert at h
  dsimp only at h
  split at h
  · cases h
  · next hothers =>
      split at h
      · cases h
        exact CreationCall.sound_of_none (row?_collide second)
      · next hcommitted =>
          cases h
          push Not at hothers hcommitted
          have hrow : Insertable db uncommitted call.idempotencyKey
              (newTask call.request call.idempotencyKey taskId metadata call.now) :=
            ⟨hcommitted, hothers, List.nodup_nil, rfl⟩
          cases second with
          | false => exact ⟨fun row hmem => by cases hmem; exact hrow, rfl⟩
          | true => exact ⟨fun row hmem => by cases hmem; exact hrow, rfl⟩

theorem Insertable.routed (h : Insertable db uncommitted call.idempotencyKey task)
    (hrouted : Routed now db task task' payloads)
    (hothers : ∀ other ∈ uncommitted, ¬ other.clashes task') :
    Insertable db uncommitted call.idempotencyKey task' := by
  obtain ⟨_, stages, _, hnodup, hfresh, rfl, _⟩ := hrouted.plan
  refine ⟨fun other hother => ?_, hothers, hnodup, h.key⟩
  rintro (hid | hkey | ⟨stage, hstage, hmem⟩)
  · exact h.committed other hother (.inl hid)
  · exact h.committed other hother (.inr (.inl hkey))
  · obtain ⟨new, hnew, heq⟩ := List.mem_map.mp hmem
    refine hfresh new hnew ?_
    rw [heq]
    exact List.mem_map_of_mem (Db.mem_stages.mpr ⟨other, hother, hstage⟩)

theorem route_sound {stageIds : Nat → String}
    (hrow : Insertable db uncommitted call.idempotencyKey record)
    (h : call.route db uncommitted record stageIds = some phase) :
    CreationCall.Sound { call with phase := phase } db uncommitted := by
  have hkept : CreationCall.Sound { call with phase := .flushed record [] } db uncommitted :=
    ⟨fun row hmem => by cases hmem; exact hrow, rfl⟩
  unfold CreationCall.route at h
  split at h
  · next routed payloads hroute =>
      split at h
      · cases h
      · next hothers =>
          cases h
          push Not at hothers
          rcases route_cases hroute with ⟨rfl, rfl⟩ | ⟨_, hrouted⟩
          · exact hkept
          · exact ⟨fun row hmem => by cases hmem; exact hrow.routed hrouted hothers,
              hrouted.createdIds⟩
  · cases h
    exact hkept
  · cases h
    exact hkept
  · cases h
    exact hkept
  · cases h
    exact CreationCall.sound_of_none (row?_collide false)

/-- A step leaves the database alone, or it commits the row of the call. -/
theorem CreationCall.step_cases (hsound : call.Sound db uncommitted)
    (h : call.step db uncommitted event = some (db', phase)) :
    (db' = db ∧ CreationCall.Sound { call with phase := phase } db uncommitted) ∨
      ∃ record payloads, call.phase = .flushed record payloads ∧
        db' = db.commitTask record payloads call.now ∧ phase = .answered record.accepted := by
  cases event with
  | lookup =>
      simp only [CreationCall.step] at h
      split at h <;> cases h
      all_goals exact .inl ⟨rfl, sound_of_none (row?_lookup _)⟩
  | validate metadata =>
      simp only [CreationCall.step] at h
      split at h <;> cases h
      exact .inl ⟨rfl, sound_of_none (row?_validate _ _)⟩
  | insert taskId =>
      simp only [CreationCall.step] at h
      split at h
      · obtain ⟨_, hinsert, heq⟩ := Option.map_eq_some_iff.mp h
        cases heq
        exact .inl ⟨rfl, insert_sound hinsert⟩
      · cases h
  | route stageIds =>
      simp only [CreationCall.step] at h
      split at h
      · next record hphase =>
          obtain ⟨_, hroute, heq⟩ := Option.map_eq_some_iff.mp h
          cases heq
          exact .inl ⟨rfl, route_sound (hsound.row record (by rw [hphase]; rfl)) hroute⟩
      · cases h
  | commit =>
      simp only [CreationCall.step] at h
      split at h
      · next record payloads hphase =>
          cases h
          exact .inr ⟨record, payloads, hphase, rfl, rfl⟩
      · cases h
  | databaseError =>
      simp only [CreationCall.step] at h
      split at h <;> cases h
      exact .inl ⟨rfl, sound_of_none rfl⟩

/-! ## The commit -/

theorem Insertable.stages_disjoint {idempotencyKey : Option String}
    (h : Insertable db uncommitted idempotencyKey record) :
    ∀ stage ∈ db.stages, stage.stageId ∉ record.stages.map (·.stageId) := by
  intro stage hstage hmem
  obtain ⟨task, htask, hstage⟩ := Db.mem_stages.mp hstage
  exact h.committed task htask (.inr (.inr ⟨stage, hstage, hmem⟩))

theorem commitTask_tasks (db : Db) (record : TaskRecord) (payloads : List EventPayload)
    (now : Time) : (db.commitTask record payloads now).tasks = db.tasks ++ [record] := by
  rw [Db.commitTask, Db.publishAll_tasks]

theorem commitTask_keysNodup {idempotencyKey : Option String} (hkeys : db.KeysNodup)
    (h : Insertable db uncommitted idempotencyKey record) :
    (db.commitTask record payloads now).KeysNodup := by
  constructor
  · rw [commitTask_tasks, List.map_append, List.map_singleton]
    refine List.nodup_append'.mpr ⟨hkeys.tasks, List.nodup_singleton _, ?_⟩
    rw [List.disjoint_singleton]
    intro hmem
    obtain ⟨task, htask, hid⟩ := List.mem_map.mp hmem
    exact h.committed task htask (.inl hid)
  · rw [Db.stages, commitTask_tasks, List.flatMap_append, List.flatMap_singleton,
      List.map_append]
    refine List.nodup_append'.mpr ⟨hkeys.stages, h.stages, ?_⟩
    intro stageId hmem hnew
    obtain ⟨stage, hstage, rfl⟩ := List.mem_map.mp hmem
    exact h.stages_disjoint stage hstage hnew

theorem commitTask_bound {idempotencyKey : Option String} (hbound : db.Bound)
    (h : Insertable db uncommitted idempotencyKey record)
    (hquiet : payloads.filterMap (·.createdId?) = []) :
    (db.commitTask record payloads now).Bound ∧
      db.Grows (db.commitTask record payloads now) := by
  refine hbound.add (commitTask_tasks db record payloads now) ?_ fun other hother => ?_
  · rw [Db.commitTask, createdIds_publishAll, List.filterMap_cons, hquiet]
    rfl
  · rw [or_iff_not_imp_left]
    exact fun hsome heq => h.committed other hother (.inr (.inl ⟨hsome, heq⟩))

/-! ## The invariant -/

/-- The calls before and after one of them. -/
theorem uncommittedRows_middle (before after : List CreationCall) (call : CreationCall) :
    (uncommittedRows (before ++ call :: after)).Perm
      (call.phase.row?.toList ++ uncommittedRows (before ++ after)) := by
  have hperm : (before ++ call :: after).Perm (call :: (before ++ after)) := List.perm_middle
  refine (hperm.filterMap _).trans (.of_eq ?_)
  cases hrow : call.phase.row? with
  | none => simp [uncommittedRows, hrow]
  | some row => simp [uncommittedRows, hrow]

/-- What holds in every state: the tables are sound, each inserted row fits them, and no two
inserted rows clash. -/
structure CreationState.Sound (s : CreationState) : Prop where
  keys : s.db.KeysNodup
  bound : s.db.Bound
  calls : ∀ call ∈ s.calls, call.Sound s.db []
  apart : (uncommittedRows s.calls).Pairwise fun a b => ¬ a.clashes b

variable {s s' : CreationState} {label : CreationLabel} {labels : List CreationLabel}
  {before after : List CreationCall}

theorem apart_middle : (uncommittedRows (before ++ call :: after)).Pairwise
      (fun a b => ¬ a.clashes b) ↔
    (∀ row ∈ call.phase.row?, ∀ other ∈ uncommittedRows (before ++ after), ¬ other.clashes row) ∧
      (uncommittedRows (before ++ after)).Pairwise fun a b => ¬ a.clashes b := by
  have hsymm : ∀ {a b : TaskRecord}, ¬ a.clashes b → ¬ b.clashes a :=
    fun h hclash => h (TaskRecord.clashes_comm.mp hclash)
  rw [(uncommittedRows_middle before after call).pairwise_iff hsymm, List.pairwise_append]
  constructor
  · rintro ⟨_, hrest, hboth⟩
    exact ⟨fun row hrow other hother => hsymm (hboth row (by simpa using hrow) other hother), hrest⟩
  · rintro ⟨hboth, hrest⟩
    refine ⟨?_, hrest, fun row hrow other hother => ?_⟩
    · cases call.phase.row? with
      | none => exact .nil
      | some row => exact List.pairwise_singleton _ _
    · exact hsymm (hboth row (by simpa using hrow) other hother)

theorem CreationCall.Sound.weaken (h : call.Sound db uncommitted) : call.Sound db [] :=
  ⟨fun row hrow => ⟨(h.row row hrow).committed, by simp, (h.row row hrow).stages,
    (h.row row hrow).key⟩, h.quiet⟩

/-- Each call is sound against the rows of the others. -/
theorem CreationState.Sound.callSound (h : s.Sound) (hsplit : s.calls = before ++ call :: after) :
    call.Sound s.db (uncommittedRows (before ++ after)) := by
  have hcall := h.calls call (by simp [hsplit])
  have hapart := h.apart
  rw [hsplit, apart_middle] at hapart
  exact ⟨fun row hrow => ⟨(hcall.row row hrow).committed, hapart.1 row hrow,
    (hcall.row row hrow).stages, (hcall.row row hrow).key⟩, hcall.quiet⟩

/-- A call sound against one database is so against another whose tasks do not clash with it. -/
theorem CreationCall.Sound.transfer (h : call.Sound db uncommitted)
    (hcommitted : ∀ row ∈ call.phase.row?, ∀ task ∈ db'.tasks, ¬ task.clashes row) :
    call.Sound db' uncommitted :=
  ⟨fun row hrow => ⟨hcommitted row hrow, (h.row row hrow).others, (h.row row hrow).stages,
    (h.row row hrow).key⟩, h.quiet⟩

theorem mem_uncommittedRows {calls : List CreationCall} (hcall : call ∈ calls)
    (hrow : record ∈ call.phase.row?) : record ∈ uncommittedRows calls :=
  List.mem_filterMap.mpr ⟨call, hcall, hrow⟩

/-- One call takes a step and the others stay. -/
theorem CreationState.Sound.advance (h : s.Sound) (hsplit : s.calls = before ++ call :: after)
    (hkeys : db'.KeysNodup) (hbound : db'.Bound)
    (hcall : CreationCall.Sound { call with phase := phase } db'
      (uncommittedRows (before ++ after)))
    (hcommitted : ∀ row ∈ uncommittedRows (before ++ after), ∀ task ∈ db'.tasks,
      ¬ task.clashes row) :
    CreationState.Sound ⟨db', before ++ { call with phase := phase } :: after⟩ := by
  have hapart := h.apart
  rw [hsplit, apart_middle] at hapart
  refine ⟨hkeys, hbound, fun other hother => ?_, ?_⟩
  · have hcases : other = { call with phase := phase } ∨ other ∈ before ++ after := by
      simp only [List.mem_append, List.mem_cons] at hother ⊢
      tauto
    rcases hcases with rfl | hother
    · exact hcall.weaken
    · have hmem : other ∈ s.calls := by
        rw [hsplit]
        simp only [List.mem_append, List.mem_cons] at hother ⊢
        tauto
      exact (h.calls other hmem).transfer fun row hrow =>
        hcommitted row (mem_uncommittedRows hother hrow)
  · exact apart_middle.mpr ⟨fun row hrow => (hcall.row row hrow).others, hapart.2⟩

theorem CreationStep.sound (h : CreationStep self s label s') (hs : s.Sound) :
    s'.Sound ∧ s.db.Grows s'.db := by
  cases h with
  | control hstep hlocked =>
      obtain ⟨hbound, hgrows⟩ := hstep.bound hs.keys hs.bound
      refine ⟨⟨hstep.keysNodup hs.keys, hbound, fun call hcall => ?_, hs.apart⟩, hgrows⟩
      exact (hs.calls call hcall).transfer fun row hrow =>
        hlocked row (mem_uncommittedRows hcall hrow)
  | requested =>
      refine ⟨⟨hs.keys, hs.bound, fun call hcall => ?_, ?_⟩, .refl s.db⟩
      · rcases List.mem_append.mp hcall with hcall | hcall
        · exact hs.calls call hcall
        · rw [List.mem_singleton.mp hcall]
          exact ⟨fun row hrow => (by cases hrow), rfl⟩
      · have hrows := hs.apart
        simpa [uncommittedRows, CreationPhase.row?] using hrows
  | @advanced before after call event db' phase hsplit hstep =>
      have hcall := hs.callSound hsplit
      have hfree : ∀ row ∈ uncommittedRows (before ++ after), ∀ task ∈ s.db.tasks,
          ¬ task.clashes row := by
        intro row hrow
        obtain ⟨other, hother, hrow⟩ := List.mem_filterMap.mp hrow
        have hmem : other ∈ s.calls := by
          rw [hsplit]
          simp only [List.mem_append, List.mem_cons] at hother ⊢
          tauto
        exact ((hs.calls other hmem).row row hrow).committed
      rcases CreationCall.step_cases hcall hstep with
        ⟨rfl, hnext⟩ | ⟨record, payloads, hphase, rfl, rfl⟩
      · exact ⟨hs.advance hsplit hs.keys hs.bound hnext hfree, .refl s.db⟩
      · have hrow := hcall.row record (by rw [hphase]; rfl)
        have hquiet := hcall.quiet
        rw [hphase] at hquiet
        obtain ⟨hbound, hgrows⟩ := commitTask_bound hs.bound hrow hquiet
        refine ⟨hs.advance hsplit (commitTask_keysNodup hs.keys hrow) hbound
          (CreationCall.sound_of_none rfl) ?_, hgrows⟩
        intro row hmem task htask
        rw [commitTask_tasks] at htask
        rcases List.mem_append.mp htask with htask | htask
        · exact hfree row hmem task htask
        · rw [List.mem_singleton.mp htask]
          exact fun hclash => hrow.others row hmem (TaskRecord.clashes_comm.mp hclash)

theorem run_sound (hinit : (creations self).Initial s) (h : (creations self).Run s labels s') :
    s'.Sound := by
  refine h.keeps (I := CreationState.Sound) (fun _ _ _ hs hstep => (hstep.sound hs).1) ?_
  have hkeys := initial_keysNodup hinit.1
  obtain ⟨⟨htasks, hevents⟩, hcalls⟩ := hinit
  refine ⟨hkeys, ⟨by simp [htasks], ?_⟩, by simp [hcalls], ?_⟩
  · simp [Db.createdIds, htasks, hevents]
  · simp [uncommittedRows, hcalls]

theorem run_grows (h : (creations self).Run s labels s') (hs : s.Sound) :
    s'.Sound ∧ s.db.Grows s'.db := by
  refine h.keeps (I := fun t => t.Sound ∧ s.db.Grows t.db) ?_ ⟨hs, .refl s.db⟩
  intro t _ u ht hstep
  obtain ⟨hu, hgrows⟩ := CreationStep.sound hstep ht.1
  exact ⟨hu, ht.2.trans hgrows⟩

/-! ## Calls with a bound key -/

variable {key : String} {position : Nat}

theorem Db.Bound.eq_of_key (h : db.Bound) (hmem : task ∈ db.tasks) (hmem' : task' ∈ db.tasks)
    (hsome : task.idempotencyDigest ≠ none)
    (hkey : task.idempotencyDigest = task'.idempotencyDigest) : task = task' := by
  have hkeys := h.keys
  rw [List.pairwise_map] at hkeys
  have : Std.Symm fun a b : TaskRecord => a.identity.idempotencyDigest = none ∨
      a.identity.idempotencyDigest ≠ b.identity.idempotencyDigest := ⟨fun a b hab => by
    by_cases hb : b.identity.idempotencyDigest = none
    · exact .inl hb
    · exact .inr fun heq => hab.elim (fun ha => hb (heq.trans ha)) fun hne => hne heq.symm⟩
  by_contra hne
  rcases hkeys.forall hmem hmem' hne with hnone | hdiffer
  · exact hsome hnone
  · exact hdiffer hkey

/-- The answer to a call whose key is bound to the task. -/
def CreationCall.boundAnswer (call : CreationCall) (record : TaskRecord) : CreationAnswer :=
  if record.requestDigest = ⟨call.request⟩ then record.accepted else .conflict

theorem lookup_of_bound (hbound : db.Bound) (hmem : record ∈ db.tasks)
    (hkey : record.idempotencyDigest = some ⟨key⟩) (hcall : call.idempotencyKey = some key)
    (second : Bool) : call.lookup db second = .answered (call.boundAnswer record) := by
  have hfind : db.tasks.find? (·.idempotencyDigest = some ⟨key⟩) = some record := by
    cases hfind : db.tasks.find? (·.idempotencyDigest = some ⟨key⟩) with
    | none => exact absurd hkey (by simpa using List.find?_eq_none.mp hfind record hmem)
    | some found =>
        have hfound : found.idempotencyDigest = some ⟨key⟩ := by simpa using List.find?_some hfind
        rw [hbound.eq_of_key (List.mem_of_find?_eq_some hfind) hmem (by simp [hfound])
          (hfound.trans hkey.symm)]
  rw [CreationCall.lookup, hcall, Option.bind_some, hfind]
  rfl

/-- The column refuses a key that is in use, and the call looks it up once more. -/
theorem insert_of_bound {metadata : Option SourceMetadata} {taskId : String}
    (hmem : record ∈ db.tasks) (hkey : record.idempotencyDigest = some ⟨key⟩)
    (hcall : call.idempotencyKey = some key)
    (h : call.insert db uncommitted false metadata taskId = some phase) : phase = .collided := by
  have hclash : ∃ task ∈ db.tasks, task.clashes
      (newTask call.request call.idempotencyKey taskId metadata call.now) := by
    refine ⟨record, hmem, .inr (.inl ⟨by simp [hkey], ?_⟩)⟩
    rw [hkey, hcall]
    rfl
  unfold CreationCall.insert at h
  dsimp only at h
  rw [if_pos hclash] at h
  split at h
  · cases h
  · cases h
    simp [CreationCall.collide, hcall]

theorem step_of_looksUp (hlooks : call.phase.looksUp)
    (h : call.step db uncommitted event = some (db', phase)) :
    phase = .answered .failed ∨ ∃ second, phase = call.lookup db second := by
  cases hphase : call.phase with
  | started | collided =>
      cases event <;> simp [CreationCall.step, hphase] at h
      · exact .inr ⟨_, h.2.symm⟩
      · exact .inl h.2.symm
  | unused | validated | inserted | flushed | answered =>
      simp [hphase, CreationPhase.looksUp] at hlooks

theorem step_of_answered {answer : CreationAnswer} (hphase : call.phase = .answered answer) :
    call.step db uncommitted event = none := by
  cases event <;> simp [CreationCall.step, hphase]

theorem CreationStep.calls_of_ne (h : CreationStep self s label s')
    (hne : label.caller? ≠ some position) (hcall : s.calls[position]? = some call) :
    s'.calls[position]? = some call := by
  cases h with
  | control => exact hcall
  | requested =>
      obtain ⟨hlt, _⟩ := List.getElem?_eq_some_iff.mp hcall
      rw [List.getElem?_append_left hlt, hcall]
  | @advanced before after other _ _ _ hsplit =>
      have hposition : position ≠ before.length := fun heq => hne (by rw [heq]; rfl)
      rw [hsplit] at hcall
      rw [← hcall]
      rcases Nat.lt_or_gt_of_ne hposition with hlt | hlt
      · rw [List.getElem?_append_left hlt, List.getElem?_append_left hlt]
      · obtain ⟨offset, rfl⟩ := Nat.exists_eq_add_of_lt hlt
        simp [List.getElem?_append_right, Nat.add_assoc]

theorem CreationStep.caller (h : CreationStep self s label s')
    (hcaller : label.caller? = some position) (hcall : s.calls[position]? = some call) :
    ∃ before after event phase, s.calls = before ++ call :: after ∧
      call.step s.db (uncommittedRows (before ++ after)) event = some (s'.db, phase) ∧
      s'.calls[position]? = some { call with phase := phase } := by
  cases h with
  | control | requested => cases hcaller
  | @advanced before after other event db' phase hsplit hstep =>
      cases hcaller
      rw [hsplit, List.getElem?_append_right le_rfl, Nat.sub_self, List.getElem?_cons_zero] at hcall
      cases hcall
      exact ⟨before, after, event, phase, hsplit, hstep, by simp⟩

theorem run_calls (h : (creations self).Run s labels s') (hcall : s.calls[position]? = some call) :
    ∃ phase, s'.calls[position]? = some { call with phase := phase } := by
  refine h.keeps (I := fun t => ∃ phase, t.calls[position]? = some { call with phase := phase }) ?_
    ⟨call.phase, hcall⟩
  rintro t label u ⟨phase, hphase⟩ hstep
  by_cases hcaller : label.caller? = some position
  · obtain ⟨_, _, _, phase', _, _, hnext⟩ := CreationStep.caller hstep hcaller hphase
    exact ⟨phase', hnext⟩
  · exact ⟨phase, CreationStep.calls_of_ne hstep hcaller hphase⟩

/-- A call whose key is in use has no row to commit. -/
theorem step_unchanged (hs : s.Sound) (hmem : record ∈ s.db.tasks)
    (hkey : record.idempotencyDigest = some ⟨key⟩) (hcall : s.calls[position]? = some call)
    (hcallKey : call.idempotencyKey = some key) (h : CreationStep self s label s')
    (hcaller : label.caller? = some position) : s'.db = s.db := by
  obtain ⟨before, after, event, phase, hsplit, hstep, _⟩ := h.caller hcaller hcall
  have hsound := hs.callSound hsplit
  rcases CreationCall.step_cases hsound hstep with ⟨hsame, _⟩ | ⟨row, payloads, hphase, _, _⟩
  · exact hsame
  · have hrow := hsound.row row (by rw [hphase]; rfl)
    refine absurd ?_ (hrow.committed record hmem)
    refine .inr (.inl ⟨by simp [hkey], ?_⟩)
    rw [hkey, hrow.key, hcallKey]
    rfl

/-- A call that looks a bound key up waits, fails with the database, or is answered from the
task. -/
theorem run_boundAnswer (hs : s.Sound) (hmem : record ∈ s.db.tasks)
    (hkey : record.idempotencyDigest = some ⟨key⟩) (hcall : s.calls[position]? = some call)
    (hcallKey : call.idempotencyKey = some key) (hlooks : call.phase.looksUp)
    (h : (creations self).Run s labels s') :
    ∃ phase, s'.calls[position]? = some { call with phase := phase } ∧
      (phase = call.phase ∨ phase = .answered .failed ∨ ∃ later,
        later.identity = record.identity ∧ phase = .answered (call.boundAnswer later)) := by
  have hall : (s'.Sound ∧ s.db.Grows s'.db) ∧
      ∃ phase, s'.calls[position]? = some { call with phase := phase } ∧
        (phase = call.phase ∨ phase = .answered .failed ∨ ∃ later,
          later.identity = record.identity ∧ phase = .answered (call.boundAnswer later)) := by
    refine h.keeps (I := fun t => (t.Sound ∧ s.db.Grows t.db) ∧
      ∃ phase, t.calls[position]? = some { call with phase := phase } ∧
        (phase = call.phase ∨ phase = .answered .failed ∨ ∃ later,
          later.identity = record.identity ∧ phase = .answered (call.boundAnswer later))) ?_
      ⟨⟨hs, .refl s.db⟩, call.phase, hcall, .inl rfl⟩
    rintro t label u ⟨⟨ht, hgrows⟩, phase, hphase, hcases⟩ hstep
    obtain ⟨hu, hgrows'⟩ := CreationStep.sound hstep ht
    refine ⟨⟨hu, hgrows.trans hgrows'⟩, ?_⟩
    by_cases hcaller : label.caller? = some position
    · obtain ⟨_, _, event, phase', _, htaken, hnext⟩ := CreationStep.caller hstep hcaller hphase
      refine ⟨phase', hnext, .inr ?_⟩
      rcases hcases with rfl | rfl | ⟨_, _, rfl⟩
      · rcases step_of_looksUp hlooks htaken with hfailed | ⟨second, hlookup⟩
        · exact .inl hfailed
        · obtain ⟨later, hlater, hidentity⟩ := hgrows.mem hmem
          have hlaterKey : later.idempotencyDigest = some ⟨key⟩ :=
            (congrArg TaskIdentity.idempotencyDigest hidentity).trans hkey
          refine .inr ⟨later, hidentity, ?_⟩
          rw [hlookup]
          exact lookup_of_bound ht.bound hlater hlaterKey hcallKey second
      · rw [step_of_answered rfl] at htaken
        cases htaken
      · rw [step_of_answered rfl] at htaken
        cases htaken
    · exact ⟨phase, CreationStep.calls_of_ne hstep hcaller hphase, hcases⟩
  exact hall.2

/-! ## Result -/

/-- A key is bound to at most one task. -/
def Db.OneTaskPerKey (db : Db) : Prop :=
  ∀ task ∈ db.tasks, ∀ task' ∈ db.tasks, task.idempotencyDigest ≠ none →
    task.idempotencyDigest = task'.idempotencyDigest → task = task'

/-- Each task has one event of its creation, and there are no others. -/
def Db.CreatedOnce (db : Db) : Prop :=
  (∀ task ∈ db.tasks, db.createdIds.count task.taskId = 1) ∧
    ∀ taskId ∈ db.createdIds, ∃ task ∈ db.tasks, task.taskId = taskId

theorem CreationState.Sound.createdOnce (h : s.Sound) : s.db.CreatedOnce := by
  unfold Db.CreatedOnce
  rw [h.bound.created]
  refine ⟨fun task htask => ?_, fun taskId hmem => List.mem_map.mp hmem⟩
  exact List.count_eq_one_of_mem h.keys.tasks (List.mem_map_of_mem htask)

/-- In every run each key is bound to at most one task and each task was published once.  From a
state on in which a key is bound, the task stays bound to it, no step of a call with the key
changes the database, a call that looks the key up is answered from the task, and a call whose
insert the column refuses looks it up once more. -/
theorem creation_idempotent (hinit : (creations self).Initial s)
    (hrun : (creations self).Run s labels s') :
    s'.db.OneTaskPerKey ∧ s'.db.CreatedOnce ∧
      ∀ before t rest, labels = before ++ rest → (creations self).Run s before t →
        (creations self).Run t rest s' → ∀ record ∈ t.db.tasks,
          (∃ later ∈ s'.db.tasks, later.identity = record.identity) ∧
            ∀ key, record.idempotencyDigest = some ⟨key⟩ → ∀ position call,
              t.calls[position]? = some call → call.idempotencyKey = some key →
                (∀ mid u label v after, (creations self).At t rest s' mid u label v after →
                  label.caller? = some position → v.db = u.db) ∧
                (call.phase.looksUp →
                  (∀ rows, call.step t.db rows .lookup =
                    some (t.db, .answered (call.boundAnswer record))) ∧
                  ∃ phase, s'.calls[position]? = some { call with phase := phase } ∧
                    (phase = call.phase ∨ phase = .answered .failed ∨
                      ∃ later, later.identity = record.identity ∧
                        phase = .answered (call.boundAnswer later))) ∧
                ∀ metadata, call.phase = .validated false metadata →
                  ∀ rows taskId db' phase, call.step t.db rows (.insert taskId) =
                    some (db', phase) → phase = .collided := by
  have hs' := run_sound hinit hrun
  refine ⟨fun task htask task' htask' => hs'.bound.eq_of_key htask htask', hs'.createdOnce, ?_⟩
  intro before t rest _ hbefore hrest record hrecord
  have ht := run_sound hinit hbefore
  refine ⟨(run_grows hrest ht).2.mem hrecord, ?_⟩
  intro key hkey position call hcall hcallKey
  refine ⟨?_, fun hlooks => ⟨fun rows => ?_, ?_⟩, ?_⟩
  · rintro mid u label v after ⟨_, hmid, hstep, _⟩ hcaller
    obtain ⟨hu, hgrows⟩ := run_grows hmid ht
    obtain ⟨later, hlater, hidentity⟩ := hgrows.mem hrecord
    obtain ⟨phase, hphase⟩ := run_calls hmid hcall
    exact step_unchanged hu hlater
      ((congrArg TaskIdentity.idempotencyDigest hidentity).trans hkey) hphase hcallKey hstep hcaller
  · cases hphase : call.phase with
    | started | collided =>
        simp only [CreationCall.step, hphase]
        rw [lookup_of_bound ht.bound hrecord hkey hcallKey]
    | unused | validated | inserted | flushed | answered =>
        simp [hphase, CreationPhase.looksUp] at hlooks
  · exact run_boundAnswer ht hrecord hkey hcall hcallKey hlooks hrest
  · intro metadata hphase rows taskId db' phase hinsert
    simp only [CreationCall.step, hphase] at hinsert
    obtain ⟨_, hinsert, heq⟩ := Option.map_eq_some_iff.mp hinsert
    cases heq
    exact insert_of_bound hrecord hkey hcallKey hinsert

def racedRequest (options : TaskOptions) : CreateTaskRequest where
  source := .url "https://host/a.pdf"
  options := options

def timedOptions : TaskOptions :=
  { (default : TaskOptions) with timeoutSeconds := some 60, timeout_valid := by decide }

/-- Two calls with one key and body both find it unused; the body of a third has another time
limit. -/
def racedRun : List CreationLabel × CreationState :=
  runCreations ⟨sampleDb, []⟩
    [.arrive (racedRequest default) (some "submission") 0,
      .arrive (racedRequest default) (some "submission") 1,
      .advance 0 .lookup, .advance 1 .lookup,
      .advance 0 (.validate (.ok (some sampleMetadata))),
      .advance 1 (.validate (.ok (some sampleMetadata))),
      .advance 0 (.insert "task-a"), .advance 0 (.route sampleStageIds), .advance 0 .commit,
      .advance 1 (.insert "task-b"), .advance 1 .lookup,
      .arrive (racedRequest timedOptions) (some "submission") 2, .advance 2 .lookup]

/-- The call that loses the race is answered with the task of the other. -/
theorem creation_idempotent_raced :
    racedRun.2.calls.map (·.phase) = [.answered (.accepted "task-a" .pending 0),
      .answered (.accepted "task-a" .pending 0), .answered .conflict] ∧
    racedRun.2.db.OneTaskPerKey ∧ racedRun.2.db.CreatedOnce := by
  have hinit : (creations sampleScheduler).Initial ⟨sampleDb, []⟩ := ⟨⟨rfl, rfl⟩, rfl⟩
  have hrun : (creations sampleScheduler).Run ⟨sampleDb, []⟩ racedRun.1 racedRun.2 :=
    runCreations_run _ _ _
  have hresult := creation_idempotent hinit hrun
  exact ⟨by decide +kernel, hresult.1, hresult.2.1⟩

end ParserServe
