import ParserServe.Foundation.RowLocks
import ParserServe.Lifecycle.Progress
import ParserServe.Persistence.Pipelines

/-! # Publications that overlap

`PipelineRepository.publish` as the steps of its transaction under READ COMMITTED, for calls
on versions of one pipeline.  A transaction locks the row of its own version, and then the
rows its second query finds `PUBLISHED`.  That query takes its snapshot when it starts, waits
for each row in turn and tests the row again as it is committed by then; a row that no longer
fits is left out of the result but stays locked.  A version that another transaction publishes
after the snapshot is in no row the query looks at.
-/

namespace ParserServe

open Foundation

/-- A call of `publish` on the pipeline. -/
structure PublishCall where
  version : Nat
  now : Time

/-- How far a transaction has come: `validate` has yet to look at `stages`, or the second
query has yet to lock the rows `waiting` and has locked `locked`. -/
inductive PublishTxn
  | begun
  | validating (record : PipelineRow) (stages : List PipelineStageDefinition)
      (violations : List PipelineValidationViolation)
  | locking (record : PipelineRow) (waiting : List Nat) (locked : List PipelineRow)
  | committed
  | rolledBack
  deriving DecidableEq

def PublishTxn.ended : PublishTxn → Bool
  | .committed | .rolledBack => true
  | _ => false

def PublishTxn.held : PublishTxn → List PipelineRow
  | .begun | .committed | .rolledBack => []
  | .validating record _ _ => [record]
  | .locking record _ locked => record :: locked

/-- The row of the version to be published, once it is locked. -/
def PublishTxn.record? : PublishTxn → Option PipelineRow
  | .begun | .committed | .rolledBack => none
  | .validating record _ _ | .locking record _ _ => some record

def pipelineLocks : RowLocks Nat PipelineRow PublishTxn where
  key := (·.recordId)
  held := PublishTxn.held

/-- The tables and the transactions. -/
structure Publishing (n : Nat) extends Sessions (Fin n) PipelineRow PublishTxn where
  backends : List BackendRecord

inductive PublishLabel (n : Nat)
  | selectRecord (i : Fin n)
  | checkStage (i : Fin n)
  | selectPublished (i : Fin n)
  | lockPublished (i : Fin n) (recordId : Nat)
  | commit (i : Fin n)
  /-- The call raises, finds no version or is cancelled, or the connection is lost. -/
  | rollback (i : Fin n)
  /-- Other transactions write the backend table, which is read without locks. -/
  | saveBackends (backends : List BackendRecord)
  deriving DecidableEq

def Publishing.move {n : Nat} (state : Publishing n) (i : Fin n) (txn : PublishTxn) :
    Publishing n :=
  { state with toSessions := state.toSessions.move i txn }

def Publishing.commit {n : Nat} (state : Publishing n) (i : Fin n) (rows : List PipelineRow) :
    Publishing n :=
  { state with toSessions := state.toSessions.commit i rows .committed }

/-- The step of a label; `none` where the transaction waits for a lock or is elsewhere. -/
def Publishing.advance {n : Nat} (pipelineId : String) (calls : Fin n → PublishCall)
    (state : Publishing n) : PublishLabel n → Option (Publishing n)
  | .selectRecord i =>
      match state.txns i, pipelineRow? state.rows pipelineId (calls i).version with
      | .begun, some record =>
          if pipelineLocks.Free state.toSessions i record.recordId then
            match record.definition with
            | .error _ => none
            | .ok definition => some (state.move i (.validating record definition.stages []))
          else none
      | _, _ => none
  | .checkStage i =>
      match state.txns i with
      | .validating record (stage :: stages) violations =>
          some (state.move i (.validating record stages (violations ++
            stageViolations state.backends record.toPipelineContent stage)))
      | _ => none
  | .selectPublished i =>
      match state.txns i with
      | .validating record [] violations =>
          if (validationData violations).valid then
            let found := state.rows.filter (record.PublishedBeside ·)
            some (state.move i (.locking record (found.map (·.recordId)) []))
          else none
      | _ => none
  | .lockPublished i recordId =>
      match state.txns i, state.rows.find? (·.recordId = recordId) with
      | .locking record waiting locked, some row =>
          if recordId ∈ waiting ∧ pipelineLocks.Free state.toSessions i recordId then
            some (state.move i (.locking record (waiting.erase recordId) (locked ++ [row])))
          else none
      | _, _ => none
  | .commit i =>
      match state.txns i with
      | .locking record [] locked =>
          let previous := locked.filter (record.PublishedBeside ·)
          match previous.mapM PipelineRow.definition with
          | .error _ => none
          | .ok _ =>
              some (state.commit i (publishRows state.rows record previous (calls i).now))
      | _ => none
  | .rollback i => if (state.txns i).ended then none else some (state.move i .rolledBack)
  | .saveBackends backends => some { state with backends }

/-- The state before the first step: the primary key and `uq_pipelines_id_version` hold. -/
structure Publishing.Start {n : Nat} (state : Publishing n) : Prop where
  recordIds_nodup : (state.rows.map (·.recordId)).Nodup
  versions_nodup : (state.rows.map fun row => (row.pipelineId, row.version)).Nodup
  begun : ∀ i, state.txns i = .begun

/-- The calls of `publish` on versions of the pipeline, in any interleaving. -/
def publications {n : Nat} (pipelineId : String) (calls : Fin n → PublishCall) :
    System (Publishing n) (PublishLabel n) :=
  System.ofStep Publishing.Start (Publishing.advance pipelineId calls)

variable {n : Nat} {pipelineId : String} {calls : Fin n → PublishCall} {s t : Publishing n}
  {i : Fin n} {label : PublishLabel n} {labels : List (PublishLabel n)} {txn : PublishTxn}
  {record : PipelineRow} {rows locked previous : List PipelineRow} {now : Time}

/-! ## What a step can do -/

/-- The step ends a transaction by committing it. -/
structure PublishCommit (calls : Fin n → PublishCall) (i : Fin n) (record : PipelineRow)
    (locked : List PipelineRow) (s t : Publishing n) : Prop where
  locking : s.txns i = .locking record [] locked
  result : t = s.commit i
    (publishRows s.rows record (locked.filter (record.PublishedBeside ·)) (calls i).now)

/-- A transaction goes on without writing: what it holds afterwards it has held before, or
is committed and free. -/
structure PublishMove (pipelineId : String) (i : Fin n) (txn : PublishTxn)
    (s t : Publishing n) : Prop where
  result : t = s.move i txn
  held : ∀ row ∈ txn.held, row ∈ (s.txns i).held ∨
    (row ∈ s.rows ∧ pipelineLocks.Free s.toSessions i row.recordId)
  record : ∀ record ∈ txn.record?, record ∈ (s.txns i).record? ∨ record.pipelineId = pipelineId

theorem advance_cases (h : s.advance pipelineId calls label = some t) :
    (∃ i record locked, label = .commit i ∧ PublishCommit calls i record locked s t) ∨
      (∃ i txn, (∀ j, label ≠ .commit j) ∧ PublishMove pipelineId i txn s t) ∨
      ∃ backends, label = .saveBackends backends ∧ t = { s with backends } := by
  cases label with
  | selectRecord i =>
      rw [Publishing.advance] at h
      split at h
      · next record hbegun hrow =>
          split at h
          · next hfree =>
              split at h
              · cases h
              · cases h
                have hfound := List.find?_some hrow
                refine .inr (.inl ⟨i, _, by simp, rfl, ?_, ?_⟩)
                · intro row hheld
                  rw [List.mem_singleton.mp hheld]
                  exact .inr ⟨List.mem_of_find?_eq_some hrow, hfree⟩
                · rintro _ ⟨⟩
                  exact .inr (of_decide_eq_true hfound).1
          · cases h
      · cases h
  | checkStage i =>
      rw [Publishing.advance] at h
      split at h
      · next record _ _ _ hphase =>
          cases h
          refine .inr (.inl ⟨i, _, by simp, rfl, fun row hrow => ?_, fun row hrow => ?_⟩)
          · exact .inl (by rwa [hphase])
          · exact .inl (by rwa [hphase])
      · cases h
  | selectPublished i =>
      rw [Publishing.advance] at h
      split at h
      · next record _ hphase =>
          split at h
          · cases h
            refine .inr (.inl ⟨i, _, by simp, rfl, fun row hrow => ?_, fun row hrow => ?_⟩)
            · exact .inl (by rwa [hphase])
            · exact .inl (by rwa [hphase])
          · cases h
      · cases h
  | lockPublished i recordId =>
      rw [Publishing.advance] at h
      split at h
      · next record waiting locked row hphase hfind =>
          split at h
          · next hfree =>
              cases h
              have hkey : row.recordId = recordId := by simpa using List.find?_some hfind
              refine .inr (.inl ⟨i, _, by simp, rfl, ?_, fun other hother => ?_⟩)
              · intro other hother
                rcases List.mem_cons.mp hother with rfl | hother
                · exact .inl (by simp [hphase, PublishTxn.held])
                · rcases List.mem_append.mp hother with hother | hother
                  · exact .inl (by simp [hphase, PublishTxn.held, hother])
                  · rw [List.mem_singleton.mp hother, hkey]
                    exact .inr ⟨List.mem_of_find?_eq_some hfind, hfree.2⟩
              · exact .inl (by rwa [hphase])
          · cases h
      · cases h
  | commit i =>
      rw [Publishing.advance] at h
      split at h
      · next record locked hphase =>
          simp only at h
          split at h
          · cases h
          · cases h
            exact .inl ⟨i, record, locked, rfl, hphase, rfl⟩
      · cases h
  | rollback i =>
      rw [Publishing.advance] at h
      split at h
      · cases h
      · cases h
        refine .inr (.inl ⟨i, .rolledBack, by simp, rfl, ?_, ?_⟩)
        · simp [PublishTxn.held]
        · simp [PublishTxn.record?]
  | saveBackends backends =>
      cases h
      exact .inr (.inr ⟨backends, rfl, rfl⟩)

/-! ## Locks -/

/-- Row locks are sound, and each transaction has locked a version of the pipeline. -/
structure Publishing.Sound (pipelineId : String) (s : Publishing n) : Prop where
  locks : pipelineLocks.Sound s.toSessions
  records : ∀ i, ∀ record ∈ (s.txns i).record?, record.pipelineId = pipelineId

theorem Publishing.Start.sound (h : s.Start) : s.Sound pipelineId where
  locks := RowLocks.sound_of_unlocked h.recordIds_nodup fun i => by
    rw [h.begun i]
    rfl
  records := by simp [h.begun, PublishTxn.record?]

theorem PublishTxn.record?_mem_held (h : record ∈ txn.record?) : record ∈ txn.held := by
  cases txn <;> simp_all [PublishTxn.record?, PublishTxn.held]

theorem publish_recordId : (record.publish now).recordId = record.recordId := rfl

theorem written_recordIds (now : Time) :
    (record.publish now :: previous.map (·.disable now)).map (·.recordId) =
      record.recordId :: previous.map (·.recordId) := by
  simp [PipelineRow.publish, PipelineRow.disable, Function.comp_def]

theorem Publishing.Sound.update_record (h : s.Sound pipelineId)
    (htxn : ∀ record ∈ txn.record?, record.pipelineId = pipelineId) :
    ∀ j, ∀ record ∈ (Function.update s.txns i txn j).record?, record.pipelineId = pipelineId := by
  intro j record hrecord
  by_cases hj : j = i
  · subst hj
    rw [Function.update_self] at hrecord
    exact htxn record hrecord
  · rw [Function.update_of_ne hj] at hrecord
    exact h.records j record hrecord

theorem PublishMove.sound (hmove : PublishMove pipelineId i txn s t) (h : s.Sound pipelineId) :
    t.Sound pipelineId := by
  rw [hmove.result]
  refine ⟨h.locks.move hmove.held, h.update_record fun record hrecord => ?_⟩
  rcases hmove.record record hrecord with hown | hown
  · exact h.records i record hown
  · exact hown

theorem PublishCommit.sound (hcommit : PublishCommit calls i record locked s t)
    (h : s.Sound pipelineId) : t.Sound pipelineId := by
  rw [hcommit.result]
  refine ⟨h.locks.commit ?_ ?_ rfl, h.update_record (by simp [PublishTxn.record?])⟩
  · have hkeys : (publishRows s.rows record (locked.filter (record.PublishedBeside ·))
        (calls i).now).map pipelineLocks.key = s.rows.map pipelineLocks.key :=
      map_replaceKeys _ _ _
    exact hkeys ▸ h.locks.nodup
  · intro row hrow hkey
    refine mem_replaceKeys_of_notMem hrow ?_
    rw [written_recordIds]
    rw [hcommit.locking] at hkey
    intro hmem
    refine hkey ?_
    rcases List.mem_cons.mp hmem with hown | hmem
    · exact List.mem_map.mpr ⟨record, List.mem_cons_self, hown.symm⟩
    · obtain ⟨other, hother, heq⟩ := List.mem_map.mp hmem
      exact List.mem_map.mpr ⟨other, List.mem_cons_of_mem _ (List.mem_of_mem_filter hother), heq⟩

theorem publications_sound (h : s.Sound pipelineId)
    (hstep : (publications pipelineId calls).Step s label t) : t.Sound pipelineId := by
  rcases advance_cases hstep with ⟨i, record, locked, -, hcommit⟩ | ⟨i, txn, -, hmove⟩ |
    ⟨backends, -, rfl⟩
  · exact hcommit.sound h
  · exact hmove.sound h
  · exact ⟨h.locks, h.records⟩

/-! ## At most one published version -/

/-- The rows of the pipeline that are `PUBLISHED`. -/
def publishedVersions (pipelineId : String) (rows : List PipelineRow) : List PipelineRow :=
  rows.filter fun row => row.pipelineId = pipelineId ∧ row.status = .published

def Publishing.AtMostOne (pipelineId : String) (state : Publishing n) : Prop :=
  (publishedVersions pipelineId state.rows).length ≤ 1

instance (state : Publishing n) : Decidable (state.AtMostOne pipelineId) :=
  inferInstanceAs (Decidable (_ ≤ _))

/-- The query for the published versions, made again now, finds no row that the transaction
has not locked. -/
def PublishTxn.QueryRepeats (rows : List PipelineRow) : PublishTxn → Prop
  | .locking record _ locked =>
      ∀ row ∈ rows, record.PublishedBeside row → row.recordId ∈ locked.map (·.recordId)
  | _ => True

instance (rows : List PipelineRow) : ∀ txn : PublishTxn, Decidable (txn.QueryRepeats rows)
  | .locking .. => inferInstanceAs (Decidable (∀ _ ∈ _, _))
  | .begun | .validating .. | .committed | .rolledBack => isTrue trivial

/-- A transaction that commits would find no further row. -/
def Publishing.QueryRepeats (state : Publishing n) : PublishLabel n → Prop
  | .commit i => (state.txns i).QueryRepeats state.rows
  | _ => True

instance (state : Publishing n) : ∀ label, Decidable (state.QueryRepeats label)
  | .commit i => inferInstanceAs (Decidable ((state.txns i).QueryRepeats state.rows))
  | .selectRecord _ | .checkStage _ | .selectPublished _ | .lockPublished .. | .rollback _
  | .saveBackends _ => isTrue trivial

theorem mem_publishedVersions {row : PipelineRow} : row ∈ publishedVersions pipelineId rows ↔
    row ∈ rows ∧ row.pipelineId = pipelineId ∧ row.status = .published := by
  simp [publishedVersions]

theorem atMostOne_iff (h : s.Sound pipelineId) : s.AtMostOne pipelineId ↔
    ∀ a ∈ publishedVersions pipelineId s.rows, ∀ b ∈ publishedVersions pipelineId s.rows, a = b :=
  length_le_one_iff_of_nodup (h.locks.nodup.of_map _ |>.filter _)

/-- The version published by a commit is committed. -/
theorem PublishCommit.mem_published (hcommit : PublishCommit calls i record locked s t)
    (h : s.Sound pipelineId) :
    record.publish (calls i).now ∈ publishedVersions pipelineId t.rows := by
  have hheld : record ∈ (s.txns i).record? := by simp [hcommit.locking, PublishTxn.record?]
  have hrow := h.locks.current i record (PublishTxn.record?_mem_held hheld)
  rw [hcommit.result]
  exact mem_publishedVersions.mpr
    ⟨mem_replaceKeys_head hrow rfl, h.records i record hheld, rfl⟩

/-- The other published versions after a commit are those it has not locked. -/
theorem PublishCommit.mem_published_iff (hcommit : PublishCommit calls i record locked s t)
    (h : s.Sound pipelineId) {row : PipelineRow} (hne : row ≠ record.publish (calls i).now) :
    row ∈ publishedVersions pipelineId t.rows ↔
      row ∈ s.rows ∧ record.PublishedBeside row ∧ row.recordId ∉ locked.map (·.recordId) := by
  have hheld : record ∈ (s.txns i).record? := by simp [hcommit.locking, PublishTxn.record?]
  have hid := h.records i record hheld
  rw [hcommit.result, mem_publishedVersions]
  constructor
  · rintro ⟨hrow, hpipeline, hpublished⟩
    rcases mem_replaceKeys_cases hrow with hwritten | ⟨hrow, hkey⟩
    · rcases List.mem_cons.mp hwritten with hown | hdisabled
      · exact absurd hown hne
      · obtain ⟨other, -, rfl⟩ := List.mem_map.mp hdisabled
        cases hpublished
    · rw [written_recordIds] at hkey
      have hother : row.recordId ≠ record.recordId :=
        fun heq => hkey (heq ▸ List.mem_cons_self)
      have hbeside : record.PublishedBeside row := ⟨hpipeline.trans hid.symm, hpublished, hother⟩
      refine ⟨hrow, hbeside, fun hlocked => hkey (List.mem_cons_of_mem _ ?_)⟩
      obtain ⟨own, hmem, heq⟩ := List.mem_map.mp hlocked
      -- a locked row is as it was when it was locked
      have hown : own ∈ pipelineLocks.held (s.txns i) := by
        rw [hcommit.locking]
        exact List.mem_cons_of_mem _ hmem
      have hsame : row = own := h.locks.eq_of_key hown hrow heq.symm
      subst hsame
      exact List.mem_map_of_mem (List.mem_filter.mpr ⟨hmem, by simpa using hbeside⟩)
  · rintro ⟨hrow, ⟨hpipeline, hpublished, hother⟩, hlocked⟩
    refine ⟨mem_replaceKeys_of_notMem hrow ?_, hpipeline.trans hid, hpublished⟩
    rw [written_recordIds]
    intro hkey
    rcases List.mem_cons.mp hkey with heq | hkey
    · exact hother heq
    · obtain ⟨own, hmem, heq⟩ := List.mem_map.mp hkey
      exact hlocked (List.mem_map.mpr ⟨own, List.mem_of_mem_filter hmem, heq⟩)

theorem PublishCommit.queryRepeats_iff (hcommit : PublishCommit calls i record locked s t)
    (h : s.Sound pipelineId) : s.QueryRepeats (.commit i) ↔ t.AtMostOne pipelineId := by
  rw [atMostOne_iff (hcommit.sound h)]
  simp only [Publishing.QueryRepeats, PublishTxn.QueryRepeats, hcommit.locking]
  have hown := hcommit.mem_published h
  constructor
  · intro hrepeats
    have hall : ∀ row ∈ publishedVersions pipelineId t.rows,
        row = record.publish (calls i).now := by
      intro row hrow
      by_contra hne
      obtain ⟨hmem, hbeside, hlocked⟩ := (hcommit.mem_published_iff h hne).mp hrow
      exact hlocked (hrepeats row hmem hbeside)
    intro a ha b hb
    rw [hall a ha, hall b hb]
  · intro hone row hrow hbeside
    by_contra hlocked
    have hne : row ≠ record.publish (calls i).now := by
      rintro rfl
      exact hbeside.2.2 rfl
    exact hne (hone row ((hcommit.mem_published_iff h hne).mpr ⟨hrow, hbeside, hlocked⟩) _ hown)

theorem step_queryRepeats_iff (h : s.Sound pipelineId) (hone : s.AtMostOne pipelineId)
    (hstep : (publications pipelineId calls).Step s label t) :
    s.QueryRepeats label ↔ t.AtMostOne pipelineId := by
  rcases advance_cases hstep with ⟨i, record, locked, rfl, hcommit⟩ | ⟨i, txn, hne, hmove⟩ |
    ⟨backends, rfl, rfl⟩
  · exact hcommit.queryRepeats_iff h
  · refine iff_of_true ?_ ?_
    · cases label with
      | commit j => exact absurd rfl (hne j)
      | _ => trivial
    · rw [hmove.result]
      exact hone
  · exact iff_of_true trivial hone

/-- From at most one published version, a run never shows two exactly when each publication
that commits has locked all that its query for the published versions would find now. -/
theorem one_published_iff (hs : s.Start) (hone : s.AtMostOne pipelineId) :
    ((publications pipelineId calls).restrict Publishing.QueryRepeats).Run s labels t ↔
      ((publications pipelineId calls).through (·.AtMostOne pipelineId)).Run s labels t :=
  System.restrict_run_iff_through (I := (·.Sound pipelineId))
    (fun _ _ _ h hstep => publications_sound h hstep)
    (fun _ _ _ h hone hstep => step_queryRepeats_iff h hone hstep) hs.sound hone

/-! ## Two drafts -/

def draftRow (recordId version : Nat) : PipelineRow where
  pipelineId := samplePipeline.pipelineId
  name := samplePipeline.name
  version := version + 1
  mediaCategories := samplePipeline.mediaCategories
  stages := samplePipeline.stages
  createdAt := 0
  version_valid := Nat.le_add_left 1 version
  categories_ne_nil := samplePipeline.categories_ne_nil
  stages_ne_nil := samplePipeline.stages_ne_nil
  dag_valid := samplePipeline.dag_valid
  recordId := recordId
  status := .draft
  updatedAt := 0

/-- Two versions, neither of which is published. -/
def twoDrafts : Publishing 2 where
  rows := [draftRow 1 0, draftRow 2 1]
  txns := fun _ => .begun
  backends := sampleDb.backends

/-- The first transaction publishes version 1 and the second version 2. -/
def draftCalls (i : Fin 2) : PublishCall where
  version := i + 1
  now := 1

theorem twoDrafts_start : twoDrafts.Start where
  recordIds_nodup := by decide
  versions_nodup := by decide
  begun := fun _ => rfl

/-- One publication after the other: the second disables the version of the first. -/
theorem one_published_serial : ∃ labels t,
    ((publications "report" draftCalls).through
        (·.AtMostOne "report")).Run twoDrafts labels t ∧
      (∀ i, t.txns i = .committed) ∧ t.rows.map (·.status) = [.disabled, .published] := by
  have hrun : ∃ t ∈ [.selectRecord 0, .checkStage 0, .checkStage 0, .checkStage 0,
      .selectPublished 0, .commit 0, .selectRecord 1, .checkStage 1, .checkStage 1, .checkStage 1,
      .selectPublished 1, .lockPublished 1 1, .commit 1].foldlM
        (fun s label => if s.QueryRepeats label then
          s.advance "report" draftCalls label else none) twoDrafts,
      (∀ i, t.txns i = .committed) ∧ t.rows.map (·.status) = [.disabled, .published] := by
    decide +kernel
  obtain ⟨t, ht, hend⟩ := hrun
  exact ⟨_, t, (one_published_iff twoDrafts_start (by decide)).mp (System.ofStep_run_restrict ht),
    hend⟩

/-- Each publication looks for published versions before the other commits, so it finds and
locks none, and both drafts end up published. -/
theorem both_drafts_published : twoDrafts.Start ∧ twoDrafts.AtMostOne "report" ∧
    ∃ labels t, (publications "report" draftCalls).Run twoDrafts labels t ∧
      (∀ i, t.txns i = .committed) ∧ ¬ t.AtMostOne "report" := by
  have hrun : ∃ t ∈ [.selectRecord 0, .selectRecord 1, .checkStage 0, .checkStage 0, .checkStage 0,
      .checkStage 1, .checkStage 1, .checkStage 1, .selectPublished 0,
      .selectPublished 1, .commit 0, .commit 1].foldlM
        (Publishing.advance "report" draftCalls) twoDrafts,
      (∀ i, t.txns i = .committed) ∧ ¬ t.AtMostOne "report" := by
    decide +kernel
  obtain ⟨t, ht, hend⟩ := hrun
  exact ⟨twoDrafts_start, by decide, _, t, System.ofStep_run ht, hend⟩

end ParserServe
