import ParserServe.Foundation.Percent
import ParserServe.Lifecycle.Columns
import ParserServe.Lifecycle.Progress

/-! # Every record can be shown

`task_detail` validates what it shows, so a record whose columns disagree would make every
later read of the task fail.  The invariant of `Lifecycle.Columns` implies those checks, and
it is kept by the control plane and by the retention passes under a clock that does not go
back.  Formats of identifiers and of non-empty texts are checked by the same types where a
value enters, and are not part of the model.  A URL is not shown as it was accepted: its type
limits the length of the text it is given, and the text stored for it may be longer.
-/

namespace ParserServe

open Foundation

variable {manual : Prop} {clock now : Time} {task : TaskRecord}
  {granted : Option LeaseGrant} {db : Db}

/-! ## Retention -/

/-- Forgetting a result keeps a record consistent and sound. -/
theorem forgetResult_consistent (hcons : task.Consistent) (uri : String) (now : Time) :
    (task.forgetResult uri now).Consistent := by
  have hchange : ∀ stage ∈ task.stages,
      StageChange False now task none stage (stage.forgetResult uri now) :=
    fun stage _ => .moved (.single (.forgot uri)) (by simp)
  have hstatus : ∀ stage : StageRecord, (stage.forgetResult uri now).status = stage.status := by
    intro stage
    unfold StageRecord.forgetResult
    split <;> rfl
  refine ⟨hcons.plan.map fun stage hmem => (hchange stage hmem).samePlan,
    hcons.order.of_change hcons.plan.names_nodup rfl hchange, hcons.agrees.congr ?_⟩
  simp [TaskRecord.forgetResult, hstatus]

theorem forgetResult_sound (hs : task.Sound now) (uri : String) :
    (task.forgetResult uri now).Sound now := by
  refine { hs with
    result := ?_
    stages := ?_
    bound := fun hne => hs.bound (by simpa [TaskRecord.forgetResult] using hne) }
  · show (if task.resultUri = some uri then none else task.resultUri).isSome →
      task.status = .succeeded
    split
    · simp
    · exact hs.result
  · intro stage hmem
    obtain ⟨stage₀, hmem₀, rfl⟩ := List.mem_map.mp hmem
    obtain ⟨hsound, htimed⟩ := hs.stages stage₀ hmem₀
    have hmove : StageMove False now stage₀ (stage₀.forgetResult uri now) := .forgot uri
    exact ⟨hmove.sound hsound, hmove.timed hsound htimed⟩

/-- The invariant of a database at `clock`. -/
structure Db.Showable (clock : Time) (db : Db) : Prop where
  keys : db.KeysNodup
  tasks : ∀ task ∈ db.tasks, task.Consistent ∧ task.Sound clock

theorem Db.Showable.mono (h : db.Showable clock) (hle : clock ≤ now) : db.Showable now :=
  ⟨h.keys, fun task hmem => ⟨(h.tasks task hmem).1, (h.tasks task hmem).2.mono hle⟩⟩

theorem Db.Showable.congr {db db' : Db} (h : db.Showable clock) (htasks : db'.tasks = db.tasks) :
    db'.Showable clock :=
  ⟨⟨htasks ▸ h.keys.tasks, by simpa [Db.stages, htasks] using h.keys.stages⟩, htasks ▸ h.tasks⟩

theorem Db.Showable.forgetResult (h : db.Showable now) (uri : String) :
    ({ db with tasks := db.tasks.map (·.forgetResult uri now) } : Db).Showable now := by
  have hid : ∀ stage : StageRecord, (stage.forgetResult uri now).stageId = stage.stageId :=
    fun stage => (StageMove.samePlan (.forgot uri : StageMove False now stage _)).stageId
  refine ⟨⟨?_, ?_⟩, ?_⟩
  · simpa [Function.comp_def, TaskRecord.forgetResult] using h.keys.tasks
  · have hids : ∀ task : TaskRecord, (task.forgetResult uri now).stages.map (·.stageId) =
        task.stages.map (·.stageId) := by
      intro task
      simp [TaskRecord.forgetResult, Function.comp_def, hid]
    have := h.keys.stages
    simp only [Db.stages, List.map_flatMap] at this
    simpa only [Db.stages, List.map_flatMap, List.flatMap_map, hids] using this
  · intro task hmem
    obtain ⟨task₀, hmem₀, rfl⟩ := List.mem_map.mp hmem
    exact ⟨forgetResult_consistent (h.tasks task₀ hmem₀).1 uri now,
      forgetResult_sound (h.tasks task₀ hmem₀).2 uri⟩

theorem deleteUploads_showable {deleteFails : String → Bool} {state : RetentionState}
    (h : state.db.Showable now) (records : List UploadedFileRecord) :
    (records.foldl (deleteUpload deleteFails) state).db.Showable now := by
  refine List.foldlRecOn (motive := fun state : RetentionState => state.db.Showable now) records
    _ h fun state hstate record _ => ?_
  unfold deleteUpload
  split
  · exact hstate
  · exact hstate.congr rfl

theorem deleteArtifacts_showable {deleteFails : String → Bool} {state : RetentionState}
    (h : state.db.Showable now) (records : List ArtifactRecord) :
    (records.foldl (deleteArtifact deleteFails now) state).db.Showable now := by
  refine List.foldlRecOn (motive := fun state : RetentionState => state.db.Showable now) records
    _ h fun state hstate record _ => ?_
  unfold deleteArtifact
  split
  · exact hstate
  · exact (hstate.forgetResult record.storageUri).congr rfl

theorem runOnce_showable {self : RetentionService} {db' : Db} {storage storage' : List String}
    {deleteFails : String → Bool} {dryRun : Bool} {maximumRecords : Option Nat}
    {report : RetentionRunData} (h : db.Showable now)
    (hrun : self.runOnce db storage deleteFails now dryRun maximumRecords =
      some (db', storage', report)) : db'.Showable now := by
  unfold RetentionService.runOnce at hrun
  dsimp only at hrun
  split at hrun
  · cases hrun
  split at hrun
  · cases hrun
    exact h
  · cases hrun
    have hstart : (⟨db, storage, 0⟩ : RetentionState).db.Showable now := h
    exact (deleteArtifacts_showable (deleteUploads_showable hstart _) _).congr rfl

/-! ## The service -/

structure ServiceState where
  db : Db
  storage : List String
  clock : Time

inductive ServiceLabel
  | control (label : Label)
  | retained (report : RetentionRunData)

/-- The clock after a step of the control plane. -/
def Label.clockAfter (clock : Time) : Label → Time
  | .returned operation _ | .raised operation _ => operation.now
  | .administered | .reordered => clock

/-- A step of the control plane, during which objects may be stored, or a retention pass;
neither reads a clock that went back. -/
inductive ServiceStep (self : StageScheduler) (retention : RetentionService) :
    ServiceState → ServiceLabel → ServiceState → Prop
  | control {state : ServiceState} {label : Label} {db' : Db} (storage' : List String) :
      state.clock ≤ label.clockAfter state.clock → ControlStep self state.db label db' →
        ServiceStep self retention state (.control label)
          ⟨db', storage', label.clockAfter state.clock⟩
  | retained {state : ServiceState} {deleteFails : String → Bool} {now : Time} {dryRun : Bool}
      {maximumRecords : Option Nat} {db' : Db} {storage' : List String}
      {report : RetentionRunData} : state.clock ≤ now →
      retention.runOnce state.db state.storage deleteFails now dryRun maximumRecords =
        some (db', storage', report) →
          ServiceStep self retention state (.retained report) ⟨db', storage', now⟩

def parserService (self : StageScheduler) (retention : RetentionService) :
    System ServiceState ServiceLabel where
  Initial state := state.db.tasks = [] ∧ state.db.events = []
  Step := ServiceStep self retention

theorem DbChange.showable {db' : Db} (h : DbChange manual now db granted db')
    (hs : db.Showable now) :
    db'.Showable now := by
  refine ⟨h.keysNodup hs.keys, ?_⟩
  refine h.all_tasks hs.keys hs.tasks (fun _ h => h) ?_ ?_ ?_
  · intro request key allow taskId metadata hvalid
    exact ⟨consistent_invariant.created _ _ _ _ _, newTask_sound hvalid⟩
  · intro task task' payloads htask hnone hrouted
    exact ⟨consistent_invariant.routed htask.1 hnone hrouted, hrouted.sound htask.2⟩
  · intro task granted payloads task' htask hkeys hmove
    exact ⟨consistent_invariant.moved htask.1 hkeys hmove, hmove.sound hkeys htask.1 htask.2⟩

theorem ControlStep.showable {self : StageScheduler} {label : Label} {db' : Db}
    (h : ControlStep self db label db') (hs : db.Showable clock)
    (hle : clock ≤ label.clockAfter clock) : db'.Showable (label.clockAfter clock) := by
  cases h with
  | returned hanswerable hexec =>
      exact (exec_changes hs.keys hanswerable hexec).keeps
        (fun _ _ _ hs hstep => DbChange.showable hstep hs) (hs.mono hle)
  | raised => exact hs.mono hle
  | administered hadmin => exact hs.congr hadmin.tasks
  | reordered hmem hperm =>
      refine ⟨KeysNodup.reordered hs.keys hmem hperm, ?_⟩
      intro task₀ h₀
      rcases mem_saveTask h₀ with rfl | ⟨h₀, _⟩
      · obtain ⟨hcons, hsound⟩ := hs.tasks _ hmem
        refine ⟨consistent_invariant.reordered hcons hperm, { hsound with
          stages := fun stage hstage => hsound.stages stage (hperm.mem_iff.mp hstage)
          bound := fun hne => hsound.bound fun hnil => hne ?_ }⟩
        exact (hnil ▸ hperm).eq_nil
      · exact hs.tasks task₀ h₀

theorem service_showable {self : StageScheduler} {retention : RetentionService}
    {state : ServiceState} (h : (parserService self retention).Reachable state) :
    state.db.Showable state.clock := by
  refine h.invariant (I := fun state => state.db.Showable state.clock) ?_ ?_
  · rintro state ⟨htasks, _⟩
    refine ⟨?_, by simp [htasks]⟩
    constructor <;> simp [Db.stages, htasks]
  · rintro state label state' hs hstep
    cases hstep with
    | control storage' hle hstep => exact ControlStep.showable hstep hs hle
    | retained hle hrun => exact runOnce_showable (hs.mono hle) hrun

/-- The clock readings of a script do not go back. -/
def clocksOrdered (clock : Time) : List Operation → Bool
  | [] => true
  | operation :: rest => decide (clock ≤ operation.now) && clocksOrdered operation.now rest

/-- The last clock reading of a script. -/
def lastClock (clock : Time) : List Operation → Time
  | [] => clock
  | operation :: rest => lastClock operation.now rest

theorem runScript_service {self : StageScheduler} {retention : RetentionService}
    {operations : List Operation} {db db' : Db} {storage : List String}
    (hstate : (parserService self retention).Reachable ⟨db, storage, clock⟩)
    (hclock : clocksOrdered clock operations) (h : runScript self db operations = some db') :
    (parserService self retention).Reachable ⟨db', storage, lastClock clock operations⟩ := by
  induction operations generalizing db clock with
  | nil =>
      cases h
      exact hstate
  | cons operation rest ih =>
      rw [clocksOrdered, Bool.and_eq_true, decide_eq_true_eq] at hclock
      rw [runScript] at h
      split at h
      · next hanswered =>
          split at h
          · cases h
          · next db₁ response hexec =>
              have hcontrol : ControlStep self db (.returned operation response) db₁ :=
                .returned (answerable_of_answeredInOrder hanswered) hexec
              have hstep : ServiceStep self retention ⟨db, storage, clock⟩
                  (.control (.returned operation response)) ⟨db₁, storage, operation.now⟩ :=
                .control storage hclock.1 hcontrol
              exact ih (hstate.step hstep) hclock.2 h
      · cases h

/-! ## The detail view -/

theorem requirePercent_of {value : ℚ} (h : 0 ≤ value ∧ value ≤ 100) :
    requirePercent value = .ok () := by
  simp [requirePercent, h.1, h.2]

theorem requireOrderedTimes_of {createdAt : Time} {startedAt completedAt : Option Time}
    (hstarted : ∀ started ∈ startedAt, createdAt ≤ started)
    (hordered : ∀ started ∈ startedAt, ∀ completed ∈ completedAt, started ≤ completed) :
    requireOrderedTimes createdAt startedAt completedAt = .ok () := by
  simp only [requireOrderedTimes, bind_eq_ok, ensure_eq_ok]
  exact ⟨(), hstarted, hordered⟩

theorem stageDetail_isOk {stage : StageRecord} (hs : stage.Sound) (ht : stage.Timed clock) :
    ∃ detail, stageDetail stage = .ok detail := by
  have hvalid : StageDetail.validate { stage with } = .ok () := by
    have htimes := requireOrderedTimes_of (fun t h => (ht.started t h).1) ht.ordered
    simp only [StageDetail.validate, bind_eq_ok, ensure_eq_ok]
    refine ⟨(), hs.timeout.1, (), hs.timeout.2, (), requirePercent_of hs.progress, (),
      hs.attempts.1, (), hs.dependsOn_nodup, (), hs.candidates_nodup, (), hs.runtimes_nodup, (),
      hs.completed.mpr, (), hs.error.mpr, (), ?_, (), ?_, (), hs.attempts.2, (), hs.started, (),
      hs.completionDevice, htimes⟩
    · intro hne
      have := mt hs.error.mp hne
      simpa using this
    · intro hne
      have := mt hs.result hne
      simpa using this
  refine ⟨{ stage with }, ?_⟩
  simp only [stageDetail, hvalid, bind, Except.bind]

/-- The statuses that require a pipeline belong to tasks with stages. -/
theorem Agrees.stages_ne_nil {stages : List StageRecord} {status : TaskStatus}
    (h : Agrees stages status) (hrequires : status.requiresPipeline) : stages ≠ [] := by
  cases status with
  | leased | running | failed =>
      obtain ⟨_, stage, hmem, _⟩ := h
      exact List.ne_nil_of_mem hmem
  | succeeded => exact h.1
  | pending | cancelled => simp [TaskStatus.requiresPipeline] at hrequires

/-- The text stored for a URL passes its own type. -/
def ParseSource.StoredUrlValid (urls : UrlTypes) : ParseSource → Prop
  | .url stored => stored.utf8ByteSize ≤ 2083 ∧ (urls.httpUrl stored).isSome
  | .objectStorage stored _ => (urls.objectUri stored).isSome
  | .uploadedFile _ | .text _ _ _ => True

theorem requireUrl_isOk {url : Option String} :
    (∃ text, requireUrl url = .ok text) ↔ url.isSome := by
  cases url <;> simp [requireUrl]

theorem revalidate_isOk {urls : UrlTypes} {source : ParseSource} :
    (∃ source', source.revalidate urls = .ok source') ↔ source.StoredUrlValid urls := by
  cases source with
  | uploadedFile | text => simp [ParseSource.revalidate, ParseSource.StoredUrlValid]
  | url url =>
      rw [ParseSource.StoredUrlValid, ← requireUrl_isOk]
      constructor
      · rintro ⟨source', h⟩
        simp only [ParseSource.revalidate, bind_eq_ok, ensure_eq_ok] at h
        obtain ⟨_, hlength, text, htext, _⟩ := h
        exact ⟨hlength, text, htext⟩
      · rintro ⟨hlength, text, htext⟩
        refine ⟨.url text, ?_⟩
        simp only [ParseSource.revalidate, bind_eq_ok, ensure_eq_ok]
        exact ⟨(), hlength, text, htext, rfl⟩
  | objectStorage uri versionId =>
      rw [ParseSource.StoredUrlValid, ← requireUrl_isOk]
      constructor
      · rintro ⟨source', h⟩
        simp only [ParseSource.revalidate, bind_eq_ok] at h
        obtain ⟨text, htext, _⟩ := h
        exact ⟨text, htext⟩
      · rintro ⟨text, htext⟩
        refine ⟨.objectStorage text versionId, ?_⟩
        simp only [ParseSource.revalidate, bind_eq_ok]
        exact ⟨text, htext, rfl⟩

/-- Past its source, the view of a sound record is valid. -/
theorem validate_of_sound {stages : List StageDetail} {source : ParseSource}
    (hcons : task.Consistent) (hs : task.Sound clock) :
    TaskDetail.validate { task with source := source, stages := stages } = .ok () := by
  have htimes := requireOrderedTimes_of (fun t h => (hs.started t h).1) hs.ordered
  simp only [TaskDetail.validate, bind_eq_ok, ensure_eq_ok]
  refine ⟨(), requirePercent_of hs.progress, (), hs.version, (), hs.pipeline, (),
    fun hrequires => hs.bound (hcons.agrees.stages_ne_nil hrequires), (), hs.completed.mpr, (),
    hs.error.mpr, (), ?_, (), ?_, (), hs.running, htimes⟩
  · intro hne
    have := mt hs.error.mp hne
    simpa using this
  · intro hne
    have := mt hs.result hne
    simpa using this

/-- `task_detail` of a record of a reachable state raises exactly where the stored text of its
source does not pass the type of the source a second time. -/
theorem task_detail_isOk_iff (urls : UrlTypes) {self : StageScheduler}
    {retention : RetentionService} {state : ServiceState}
    (h : (parserService self retention).Reachable state) :
    ∀ task ∈ state.db.tasks,
      (∃ detail, taskDetail urls task = .ok detail) ↔ task.source.StoredUrlValid urls := by
  intro task hmem
  obtain ⟨hcons, hs⟩ := (service_showable h).tasks task hmem
  obtain ⟨stages, hstages⟩ :
      ∃ stages, (task.stages.insertionSort stageBefore).mapM stageDetail = .ok stages := by
    refine isOk_iff.mp (mapM_isOk_iff.mpr fun stage hstage => isOk_iff.mpr ?_)
    obtain ⟨hsound, htimed⟩ := hs.stages stage ((List.mem_insertionSort _).mp hstage)
    exact stageDetail_isOk hsound htimed
  rw [← revalidate_isOk]
  constructor
  · rintro ⟨detail, hdetail⟩
    simp only [taskDetail, bind_eq_ok] at hdetail
    obtain ⟨source, hsource, _⟩ := hdetail
    exact ⟨source, hsource⟩
  · rintro ⟨source, hsource⟩
    refine ⟨{ task with source := source, stages := stages }, ?_⟩
    simp only [taskDetail, bind_eq_ok]
    exact ⟨source, hsource, stages, hstages, (), validate_of_sound hcons hs, rfl⟩

/-- What a URL keeps beside the unreserved characters, here of those with nothing but a scheme, a
host in small letters and a path. -/
def urlSafe : List Char := [':', '/', '%']

def pathUrls : UrlTypes where
  httpUrl text := some (quote urlSafe text)
  objectUri text := some (quote urlSafe text)

theorem task_detail_isOk_iff_merging : ∃ state : ServiceState, state.db = mergingDb ∧
    state.db.tasks ≠ [] ∧ ∀ task ∈ state.db.tasks,
      ∃ detail, taskDetail pathUrls task = .ok detail := by
  let retention : RetentionService := ⟨none, none, none, 500, by decide, by decide⟩
  have hstart : (parserService sampleScheduler retention).Reachable ⟨sampleDb, [], 0⟩ :=
    ⟨_, [], ⟨rfl, rfl⟩, .nil _⟩
  have hsome : (runScript sampleScheduler sampleDb mergeScript).isSome := by decide +kernel
  obtain ⟨db, hdb⟩ := Option.isSome_iff_exists.mp hsome
  obtain rfl : db = mergingDb := by simp [mergingDb, afterScript, hdb]
  have htasks : mergingDb.tasks ≠ [] := by decide +kernel
  have hsources : ∀ task ∈ mergingDb.tasks, task.source = .url "https://host/report.pdf" := by
    decide +kernel
  have hreach := runScript_service hstart (by decide +kernel) hdb
  refine ⟨⟨mergingDb, [], lastClock 0 mergeScript⟩, rfl, htasks, fun task hmem => ?_⟩
  rw [task_detail_isOk_iff pathUrls hreach task hmem, hsources task hmem]
  exact ⟨by decide +kernel, rfl⟩

/-! ## A URL that grows -/

/-- A page named by ideographs, as it is written in a request. -/
def typedChars (n : Nat) : List Char :=
  "https://example.com/".toList ++ List.replicate n '中' ++ ".html".toList

def typedUrl (n : Nat) : String := String.ofList (typedChars n)

/-- The text that is stored for it. -/
def storedUrl (n : Nat) : String := quote urlSafe (typedUrl n)

theorem typedUrl_size (n : Nat) : (typedUrl n).utf8ByteSize = 20 + n * 3 + 5 := by
  have hfirst : (encodeUtf8 "https://example.com/".toList).length = 20 := by decide +kernel
  have hmiddle : (encodeUtf8 ['中']).length = 3 := by decide +kernel
  have hlast : (encodeUtf8 ".html".toList).length = 5 := by decide +kernel
  have hsize := length_encodeUtf8_between "https://example.com/".toList ['中'] ".html".toList n
  rw [List.flatten_replicate_singleton, hfirst, hmiddle, hlast] at hsize
  exact (utf8ByteSize_ofList _).trans hsize

theorem storedUrl_size (n : Nat) : (storedUrl n).utf8ByteSize = 20 + n * 9 + 5 := by
  have hfirst : (encodeUtf8 (quoteChars urlSafe "https://example.com/".toList)).length = 20 := by
    decide +kernel
  have hmiddle : (encodeUtf8 (quoteChars urlSafe ['中'])).length = 9 := by decide +kernel
  have hlast : (encodeUtf8 (quoteChars urlSafe ".html".toList)).length = 5 := by decide +kernel
  have hsize := length_encodeUtf8_between (quoteChars urlSafe "https://example.com/".toList)
    (quoteChars urlSafe ['中']) (quoteChars urlSafe ".html".toList) n
  rw [hfirst, hmiddle, hlast, ← quoteChars_replicate, ← quoteChars_append,
    ← quoteChars_append] at hsize
  have hstored : storedUrl n = String.ofList (quoteChars urlSafe (typedChars n)) := by
    rw [storedUrl, quote, typedUrl, String.toList_ofList]
  exact (congrArg String.utf8ByteSize hstored).trans ((utf8ByteSize_ofList _).trans hsize)

/-- The request is accepted and its task created, and every view of the task raises. -/
theorem task_detail_raises :
    (typedUrl 600).utf8ByteSize ≤ 2083 ∧ pathUrls.httpUrl (typedUrl 600) = some (storedUrl 600) ∧
      ∃ (retention : RetentionService) (state : ServiceState),
        (parserService sampleScheduler retention).Reachable state ∧
          ∃ task ∈ state.db.tasks, task.source = .url (storedUrl 600) ∧
            taskDetail pathUrls task =
              .error "URL should have at most 2083 characters" := by
  let retention : RetentionService := ⟨none, none, none, 500, by decide, by decide⟩
  have hstart : (parserService sampleScheduler retention).Reachable ⟨sampleDb, [], 0⟩ :=
    ⟨_, [], ⟨rfl, rfl⟩, .nil _⟩
  obtain ⟨db, hdb, task, hmem, hsource⟩ :
      ∃ db, runScript sampleScheduler sampleDb
        [.create { source := .url (storedUrl 600), options := default } none false "task"
          (.ok (some { mimeType := ⟨"text", "html"⟩, mediaCategory := .web })) 0] = some db ∧
        ∃ task ∈ db.tasks, task.source = .url (storedUrl 600) :=
    ⟨_, rfl, _, List.mem_singleton.mpr rfl, rfl⟩
  have hreach := runScript_service hstart (by decide) hdb
  have htyped : (typedUrl 600).utf8ByteSize ≤ 2083 := by
    rw [typedUrl_size]
    decide
  have hstored : ¬ (storedUrl 600).utf8ByteSize ≤ 2083 := by
    rw [storedUrl_size]
    decide
  refine ⟨htyped, rfl, retention, _, hreach, task, hmem, hsource, ?_⟩
  rw [taskDetail, hsource, ParseSource.revalidate, ensure, if_neg hstored]
  rfl

end ParserServe
