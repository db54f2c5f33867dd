import ParserServe.Registry.Versions

/-! # Installing the default catalog

The loop over the default pipelines is described pipeline by pipeline: the pipelines do not meet,
and whether a version is valid depends on the capabilities of the enabled backends only.
-/

namespace ParserServe

open Foundation

variable {ids ids' : NewIds} {publishValid : Bool} {now now' : Time}
  {backends backends' : List BackendRecord} {record : PipelineRow}
  {catalog catalog' : CatalogTables} {request : CreatePipelineRequest}

/-! ## Installing all of them -/

section Loop

variable {requests : List CreatePipelineRequest} {versions versions' : Set PipelineRow}
  {recordIds recordIds' : List Nat}

theorem VersionsInstalled.mono (hsub : recordIds' ⊆ recordIds)
    (h : VersionsInstalled publishValid backends now recordIds versions versions') :
    VersionsInstalled publishValid backends now recordIds' versions versions' := by
  cases h with
  | created hfresh hdue => exact .created (fun hmem => hfresh (hsub hmem)) hdue
  | kept hlatest hdue => exact .kept hlatest hdue
  | published hlatest hdue => exact .published hlatest hdue

/-- What installing pipelines does to the tables. -/
structure PipelinesInstalled (publishValid : Bool) (now : Time)
    (requests : List CreatePipelineRequest) (catalog catalog' : CatalogTables) : Prop where
  sound : catalog'.Sound
  backends : catalog'.backends = catalog.backends
  recordIds : catalog.recordIds ⊆ catalog'.recordIds
  others : ∀ pipelineId, pipelineId ∉ requests.map (·.pipelineId) →
    catalog'.versions pipelineId = catalog.versions pipelineId
  versions : ∀ request ∈ requests, VersionsInstalled publishValid catalog.backends now
    catalog.recordIds (catalog.versions request.pipelineId) (catalog'.versions request.pipelineId)

/-- The newest version of the pipeline, or one to be disabled, cannot be read. -/
def CatalogTables.Blocks (catalog : CatalogTables) (publishValid : Bool)
    (backends : List BackendRecord) (request : CreatePipelineRequest) : Prop :=
  ∃ record, IsLatest (catalog.versions request.pipelineId) record ∧
    record.Blocked publishValid backends (catalog.versions request.pipelineId)

theorem blocks_of_versions_eq
    (h : catalog'.versions request.pipelineId = catalog.versions request.pipelineId) :
    catalog'.Blocks publishValid backends request ↔
      catalog.Blocks publishValid backends request := by
  unfold CatalogTables.Blocks
  rw [h]

theorem PipelineInstalled.cons {middle : CatalogTables}
    (hnodup : request.pipelineId ∉ requests.map (·.pipelineId))
    (hfirst : PipelineInstalled publishValid now request catalog middle)
    (hrest : PipelinesInstalled publishValid now requests middle catalog') :
    PipelinesInstalled publishValid now (request :: requests) catalog catalog' where
  sound := hrest.sound
  backends := hrest.backends.trans hfirst.backends
  recordIds := List.Subset.trans hfirst.recordIds hrest.recordIds
  others := by
    intro pipelineId hnot
    rw [List.map_cons, List.mem_cons, not_or] at hnot
    exact (hrest.others _ hnot.2).trans (hfirst.others _ hnot.1)
  versions := by
    intro other hother
    rcases List.mem_cons.mp hother with rfl | hother
    · rw [hrest.others _ hnodup]
      exact hfirst.versions
    · have hne : other.pipelineId ≠ request.pipelineId :=
        fun heq => hnodup (heq ▸ List.mem_map_of_mem hother)
      have hinstalled := hrest.versions other hother
      rw [hfirst.others _ hne, hfirst.backends] at hinstalled
      exact hinstalled.mono hfirst.recordIds

theorem installPipelines_cases (ids : NewIds) (publishValid : Bool) (now : Time)
    (hnodup : (requests.map (·.pipelineId)).Nodup)
    (hdag : ∀ request ∈ requests, validateDag request.stages = .ok ()) (h : catalog.Sound) :
    ((∃ request ∈ requests, catalog.Blocks publishValid catalog.backends request) ∧
      ∃ error, installPipelines ids publishValid now requests catalog = .error error) ∨
    ((∀ request ∈ requests, ¬ catalog.Blocks publishValid catalog.backends request) ∧
      ∃ catalog' results,
        installPipelines ids publishValid now requests catalog = .ok (catalog', results) ∧
          PipelinesInstalled publishValid now requests catalog catalog') := by
  induction requests generalizing catalog with
  | nil =>
      refine .inr ⟨by simp, catalog, [], rfl, h, rfl, List.Subset.refl _, fun _ _ => rfl, by simp⟩
  | cons request requests ih =>
      rw [List.map_cons, List.nodup_cons] at hnodup
      rcases installPipeline_cases ids publishValid now h (hdag request List.mem_cons_self) with
        ⟨hblocks, error, herror⟩ | ⟨hblocks, middle, result, hok, hfirst⟩
      · refine .inl ⟨⟨request, List.mem_cons_self, hblocks⟩, error, ?_⟩
        simp [installPipelines, herror, bind, Except.bind]
      · have hsame : ∀ other ∈ requests, (middle.Blocks publishValid middle.backends other ↔
            catalog.Blocks publishValid catalog.backends other) := by
          intro other hother
          rw [hfirst.backends]
          exact blocks_of_versions_eq (hfirst.others _
            fun heq => hnodup.1 (heq ▸ List.mem_map_of_mem hother))
        rcases ih hnodup.2 (fun other hother => hdag other (List.mem_cons_of_mem _ hother))
          hfirst.sound with
          ⟨⟨other, hother, hblocked⟩, error, herror⟩ | ⟨hnone, final, results, hrest, hinstalled⟩
        · refine .inl ⟨⟨other, List.mem_cons_of_mem _ hother, (hsame other hother).mp hblocked⟩,
            error, ?_⟩
          simp [installPipelines, hok, herror, bind, Except.bind]
        · refine .inr ⟨?_, final, result :: results, ?_, hfirst.cons hnodup.1 hinstalled⟩
          · intro other hother
            rcases List.mem_cons.mp hother with rfl | hother
            · rintro ⟨record, hlatest, hblocked⟩
              exact hblocks record hlatest hblocked
            · exact fun hblocked => hnone other hother ((hsame other hother).mpr hblocked)
          · simp [installPipelines, hok, hrest, bind, Except.bind]

/-! ## Installing again -/

/-- The newest version of the pipeline is not to be published. -/
def NothingDue (publishValid : Bool) (backends : List BackendRecord)
    (versions : Set PipelineRow) : Prop :=
  ∃ record, IsLatest versions record ∧ ¬ record.Due publishValid backends

theorem VersionsInstalled.settled
    (h : VersionsInstalled publishValid backends now recordIds versions versions') :
    NothingDue publishValid backends versions' := by
  cases h with
  | created hfresh hdue =>
      refine ⟨_, ⟨rfl, ?_⟩, hdue⟩
      rintro _ rfl
      exact le_rfl
  | kept hlatest hdue => exact ⟨_, hlatest, hdue⟩
  | @published _ record hlatest hdue =>
      refine ⟨record.publish now, ⟨.inl rfl, ?_⟩, fun hagain => hagain.2.1 rfl⟩
      rintro row (rfl | ⟨old, hold, -, rfl⟩)
      · exact le_rfl
      · have hle := hlatest.2 old hold
        split
        · exact hle
        · exact hle

/-- Where everything is settled an installation leaves the tables as they are. -/
theorem installPipelines_settled (ids : NewIds) (now : Time) (h : catalog.Sound)
    (hsettled : ∀ request ∈ requests,
      NothingDue publishValid catalog.backends (catalog.versions request.pipelineId)) :
    ∀ catalog' results, installPipelines ids publishValid now requests catalog =
      .ok (catalog', results) → catalog' = catalog := by
  induction requests with
  | nil =>
      intro catalog' results hok
      cases hok
      rfl
  | cons request requests ih =>
      intro catalog' results hok
      obtain ⟨⟨middle, result⟩, hfirst, hok⟩ := bind_eq_ok.mp hok
      obtain ⟨⟨final, rest⟩, hrest, hok⟩ := bind_eq_ok.mp hok
      cases hok
      obtain ⟨record, hlatest, hdue⟩ := hsettled request List.mem_cons_self
      have hmiddle : middle = catalog := by
        simp only [installPipeline, (latestVersion_eq_some h).mpr hlatest] at hfirst
        rcases installVersion_cases now publishValid false h hlatest.1.1 with
          ⟨-, error, herror⟩ | ⟨-, ⟨hyes, -⟩ | ⟨-, other, hkept⟩⟩
        · simp [herror] at hfirst
        · exact absurd hyes hdue
        · rw [hkept] at hfirst
          cases hfirst
          rfl
      subst hmiddle
      exact ih (fun other hother => hsettled other (List.mem_cons_of_mem _ hother)) _ _ hrest

end Loop

/-! ## The backends -/

/-- Two tables offer the same capabilities with the same statuses. -/
def SameCapabilities (backends backends' : List BackendRecord) : Prop :=
  ∀ capability status, (∃ b ∈ backends, b.capability = capability ∧ b.status = status) ↔
    ∃ b ∈ backends', b.capability = capability ∧ b.status = status

theorem compatibleBackends_eq_nil {pipeline : PipelineContent} {stage : PipelineStageDefinition} :
    compatibleBackends backends pipeline stage = [] ↔
      ∀ capability, (∃ b ∈ backends, b.capability = capability ∧ b.status = .enabled) →
        capability.name ∈ stage.backend.preferred :: stage.backend.fallbacks →
          ¬ (backendSupportsPipeline capability pipeline &&
            (stage.backend.requiredRuntimes.isEmpty ||
              stage.backend.requiredRuntimes.any (capability.runtimes.contains ·))) := by
  unfold compatibleBackends enabledBackends
  rw [List.filter_eq_nil_iff]
  constructor
  · rintro hnone _ ⟨b, hb, rfl, henabled⟩ hname
    refine hnone b (List.mem_flatMap.mpr ⟨b.capability.name, hname, ?_⟩)
    simp only [List.mem_filter, List.mem_insertionSort, decide_eq_true_eq]
    exact ⟨⟨hb, hname, henabled⟩, trivial⟩
  · intro hnone b hb
    obtain ⟨name, hname, hb⟩ := List.mem_flatMap.mp hb
    simp only [List.mem_filter, List.mem_insertionSort, decide_eq_true_eq] at hb
    exact hnone b.capability ⟨b, hb.1.1, rfl, hb.1.2.2⟩ hb.1.2.1

/-- Validation depends on the capabilities of the enabled backends only. -/
theorem validate_congr (h : SameCapabilities backends backends') :
    record.validate backends = record.validate backends' := by
  have hstage : stageViolations backends record.toPipelineContent =
      stageViolations backends' record.toPipelineContent := by
    funext stage
    unfold stageViolations
    refine if_congr ?_ rfl rfl
    rw [compatibleBackends_eq_nil, compatibleBackends_eq_nil]
    exact forall_congr' fun capability => imp_congr_left (h capability .enabled)
  unfold PipelineRow.validate
  rw [hstage]

theorem blocks_congr (h : SameCapabilities backends backends') :
    catalog.Blocks publishValid backends request ↔
      catalog.Blocks publishValid backends' request := by
  simp only [CatalogTables.Blocks, PipelineRow.Blocked, PipelineRow.Due, validate_congr h]

theorem existingBackend_isSome {capability : BackendCapability} :
    (existingBackend backends capability).isSome ↔ ∃ b ∈ backends,
      b.capability.name = capability.name ∧ b.capability.version = capability.version := by
  simp [existingBackend]

theorem existingBackend_congr (h : SameCapabilities backends backends')
    (capability : BackendCapability) :
    (existingBackend backends capability).isSome ↔
      (existingBackend backends' capability).isSome := by
  rw [existingBackend_isSome, existingBackend_isSome]
  constructor
  · rintro ⟨b, hb, hkey⟩
    obtain ⟨b', hb', hsame, -⟩ := (h b.capability b.status).mp ⟨b, hb, rfl, rfl⟩
    exact ⟨b', hb', hsame ▸ hkey⟩
  · rintro ⟨b, hb, hkey⟩
    obtain ⟨b', hb', hsame, -⟩ := (h b.capability b.status).mpr ⟨b, hb, rfl, rfl⟩
    exact ⟨b', hb', hsame ▸ hkey⟩

/-- The capabilities installed do not depend on the identifiers or the time. -/
theorem installBackends_congr (capabilities : List BackendCapability)
    (h : SameCapabilities backends backends') :
    SameCapabilities (installBackends ids now capabilities backends).1
      (installBackends ids' now' capabilities backends').1 := by
  induction capabilities generalizing backends backends' with
  | nil => exact h
  | cons capability rest ih =>
      have hexists := existingBackend_congr h capability
      unfold installBackends
      cases hfind : existingBackend backends capability with
      | some existing =>
          rw [hfind] at hexists
          obtain ⟨existing', hfind'⟩ := Option.isSome_iff_exists.mp (hexists.mp rfl)
          rw [hfind']
          exact ih h
      | none =>
          have hnone : existingBackend backends' capability = none := by
            simpa [hfind] using hexists
          rw [hnone]
          refine ih fun other status => ?_
          simp only [List.mem_append, List.mem_singleton, or_and_right, exists_or, exists_eq_left]
          exact or_congr (h other status) Iff.rfl

theorem mem_installBackends (capabilities : List BackendCapability) {b : BackendRecord}
    (hb : b ∈ backends) : b ∈ (installBackends ids now capabilities backends).1 := by
  induction capabilities generalizing backends with
  | nil => exact hb
  | cons capability rest ih =>
      unfold installBackends
      split
      · exact ih hb
      · exact ih (List.mem_append_left _ hb)

theorem installBackends_exists {capabilities : List BackendCapability} :
    ∀ capability ∈ capabilities,
      (existingBackend (installBackends ids now capabilities backends).1 capability).isSome := by
  induction capabilities generalizing backends with
  | nil => simp
  | cons capability rest ih =>
      intro other hother
      unfold installBackends
      cases hfind : existingBackend backends capability with
      | some existing =>
          rcases List.mem_cons.mp hother with rfl | hother
          · have hmem : existing ∈ backends := List.mem_of_find?_eq_some hfind
            have hkey : existing.capability.name = other.name ∧
                existing.capability.version = other.version := by
              simpa using List.find?_some hfind
            exact existingBackend_isSome.mpr ⟨existing, mem_installBackends rest hmem, hkey⟩
          · exact ih other hother
      | none =>
          rcases List.mem_cons.mp hother with rfl | hother
          · refine existingBackend_isSome.mpr ⟨createdBackend ids now other, ?_, rfl, rfl⟩
            exact mem_installBackends rest (List.mem_append_right _ (List.mem_singleton_self _))
          · exact ih other hother

/-- Backends that all exist are not installed again. -/
theorem installBackends_of_exists {capabilities : List BackendCapability}
    (h : ∀ capability ∈ capabilities, (existingBackend backends capability).isSome) :
    (installBackends ids now capabilities backends).1 = backends := by
  induction capabilities with
  | nil => rfl
  | cons capability rest ih =>
      obtain ⟨existing, hfind⟩ :=
        Option.isSome_iff_exists.mp (h capability List.mem_cons_self)
      rw [installBackends, hfind]
      exact ih fun other hother => h other (List.mem_cons_of_mem _ hother)

/-! ## The request -/

section Initialize

variable {body : InitializeDefaultsRequest} {installed : List Nat}

theorem default_pipelineIds_nodup : (defaultPipelineRequests.map (·.pipelineId)).Nodup := by
  decide

theorem default_dag_valid :
    ∀ request ∈ defaultPipelineRequests, validateDag request.stages = .ok () := by
  decide +kernel

/-- The backend table in which the pipelines are validated. -/
def CatalogTables.installedBackends (catalog : CatalogTables) (ids : NewIds)
    (body : InitializeDefaultsRequest) (now : Time) : List BackendRecord :=
  (installBackends ids now body.backendTypes catalog.backends).1

theorem initialize_cases (ids : NewIds) (body : InitializeDefaultsRequest) (now : Time)
    (h : catalog.Sound) :
    ((∃ request ∈ defaultPipelineRequests, catalog.Blocks body.publishValidPipelines
        (catalog.installedBackends ids body now) request) ∧
      initializeDefaultCatalog ids catalog body now = catalog) ∨
    ((∀ request ∈ defaultPipelineRequests, ¬ catalog.Blocks body.publishValidPipelines
        (catalog.installedBackends ids body now) request) ∧
      PipelinesInstalled body.publishValidPipelines now defaultPipelineRequests
        { catalog with backends := catalog.installedBackends ids body now }
        (initializeDefaultCatalog ids catalog body now)) := by
  have hsound : CatalogTables.Sound
      { catalog with backends := catalog.installedBackends ids body now } :=
    ⟨h.recordIds_nodup, h.versions_nodup⟩
  rcases installPipelines_cases ids body.publishValidPipelines now default_pipelineIds_nodup
    default_dag_valid hsound with
    ⟨hblocks, error, herror⟩ | ⟨hblocks, catalog', results, hok, hinstalled⟩
  · refine .inl ⟨hblocks, ?_⟩
    rw [CatalogTables.installedBackends] at herror
    simp [initializeDefaultCatalog, install, herror, bind, Except.bind]
  · refine .inr ⟨hblocks, ?_⟩
    have hresult : initializeDefaultCatalog ids catalog body now = catalog' := by
      rw [CatalogTables.installedBackends] at hok
      simp [initializeDefaultCatalog, install, hok, bind, Except.bind]
    exact hresult ▸ hinstalled

/-- Installing the defaults a second time changes nothing. -/
theorem initialize_twice (h : catalog.Sound) :
    initializeDefaultCatalog ids' (initializeDefaultCatalog ids catalog body now) body now' =
      initializeDefaultCatalog ids catalog body now := by
  rcases initialize_cases ids body now h with
    ⟨⟨request, hrequest, hblocks⟩, hsame⟩ | ⟨-, hinstalled⟩
  · rw [hsame]
    have hbackends : SameCapabilities (catalog.installedBackends ids body now)
        (catalog.installedBackends ids' body now') :=
      installBackends_congr _ fun _ _ => Iff.rfl
    rcases initialize_cases ids' body now' h with ⟨-, hagain⟩ | ⟨hnone, -⟩
    · exact hagain
    · exact absurd ((blocks_congr hbackends).mp hblocks) (hnone request hrequest)
  · generalize initializeDefaultCatalog ids catalog body now = after at hinstalled
    have hexists : (installBackends ids' now' body.backendTypes after.backends).1 =
        after.backends := by
      rw [hinstalled.backends]
      exact installBackends_of_exists installBackends_exists
    have hsettled : ∀ request ∈ defaultPipelineRequests, NothingDue body.publishValidPipelines
        after.backends (after.versions request.pipelineId) := by
      intro request hrequest
      rw [hinstalled.backends]
      exact (hinstalled.versions request hrequest).settled
    have hkept := installPipelines_settled ids' now' hinstalled.sound hsettled
    unfold initializeDefaultCatalog install
    simp only [hexists]
    cases hloop : installPipelines ids' body.publishValidPipelines now' defaultPipelineRequests
        after with
    | error error => simp [bind, Except.bind]
    | ok result =>
        obtain ⟨after', results⟩ := result
        simpa [bind, Except.bind] using hkept after' results hloop

/-- The versions of a default pipeline that has a published version stay as they are. -/
def KeepsPublished (before after : CatalogTables) : Prop :=
  ∀ request ∈ defaultPipelineRequests,
    (∃ row ∈ before.versions request.pipelineId, row.status = .published) →
      after.versions request.pipelineId = before.versions request.pipelineId

/-- A version that is published was before, or was created by this installation or by one of
those that created the rows `installed`. -/
def PublishesInstalled (installed : List Nat) (before after : CatalogTables) : Prop :=
  ∀ row ∈ after.pipelines, row.status = .published →
    row ∈ before.pipelines ∨ row.recordId ∉ before.recordIds ∨ row.recordId ∈ installed

/-- A newest version that is due to be published was installed, and no version of its pipeline
is published. -/
def DueInstalled (installed : List Nat) (publishValid : Bool) (backends : List BackendRecord)
    (versions : Set PipelineRow) : Prop :=
  ∀ record, IsLatest versions record → record.Due publishValid backends →
    record.recordId ∈ installed ∧ ∀ row ∈ versions, row.status ≠ .published

theorem VersionsInstalled.undisturbed_iff (installed : List Nat)
    {versions versions' : Set PipelineRow} {recordIds : List Nat}
    (h : VersionsInstalled publishValid backends now recordIds versions versions')
    (hids : ∀ row ∈ versions, ∀ other ∈ versions, row.recordId = other.recordId → row = other)
    (hversions : ∀ row ∈ versions, ∀ other ∈ versions, row.version = other.version → row = other)
    (hknown : ∀ row ∈ versions, row.recordId ∈ recordIds) :
    (((∃ row ∈ versions, row.status = .published) → versions' = versions) ∧
      ∀ row ∈ versions', row.status = .published →
        row ∈ versions ∨ row.recordId ∉ recordIds ∨ row.recordId ∈ installed) ↔
    DueInstalled installed publishValid backends versions := by
  have honly : ∀ record other, IsLatest versions record → IsLatest versions other →
      other = record := fun record other hrecord hother =>
    hversions _ hother.1 _ hrecord.1 (le_antisymm (hrecord.2 _ hother.1) (hother.2 _ hrecord.1))
  cases h with
  | @created row hfresh hdue =>
      refine iff_of_true ⟨by simp, ?_⟩ ?_
      · rintro _ rfl -
        exact .inr (.inl hfresh)
      · rintro record ⟨hrecord, -⟩
        cases hrecord
  | @kept _ record hlatest hdue =>
      refine iff_of_true ⟨fun _ => rfl, fun row hrow _ => .inl hrow⟩ ?_
      intro other hother hagain
      exact absurd (honly record other hlatest hother ▸ hagain) hdue
  | @published _ record hlatest hdue =>
      have hnew : record.publish now ∉ versions := by
        intro hmem
        have hsame := hids _ hmem _ hlatest.1 rfl
        exact hdue.2.1 (hsame ▸ rfl)
      constructor
      · rintro ⟨hkeeps, howns⟩ other hother -
        rw [honly record other hlatest hother]
        constructor
        · rcases howns (record.publish now) (.inl rfl) rfl with hmem | hfresh | hown
          · exact absurd hmem hnew
          · exact absurd (hknown record hlatest.1) hfresh
          · exact hown
        · intro row hrow hpublished
          have hsame := hkeeps ⟨row, hrow, hpublished⟩
          exact hnew (hsame ▸ .inl rfl)
      · intro hinstalled
        obtain ⟨hown, hnone⟩ := hinstalled record hlatest hdue
        constructor
        · rintro ⟨row, hrow, hpublished⟩
          exact absurd hpublished (hnone row hrow)
        · rintro row (rfl | ⟨old, hold, -, rfl⟩) -
          · exact .inr (.inr hown)
          · rw [if_neg (hnone old hold)]
            exact .inl hold

/-- Installing the defaults disturbs nothing exactly when it raises, which it does where a row
it has to read is invalid, or when each newest version that is due to be published was
installed and stands beside no published version. -/
theorem initialize_undisturbed_iff (h : catalog.Sound) :
    (KeepsPublished catalog (initializeDefaultCatalog ids catalog body now) ∧
      PublishesInstalled installed catalog (initializeDefaultCatalog ids catalog body now) ∧
      ∀ ids' now', initializeDefaultCatalog ids' (initializeDefaultCatalog ids catalog body now)
        body now' = initializeDefaultCatalog ids catalog body now) ↔
    (∃ request ∈ defaultPipelineRequests, catalog.Blocks body.publishValidPipelines
      (catalog.installedBackends ids body now) request) ∨
    ∀ request ∈ defaultPipelineRequests, DueInstalled installed body.publishValidPipelines
      (catalog.installedBackends ids body now) (catalog.versions request.pipelineId) := by
  have htwice : ∀ ids' now', initializeDefaultCatalog ids'
      (initializeDefaultCatalog ids catalog body now) body now' =
        initializeDefaultCatalog ids catalog body now := fun _ _ => initialize_twice h
  rcases initialize_cases ids body now h with ⟨hblocks, hsame⟩ | ⟨hblocks, hinstalled⟩
  · refine iff_of_true ⟨?_, ?_, htwice⟩ (.inl hblocks)
    · rw [hsame]
      exact fun _ _ _ => rfl
    · rw [hsame]
      exact fun row hrow _ => .inl hrow
  · generalize initializeDefaultCatalog ids catalog body now = after at hinstalled htwice ⊢
    have hone : ∀ request ∈ defaultPipelineRequests, _ :=
      fun request hrequest => (hinstalled.versions request hrequest).undisturbed_iff installed
        (fun row hrow other hother heq => h.eq_of_recordId hother.1 hrow.1 heq)
        (fun row hrow other hother heq =>
          h.eq_of_version hother.1 hrow.1 (hrow.2.trans hother.2.symm) heq)
        (fun row hrow => List.mem_map_of_mem hrow.1)
    constructor
    · rintro ⟨hkeeps, howns, -⟩
      refine .inr fun request hrequest => (hone request hrequest).mp ⟨hkeeps request hrequest, ?_⟩
      intro row hrow hpublished
      rcases howns row hrow.1 hpublished with hmem | hother
      · exact .inl ⟨hmem, hrow.2⟩
      · exact .inr hother
    · rintro (⟨request, hrequest, hblocked⟩ | hdue)
      · exact absurd hblocked (hblocks request hrequest)
      refine ⟨fun request hrequest => ((hone request hrequest).mpr (hdue request hrequest)).1, ?_,
        htwice⟩
      intro row hrow hpublished
      by_cases hdefault : row.pipelineId ∈ defaultPipelineRequests.map (·.pipelineId)
      · obtain ⟨request, hrequest, heq⟩ := List.mem_map.mp hdefault
        rcases ((hone request hrequest).mpr (hdue request hrequest)).2 row ⟨hrow, heq.symm⟩
          hpublished with hmem | hother
        · exact .inl hmem.1
        · exact .inr hother
      · have hmem : row ∈ after.versions row.pipelineId := ⟨hrow, rfl⟩
        rw [hinstalled.others _ hdefault] at hmem
        exact .inl hmem.1

end Initialize

/-! ## An operator's draft -/

/-- The next free number. -/
def countedIds : NewIds where
  backendId := fun capability => "backend_" ++ capability.name
  recordId := fun used => used.foldr max 0 + 1
  recordId_fresh := fun used hmem => by
    have hle := List.le_max_of_le' 0 hmem le_rfl
    exact Nat.not_succ_le_self _ hle

/-- The default pipelines as drafts, none of them published. -/
def draftCatalog : CatalogTables :=
  initializeDefaultCatalog countedIds ⟨[], []⟩ { publishValidPipelines := false } 0

theorem draftCatalog_sound : draftCatalog.Sound where
  recordIds_nodup := by decide +kernel
  versions_nodup := by decide +kernel

def publishedCatalog : CatalogTables :=
  initializeDefaultCatalog countedIds draftCatalog {} 1

/-- The drafts of an installation are published by the next one. -/
theorem initialize_undisturbed_drafts :
    publishedCatalog.pipelines.map (·.status) =
      [.published, .published, .draft, .draft, .draft, .draft, .draft] ∧
    KeepsPublished draftCatalog publishedCatalog ∧
    PublishesInstalled draftCatalog.recordIds draftCatalog publishedCatalog ∧
    ∀ ids' now', initializeDefaultCatalog ids' publishedCatalog {} now' = publishedCatalog := by
  have hdrafts : ∀ row ∈ draftCatalog.pipelines, row.status ≠ .published := by decide +kernel
  refine ⟨by decide +kernel, (initialize_undisturbed_iff draftCatalog_sound).mpr (.inr ?_)⟩
  intro request _ record hlatest _
  exact ⟨List.mem_map_of_mem hlatest.1.1, fun row hrow => hdrafts row hrow.1⟩

/-- What an operator makes of a default pipeline. -/
def operatorRequest : CreatePipelineRequest :=
  defaultPipeline "pipeline_web_static" "web.operator" .web [] 100
    (defaultStage "extract" (selector "builtin_web" [] (List.nodup_singleton _)) 900
      (by decide) "\x7b\x7d")

/-- The defaults are installed, and an operator has added a draft that is not published. -/
def operatorCatalog : CatalogTables :=
  let defaults := initializeDefaultCatalog countedIds ⟨[], []⟩ {} 0
  match createPipeline defaults.pipelines operatorRequest 8 1 with
  | .error _ => defaults
  | .ok record => defaults.add record

/-- The next installation publishes the draft, which it did not create, and disables the
version that was published. -/
theorem operator_draft_published : operatorCatalog.Sound ∧
    ¬ KeepsPublished operatorCatalog
      (initializeDefaultCatalog countedIds operatorCatalog {} 2) ∧
    ¬ PublishesInstalled [1, 2, 3, 4, 5, 6, 7] operatorCatalog
      (initializeDefaultCatalog countedIds operatorCatalog {} 2) := by
  have hdisabled : ∃ request ∈ defaultPipelineRequests, ∃ row ∈ operatorCatalog.pipelines,
      row.pipelineId = request.pipelineId ∧ row.status = .published ∧
        row ∉ (initializeDefaultCatalog countedIds operatorCatalog {} 2).pipelines := by
    decide +kernel
  have hpublished : ∃ row ∈ (initializeDefaultCatalog countedIds operatorCatalog {} 2).pipelines,
      row.status = .published ∧ ¬ (row ∈ operatorCatalog.pipelines ∨
        row.recordId ∉ operatorCatalog.recordIds ∨ row.recordId ∈ [1, 2, 3, 4, 5, 6, 7]) := by
    decide +kernel
  refine ⟨⟨by decide +kernel, by decide +kernel⟩, fun hkeeps => ?_, fun howns => ?_⟩
  · obtain ⟨request, hrequest, row, hrow, hpipeline, hstatus, hgone⟩ := hdisabled
    have hsame := hkeeps request hrequest ⟨row, ⟨hrow, hpipeline⟩, hstatus⟩
    have hmem : row ∈ operatorCatalog.versions request.pipelineId := ⟨hrow, hpipeline⟩
    rw [← hsame] at hmem
    exact hgone hmem.1
  · obtain ⟨row, hrow, hstatus, hnot⟩ := hpublished
    exact hnot (howns row hrow hstatus)

end ParserServe
