import Mathlib.Data.Set.Function
import ParserServe.Control.Defaults

/-! # Installing a default pipeline

An installation looks at the newest version of each default pipeline only.  What it does to a
pipeline is described on the set of its versions: publishing one of them keeps every key of the
tables and leaves the other pipelines as they are.
-/

namespace ParserServe

open Foundation

variable {ids ids' : NewIds} {publishValid : Bool} {now now' : Time}
  {backends backends' : List BackendRecord} {rows : List PipelineRow}
  {record row : PipelineRow} {pipelineId : String} {catalog catalog' : CatalogTables}
  {request : CreatePipelineRequest}

/-! ## The tables -/

/-- The primary key and `uq_pipelines_id_version`. -/
structure CatalogTables.Sound (catalog : CatalogTables) : Prop where
  recordIds_nodup : (catalog.pipelines.map (·.recordId)).Nodup
  versions_nodup : (catalog.pipelines.map fun row => (row.pipelineId, row.version)).Nodup

theorem CatalogTables.Sound.eq_of_recordId (h : catalog.Sound)
    (hrecord : record ∈ catalog.pipelines) (hrow : row ∈ catalog.pipelines)
    (hid : row.recordId = record.recordId) : row = record :=
  List.inj_on_of_nodup_map h.recordIds_nodup hrow hrecord hid

theorem CatalogTables.Sound.eq_of_version (h : catalog.Sound)
    (hrecord : record ∈ catalog.pipelines) (hrow : row ∈ catalog.pipelines)
    (hpipeline : row.pipelineId = record.pipelineId)
    (hversion : row.version = record.version) : row = record :=
  List.inj_on_of_nodup_map h.versions_nodup hrow hrecord (by rw [hpipeline, hversion])

/-- The versions of a pipeline. -/
def CatalogTables.versions (catalog : CatalogTables) (pipelineId : String) : Set PipelineRow :=
  {row | row ∈ catalog.pipelines ∧ row.pipelineId = pipelineId}

theorem mem_versions : row ∈ catalog.versions pipelineId ↔
    row ∈ catalog.pipelines ∧ row.pipelineId = pipelineId := Iff.rfl

def CatalogTables.recordIds (catalog : CatalogTables) : List Nat :=
  catalog.pipelines.map (·.recordId)

/-- The newest of some versions. -/
def IsLatest (versions : Set PipelineRow) (record : PipelineRow) : Prop :=
  record ∈ versions ∧ ∀ row ∈ versions, row.version ≤ record.version

theorem latestVersion_eq_none :
    latestVersion catalog.pipelines pipelineId = none ↔ catalog.versions pipelineId = ∅ := by
  simp [latestVersion, mem_versions, Set.eq_empty_iff_forall_notMem, List.filter_eq_nil_iff]

theorem latestVersion_eq_some (h : catalog.Sound) :
    latestVersion catalog.pipelines pipelineId = some record ↔
      IsLatest (catalog.versions pipelineId) record := by
  rw [latestVersion, List.argmax_eq_some_iff]
  simp only [List.mem_filter, decide_eq_true_eq, IsLatest, mem_versions]
  refine ⟨fun hmax => ⟨hmax.1, hmax.2.1⟩, fun hmax => ⟨hmax.1, hmax.2, ?_⟩⟩
  intro row hrow hle
  have hversion := le_antisymm (hmax.2 row hrow) hle
  rw [h.eq_of_version hmax.1.1 hrow.1 (hrow.2.trans hmax.1.2.symm) hversion]

theorem pipelineRow?_of_mem (h : catalog.Sound) (hrecord : record ∈ catalog.pipelines) :
    pipelineRow? catalog.pipelines record.pipelineId record.version = some record := by
  unfold pipelineRow?
  cases hfind : catalog.pipelines.find? _ with
  | none => simpa using List.find?_eq_none.mp hfind record hrecord
  | some row =>
      have hkey : row.pipelineId = record.pipelineId ∧ row.version = record.version := by
        simpa using List.find?_some hfind
      rw [h.eq_of_version hrecord (List.mem_of_find?_eq_some hfind) hkey.1 hkey.2]

/-! ## One pipeline -/

/-- The row is newly published by the installer: it is not published, and it is valid. -/
def PipelineRow.Due (publishValid : Bool) (backends : List BackendRecord)
    (record : PipelineRow) : Prop :=
  publishValid ∧ record.status ≠ .published ∧
    ∃ validation, record.validate backends = .ok validation ∧ validation.valid

/-- A definition that the installer has to read is invalid. -/
def PipelineRow.Blocked (publishValid : Bool) (backends : List BackendRecord)
    (versions : Set PipelineRow) (record : PipelineRow) : Prop :=
  ¬ record.definition.isOk ∨ (record.Due publishValid backends ∧
    ∃ row ∈ versions, record.PublishedBeside row ∧ ¬ row.definition.isOk)

/-- The versions after the publication of `record`. -/
def republished (versions : Set PipelineRow) (record : PipelineRow) (now : Time) :
    Set PipelineRow :=
  {row | row = record.publish now ∨
    ∃ old ∈ versions, old.recordId ≠ record.recordId ∧
      row = if old.status = .published then old.disable now else old}

/-- What an installation does to the versions of a default pipeline. -/
inductive VersionsInstalled (publishValid : Bool) (backends : List BackendRecord) (now : Time)
    (recordIds : List Nat) : Set PipelineRow → Set PipelineRow → Prop
  | created {row : PipelineRow} : row.recordId ∉ recordIds → ¬ row.Due publishValid backends →
      VersionsInstalled publishValid backends now recordIds ∅ {row}
  | kept {versions : Set PipelineRow} {record : PipelineRow} : IsLatest versions record →
      ¬ record.Due publishValid backends →
      VersionsInstalled publishValid backends now recordIds versions versions
  | published {versions : Set PipelineRow} {record : PipelineRow} : IsLatest versions record →
      record.Due publishValid backends →
      VersionsInstalled publishValid backends now recordIds versions
        (republished versions record now)

/-- A row after the publication of `record`. -/
def PipelineRow.afterPublish (record : PipelineRow) (now : Time) (row : PipelineRow) :
    PipelineRow :=
  if row.recordId = record.recordId then record.publish now
  else if record.PublishedBeside row then row.disable now
  else row

theorem publishRows_eq_map (record : PipelineRow) (now : Time) (h : catalog.Sound) :
    publishRows catalog.pipelines record
        (catalog.pipelines.filter (record.PublishedBeside ·)) now =
      catalog.pipelines.map (record.afterPublish now) := by
  unfold publishRows replaceKeys
  refine List.map_congr_left fun row hrow => ?_
  unfold PipelineRow.afterPublish
  rw [List.find?_cons]
  by_cases hown : row.recordId = record.recordId
  · simp [hown, PipelineRow.publish]
  · have hne : ¬ (record.publish now).recordId = row.recordId := fun heq => hown heq.symm
    simp only [hne, decide_false, if_neg hown]
    by_cases hbeside : record.PublishedBeside row
    · have hnodup : (((catalog.pipelines.filter (record.PublishedBeside ·)).map
          (·.disable now)).map (·.recordId)).Nodup := by
        rw [List.map_map]
        exact (List.filter_sublist.map _).nodup h.recordIds_nodup
      have hmem : row.disable now ∈
          (catalog.pipelines.filter (record.PublishedBeside ·)).map (·.disable now) :=
        List.mem_map_of_mem (List.mem_filter.mpr ⟨hrow, by simpa using hbeside⟩)
      have hfind := find?_key_eq_some hnodup hmem
      rw [if_pos hbeside]
      exact congrArg (·.getD row) hfind
    · rw [if_neg hbeside, List.find?_eq_none.mpr, Option.getD_none]
      intro other hother heq
      obtain ⟨old, hold, rfl⟩ := List.mem_map.mp hother
      obtain ⟨hold, hpublished⟩ := List.mem_filter.mp hold
      have hsame : old = row := h.eq_of_recordId hrow hold (of_decide_eq_true heq)
      exact hbeside (hsame ▸ of_decide_eq_true hpublished)

/-- Publishing changes no key. -/
theorem afterPublish_keys (now : Time) (h : catalog.Sound)
    (hrecord : record ∈ catalog.pipelines) (hrow : row ∈ catalog.pipelines) :
    (record.afterPublish now row).recordId = row.recordId ∧
      (record.afterPublish now row).pipelineId = row.pipelineId ∧
        (record.afterPublish now row).version = row.version := by
  unfold PipelineRow.afterPublish
  by_cases hown : row.recordId = record.recordId
  · rw [h.eq_of_recordId hrecord hrow hown]
    simp [PipelineRow.publish]
  · by_cases hbeside : record.PublishedBeside row <;> simp [hown, hbeside, PipelineRow.disable]

/-- The tables after the publication of `record`. -/
def CatalogTables.publish (catalog : CatalogTables) (record : PipelineRow) (now : Time) :
    CatalogTables :=
  { catalog with
    pipelines := publishRows catalog.pipelines record
      (catalog.pipelines.filter (record.PublishedBeside ·)) now }

theorem publish_sound (h : catalog.Sound) (hrecord : record ∈ catalog.pipelines) :
    (catalog.publish record now).Sound := by
  have hpipelines := publishRows_eq_map record now h
  constructor
  · rw [CatalogTables.publish, hpipelines, List.map_map]
    have hkeys : ∀ row ∈ catalog.pipelines,
        ((·.recordId) ∘ record.afterPublish now) row = row.recordId :=
      fun row hrow => (afterPublish_keys now h hrecord hrow).1
    rw [List.map_congr_left hkeys]
    exact h.recordIds_nodup
  · rw [CatalogTables.publish, hpipelines, List.map_map]
    have hkeys : ∀ row ∈ catalog.pipelines,
        ((fun row => (row.pipelineId, row.version)) ∘ record.afterPublish now) row =
          (row.pipelineId, row.version) := by
      intro row hrow
      obtain ⟨-, hpipeline, hversion⟩ := afterPublish_keys now h hrecord hrow
      simp [hpipeline, hversion]
    rw [List.map_congr_left hkeys]
    exact h.versions_nodup

theorem mem_publish_versions (h : catalog.Sound) (hrecord : record ∈ catalog.pipelines) :
    row ∈ (catalog.publish record now).versions pipelineId ↔
      ∃ old ∈ catalog.versions pipelineId, record.afterPublish now old = row := by
  rw [mem_versions, CatalogTables.publish, publishRows_eq_map record now h, List.mem_map]
  constructor
  · rintro ⟨⟨old, hold, rfl⟩, hpipeline⟩
    exact ⟨old, ⟨hold, (afterPublish_keys now h hrecord hold).2.1 ▸ hpipeline⟩, rfl⟩
  · rintro ⟨old, ⟨hold, hpipeline⟩, rfl⟩
    exact ⟨⟨old, hold, rfl⟩, (afterPublish_keys now h hrecord hold).2.1.trans hpipeline⟩

theorem publish_versions (h : catalog.Sound) (hrecord : record ∈ catalog.pipelines) :
    (catalog.publish record now).versions record.pipelineId =
      republished (catalog.versions record.pipelineId) record now := by
  ext row
  rw [mem_publish_versions h hrecord]
  constructor
  · rintro ⟨old, hold, rfl⟩
    by_cases hown : old.recordId = record.recordId
    · exact .inl (if_pos hown)
    · refine .inr ⟨old, hold, hown, ?_⟩
      simp [PipelineRow.afterPublish, PipelineRow.PublishedBeside, hown, hold.2]
  · rintro (rfl | ⟨old, hold, hown, rfl⟩)
    · exact ⟨record, ⟨hrecord, rfl⟩, if_pos rfl⟩
    · refine ⟨old, hold, ?_⟩
      simp [PipelineRow.afterPublish, PipelineRow.PublishedBeside, hown, hold.2]

theorem publish_versions_of_ne (h : catalog.Sound) (hrecord : record ∈ catalog.pipelines)
    (hne : pipelineId ≠ record.pipelineId) :
    (catalog.publish record now).versions pipelineId = catalog.versions pipelineId := by
  ext row
  rw [mem_publish_versions h hrecord]
  have hsame : ∀ old ∈ catalog.versions pipelineId, record.afterPublish now old = old := by
    rintro old ⟨hold, rfl⟩
    have hown : old.recordId ≠ record.recordId :=
      fun hid => hne (congrArg (·.pipelineId) (h.eq_of_recordId hrecord hold hid))
    have hbeside : ¬ record.PublishedBeside old := fun hbeside => hne hbeside.1
    simp [PipelineRow.afterPublish, hown, hbeside]
  constructor
  · rintro ⟨old, hold, rfl⟩
    rwa [hsame old hold]
  · exact fun hrow => ⟨row, hrow, hsame row hrow⟩

/-! ## Installing one pipeline -/

theorem definition_eq_ok {definition : PipelineDefinition}
    (h : record.definition = .ok definition) :
    definition.status = record.status ∧ definition.stages = record.stages := by
  unfold PipelineRow.definition at h
  split at h
  · cases h
  · split at h
    · cases h
    · split at h
      · cases h
      · cases h
        exact ⟨rfl, rfl⟩

theorem validate_isOk (backends : List BackendRecord) :
    (record.validate backends).isOk = record.definition.isOk := by
  unfold PipelineRow.validate
  cases record.definition <;> rfl

/-- Publishing the row that was just found valid. -/
theorem publishPipeline_of_due (now : Time) (h : catalog.Sound)
    (hrecord : record ∈ catalog.pipelines) (hdue : record.Due publishValid catalog.backends) :
    publishPipeline catalog.backends catalog.pipelines record.pipelineId record.version now =
      match (catalog.pipelines.filter (record.PublishedBeside ·)).mapM PipelineRow.definition with
      | .error message => .error (.invalidDefinition message)
      | .ok _ => .ok (some (catalog.publish record now).pipelines) := by
  obtain ⟨-, -, validation, hvalidate, hvalid⟩ := hdue
  have hensure : ensure validation.valid (PublishError.publish validation) = .ok () :=
    ensure_of_true hvalid
  simp only [publishPipeline, pipelineRow?_of_mem h hrecord, hvalidate, Except.mapError, bind,
    Except.bind, hensure]
  cases (catalog.pipelines.filter (record.PublishedBeside ·)).mapM PipelineRow.definition <;> rfl

/-- The versions that a publication disables can be read unless one of them blocks it. -/
theorem mapM_definition_isOk (catalog : CatalogTables) (record : PipelineRow) :
    ((catalog.pipelines.filter (record.PublishedBeside ·)).mapM PipelineRow.definition).isOk ↔
      ¬ ∃ row ∈ catalog.versions record.pipelineId,
        record.PublishedBeside row ∧ ¬ row.definition.isOk := by
  rw [mapM_isOk_iff]
  simp only [List.mem_filter, decide_eq_true_eq, mem_versions]
  constructor
  · rintro hall ⟨row, ⟨hrow, -⟩, hbeside, hnot⟩
    exact hnot (hall row ⟨hrow, hbeside⟩)
  · intro hnone row hrow
    by_contra hnot
    exact hnone ⟨row, ⟨hrow.1, hrow.2.1⟩, hrow.2, hnot⟩

/-- The installer raises, publishes the row, or leaves the tables as they are. -/
theorem installVersion_cases (now : Time) (publishValid created : Bool) (h : catalog.Sound)
    (hrecord : record ∈ catalog.pipelines) :
    (record.Blocked publishValid catalog.backends (catalog.versions record.pipelineId) ∧
      ∃ error, installVersion publishValid now created catalog record = .error error) ∨
    (¬ record.Blocked publishValid catalog.backends (catalog.versions record.pipelineId) ∧
      ((record.Due publishValid catalog.backends ∧ ∃ result,
          installVersion publishValid now created catalog record =
            .ok (catalog.publish record now, result)) ∨
        (¬ record.Due publishValid catalog.backends ∧ ∃ result,
          installVersion publishValid now created catalog record = .ok (catalog, result)))) := by
  cases hdefinition : record.definition with
  | error message =>
      refine .inl ⟨.inl (by simp [hdefinition, Except.isOk, Except.toBool]), ?_⟩
      exact ⟨_, by simp only [installVersion, hdefinition]; rfl⟩
  | ok definition =>
      have hok : record.definition.isOk := by simp [hdefinition, Except.isOk, Except.toBool]
      have hblocked : ¬ record.Due publishValid catalog.backends →
          ¬ record.Blocked publishValid catalog.backends (catalog.versions record.pipelineId) := by
        rintro hdue (hnot | ⟨hyes, -⟩)
        · exact hnot hok
        · exact hdue hyes
      obtain ⟨hstatus, -⟩ := definition_eq_ok hdefinition
      by_cases hpublished : record.status = .published
      · have hdue : ¬ record.Due publishValid catalog.backends := fun hdue => hdue.2.1 hpublished
        refine .inr ⟨hblocked hdue, .inr ⟨hdue, ?_⟩⟩
        simp [installVersion, hdefinition, Except.mapError, hstatus, hpublished]
      · obtain ⟨validation, hvalidate⟩ := isOk_iff.mp ((validate_isOk catalog.backends).trans hok)
        by_cases hvalid : publishValid && validation.valid
        · rw [Bool.and_eq_true] at hvalid
          have hdue : record.Due publishValid catalog.backends :=
            ⟨hvalid.1, hpublished, validation, hvalidate, hvalid.2⟩
          have hread := mapM_definition_isOk catalog record
          have hpublish := publishPipeline_of_due now h hrecord hdue
          cases hmap : (catalog.pipelines.filter (record.PublishedBeside ·)).mapM
              PipelineRow.definition with
          | error message =>
              rw [hmap] at hread hpublish
              refine .inl ⟨.inr ⟨hdue, ?_⟩, ?_⟩
              · by_contra hnone
                simpa [Except.isOk, Except.toBool] using hread.mpr hnone
              · simp [installVersion, hdefinition, Except.mapError, hstatus, hpublished, hvalidate,
                  hvalid, hpublish, bind, Except.bind]
          | ok definitions =>
              rw [hmap] at hread hpublish
              refine .inr ⟨?_, .inl ⟨hdue, ?_⟩⟩
              · rintro (hnot | ⟨-, hrow⟩)
                · exact hnot hok
                · exact hread.mp rfl hrow
              · simp [installVersion, hdefinition, Except.mapError, hstatus, hpublished, hvalidate,
                  hvalid, hpublish, bind, Except.bind, CatalogTables.publish]
        · have hdue : ¬ record.Due publishValid catalog.backends := by
            rintro ⟨hflag, -, other, hother, hyes⟩
            rw [hvalidate] at hother
            cases hother
            simp [hflag, hyes] at hvalid
          refine .inr ⟨hblocked hdue, .inr ⟨hdue, ?_⟩⟩
          simp [installVersion, hdefinition, Except.mapError, hstatus, hpublished, hvalidate,
            hvalid, bind, Except.bind]

theorem createPipeline_ok (rows : List PipelineRow) (recordId : Nat) (now : Time)
    (hdag : validateDag request.stages = .ok ()) :
    ∃ record, createPipeline rows request recordId now = .ok record ∧
      record.recordId = recordId ∧ record.pipelineId = request.pipelineId ∧
        record.definition.isOk := by
  unfold createPipeline
  split
  · next hinvalid => simp [hinvalid] at hdag
  · exact ⟨_, rfl, rfl, rfl, by simp [PipelineRow.definition, Except.isOk, Except.toBool]⟩

def CatalogTables.add (catalog : CatalogTables) (record : PipelineRow) : CatalogTables :=
  { catalog with pipelines := catalog.pipelines ++ [record] }

theorem add_sound (h : catalog.Sound) (hfresh : record.recordId ∉ catalog.recordIds)
    (hfirst : catalog.versions record.pipelineId = ∅) : (catalog.add record).Sound := by
  constructor
  · simp only [CatalogTables.add, List.map_append, List.map_singleton]
    exact h.recordIds_nodup.append (List.nodup_singleton _) (List.disjoint_singleton.mpr hfresh)
  · simp only [CatalogTables.add, List.map_append, List.map_singleton]
    refine h.versions_nodup.append (List.nodup_singleton _) ?_
    rw [List.disjoint_singleton]
    intro hmem
    obtain ⟨row, hrow, heq⟩ := List.mem_map.mp hmem
    have hnone : row ∉ catalog.versions record.pipelineId := by simp [hfirst]
    exact hnone ⟨hrow, congrArg Prod.fst heq⟩

theorem add_versions (hfirst : catalog.versions record.pipelineId = ∅) :
    (catalog.add record).versions record.pipelineId = {record} := by
  ext row
  have hnone : row ∉ catalog.versions record.pipelineId := by simp [hfirst]
  rw [mem_versions] at hnone ⊢
  rw [CatalogTables.add, List.mem_append, List.mem_singleton, Set.mem_singleton_iff]
  constructor
  · rintro ⟨hrow | hrow, hpipeline⟩
    · exact absurd ⟨hrow, hpipeline⟩ hnone
    · exact hrow
  · rintro rfl
    exact ⟨.inr rfl, rfl⟩

theorem add_versions_of_ne (hne : pipelineId ≠ record.pipelineId) :
    (catalog.add record).versions pipelineId = catalog.versions pipelineId := by
  ext row
  rw [mem_versions, mem_versions, CatalogTables.add, List.mem_append, List.mem_singleton]
  constructor
  · rintro ⟨hrow | rfl, hpipeline⟩
    · exact ⟨hrow, hpipeline⟩
    · exact absurd hpipeline.symm hne
  · exact fun hrow => ⟨.inl hrow.1, hrow.2⟩

theorem republished_singleton : republished {record} record now = {record.publish now} := by
  ext row
  simp [republished]

/-- What installing one pipeline does to the tables. -/
structure PipelineInstalled (publishValid : Bool) (now : Time) (request : CreatePipelineRequest)
    (catalog catalog' : CatalogTables) : Prop where
  sound : catalog'.Sound
  backends : catalog'.backends = catalog.backends
  recordIds : catalog.recordIds ⊆ catalog'.recordIds
  others : ∀ pipelineId, pipelineId ≠ request.pipelineId →
    catalog'.versions pipelineId = catalog.versions pipelineId
  versions : VersionsInstalled publishValid catalog.backends now catalog.recordIds
    (catalog.versions request.pipelineId) (catalog'.versions request.pipelineId)

theorem publish_recordIds (h : catalog.Sound) (hrecord : record ∈ catalog.pipelines) :
    (catalog.publish record now).recordIds = catalog.recordIds := by
  unfold CatalogTables.recordIds
  rw [CatalogTables.publish, publishRows_eq_map record now h, List.map_map]
  exact List.map_congr_left fun row hrow => (afterPublish_keys now h hrecord hrow).1

theorem installPipeline_cases (ids : NewIds) (publishValid : Bool) (now : Time)
    (h : catalog.Sound) (hdag : validateDag request.stages = .ok ()) :
    ((∃ record, IsLatest (catalog.versions request.pipelineId) record ∧
        record.Blocked publishValid catalog.backends (catalog.versions request.pipelineId)) ∧
      ∃ error, installPipeline ids publishValid now catalog request = .error error) ∨
    ((∀ record, IsLatest (catalog.versions request.pipelineId) record →
        ¬ record.Blocked publishValid catalog.backends (catalog.versions request.pipelineId)) ∧
      ∃ catalog' result,
        installPipeline ids publishValid now catalog request = .ok (catalog', result) ∧
          PipelineInstalled publishValid now request catalog catalog') := by
  unfold installPipeline
  cases hlatest : latestVersion catalog.pipelines request.pipelineId with
  | some record =>
      have hnewest := (latestVersion_eq_some h).mp hlatest
      obtain ⟨hrecord, hpipeline⟩ := hnewest.1
      have honly : ∀ other, IsLatest (catalog.versions request.pipelineId) other →
          other = record := by
        intro other hother
        have := (latestVersion_eq_some h).mpr hother
        rw [hlatest] at this
        exact (Option.some.inj this).symm
      rcases installVersion_cases now publishValid false h hrecord with
        ⟨hblocked, herror⟩ | ⟨hblocked, ⟨hdue, result, hok⟩ | ⟨hdue, result, hok⟩⟩
      · rw [hpipeline] at hblocked
        exact .inl ⟨⟨record, hnewest, hblocked⟩, herror⟩
      · rw [hpipeline] at hblocked
        refine .inr ⟨fun other hother => honly other hother ▸ hblocked, _, result, hok, ?_⟩
        exact {
          sound := publish_sound h hrecord
          backends := rfl
          recordIds := by rw [publish_recordIds h hrecord]; exact List.Subset.refl _
          others := fun other hne => publish_versions_of_ne h hrecord (hpipeline ▸ hne)
          versions := by
            rw [← hpipeline, publish_versions h hrecord]
            exact .published (hpipeline ▸ hnewest) hdue }
      · rw [hpipeline] at hblocked
        refine .inr ⟨fun other hother => honly other hother ▸ hblocked, _, result, hok, ?_⟩
        exact {
          sound := h
          backends := rfl
          recordIds := List.Subset.refl _
          others := fun _ _ => rfl
          versions := .kept hnewest hdue }
  | none =>
      have hempty := latestVersion_eq_none.mp hlatest
      have hnone : ∀ record, ¬ IsLatest (catalog.versions request.pipelineId) record := by
        rintro record ⟨hrecord, -⟩
        simp [hempty] at hrecord
      obtain ⟨record, hcreated, hid, hpipeline, hok⟩ := createPipeline_ok catalog.pipelines
        (ids.recordId catalog.recordIds) now hdag
      have hfresh : record.recordId ∉ catalog.recordIds := hid ▸ ids.recordId_fresh _
      have hfirst : catalog.versions record.pipelineId = ∅ := hpipeline ▸ hempty
      have hadded := add_sound h hfresh hfirst
      have hrecord : record ∈ (catalog.add record).pipelines := by simp [CatalogTables.add]
      have hgrown : catalog.recordIds ⊆ (catalog.add record).recordIds := by
        simp [CatalogTables.add, CatalogTables.recordIds]
      simp only [CatalogTables.recordIds] at hcreated
      simp only [hcreated]
      rcases installVersion_cases now publishValid true hadded hrecord with
        ⟨hblocked, -⟩ | ⟨-, ⟨hdue, result, hinstalled⟩ | ⟨hdue, result, hinstalled⟩⟩
      · rw [add_versions hfirst] at hblocked
        rcases hblocked with hnot | ⟨-, row, rfl, hbeside, -⟩
        · exact absurd hok hnot
        · exact absurd rfl hbeside.2.2
      · refine .inr ⟨fun other hother => absurd hother (hnone other), _, result, hinstalled, ?_⟩
        exact {
          sound := publish_sound hadded hrecord
          backends := rfl
          recordIds := by rw [publish_recordIds hadded hrecord]; exact hgrown
          others := fun other hne => by
            rw [← hpipeline] at hne
            rw [publish_versions_of_ne hadded hrecord hne, add_versions_of_ne hne]
          versions := by
            rw [← hpipeline, publish_versions hadded hrecord, add_versions hfirst,
              republished_singleton, hfirst]
            exact .created hfresh fun hagain => hagain.2.1 rfl }
      · refine .inr ⟨fun other hother => absurd hother (hnone other), _, result, hinstalled, ?_⟩
        exact {
          sound := hadded
          backends := rfl
          recordIds := hgrown
          others := fun other hne => add_versions_of_ne (hpipeline ▸ hne)
          versions := by
            rw [← hpipeline, add_versions hfirst, hfirst]
            exact .created hfresh hdue }

end ParserServe
