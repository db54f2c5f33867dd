import ParserServe.Api.ArtifactObjects
import ParserServe.Lifecycle.Uploads
import ParserServe.Retention.Downloads

/-! # Objects without records, records without objects

An upload writes its object before the transaction that records it.  The object stays exactly
when the record was committed, unless an exception that no handler names ends the call between
the two.
-/

namespace ParserServe

open Foundation

variable {retention : Option Nat} {db db' : Db} {store store' : ObjectStore} {key other : String}

/-! ## Objects -/

theorem ObjectStore.object?_write (store : ObjectStore) (key : String) (body : List UInt8) :
    (store.write key body).object? key = some body := by
  simp [object?, write]

theorem ObjectStore.object?_write_of_ne (store : ObjectStore) (body : List UInt8)
    (hne : other ≠ key) : (store.write key body).object? other = store.object? other := by
  simp [object?, write, hne]

theorem ObjectStore.object?_delete (store : ObjectStore) (key : String) :
    (store.delete key).object? key = none := by
  simp [object?, delete]

theorem ObjectStore.object?_delete_of_ne (store : ObjectStore) (hne : other ≠ key) :
    (store.delete key).object? other = store.object? other := by
  simp [object?, delete, hne]

/-! ## One step of an upload -/

/-- The phases in which the object of an upload is there. -/
def UploadPhase.holds : UploadPhase → Bool
  | .stored | .inserting _ | .answered (.created _) => true
  | _ => false

theorem UploadPhase.created?_of_not_holds {phase : UploadPhase} (h : phase.holds = false) :
    phase.created? = none := by
  unfold UploadPhase.created?
  split
  · cases h
  · rfl

/-- The earlier records that a phase names are in the table, and the answer compares the request
with them. -/
def ArtifactUpload.Finds (upload : ArtifactUpload) (db : Db) (phase : UploadPhase) : Prop :=
  ∀ record, phase.earlier? = some record →
    record ∈ db.artifacts ∧ phase = .answered (upload.found record)

theorem ArtifactUpload.finds_of_none {upload : ArtifactUpload} {phase : UploadPhase}
    (h : phase.earlier? = none) : upload.Finds db phase := by
  intro record hrecord
  rw [h] at hrecord
  cases hrecord

theorem ArtifactUpload.found_earlier? (upload : ArtifactUpload) (record : ArtifactRecord) :
    (UploadPhase.answered (upload.found record)).earlier? = some record := by
  unfold ArtifactUpload.found
  split <;> rfl

theorem ArtifactUpload.found_holds (upload : ArtifactUpload) (record : ArtifactRecord) :
    (UploadPhase.answered (upload.found record)).holds = false := by
  unfold ArtifactUpload.found
  split <;> rfl

theorem ArtifactUpload.found_created? (upload : ArtifactUpload) (record : ArtifactRecord) :
    (UploadPhase.answered (upload.found record)).created? = none := by
  unfold ArtifactUpload.found
  split <;> rfl

/-- How often the object of a call that gave it up is deleted at most. -/
def UploadPhase.deletions : UploadPhase → Nat
  | .answered (.conflict _) => 2
  | _ => 1

theorem UploadPhase.deletions_pos (phase : UploadPhase) : 0 < phase.deletions := by
  unfold deletions
  split <;> simp

/-- Every answer of the transaction deletes the object. -/
theorem UploadPhase.stored_deletes (answer : UploadAnswer) :
    UploadPhase.stored.deletes (.answered answer) =
      (UploadPhase.answered answer).deletions := by
  cases answer <;> rfl

theorem ArtifactUpload.found_finds {upload : ArtifactUpload} {record : ArtifactRecord}
    (h : db.artifactByIdempotency upload.stageId upload.idempotencyDigest = some record) :
    upload.Finds db (.answered (upload.found record)) := by
  intro named hnamed
  rw [found_earlier?] at hnamed
  cases hnamed
  exact ⟨(artifactByIdempotency_eq_some h).1, rfl⟩

/-- What a step of an upload means for its object and for the table. -/
inductive ArtifactUpload.Effect (upload : ArtifactUpload) (db : Db) :
    UploadPhase → UploadEvent → Db → UploadPhase → Prop
  | wrote : Effect upload db .authorized (.write true) db .stored
  | went {phase phase' : UploadPhase} {event : UploadEvent} : event ≠ .write true →
      phase.created? = none → phase'.created? = none → phase'.holds = phase.holds →
      phase.deletes phase' = 0 → upload.Finds db phase' → Effect upload db phase event db phase'
  | gaveUp {phase phase' : UploadPhase} {event : UploadEvent} : event ≠ .write true →
      phase.created? = none → phase'.holds = false →
      phase.deletes phase' = phase'.deletions → upload.Finds db phase' →
      Effect upload db phase event db phase'
  | inserted {taskId : String} {now : Time} {record : ArtifactRecord} :
      record.storageKey = upload.storageKey → db.acceptsArtifact record →
      Effect upload db (.inserting taskId) (.insert now)
        { db with artifacts := db.artifacts ++ [record] } (.answered (.created record))

theorem ArtifactUpload.lookup_effect (upload : ArtifactUpload) (db : Db) (now : Time) :
    upload.Effect db .stored (.lookup now) db (upload.lookup db now) := by
  have hquiet : UploadEvent.lookup now ≠ .write true := UploadEvent.noConfusion
  unfold ArtifactUpload.lookup
  split
  · exact .gaveUp hquiet rfl rfl (UploadPhase.stored_deletes _) (finds_of_none rfl)
  · exact .gaveUp hquiet rfl rfl (UploadPhase.stored_deletes _) (finds_of_none rfl)
  · split
    · next hfound =>
        exact .gaveUp hquiet rfl (found_holds upload _) (UploadPhase.stored_deletes _)
          (found_finds hfound)
    · exact .went hquiet rfl rfl rfl rfl (finds_of_none rfl)
    · exact .gaveUp hquiet rfl rfl (UploadPhase.stored_deletes _) (finds_of_none rfl)

theorem ArtifactUpload.step_effect {upload : ArtifactUpload} {phase phase' : UploadPhase}
    {event : UploadEvent} (h : upload.step retention db phase event = some (db', phase')) :
    upload.Effect db phase event db' phase' := by
  unfold ArtifactUpload.step at h
  split at h
  · cases h
    split <;> exact .went UploadEvent.noConfusion rfl rfl rfl rfl (finds_of_none rfl)
  · cases h
    exact .went UploadEvent.noConfusion rfl rfl rfl rfl (finds_of_none rfl)
  · next fits =>
      cases h
      cases fits with
      | true => exact .wrote
      | false => exact .went (by simp) rfl rfl rfl rfl (finds_of_none rfl)
  · cases h
    exact lookup_effect upload db _
  · cases h
    exact .gaveUp UploadEvent.noConfusion rfl rfl (UploadPhase.stored_deletes _)
      (finds_of_none rfl)
  · simp only at h
    split at h
    · next haccepts =>
        cases h
        exact .inserted rfl haccepts
    · cases h
      exact .gaveUp UploadEvent.noConfusion rfl rfl rfl (finds_of_none rfl)
  · cases h
    exact .gaveUp UploadEvent.noConfusion rfl rfl rfl (finds_of_none rfl)
  · cases h
    split
    · next record hfound =>
        exact .went UploadEvent.noConfusion rfl (found_created? upload record)
          (found_holds upload record) rfl (found_finds hfound)
    · exact .went UploadEvent.noConfusion rfl rfl rfl rfl (finds_of_none rfl)
  · cases h
    exact .went UploadEvent.noConfusion rfl rfl rfl rfl (finds_of_none rfl)
  · cases h

/-! ## A call and its object -/

/-- The object of a call that goes on is there until it is deleted, the table has it exactly when
the call has created its record, and the answer names records of the table. -/
structure ArtifactUpload.Going (upload : ArtifactUpload) (body : List UInt8) (db : Db)
    (store : ObjectStore) (deletes : Nat) (phase : UploadPhase) : Prop where
  held : phase.holds → deletes = 0 ∧ store.object? upload.storageKey = some body
  gone : phase.holds = false → deletes < phase.deletions →
    store.object? upload.storageKey = none
  unrecorded : phase.created? = none → ∀ record ∈ db.artifacts,
    record.storageKey ≠ upload.storageKey
  recorded : ∀ record, phase.created? = some record →
    record ∈ db.artifacts ∧ record.storageKey = upload.storageKey
  finds : upload.Finds db phase
  answers : upload.Answers phase

theorem ArtifactUpload.requested_going (upload : ArtifactUpload) (body : List UInt8)
    (hobject : store.object? upload.storageKey = none)
    (hrecords : ∀ record ∈ db.artifacts, record.storageKey ≠ upload.storageKey) :
    upload.Going body db store 0 .requested where
  held := by simp [UploadPhase.holds]
  gone := fun _ _ => hobject
  unrecorded := fun _ => hrecords
  recorded := by simp [UploadPhase.created?]
  finds := finds_of_none rfl
  answers := answers_of_none rfl rfl

def StoragePhase.deletes : StoragePhase → Nat
  | .going deletes _ => deletes
  | .raised _ => 0

/-- How far the upload has come, or had come when the exception was raised. -/
def StoragePhase.reached : StoragePhase → UploadPhase
  | .going _ phase | .raised phase => phase

def StorageCall.Accounted (call : StorageCall) (db : Db) (store : ObjectStore) : Prop :=
  call.upload.Going call.body db store call.phase.deletes call.phase.reached

/-- Other transactions may add records, and leave the object of the call alone. -/
theorem StorageCall.Accounted.frame {call : StorageCall} (h : call.Accounted db store)
    (hartifacts : ∃ new, db'.artifacts = db.artifacts ++ new ∧
      ∀ record ∈ new, record.storageKey ≠ call.upload.storageKey)
    (hobject : store'.object? call.upload.storageKey = store.object? call.upload.storageKey) :
    call.Accounted db' store' := by
  obtain ⟨new, hartifacts, hnew⟩ := hartifacts
  have hothers : (∀ record ∈ db.artifacts, record.storageKey ≠ call.upload.storageKey) →
      ∀ record ∈ db'.artifacts, record.storageKey ≠ call.upload.storageKey := fun hold record =>
    hartifacts ▸ fun hmem => (List.mem_append.mp hmem).elim (hold record) (hnew record)
  have hmem : ∀ record ∈ db.artifacts, record ∈ db'.artifacts := fun record hrecord =>
    hartifacts ▸ List.mem_append_left _ hrecord
  exact {
    held := hobject ▸ h.held
    gone := hobject ▸ h.gone
    unrecorded := fun hnone => hothers (h.unrecorded hnone)
    recorded := fun record hrecord =>
      ⟨hmem record (h.recorded record hrecord).1, (h.recorded record hrecord).2⟩
    finds := fun record hrecord =>
      ⟨hmem record (h.finds record hrecord).1, (h.finds record hrecord).2⟩
    answers := h.answers }

/-- What a step of a call leaves to the others. -/
structure StorageCall.Frames (call : StorageCall) (db db' : Db) (store store' : ObjectStore) :
    Prop where
  artifacts : db'.artifacts = db.artifacts ∨ ∃ record, db'.artifacts = db.artifacts ++ [record] ∧
    record.storageKey = call.upload.storageKey ∧ db.acceptsArtifact record ∧
      (store'.object? call.upload.storageKey).isSome
  objects : ∀ key ≠ call.upload.storageKey, store'.object? key = store.object? key

theorem afterUpload_of_ne (store : ObjectStore) (key : String) (body : List UInt8)
    {event : UploadEvent} (h : event ≠ .write true) : store.afterUpload key body event = store := by
  unfold ObjectStore.afterUpload
  split
  · exact absurd rfl h
  · rfl

/-- A step of an upload keeps account of its object. -/
theorem StorageCall.upload_accounted {call : StorageCall} {phase phase' : UploadPhase}
    {event : UploadEvent} (h : call.upload.Going call.body db store 0 phase)
    (hstep : call.upload.step retention db phase event = some (db', phase')) :
    call.upload.Going call.body db' (store.afterUpload call.upload.storageKey call.body event)
        (phase.deletes phase') phase' ∧
      call.Frames db db' store (store.afterUpload call.upload.storageKey call.body event) := by
  have hanswers := (ArtifactUpload.step_spec hstep).2
  cases ArtifactUpload.step_effect hstep with
  | wrote =>
      refine ⟨{ held := fun _ => ⟨rfl, store.object?_write _ _⟩
                gone := by simp [UploadPhase.holds]
                unrecorded := fun _ => h.unrecorded rfl
                recorded := by simp [UploadPhase.created?]
                finds := ArtifactUpload.finds_of_none rfl
                answers := hanswers }, .inl rfl, fun key hne => ?_⟩
      exact store.object?_write_of_ne call.body hne
  | went hquiet hbefore hdone hholds hdeletes hfinds =>
      rw [afterUpload_of_ne store _ _ hquiet, hdeletes]
      exact ⟨{ held := hholds ▸ h.held
               gone := fun hgone _ =>
                 h.gone (hholds.symm.trans hgone) phase.deletions_pos
               unrecorded := fun _ => h.unrecorded hbefore
               recorded := fun record hrecord => by simp [hdone] at hrecord
               finds := hfinds
               answers := hanswers }, .inl rfl, fun _ _ => rfl⟩
  | gaveUp hquiet hbefore hholds hdeletes hfinds =>
      rw [afterUpload_of_ne store _ _ hquiet]
      have hdone := UploadPhase.created?_of_not_holds hholds
      exact ⟨{ held := by simp [hholds]
               gone := fun _ hlt => absurd hdeletes hlt.ne
               unrecorded := fun _ => h.unrecorded hbefore
               recorded := by simp [hdone]
               finds := hfinds
               answers := hanswers }, .inl rfl, fun _ _ => rfl⟩
  | @inserted _ _ record hkey haccepts =>
      obtain ⟨_, hobject⟩ := h.held rfl
      exact ⟨{ held := fun _ => ⟨rfl, hobject⟩
               gone := by simp [UploadPhase.holds]
               unrecorded := by simp [UploadPhase.created?]
               recorded := by
                 rintro _ ⟨⟩
                 exact ⟨List.mem_append_right _ List.mem_cons_self, hkey⟩
               finds := ArtifactUpload.finds_of_none rfl
               answers := hanswers },
        .inr ⟨record, rfl, hkey, haccepts, by simp [ObjectStore.afterUpload, hobject]⟩,
        fun _ _ => rfl⟩

theorem StorageCall.step_accounted {call : StorageCall} {event : StorageEvent}
    {phase : StoragePhase} (h : call.Accounted db store)
    (hstep : call.step retention db store event = some (db', store', phase)) :
    { call with phase := phase }.Accounted db' store' ∧ call.Frames db db' store store' := by
  have hsame : call.Frames db db store store := ⟨.inl rfl, fun _ _ => rfl⟩
  obtain ⟨upload, body, callPhase⟩ := call
  unfold StorageCall.step at hstep
  cases event with
  | upload event =>
      simp only at hstep
      split at hstep
      · obtain ⟨⟨_, _⟩, hupload, heq⟩ := Option.map_eq_some_iff.mp hstep
        cases heq
        exact StorageCall.upload_accounted h hupload
      · cases hstep
  | integrityError =>
      simp only at hstep
      split at hstep
      · cases hstep
        have hcollided : upload.Going body db store 1 .collided :=
          { held := by simp [UploadPhase.holds]
            gone := fun _ hlt => absurd hlt (lt_irrefl 1)
            unrecorded := fun _ => ArtifactUpload.Going.unrecorded h rfl
            recorded := by simp [UploadPhase.created?]
            finds := ArtifactUpload.finds_of_none rfl
            answers := ArtifactUpload.answers_of_none rfl rfl }
        exact ⟨hcollided, hsame⟩
      · cases hstep
  | delete =>
      simp only at hstep
      split at hstep
      · next deletes current =>
          cases hstep
          have hgoing : upload.Going body db store (deletes + 1) current := h
          have hholds : current.holds = false := by
            cases hheld : current.holds with
            | false => rfl
            | true => exact absurd (hgoing.held hheld).1 (Nat.succ_ne_zero deletes)
          have hdeleted : upload.Going body db (store.delete upload.storageKey) deletes current :=
            { held := by simp [hholds]
              gone := fun _ _ => store.object?_delete _
              unrecorded := hgoing.unrecorded
              recorded := hgoing.recorded
              finds := hgoing.finds
              answers := hgoing.answers }
          exact ⟨hdeleted, .inl rfl, fun _ hne => store.object?_delete_of_ne hne⟩
      · cases hstep
  | raise =>
      simp only at hstep
      split at hstep
      · cases hstep
        exact ⟨h, hsame⟩
      · next record =>
          cases hstep
          have hgoing : upload.Going body db store 1 (.answered (.conflict record)) := h
          have hraised : upload.Going body db store 0 (.answered (.conflict record)) :=
            { hgoing with
              held := by simp [UploadPhase.holds]
              gone := fun hholds _ => hgoing.gone hholds Nat.one_lt_two }
          exact ⟨hraised, hsame⟩
      · cases hstep

theorem UploadPhase.holds_of_created? {phase : UploadPhase} (h : phase.created? ≠ none) :
    phase.holds = true := by
  cases hholds : phase.holds with
  | true => rfl
  | false => exact absurd (created?_of_not_holds hholds) h

/-- The object of a recorded key is the one that was uploaded. -/
theorem StorageCall.Accounted.object_of_recorded {call : StorageCall} {record : ArtifactRecord}
    (h : call.Accounted db store) (hmem : record ∈ db.artifacts)
    (hkey : record.storageKey = call.upload.storageKey) :
    store.object? call.upload.storageKey = some call.body := by
  have hcreated : call.phase.reached.created? ≠ none := fun hnone =>
    h.unrecorded hnone record hmem hkey
  exact (h.held (UploadPhase.holds_of_created? hcreated)).2

/-- An exception ended the call when its object was written and not recorded. -/
def StoragePhase.lost : StoragePhase → Bool
  | .raised .stored | .raised (.inserting _) => true
  | _ => false

theorem StoragePhase.deletes_of_ended {phase : StoragePhase} (h : phase.ended) :
    phase.deletes = 0 := by
  unfold ended at h
  split at h
  · rfl
  · rfl
  · exact h.elim

theorem StoragePhase.ended_of_lost {phase : StoragePhase} (h : phase.lost = true) :
    phase.ended := by
  unfold lost at h
  split at h
  · trivial
  · trivial
  · cases h

theorem ArtifactUpload.Going.object_iff {upload : ArtifactUpload} {body : List UInt8}
    {phase : UploadPhase} (h : upload.Going body db store 0 phase) :
    (store.object? upload.storageKey).isSome ↔ phase.holds = true := by
  cases hholds : phase.holds with
  | true => simp [(h.held hholds).2]
  | false => simp [h.gone hholds phase.deletions_pos]

theorem ArtifactUpload.Going.record_iff {upload : ArtifactUpload} {body : List UInt8}
    {deletes : Nat} {phase : UploadPhase} (h : upload.Going body db store deletes phase) :
    (∃ record ∈ db.artifacts, record.storageKey = upload.storageKey) ↔
      phase.created?.isSome := by
  cases hcreated : phase.created? with
  | some record => simpa using ⟨record, h.recorded record hcreated⟩
  | none => simpa using h.unrecorded hcreated

/-- Once a call has ended, its object and its record are there together, unless an exception ended
it between the two. -/
theorem StorageCall.Accounted.agree_iff {call : StorageCall} (h : call.Accounted db store)
    (hended : call.phase.ended) :
    ((store.object? call.upload.storageKey).isSome ↔
        ∃ record ∈ db.artifacts, record.storageKey = call.upload.storageKey) ↔
      call.phase.lost = false := by
  unfold StorageCall.Accounted at h
  rw [StoragePhase.deletes_of_ended hended] at h
  rw [h.object_iff, h.record_iff]
  cases hphase : call.phase with
  | going deletes phase =>
      rw [hphase] at hended
      unfold StoragePhase.ended at hended
      split at hended
      · next answer heq =>
          cases heq
          cases answer <;>
            simp [StoragePhase.reached, StoragePhase.lost, UploadPhase.holds, UploadPhase.created?]
      · next heq => cases heq
      · exact hended.elim
  | raised phase =>
      cases phase with
      | answered answer =>
          cases answer <;>
            simp [StoragePhase.reached, StoragePhase.lost, UploadPhase.holds, UploadPhase.created?]
      | _ =>
          simp [StoragePhase.reached, StoragePhase.lost, UploadPhase.holds, UploadPhase.created?]

/-- A step loses the object exactly when it raises an exception before the record. -/
theorem StorageCall.step_lost_iff {call : StorageCall} {event : StorageEvent}
    {phase : StoragePhase}
    (hstep : call.step retention db store event = some (db', store', phase)) :
    phase.lost = false ↔ (event = .raise → call.phase.unrecorded = false) := by
  unfold StorageCall.step at hstep
  cases event with
  | raise =>
      simp only at hstep
      split at hstep
      · next reached hphase =>
          cases hstep
          cases reached <;> simp [hphase, StoragePhase.lost, StoragePhase.unrecorded]
      · next hphase =>
          cases hstep
          simp [hphase, StoragePhase.lost, StoragePhase.unrecorded]
      · cases hstep
  | upload _ =>
      simp only at hstep
      split at hstep
      · obtain ⟨_, _, heq⟩ := Option.map_eq_some_iff.mp hstep
        cases heq
        simp [StoragePhase.lost]
      · cases hstep
  | integrityError | delete =>
      simp only at hstep
      split at hstep
      · cases hstep
        simp [StoragePhase.lost]
      · cases hstep

/-- A step of a call keeps the records, and their objects as they are. -/
theorem StorageCall.step_keeps {call : StorageCall} {event : StorageEvent} {phase : StoragePhase}
    (h : call.Accounted db store)
    (hstep : call.step retention db store event = some (db', store', phase)) :
    ∀ record ∈ db.artifacts, record ∈ db'.artifacts ∧
      store'.object? record.storageKey = store.object? record.storageKey := by
  obtain ⟨hnew, hframes⟩ := StorageCall.step_accounted h hstep
  intro record hrecord
  have hkept : record ∈ db'.artifacts := by
    rcases hframes.artifacts with heq | ⟨_, heq, _⟩
    · exact heq ▸ hrecord
    · exact heq ▸ List.mem_append_left _ hrecord
  refine ⟨hkept, ?_⟩
  by_cases hkey : record.storageKey = call.upload.storageKey
  · rw [hkey, h.object_of_recorded hrecord hkey]
    exact hnew.object_of_recorded hkept hkey
  · exact hframes.objects _ hkey

/-! ## Runs -/

theorem idempotencyUnique_append {record : ArtifactRecord} (h : db.IdempotencyUnique)
    (haccepts : db.acceptsArtifact record) (hdb : db'.artifacts = db.artifacts ++ [record]) :
    db'.IdempotencyUnique := by
  have hnew : ∀ other ∈ db.artifacts, ∀ stageId digest, other.stageId = some stageId →
      other.idempotencyDigest = some digest → record.stageId = some stageId →
        record.idempotencyDigest ≠ some digest := by
    intro other hother stageId digest hstage hdigest hrecord heq
    exact (haccepts other hother).2.2 ⟨hstage.trans hrecord.symm, hdigest.trans heq.symm⟩
  intro left hleft right hright stageId digest hstage hdigest hstage' hdigest'
  rw [hdb] at hleft hright
  rcases List.mem_append.mp hleft with hleft | hleft <;>
    rcases List.mem_append.mp hright with hright | hright
  · exact h left hleft right hright stageId digest hstage hdigest hstage' hdigest'
  · rw [List.mem_singleton.mp hright] at hstage' hdigest'
    exact absurd hdigest' (hnew left hleft stageId digest hstage hdigest hstage')
  · rw [List.mem_singleton.mp hleft] at hstage hdigest
    exact absurd hdigest (hnew right hright stageId digest hstage' hdigest' hstage)
  · rw [List.mem_singleton.mp hleft, List.mem_singleton.mp hright]

structure StorageState.Accounted (s : StorageState) : Prop where
  idempotency : s.db.IdempotencyUnique
  objects : ∀ record ∈ s.db.artifacts, (s.store.object? record.storageKey).isSome
  distinct : (s.calls.map (·.upload.storageKey)).Nodup
  calls : ∀ call ∈ s.calls, call.Accounted s.db s.store

/-- The records of a state stay, and so do their objects. -/
def StorageState.Keeps (s s' : StorageState) : Prop :=
  ∀ record ∈ s.db.artifacts, record ∈ s'.db.artifacts ∧
    s'.store.object? record.storageKey = s.store.object? record.storageKey

theorem StorageState.mem_artifactKeys_of_record {s : StorageState} {record : ArtifactRecord}
    (h : record ∈ s.db.artifacts) : record.storageKey ∈ s.artifactKeys :=
  List.mem_append_left _ (List.mem_map_of_mem h)

theorem StorageState.mem_artifactKeys_of_call {s : StorageState} {call : StorageCall}
    (h : call ∈ s.calls) : call.upload.storageKey ∈ s.artifactKeys :=
  List.mem_append_right _ (List.mem_map_of_mem h)

theorem StorageStep.accounted {s s' : StorageState} {label : StorageLabel} (h : s.Accounted)
    (hstep : StorageStep retention s label s') : s'.Accounted ∧ s.Keeps s' := by
  cases hstep with
  | @called upload body hfresh hobject =>
      refine ⟨⟨h.idempotency, h.objects, ?_, fun call hcall => ?_⟩, fun _ hmem => ⟨hmem, rfl⟩⟩
      · rw [List.map_append, List.nodup_append]
        refine ⟨h.distinct, List.nodup_singleton _, ?_⟩
        rintro _ hold _ hnew rfl
        rw [List.mem_singleton.mp hnew] at hold
        exact hfresh (List.mem_append_right _ hold)
      · rcases List.mem_append.mp hcall with hcall | hcall
        · exact h.calls call hcall
        · rw [List.mem_singleton.mp hcall]
          exact ArtifactUpload.requested_going upload body hobject fun record hrecord heq =>
            hfresh (heq ▸ StorageState.mem_artifactKeys_of_record hrecord)
  | @advanced before after call event db' store' phase hsplit hcall =>
      have hmem : call ∈ s.calls := by simp [hsplit]
      obtain ⟨hnew, hframes⟩ := StorageCall.step_accounted (h.calls call hmem) hcall
      have hdistinct := h.distinct
      rw [hsplit, List.map_append, List.map_cons, List.nodup_middle, List.nodup_cons,
        ← List.map_append] at hdistinct
      have hother : ∀ other ∈ before ++ after,
          other.upload.storageKey ≠ call.upload.storageKey := fun other hother heq =>
        hdistinct.1 (heq ▸ List.mem_map_of_mem hother)
      have hkeeps := StorageCall.step_keeps (h.calls call hmem) hcall
      refine ⟨⟨?_, fun record hrecord => ?_, ?_, fun other hcalls => ?_⟩,
        hkeeps⟩
      · rcases hframes.artifacts with heq | ⟨record, heq, _, haccepts, _⟩
        · simpa only [Db.IdempotencyUnique, heq] using h.idempotency
        · exact idempotencyUnique_append h.idempotency haccepts heq
      · have hold : record ∈ s.db.artifacts → (store'.object? record.storageKey).isSome :=
          fun hold => (hkeeps record hold).2 ▸ h.objects record hold
        rcases hframes.artifacts with heq | ⟨_, heq, hkey, _, hsome⟩
        · exact hold (heq ▸ hrecord)
        · rw [show _ = _ from heq] at hrecord
          rcases List.mem_append.mp hrecord with hrecord | hrecord
          · exact hold hrecord
          · rw [List.mem_singleton.mp hrecord, hkey]
            exact hsome
      · simpa [hsplit] using h.distinct
      · have hframe : ∀ other ∈ before ++ after,
            other.Accounted db' store' := fun other hcalls => by
          have hne := hother other hcalls
          refine (h.calls other ?_).frame ?_ (hframes.objects _ hne)
          · rw [hsplit]
            exact (List.mem_append.mp hcalls).elim (List.mem_append_left _)
              fun hafter => List.mem_append_right _ (List.mem_cons_of_mem _ hafter)
          · rcases hframes.artifacts with heq | ⟨record, heq, hkey, _⟩
            · exact ⟨[], by simp [heq], by simp⟩
            · exact ⟨[record], heq, by simpa [hkey] using hne.symm⟩
        rcases List.mem_append.mp hcalls with hcalls | hcalls
        · exact hframe other (List.mem_append_left _ hcalls)
        · rcases List.mem_cons.mp hcalls with rfl | hcalls
          · exact hnew
          · exact hframe other (List.mem_append_right _ hcalls)
  | @elsewhere db' store' hartifacts hobjects =>
      have hrecord : ∀ record ∈ s.db.artifacts,
          store'.object? record.storageKey = s.store.object? record.storageKey := fun record hmem =>
        hobjects _ (StorageState.mem_artifactKeys_of_record hmem)
      refine ⟨⟨?_, fun record hmem => ?_, h.distinct, fun call hcall => ?_⟩, fun record hmem => ?_⟩
      · simpa only [Db.IdempotencyUnique, hartifacts] using h.idempotency
      · rw [show _ = _ from hartifacts] at hmem
        rw [hrecord record hmem]
        exact h.objects record hmem
      · exact (h.calls call hcall).frame ⟨[], by simp [hartifacts], by simp⟩
          (hobjects _ (StorageState.mem_artifactKeys_of_call hcall))
      · exact ⟨hartifacts ▸ hmem, hrecord record hmem⟩

/-- A transaction of the control plane leaves artifacts and objects alone. -/
theorem control_elsewhere {scheduler : StageScheduler} {s : StorageState} {label : Label}
    (h : ControlStep scheduler s.db label db') (hlabel : label ≠ .administered) :
    (artifactStorage retention).Step s .elsewhere { s with db := db' } :=
  .elsewhere (control_sameFiles h hlabel).2 fun _ _ => rfl

/-- So does `upload_file`, which draws a key of its own. -/
theorem uploadFile_elsewhere {s : StorageState} {fileId : String} {content : List UInt8}
    {uploads : List UploadedFileRecord} (hkey : uploadKey fileId ∉ s.artifactKeys) :
    (artifactStorage retention).Step s .elsewhere
      { s with db := { s.db with uploads := uploads }
               store := s.store.write (uploadKey fileId) content } :=
  .elsewhere rfl fun _ hmem =>
    s.store.object?_write_of_ne content fun heq => hkey (heq ▸ hmem)

theorem StorageState.Keeps.trans {s s' s'' : StorageState} (h : s.Keeps s') (h' : s'.Keeps s'') :
    s.Keeps s'' := fun record hmem =>
  ⟨(h' record (h record hmem).1).1, ((h' record (h record hmem).1).2).trans (h record hmem).2⟩

theorem storage_run_accounted {s s' : StorageState} {labels : List StorageLabel}
    (h : s.Accounted) (hrun : (artifactStorage retention).Run s labels s') :
    s'.Accounted ∧ s.Keeps s' := by
  induction hrun with
  | nil => exact ⟨h, fun _ hmem => ⟨hmem, rfl⟩⟩
  | snoc _ hstep ih =>
      obtain ⟨haccounted, hkeeps⟩ := StorageStep.accounted ih.1 hstep
      exact ⟨haccounted, ih.2.trans hkeeps⟩

theorem StorageStart.accounted {s : StorageState} (h : StorageStart s) : s.Accounted where
  idempotency := h.idempotency
  objects := h.objects
  distinct := by simp [h.calls]
  calls := by simp [h.calls]

/-- The record was made by another upload with the same idempotency key for the stage. -/
structure ArtifactUpload.Repeats (upload : ArtifactUpload) (record : ArtifactRecord) : Prop where
  stage : record.stageId = some upload.stageId
  digest : record.idempotencyDigest = some upload.idempotencyDigest
  other : record.storageKey ≠ upload.storageKey

/-- The object of a call that has ended is there exactly when its record is. -/
def StorageState.ObjectsAgree (s : StorageState) : Prop :=
  ∀ call ∈ s.calls, call.phase.ended →
    ((s.store.object? call.upload.storageKey).isSome ↔
      ∃ record ∈ s.db.artifacts, record.storageKey = call.upload.storageKey)

theorem StorageState.Accounted.objectsAgree_iff {s : StorageState} (h : s.Accounted) :
    s.ObjectsAgree ↔ ∀ call ∈ s.calls, call.phase.lost = false := by
  constructor
  · intro hagree call hcall
    cases hlost : call.phase.lost with
    | false => rfl
    | true =>
        have hended := StoragePhase.ended_of_lost hlost
        rw [((h.calls call hcall).agree_iff hended).mp (hagree call hcall hended)] at hlost
        cases hlost
  · exact fun hkept call hcall hended =>
      ((h.calls call hcall).agree_iff hended).mpr (hkept call hcall)

/-- From a state where objects and records agree a step leads to another exactly when it raises no
exception between the two. -/
theorem StorageStep.handled_iff {s s' : StorageState} {label : StorageLabel} (h : s.Accounted)
    (hagree : s.ObjectsAgree) (hstep : StorageStep retention s label s') :
    s.Handled label ↔ s'.ObjectsAgree := by
  have hs' := (StorageStep.accounted h hstep).1
  rw [hs'.objectsAgree_iff]
  rw [h.objectsAgree_iff] at hagree
  cases hstep with
  | called =>
      refine iff_of_true trivial fun call hcall => ?_
      rcases List.mem_append.mp hcall with hcall | hcall
      · exact hagree call hcall
      · rw [List.mem_singleton.mp hcall]
        rfl
  | elsewhere => exact iff_of_true trivial hagree
  | @advanced before after call event db' store' phase hsplit hcall =>
      have hmem : call ∈ s.calls := by simp [hsplit]
      have honly : ∀ other ∈ s.calls, other.upload.storageKey = call.upload.storageKey →
          other = call := fun other hother heq =>
        List.inj_on_of_nodup_map h.distinct hother hmem heq
      have hhandled : s.Handled (.advanced call.upload event) ↔
          (event = .raise → call.phase.unrecorded = false) := by
        cases event with
        | raise =>
            exact ⟨fun hall _ => hall call hmem rfl,
              fun hcall other hother heq => honly other hother heq ▸ hcall rfl⟩
        | upload _ | integrityError | delete => simp [StorageState.Handled]
      rw [hhandled, ← StorageCall.step_lost_iff hcall]
      constructor
      · intro hlost other hother
        rcases List.mem_append.mp hother with hother | hother
        · exact hagree other (hsplit ▸ List.mem_append_left _ hother)
        · rcases List.mem_cons.mp hother with rfl | hother
          · exact hlost
          · exact hagree other
              (hsplit ▸ List.mem_append_right _ (List.mem_cons_of_mem _ hother))
      · exact fun hall => hall { call with phase := phase }
          (List.mem_append_right _ List.mem_cons_self)

def UploadAnswer.record? : UploadAnswer → Option ArtifactRecord
  | .created record | .replayed record | .conflict record => some record
  | _ => none

/-- What holds at `s'` of the records that were committed by `s`, and of the answers. -/
structure RecordsStand (s s' : StorageState) : Prop where
  kept : ∀ record ∈ s.db.artifacts, record ∈ s'.db.artifacts ∧
    s'.store.object? record.storageKey = s.store.object? record.storageKey ∧
      (s'.store.object? record.storageKey).isSome
  replays : ∀ call ∈ s'.calls, ∀ answer, call.phase = .going 0 (.answered answer) →
    (∀ record ∈ s.db.artifacts, call.upload.Repeats record → answer.record?.isSome →
      answer = call.upload.found record) ∧
    (∀ record, answer = .replayed record →
      record ∈ s'.db.artifacts ∧ call.upload.Repeats record ∧
        record.requestDigest = some call.upload.requestDigest)

theorem UploadAnswer.record?_cases {answer : UploadAnswer} {record : ArtifactRecord}
    (h : answer.record? = some record) :
    answer = .created record ∨ (UploadPhase.answered answer).earlier? = some record := by
  cases answer <;> cases h
  · exact .inl rfl
  · exact .inr rfl
  · exact .inr rfl

/-- However the steps of uploads interleave and end, every recorded artifact keeps its object and a
replay returns the earlier record.  The object of an ended call is there exactly when its record
was committed, all through a run, exactly when no step of the run raises an exception outside the
handlers between the two. -/
theorem artifact_storage_agrees_iff {s₀ s s' : StorageState} {before after : List StorageLabel}
    (hinit : (artifactStorage retention).Initial s₀)
    (hbefore : (artifactStorage retention).Run s₀ before s)
    (hafter : (artifactStorage retention).Run s after s') :
    (((artifactStorage retention).restrict StorageState.Handled).Run s₀ (before ++ after) s' ↔
      ((artifactStorage retention).through StorageState.ObjectsAgree).Run s₀ (before ++ after) s') ∧
    RecordsStand s s' := by
  have hs₀ := StorageStart.accounted hinit
  have hstart : s₀.ObjectsAgree := by simp [StorageState.ObjectsAgree, hinit.calls]
  obtain ⟨hs, _⟩ := storage_run_accounted hs₀ hbefore
  obtain ⟨hs', hkeeps⟩ := storage_run_accounted hs hafter
  refine ⟨System.restrict_run_iff_through
      (fun _ _ _ h hstep => (StorageStep.accounted h hstep).1)
      (fun _ _ _ h hagree hstep => StorageStep.handled_iff h hagree hstep) hs₀ hstart,
    fun record hmem => ?_, fun call hcall answer hphase => ?_⟩
  · obtain ⟨hmem', hobject⟩ := hkeeps record hmem
    exact ⟨hmem', hobject, hs'.objects record hmem'⟩
  · have hgoing := hs'.calls call hcall
    simp only [StorageCall.Accounted, hphase, StoragePhase.deletes, StoragePhase.reached]
      at hgoing
    refine ⟨fun record hmem hrepeats hsome => ?_, fun record heq => ?_⟩
    · obtain ⟨named, hnamed⟩ := Option.isSome_iff_exists.mp hsome
      have hunique : named ∈ s'.db.artifacts → named.stageId = some call.upload.stageId →
          named.idempotencyDigest = some call.upload.idempotencyDigest → named = record :=
        fun hmem' hstage hdigest => hs'.idempotency named hmem' record (hkeeps record hmem).1 _ _
          hstage hdigest hrepeats.stage hrepeats.digest
      rcases UploadAnswer.record?_cases hnamed with rfl | hearlier
      · obtain ⟨hmem', hkey⟩ := hgoing.recorded named rfl
        obtain ⟨hstage, hdigest⟩ := hgoing.answers named (.inl rfl)
        exact absurd (hunique hmem' hstage hdigest ▸ hkey) hrepeats.other
      · obtain ⟨hmem', hfound⟩ := hgoing.finds named hearlier
        obtain ⟨hstage, hdigest⟩ := hgoing.answers named (.inr hearlier)
        rw [← hunique hmem' hstage hdigest]
        exact UploadPhase.answered.inj hfound
    · subst heq
      obtain ⟨hmem', hfound⟩ := hgoing.finds record rfl
      obtain ⟨hstage, hdigest⟩ := hgoing.answers record (.inr rfl)
      refine ⟨hmem', ⟨hstage, hdigest, hgoing.unrecorded rfl record hmem'⟩, ?_⟩
      have hreplayed := UploadPhase.answered.inj hfound
      unfold ArtifactUpload.found at hreplayed
      split at hreplayed
      · assumption
      · cases hreplayed

/-! ## A replay -/

def storageStart : StorageState where
  db := { leasedDb with artifacts := [] }
  store := ⟨[], fun _ => []⟩
  calls := []

theorem storageStart_start : StorageStart storageStart where
  calls := rfl
  idempotency := by simp [Db.IdempotencyUnique, storageStart]
  objects := by simp [storageStart]

def layoutUpload (artifactId : String) : ArtifactUpload where
  toArtifactContent := layoutContent 1
  workerId := "worker"
  stageId := "stage-layout"
  leaseToken := "token-layout"
  idempotencyKey := "stage-layout:1:0"
  artifactId := artifactId
  storageUri := "file:///" ++ artifactId

def storageRun (s : StorageState) (moves : List StorageMove) : StorageState :=
  (System.script (StorageMove.take none) s moves).2

theorem storageRun_run (s : StorageState) (moves : List StorageMove) :
    (artifactStorage none).Run s (System.script (StorageMove.take none) s moves).1
      (storageRun s moves) :=
  System.script_run (StorageMove.take_step none) s moves

/-- The worker uploads an artifact. -/
def recordMoves : List StorageMove :=
  [.call (layoutUpload "artifact_0a") [123], .advance 0 (.upload (.authorize 3)),
    .advance 0 (.upload (.write true)), .advance 0 (.upload (.lookup 3)),
    .advance 0 (.upload (.insert 3))]

/-- It has lost the answer and uploads the artifact again. -/
def replayMoves : List StorageMove :=
  [.call (layoutUpload "artifact_0b") [123], .advance 1 (.upload (.authorize 4)),
    .advance 1 (.upload (.write true)), .advance 1 (.upload (.lookup 4)), .advance 1 .delete]

/-- The connection for the second authorization is refused. -/
def refusedMoves : List StorageMove :=
  [.call (layoutUpload "artifact_0a") [123], .advance 0 (.upload (.authorize 3)),
    .advance 0 (.upload (.write true)), .advance 0 .raise]

def recordedState : StorageState :=
  storageRun storageStart recordMoves

def replayedState : StorageState :=
  storageRun recordedState replayMoves

def refusedState : StorageState :=
  storageRun storageStart refusedMoves

theorem artifact_storage_agrees_replayed :
    recordedState.db.artifacts.map (·.artifactId) = ["artifact_0a"] ∧
      replayedState.store.keys = ["artifacts/0a/artifact_0a"] ∧
      replayedState.ObjectsAgree ∧ RecordsStand recordedState replayedState := by
  have hagrees := artifact_storage_agrees_iff storageStart_start
    (storageRun_run storageStart recordMoves) (storageRun_run recordedState replayMoves)
  have hrecorded : ((artifactStorage none).restrict StorageState.Handled).Run storageStart
      (System.script (StorageMove.take none) storageStart recordMoves).1 recordedState :=
    System.script_run_restrict (StorageMove.take_step none) (by decide +kernel)
  have hreplayed : ((artifactStorage none).restrict StorageState.Handled).Run recordedState
      (System.script (StorageMove.take none) recordedState replayMoves).1 replayedState :=
    System.script_run_restrict (StorageMove.take_step none) (by decide +kernel)
  have hstart : storageStart.ObjectsAgree := by simp [StorageState.ObjectsAgree, storageStart]
  exact ⟨by decide +kernel, by decide +kernel,
    (hagrees.1.mp (hrecorded.trans hreplayed)).through_last hstart, hagrees.2⟩

/-- The object stays in the store, and no record names it. -/
theorem artifact_storage_leaks :
    StorageStart storageStart ∧
      (∃ labels, (artifactStorage none).Run storageStart labels refusedState) ∧
      refusedState.db.artifacts.length = 0 ∧
      refusedState.store.keys = ["artifacts/0a/artifact_0a"] ∧ ¬ refusedState.ObjectsAgree := by
  have hrecords : refusedState.db.artifacts.length = 0 := by decide +kernel
  refine ⟨storageStart_start, ⟨_, storageRun_run storageStart refusedMoves⟩, hrecords,
    by decide +kernel, fun hagree => ?_⟩
  have hcall : ∃ call ∈ refusedState.calls, call.phase.lost = true ∧
      (refusedState.store.object? call.upload.storageKey).isSome := by decide +kernel
  obtain ⟨call, hcall, hlost, hobject⟩ := hcall
  obtain ⟨record, hrecord, _⟩ :=
    (hagree call hcall (StoragePhase.ended_of_lost hlost)).mp hobject
  rw [List.length_eq_zero_iff.mp hrecords] at hrecord
  cases hrecord

end ParserServe
