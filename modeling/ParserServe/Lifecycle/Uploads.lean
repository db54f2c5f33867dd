import ParserServe.Control.Artifacts
import ParserServe.Control.Fleet
import ParserServe.Lifecycle.Attempts

/-! # The artifacts of different leases

The idempotency key of an upload is made of the stage, the attempt and the index of the
artifact.  The keys of two leases of a stage differ as long as their attempts do, which only a
manual retry between them prevents.
-/

namespace ParserServe

open Foundation

variable {self : StageScheduler} {retention : Option Nat} {s s' : UploadState}
  {label : UploadLabel} {labels : List UploadLabel}

/-! ## Keys -/

theorem toDigits_inj {m n : Nat} (h : Nat.toDigits 10 m = Nat.toDigits 10 n) : m = n := by
  rw [← Nat.ofDigitChars_ten_toDigits (n := m), h, Nat.ofDigitChars_ten_toDigits]

theorem colon_notMem_toDigits (n : Nat) : ':' ∉ Nat.toDigits 10 n := by
  intro h
  have hdigit := Nat.isDigit_of_mem_toDigits (by decide) (by decide) h
  exact absurd hdigit (by decide)

theorem artifactKey_toList (lease : LeasedStage) (index : Nat) :
    (artifactKey lease index).toList = lease.stageId.toList ++
      ':' :: (Nat.toDigits 10 lease.attempt ++ ':' :: Nat.toDigits 10 index) := by
  simp [artifactKey, Nat.toString_eq_repr]

/-- Two keys of one stage tell the attempt and the index. -/
theorem artifactKey_inj {lease lease' : LeasedStage} {index index' : Nat}
    (hstage : lease.stageId = lease'.stageId)
    (h : artifactKey lease index = artifactKey lease' index') :
    lease.attempt = lease'.attempt ∧ index = index' := by
  have hlist := congrArg String.toList h
  rw [artifactKey_toList, artifactKey_toList, hstage, List.append_cancel_left_eq,
    List.cons.injEq] at hlist
  have hparts := (List.append_cons_inj_of_notMem (colon_notMem_toDigits _)
    (colon_notMem_toDigits _)).mp hlist.2
  exact ⟨toDigits_inj hparts.1, toDigits_inj hparts.2.2⟩

theorem artifactKey_congr {lease lease' : LeasedStage} (index : Nat)
    (hstage : lease.stageId = lease'.stageId) (hattempt : lease.attempt = lease'.attempt) :
    artifactKey lease index = artifactKey lease' index := by
  rw [artifactKey, artifactKey, hstage, hattempt]

/-- The keys used under two leases of one stage are different. -/
def KeysDiffer (granted : List (String × LeasedStage)) : Prop :=
  granted.Pairwise fun a b => a.2.stageId = b.2.stageId →
    ∀ index index', artifactKey a.2 index ≠ artifactKey b.2 index'

theorem nodup_attempts_iff {leases : List LeasedStage} :
    (∀ stageId, ((leasesOf stageId leases).map (·.attempt)).Nodup) ↔
      leases.Pairwise fun a b => a.stageId = b.stageId → a.attempt ≠ b.attempt := by
  have hnodup : ∀ stageId, ((leasesOf stageId leases).map (·.attempt)).Nodup ↔
      leases.Pairwise fun a b => a.stageId = stageId → b.stageId = stageId →
        a.attempt ≠ b.attempt := fun stageId => by
    rw [List.Nodup, List.pairwise_map, leasesOf, List.pairwise_filter]
    simp only [decide_eq_true_eq]
  simp only [hnodup, List.pairwise_iff_getElem]
  constructor
  · intro h i j hi hj hlt hstage
    exact h _ i j hi hj hlt rfl hstage.symm
  · intro h stageId i j hi hj hlt hleft hright
    exact h i j hi hj hlt (hleft.trans hright.symm)

theorem keysDiffer_iff {granted : List (String × LeasedStage)} :
    KeysDiffer granted ↔
      ∀ stageId, ((leasesOf stageId (granted.map (·.2))).map (·.attempt)).Nodup := by
  rw [nodup_attempts_iff, List.pairwise_map]
  refine List.Pairwise.iff fun a b => forall_congr' fun hstage => ⟨fun h heq => ?_, ?_⟩
  · exact h 0 0 (artifactKey_congr 0 hstage heq)
  · intro h index index' heq
    exact h (artifactKey_inj hstage heq).1

/-! ## The control plane under the uploads -/

/-- The record of an earlier upload that an answer goes back to. -/
def UploadPhase.earlier? : UploadPhase → Option ArtifactRecord
  | .answered (.replayed record) | .answered (.conflict record) => some record
  | _ => none

def UploadPhase.created? : UploadPhase → Option ArtifactRecord
  | .answered (.created record) => some record
  | _ => none

/-- The records that a phase names have the stage and the key of the upload. -/
def ArtifactUpload.Answers (upload : ArtifactUpload) (phase : UploadPhase) : Prop :=
  ∀ record, phase.created? = some record ∨ phase.earlier? = some record →
    record.stageId = some upload.stageId ∧
      record.idempotencyDigest = some upload.idempotencyDigest

theorem ArtifactUpload.answers_of_none {upload : ArtifactUpload} {phase : UploadPhase}
    (hcreated : phase.created? = none) (hearlier : phase.earlier? = none) :
    upload.Answers phase := by
  intro record h
  simp [hcreated, hearlier] at h

theorem ArtifactUpload.found_answers {upload : ArtifactUpload} {db : Db} {record : ArtifactRecord}
    (h : db.artifactByIdempotency upload.stageId upload.idempotencyDigest = some record) :
    upload.Answers (.answered (upload.found record)) := by
  have hrecord := (artifactByIdempotency_eq_some h).2
  unfold ArtifactUpload.found
  rintro named (hnamed | hnamed) <;> split at hnamed <;> cases hnamed <;> exact hrecord

theorem ArtifactUpload.lookup_answers {upload : ArtifactUpload} {db : Db} {now : Time} :
    upload.Answers (upload.lookup db now) := by
  unfold ArtifactUpload.lookup
  split
  · exact answers_of_none rfl rfl
  · exact answers_of_none rfl rfl
  · split
    · next record _ hfound => exact found_answers hfound
    · exact answers_of_none rfl rfl
    · exact answers_of_none rfl rfl

/-- A step writes no task, and names only records with the key of its upload. -/
theorem ArtifactUpload.step_spec {upload : ArtifactUpload} {db db' : Db}
    {phase phase' : UploadPhase} {event : UploadEvent}
    (h : upload.step retention db phase event = some (db', phase')) :
    Administered db db' ∧ upload.Answers phase' := by
  have hrefl := Administered.refl db
  unfold ArtifactUpload.step at h
  split at h
  · cases h
    refine ⟨hrefl, ?_⟩
    split <;> exact answers_of_none rfl rfl
  · cases h
    exact ⟨hrefl, answers_of_none rfl rfl⟩
  · cases h
    refine ⟨hrefl, ?_⟩
    split <;> exact answers_of_none rfl rfl
  · cases h
    exact ⟨hrefl, lookup_answers⟩
  · cases h
    exact ⟨hrefl, answers_of_none rfl rfl⟩
  · simp only at h
    split at h
    · cases h
      refine ⟨⟨rfl, [], by simp, by simp⟩, ?_⟩
      rintro named (hnamed | hnamed) <;> cases hnamed
      exact ⟨rfl, rfl⟩
    · cases h
      exact ⟨hrefl, answers_of_none rfl rfl⟩
  · cases h
    exact ⟨hrefl, answers_of_none rfl rfl⟩
  · cases h
    refine ⟨hrefl, ?_⟩
    split
    · next hfound => exact found_answers hfound
    · exact answers_of_none rfl rfl
  · cases h
    exact ⟨hrefl, answers_of_none rfl rfl⟩
  · cases h

/-- What the control plane sees of a step. -/
def UploadLabel.toControl : UploadLabel → Label
  | .control label => label
  | .requested _ | .advanced .. => .administered

theorem UploadStep.control_step (h : UploadStep self retention s label s') :
    ControlStep self s.db label.toControl s'.db := by
  cases h with
  | control hstep => exact hstep
  | requested => exact .administered (Administered.refl s.db)
  | advanced _ hstep => exact .administered ((ArtifactUpload.step_spec hstep).1)

theorem uploads_run_control (h : (uploads self retention).Run s labels s') :
    (controlPlane self).Run s.db (labels.map UploadLabel.toControl) s'.db := by
  induction h with
  | nil => exact .nil _
  | snoc _ hstep ih =>
      rw [List.map_append]
      exact ih.snoc (UploadStep.control_step hstep)

theorem Label.granted_leases (label : Label) : label.granted.map (·.2) = label.leases := by
  unfold Label.granted Label.leases
  split <;> simp_all

theorem UploadStep.granted (h : UploadStep self retention s label s') :
    s'.granted = s.granted ++ label.toControl.granted := by
  cases h with
  | control => rfl
  | requested | advanced => exact (List.append_nil _).symm

theorem run_granted (h : (uploads self retention).Run s labels s') :
    s'.granted.map (·.2) = s.granted.map (·.2) ++
      (labels.map UploadLabel.toControl).flatMap Label.leases := by
  induction h with
  | nil => simp
  | snoc _ hstep ih =>
      rw [UploadStep.granted hstep, List.map_append, ih, Label.granted_leases, List.map_append,
        List.flatMap_append, List.append_assoc]
      simp

/-! ## Calls and their leases -/

/-- The upload is one of the worker that was granted the lease. -/
def UploadCall.MadeUnder (granted : List (String × LeasedStage)) (call : UploadCall) : Prop :=
  ∃ workerId lease index, granted[call.grant]? = some (workerId, lease) ∧
    call.upload.stageId = lease.stageId ∧
      call.upload.idempotencyDigest = ⟨artifactKey lease index⟩

theorem UploadCall.MadeUnder.append {granted new : List (String × LeasedStage)}
    {call : UploadCall} (h : call.MadeUnder granted) : call.MadeUnder (granted ++ new) := by
  obtain ⟨workerId, lease, index, hgrant, hkey⟩ := h
  obtain ⟨hlt, _⟩ := List.getElem?_eq_some_iff.mp hgrant
  exact ⟨workerId, lease, index, by rw [List.getElem?_append_left hlt, hgrant], hkey⟩

/-- The call a step carries on, with the phase it comes to. -/
def UploadLabel.advanced? : UploadLabel → Option (UploadCall × UploadPhase)
  | .advanced call phase => some (call, phase)
  | _ => none

theorem UploadStep.madeUnder (h : UploadStep self retention s label s')
    (hcalls : ∀ call ∈ s.calls, call.MadeUnder s.granted) :
    (∀ call ∈ s'.calls, call.MadeUnder s'.granted) ∧
      ∀ call phase, label.advanced? = some (call, phase) →
        call.MadeUnder s'.granted ∧ call.upload.Answers phase := by
  cases h with
  | control => exact ⟨fun call hcall => (hcalls call hcall).append, fun _ _ h => by cases h⟩
  | @requested grant index workerId _ _ lease _ hgrant =>
      refine ⟨fun call hcall => ?_, fun _ _ h => by cases h⟩
      rcases List.mem_append.mp hcall with hcall | hcall
      · exact hcalls call hcall
      · rw [List.mem_singleton.mp hcall]
        exact ⟨workerId, lease, index, hgrant, rfl, rfl⟩
  | @advanced before after call _ _ phase hsplit hstep =>
      rw [hsplit] at hcalls
      have hcall := hcalls call (by simp)
      refine ⟨fun other hother => ?_, fun _ _ h => ?_⟩
      · rcases List.mem_append.mp hother with hother | hother
        · exact hcalls other (List.mem_append_left _ hother)
        · rcases List.mem_cons.mp hother with rfl | hother
          · exact hcall
          · exact hcalls other (by simp [hother])
      · cases h
        exact ⟨hcall, (ArtifactUpload.step_spec hstep).2⟩

theorem run_madeUnder (hinit : (uploads self retention).Initial s)
    (h : (uploads self retention).Run s labels s') :
    (∀ call ∈ s'.calls, call.MadeUnder s'.granted) ∧
      ∀ label ∈ labels, ∀ call phase, label.advanced? = some (call, phase) →
        call.MadeUnder s'.granted ∧ call.upload.Answers phase := by
  induction h with
  | nil => exact ⟨by simp [hinit.2.2], by simp⟩
  | snoc _ hstep ih =>
      obtain ⟨hcalls, hlast⟩ := UploadStep.madeUnder hstep ih.1
      refine ⟨hcalls, fun label hlabel call phase hadvanced => ?_⟩
      rcases List.mem_append.mp hlabel with hlabel | hlabel
      · obtain ⟨hmade, hanswers⟩ := ih.2 label hlabel call phase hadvanced
        rw [UploadStep.granted hstep]
        exact ⟨hmade.append, hanswers⟩
      · rw [List.mem_singleton.mp hlabel] at hadvanced
        exact hlast call phase hadvanced

/-- The lease of an upload that is answered with the record of an earlier one, or refused because
of it. -/
def UploadLabel.earlier? (label : UploadLabel) : Option (Nat × ArtifactRecord) :=
  label.advanced?.bind fun (call, phase) => phase.earlier?.map (call.grant, ·)

def UploadLabel.created? (label : UploadLabel) : Option (Nat × ArtifactRecord) :=
  label.advanced?.bind fun (call, phase) => phase.created?.map (call.grant, ·)

/-- The uploads that an answer goes back to were made under the same lease. -/
def AnsweredByOwnLease (labels : List UploadLabel) : Prop :=
  ∀ label ∈ labels, ∀ label' ∈ labels, ∀ grant grant' record,
    label.earlier? = some (grant, record) → label'.created? = some (grant', record) →
      grant = grant'

theorem answeredByOwnLease_of_keysDiffer (hinit : (uploads self retention).Initial s)
    (hrun : (uploads self retention).Run s labels s') (hkeys : KeysDiffer s'.granted) :
    AnsweredByOwnLease labels := by
  intro label hlabel label' hlabel' grant grant' record hold hnew
  obtain ⟨⟨call, phase⟩, hcall, hold⟩ := Option.bind_eq_some_iff.mp hold
  obtain ⟨_, hearlier, heq⟩ := Option.map_eq_some_iff.mp hold
  cases heq
  obtain ⟨⟨call', phase'⟩, hcall', hnew⟩ := Option.bind_eq_some_iff.mp hnew
  obtain ⟨_, hcreated, heq⟩ := Option.map_eq_some_iff.mp hnew
  cases heq
  have hmade := (run_madeUnder hinit hrun).2
  obtain ⟨⟨_, lease, index, hgrant, hstage, hkey⟩, hanswers⟩ := hmade label hlabel call phase hcall
  obtain ⟨⟨_, lease', index', hgrant', hstage', hkey'⟩, hanswers'⟩ :=
    hmade label' hlabel' call' phase' hcall'
  obtain ⟨hstage₁, hdigest₁⟩ := hanswers record (.inr hearlier)
  obtain ⟨hstage₂, hdigest₂⟩ := hanswers' record (.inl hcreated)
  have hsame : lease.stageId = lease'.stageId := by
    rw [← hstage, ← hstage']
    exact Option.some.inj (hstage₁.symm.trans hstage₂)
  have heq : artifactKey lease index = artifactKey lease' index' := by
    have hdigests := Option.some.inj (hdigest₁.symm.trans hdigest₂)
    rw [hkey, hkey'] at hdigests
    exact congrArg Digest.preimage hdigests
  obtain ⟨hlt, hget⟩ := List.getElem?_eq_some_iff.mp hgrant
  obtain ⟨hlt', hget'⟩ := List.getElem?_eq_some_iff.mp hgrant'
  have hpairs := List.pairwise_iff_getElem.mp hkeys
  by_contra hne
  rcases Nat.lt_or_gt_of_ne hne with hless | hless
  · have hdiffer := hpairs _ _ hlt hlt' hless
    rw [hget, hget'] at hdiffer
    exact hdiffer hsame index index' heq
  · have hdiffer := hpairs _ _ hlt' hlt hless
    rw [hget, hget'] at hdiffer
    exact hdiffer hsame.symm index' index heq.symm

/-- The uploads of different leases of a stage do not collide exactly when no manual retry of
the stage lies between two of its leases. -/
theorem uploads_separate_iff (hinit : (uploads self retention).Initial s)
    (hrun : (uploads self retention).Run s labels s') :
    (KeysDiffer s'.granted ∧ AnsweredByOwnLease labels) ↔
      ∀ stageId, Unretried stageId (labels.map UploadLabel.toControl) := by
  have hcontrol := uploads_run_control hrun
  have hleases : s'.granted.map (·.2) =
      (labels.map UploadLabel.toControl).flatMap Label.leases := by
    rw [run_granted hrun, hinit.2.1]
    rfl
  have hkeys : KeysDiffer s'.granted ↔
      ∀ stageId, Unretried stageId (labels.map UploadLabel.toControl) := by
    rw [keysDiffer_iff, hleases]
    exact forall_congr' fun stageId => attempts_nodup_iff hinit.1 hcontrol
  rw [← hkeys]
  exact ⟨And.left, fun h => ⟨h, answeredByOwnLease_of_keysDiffer hinit hrun h⟩⟩

/-! ## A manual retry between two leases -/

def uploadStart : UploadState := ⟨sampleDb, [], []⟩

theorem uploadStart_initial : (uploads sampleScheduler none).Initial uploadStart :=
  ⟨⟨rfl, rfl⟩, rfl, rfl⟩

def layoutContent (sizeBytes : Nat) : ArtifactContent where
  artifactType := .resultJson
  filename := "layout.json"
  mimeType := ⟨"application", "json"⟩
  sizeBytes := sizeBytes
  sha256 := "sha256-" ++ toString sizeBytes

/-- Lease the two parallel stages and upload an artifact of the first. -/
def uploadScript : List UploadAct :=
  leaseScript.map .call ++
    [.request 0 0 (layoutContent 10) "artifact_0a" "file:///0a",
      .advance 0 (.authorize 3), .advance 0 (.write true), .advance 0 (.lookup 3),
      .advance 0 (.insert 3)]

def uploadedRun : List UploadLabel × UploadState :=
  runActs sampleScheduler none uploadStart uploadScript

theorem uploadedRun_run : (uploads sampleScheduler none).Run uploadStart uploadedRun.1
    uploadedRun.2 :=
  runActs_run sampleScheduler none uploadStart uploadScript

theorem uploads_separate_leased :
    uploadedRun.2.granted.map (·.2.stageId) = ["stage-layout", "stage-tables"] ∧
      uploadedRun.2.db.artifacts.map (·.artifactId) = ["artifact_0a"] ∧
      KeysDiffer uploadedRun.2.granted ∧ AnsweredByOwnLease uploadedRun.1 := by
  have hquiet : ∀ label ∈ uploadedRun.1, label.toControl.retriedStages = [] := by
    decide +kernel
  refine ⟨by decide +kernel, by decide +kernel,
    (uploads_separate_iff uploadStart_initial uploadedRun_run).mpr ?_⟩
  intro stageId before retry after hsplit hretry
  have hmem : retry ∈ uploadedRun.1.map UploadLabel.toControl := by simp [hsplit]
  obtain ⟨label, hlabel, rfl⟩ := List.mem_map.mp hmem
  rw [hquiet label hlabel] at hretry
  cases hretry

/-- Cancel and retry the task, lease its stages again and upload another artifact. -/
def collidingRun : List UploadLabel × UploadState :=
  runActs sampleScheduler none uploadStart (uploadScript ++
    [.call (.cancel "task" 4), .call (.retry "task" 5),
      .call (.lease { workerId := "worker", availableSlots := 6 }
        ["stage-layout", "stage-tables", "stage-merge"]
        (fun n => if n = 0 then "token-layout-2" else "token-tables-2") 6),
      .request 2 0 (layoutContent 20) "artifact_0b" "file:///0b",
      .advance 1 (.authorize 7), .advance 1 (.write true), .advance 1 (.lookup 7)])

/-- The first attempt after a manual retry uses the key of the first attempt before it, so its
upload is refused because of the artifact of the earlier lease. -/
theorem upload_refused_after_retry : ∃ labels s', (uploads sampleScheduler none).Run uploadStart
    labels s' ∧ ¬ KeysDiffer s'.granted ∧ ¬ AnsweredByOwnLease labels := by
  have hattempts : ¬ ((leasesOf "stage-layout" (collidingRun.2.granted.map (·.2))).map
      (·.attempt)).Nodup := by
    decide +kernel
  have hclash : ∃ label ∈ collidingRun.1, ∃ label' ∈ collidingRun.1,
      label.earlier?.isSome ∧ label.earlier?.map (·.2) = label'.created?.map (·.2) ∧
        label.earlier?.map (·.1) ≠ label'.created?.map (·.1) := by
    decide +kernel
  refine ⟨collidingRun.1, collidingRun.2, runActs_run _ _ _ _, fun hkeys => ?_, fun howned => ?_⟩
  · exact hattempts (keysDiffer_iff.mp hkeys "stage-layout")
  · obtain ⟨label, hlabel, label', hlabel', hsome, hrecord, hgrant⟩ := hclash
    obtain ⟨⟨grant, record⟩, hold⟩ := Option.isSome_iff_exists.mp hsome
    rw [hold] at hrecord hgrant
    obtain ⟨⟨grant', record'⟩, hnew, rfl⟩ := Option.map_eq_some_iff.mp hrecord.symm
    rw [hnew] at hgrant
    exact hgrant (congrArg some (howned label hlabel label' hlabel' grant grant' _ hold hnew))

end ParserServe
