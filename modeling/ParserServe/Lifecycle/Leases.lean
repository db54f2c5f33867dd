import ParserServe.Lifecycle.Consistency

/-! # The ledger of leases

The tokens in the stage table against the leases granted so far: the token a stage holds is
that of its latest lease, and the token of its recorded completion is that of one of its own.
-/

namespace ParserServe

open Foundation

variable {self : StageScheduler} {manual : Prop} {now : Time} {granted : Option LeaseGrant}
  {grants : List LeaseGrant} {db db' : Db} {s s' : StageRecord} {task : TaskRecord}
  {digest : Digest String} {token : String} {label : Label}

/-! ## The tokens of one stage -/

/-- A stage that ends gives its lease up and keeps the completion recorded. -/
theorem Ending.columns (h : Ending now s s') :
    s'.leaseTokenDigest = none ∧ s'.completionWorkerId = s.completionWorkerId ∧
      s'.completionLeaseTokenDigest = s.completionLeaseTokenDigest ∧
        s'.completionRequestDigest = s.completionRequestDigest := by
  cases h <;> exact ⟨rfl, rfl, rfl, rfl⟩

/-- Short of a grant, a lease is kept or given up. -/
theorem StageMove.lease (h : StageMove manual now s s')
    (hlease : s'.leaseTokenDigest = some digest) :
    s.leaseTokenDigest = some digest ∧ s'.workerId = s.workerId := by
  cases h with
  | renewed | started | progressed => exact ⟨hlease, rfl⟩
  | ended hend =>
      cases hend with
      | completed _ _ _ _ _ hend | expired hend =>
          rw [hend.columns.1] at hlease
          cases hlease
  | stopped =>
      unfold StageRecord.stop at hlease ⊢
      split at hlease
      · cases hlease
      · next hended => exact ⟨hlease, by rw [if_neg hended]⟩
  | cancelled =>
      unfold StageRecord.cancel at hlease ⊢
      split at hlease
      · cases hlease
      · next hended => exact ⟨hlease, by rw [if_neg hended]⟩
  | reset =>
      unfold StageRecord.reset at hlease ⊢
      split at hlease
      · cases hlease
      · next hended => exact ⟨hlease, by rw [if_neg hended]⟩
  | forgot uri =>
      unfold StageRecord.forgetResult at hlease ⊢
      split at hlease <;> simp_all

/-- A completion is recorded under the lease held, and otherwise kept or dropped. -/
theorem StageMove.completion (h : StageMove manual now s s')
    (hcompletion : s'.completionLeaseTokenDigest = some digest) :
    (s.completionLeaseTokenDigest = some digest ∧
      s'.completionRequestDigest = s.completionRequestDigest) ∨
        s.leaseTokenDigest = some digest := by
  cases h with
  | renewed | started | progressed => exact .inl ⟨hcompletion, rfl⟩
  | ended hend =>
      cases hend with
      | completed request _ _ _ htoken hend =>
          rw [hend.columns.2.2.1] at hcompletion
          exact .inr (htoken.trans hcompletion)
      | expired hend => exact .inl ⟨hend.columns.2.2.1 ▸ hcompletion, hend.columns.2.2.2⟩
  | stopped =>
      unfold StageRecord.stop at hcompletion ⊢
      split at hcompletion
      · next hopen => exact .inl ⟨hcompletion, by rw [if_pos hopen]; rfl⟩
      · next hended => exact .inl ⟨hcompletion, by rw [if_neg hended]⟩
  | cancelled =>
      unfold StageRecord.cancel at hcompletion ⊢
      split at hcompletion
      · cases hcompletion
      · next hended => exact .inl ⟨hcompletion, by rw [if_neg hended]⟩
  | reset =>
      unfold StageRecord.reset at hcompletion ⊢
      split at hcompletion
      · cases hcompletion
      · next hended => exact .inl ⟨hcompletion, by rw [if_neg hended]⟩
  | forgot uri =>
      unfold StageRecord.forgetResult at hcompletion ⊢
      split at hcompletion <;> simp_all

/-- Nothing but a grant or a user's call takes a recorded completion away. -/
theorem StageMove.completionMatches {request : CompleteStageRequest}
    (h : StageMove False now s s') (hmatches : s.completionMatches request) :
    s'.completionMatches request := by
  cases h with
  | renewed | started | progressed => exact hmatches
  | ended hend =>
      cases hend with
      | completed _ _ hnone =>
          have := hmatches.2.2
          simp [hnone] at this
      | expired hend =>
          obtain ⟨_, hworker, htoken, hrequest⟩ := hend.columns
          exact ⟨hworker ▸ hmatches.1, htoken ▸ hmatches.2.1, hrequest ▸ hmatches.2.2⟩
  | stopped =>
      unfold StageRecord.stop
      split <;> exact hmatches
  | cancelled hmanual => exact hmanual.elim
  | reset hmanual => exact hmanual.elim
  | forgot uri =>
      unfold StageRecord.forgetResult
      split <;> exact hmatches

theorem StageMoves.lease (h : StageMoves manual now s s')
    (hlease : s'.leaseTokenDigest = some digest) :
    s.leaseTokenDigest = some digest ∧ s'.workerId = s.workerId := by
  induction h with
  | refl => exact ⟨hlease, rfl⟩
  | tail _ hmove ih =>
      obtain ⟨hkept, hworker⟩ := hmove.lease hlease
      obtain ⟨hfirst, hworker'⟩ := ih hkept
      exact ⟨hfirst, hworker.trans hworker'⟩

theorem StageMoves.completion (h : StageMoves manual now s s')
    (hcompletion : s'.completionLeaseTokenDigest = some digest) :
    (s.completionLeaseTokenDigest = some digest ∧
      s'.completionRequestDigest = s.completionRequestDigest) ∨
        s.leaseTokenDigest = some digest := by
  induction h with
  | refl => exact .inl ⟨hcompletion, rfl⟩
  | tail hmoves hmove ih =>
      rcases hmove.completion hcompletion with ⟨hkept, hrequest⟩ | hlease
      · exact (ih hkept).imp (fun h => ⟨h.1, hrequest.trans h.2⟩) id
      · exact .inr (StageMoves.lease hmoves hlease).1

theorem StageMoves.completionMatches {request : CompleteStageRequest}
    (h : StageMoves False now s s') (hmatches : s.completionMatches request) :
    s'.completionMatches request := by
  induction h with
  | refl => exact hmatches
  | tail _ hmove ih => exact hmove.completionMatches ih

/-! ## The rows a change leaves -/

/-- Each row after a change is new and without a token, or comes from a row before. -/
theorem DbChange.stage_cases (h : DbChange manual now db granted db') (hkeys : db.KeysNodup) :
    ∀ s' ∈ db'.stages,
      (s'.leaseTokenDigest = none ∧ s'.completionLeaseTokenDigest = none ∧
        s'.stageId ∉ db.stages.map (·.stageId) ∧ s'.attempt = 0) ∨
        ∃ task ∈ db.tasks, ∃ s ∈ task.stages, StageChange manual now task granted s s' := by
  intro s' hrow
  obtain ⟨task', htask', hs'⟩ := Db.mem_stages.mp hrow
  have hkept : granted = none → task' ∈ db.tasks →
      ∃ task ∈ db.tasks, ∃ s ∈ task.stages, StageChange manual now task granted s s' := by
    rintro rfl hmem
    exact ⟨task', hmem, s', hs', .moved .refl (by simp)⟩
  cases h with
  | untouched htasks _ => exact .inr (hkept rfl (htasks ▸ htask'))
  | created =>
      rw [Db.publish_tasks] at htask'
      rcases List.mem_append.mp htask' with htask' | htask'
      · exact .inr (hkept rfl htask')
      · rw [List.mem_singleton.mp htask'] at hs'
        cases hs'
  | routed hmem hnone hrouted =>
      rw [Db.publishAll_tasks] at htask'
      rcases mem_saveTask htask' with rfl | ⟨htask', _⟩
      · obtain ⟨pipeline, stages, hplanned, _, hfresh, rfl, _⟩ := hrouted.plan
        obtain ⟨_, _, hp⟩ := planned_definition hplanned s' hs'
        have hlease := hp.sound.lease.not
        rw [hp.status] at hlease
        exact .inl ⟨by simpa [StageStatus.active] using hlease, hp.completion, hfresh s' hs',
          hp.attempt⟩
      · exact .inr (hkept rfl htask')
  | @moved task moved granted payloads hmem hmove =>
      rw [Db.publishAll_tasks] at htask'
      rcases mem_saveTask htask' with rfl | ⟨hold, hne⟩
      · obtain ⟨f, hf, hchange⟩ := hmove.stages (hkeys.task hmem)
        rw [hf] at hs'
        obtain ⟨s, hs, rfl⟩ := List.mem_map.mp hs'
        exact .inr ⟨task, hmem, s, hs, hchange s hs⟩
      · refine .inr ⟨task', hold, s', hs', .moved .refl ?_⟩
        -- the granted stage belongs to the task that moved
        intro g hg hid
        cases hmove with
        | leased grant hstage =>
            cases hg
            have heq := (hkeys.eq_of_stageId hmem hstage hold hs' hid).1
            rw [← heq] at hne
            exact hne rfl
        | renewed | started | progressed | ended | cancelled | retried => cases hg

/-! ## Invariants that remember the leases -/

/-- What each change keeps of a database and the leases granted so far, and what another
order of the same rows keeps. -/
structure LeaseInvariant (I : List LeaseGrant → Db → Prop) : Prop where
  change : ∀ {manual now grants db granted db'}, db.KeysNodup → I grants db →
    DbChange manual now db granted db' → I (grants ++ granted.toList) db'
  rows : ∀ {grants db db'}, (∀ stage ∈ db'.stages, stage ∈ db.stages) → I grants db → I grants db'

theorem LeaseInvariant.changes {I : List LeaseGrant → Db → Prop} (hinv : LeaseInvariant I)
    {new : List LeaseGrant} (h : Changes manual now db new db') (hkeys : db.KeysNodup)
    (hdb : I grants db) : I (grants ++ new) db' := by
  obtain ⟨labels, hrun, rfl⟩ := h
  have hboth : db'.KeysNodup ∧ I (grants ++ labels.reduceOption) db' := by
    induction hrun with
    | nil => exact ⟨hkeys, by simpa using hdb⟩
    | @snoc _ _ labels granted _ hstep ih =>
        refine ⟨DbChange.keysNodup hstep ih.1, ?_⟩
        have hnext := hinv.change ih.1 ih.2 hstep
        rw [List.append_assoc] at hnext
        rw [List.reduceOption_append]
        cases granted <;> exact hnext
  exact hboth.2

theorem LeaseInvariant.step {I : List LeaseGrant → Db → Prop} (hinv : LeaseInvariant I)
    (h : ControlStep self db label db') (hkeys : db.KeysNodup) (hdb : I grants db) :
    I (grants ++ label.grants) db' := by
  cases h with
  | returned hanswerable hexec =>
      exact hinv.changes (exec_changes hkeys hanswerable hexec) hkeys hdb
  | raised => simpa [Label.grants] using hdb
  | administered hadmin =>
      simp only [Label.grants, List.append_nil]
      exact hinv.rows (by simp [Db.stages, hadmin.tasks]) hdb
  | reordered hmem hperm =>
      simp only [Label.grants, List.append_nil]
      exact hinv.rows (fun _ => (reordered_stages hkeys hmem hperm).mem_iff.mp) hdb

theorem LeaseInvariant.run {I : List LeaseGrant → Db → Prop} (hinv : LeaseInvariant I)
    {labels : List Label} (h : (controlPlane self).Run db labels db') (hkeys : db.KeysNodup)
    (hdb : I grants db) : I (grants ++ labels.flatMap Label.grants) db' := by
  induction h with
  | nil => simpa using hdb
  | snoc hrun hstep ih =>
      have hnext := hinv.step hstep (run_keysNodup hrun hkeys) ih
      simpa using hnext

/-! ## The ledger -/

/-- The last lease granted for a stage. -/
def latestGrant (grants : List LeaseGrant) (stageId : String) : Option LeaseGrant :=
  grants.reverse.find? (·.stageId = stageId)

theorem latestGrant_append_of_ne {stageId : String} (h : ∀ g ∈ granted, g.stageId ≠ stageId) :
    latestGrant (grants ++ granted.toList) stageId = latestGrant grants stageId := by
  cases granted with
  | none => simp
  | some grant => simp [latestGrant, h grant rfl]

theorem latestGrant_mem {grant : LeaseGrant} {stageId : String}
    (h : latestGrant grants stageId = some grant) : grant ∈ grants :=
  List.mem_reverse.mp (List.mem_of_find?_eq_some h)

/-- A later lease of the stage is the latest. -/
theorem latestGrant_append_mem {grant later : LeaseGrant} {new : List LeaseGrant}
    (hlater : later ∈ new) (h : latestGrant (grants ++ new) later.stageId = some grant) :
    grant ∈ new := by
  unfold latestGrant at h
  rw [List.reverse_append, List.find?_append] at h
  cases hfind : new.reverse.find? (·.stageId = later.stageId) with
  | none =>
      have := List.find?_eq_none.mp hfind later (List.mem_reverse.mpr hlater)
      simp at this
  | some found =>
      rw [hfind, Option.some_or] at h
      cases h
      exact List.mem_reverse.mp (List.mem_of_find?_eq_some hfind)

structure Ledger (grants : List LeaseGrant) (db : Db) : Prop where
  held : ∀ stage ∈ db.stages, ∀ token, stage.leaseTokenDigest = some (leaseDigest token) →
    ∃ workerId, stage.workerId = some workerId ∧
      latestGrant grants stage.stageId = some ⟨stage.stageId, workerId, token⟩
  recorded : ∀ stage ∈ db.stages, ∀ token,
    stage.completionLeaseTokenDigest = some (leaseDigest token) →
      ∃ grant ∈ grants, grant.stageId = stage.stageId ∧ grant.token = token

theorem StageChange.ledger (h : StageChange manual now task granted s s') (hl : Ledger grants db)
    (hs : s ∈ db.stages) :
    (∀ token, s'.leaseTokenDigest = some (leaseDigest token) →
      ∃ workerId, s'.workerId = some workerId ∧
        latestGrant (grants ++ granted.toList) s'.stageId =
          some ⟨s'.stageId, workerId, token⟩) ∧
      ∀ token, s'.completionLeaseTokenDigest = some (leaseDigest token) →
        ∃ grant ∈ grants ++ granted.toList, grant.stageId = s'.stageId ∧ grant.token = token := by
  have hid := h.samePlan.stageId
  cases h with
  | moved hmoves hother =>
      rw [hid]
      constructor
      · intro token hlease
        obtain ⟨hkept, hworker⟩ := hmoves.lease hlease
        rw [hworker, latestGrant_append_of_ne hother]
        exact hl.held s hs token hkept
      · intro token hcompletion
        rcases hmoves.completion hcompletion with ⟨hkept, _⟩ | hlease
        · obtain ⟨grant, hgrant, hrest⟩ := hl.recorded s hs token hkept
          exact ⟨grant, List.mem_append_left _ hgrant, hrest⟩
        · obtain ⟨workerId, _, hlatest⟩ := hl.held s hs token hlease
          exact ⟨_, List.mem_append_left _ (latestGrant_mem hlatest), rfl, rfl⟩
  | granted grant hpending hdeps hgranted =>
      constructor
      · intro token hlease
        cases hlease
        exact ⟨grant.workerId, rfl, by simp [hgranted, latestGrant, StageRecord.grant]⟩
      · intro token hcompletion
        cases hcompletion

theorem ledger_invariant : LeaseInvariant Ledger where
  change := by
    intro manual now grants db granted db' hkeys hl hchange
    have hrow : ∀ s' ∈ db'.stages,
        (∀ token, s'.leaseTokenDigest = some (leaseDigest token) →
          ∃ workerId, s'.workerId = some workerId ∧
            latestGrant (grants ++ granted.toList) s'.stageId =
              some ⟨s'.stageId, workerId, token⟩) ∧
          ∀ token, s'.completionLeaseTokenDigest = some (leaseDigest token) →
            ∃ grant ∈ grants ++ granted.toList,
              grant.stageId = s'.stageId ∧ grant.token = token := by
      intro s' hs'
      rcases hchange.stage_cases hkeys s' hs' with ⟨hlease, hcompletion, _⟩ | hold
      · simp [hlease, hcompletion]
      · obtain ⟨task, htask, s, hs, hstage⟩ := hold
        exact hstage.ledger hl (Db.mem_stages.mpr ⟨task, htask, hs⟩)
    exact ⟨fun s' hs' => (hrow s' hs').1, fun s' hs' => (hrow s' hs').2⟩
  rows hsub hl :=
    ⟨fun stage hmem => hl.held stage (hsub stage hmem),
      fun stage hmem => hl.recorded stage (hsub stage hmem)⟩

theorem run_ledger {labels : List Label} (hinit : (controlPlane self).Initial db)
    (h : (controlPlane self).Run db labels db') : Ledger (labels.flatMap Label.grants) db' := by
  have htasks : db.tasks = [] := hinit.1
  have hstart : Ledger [] db := by constructor <;> simp [Db.stages, htasks]
  exact ledger_invariant.run h (initial_keysNodup hinit) hstart

/-! ## Tokens of ended leases -/

/-- No stage is held under the token. -/
def Db.Fenced (db : Db) (token : String) : Prop :=
  ∀ stage ∈ db.stages, stage.leaseTokenDigest ≠ some (leaseDigest token)

/-- No stage is held under the token, and one that was completed under it, by a request with
`Q`, is none of those leased since. -/
def Db.Sealed (db : Db) (token : String) (Q : Option (Digest CompleteStageRequest) → Prop)
    (since : List LeaseGrant) : Prop :=
  ∀ stage ∈ db.stages, stage.leaseTokenDigest ≠ some (leaseDigest token) ∧
    (stage.completionLeaseTokenDigest = some (leaseDigest token) →
      Q stage.completionRequestDigest ∧ ∀ grant ∈ since, grant.stageId ≠ stage.stageId)

theorem StageChange.lease (h : StageChange manual now task granted s s')
    (hother : ∀ g ∈ granted, g.token ≠ token)
    (hlease : s'.leaseTokenDigest = some (leaseDigest token)) :
    s.leaseTokenDigest = some (leaseDigest token) := by
  cases h with
  | moved hmoves => exact (hmoves.lease hlease).1
  | granted grant _ _ hgranted =>
      cases hlease
      exact absurd rfl (hother _ hgranted)

theorem StageChange.completion (h : StageChange manual now task granted s s')
    (hcompletion : s'.completionLeaseTokenDigest = some digest) :
    (s.completionLeaseTokenDigest = some digest ∧
      s'.completionRequestDigest = s.completionRequestDigest ∧
        ∀ g ∈ granted, g.stageId ≠ s.stageId) ∨ s.leaseTokenDigest = some digest := by
  cases h with
  | moved hmoves hother =>
      exact (hmoves.completion hcompletion).imp (fun h => ⟨h.1, h.2, hother⟩) id
  | granted => cases hcompletion

/-- A token that is not granted again stays as it is. -/
theorem sealed_invariant (token : String) (Q : Option (Digest CompleteStageRequest) → Prop) :
    LeaseInvariant fun grants db =>
      (∀ grant ∈ grants, grant.token ≠ token) → db.Sealed token Q grants where
  change := by
    intro manual now grants db granted db' hkeys hI hchange hother s' hs'
    have hsealed := hI fun grant hgrant => hother grant (List.mem_append_left _ hgrant)
    have hgranted : ∀ g ∈ granted, g.token ≠ token := fun g hg =>
      hother g (List.mem_append_right _ (by simpa using hg))
    rcases hchange.stage_cases hkeys s' hs' with ⟨hlease, hcompletion, _⟩ | hold
    · simp [hlease, hcompletion]
    · obtain ⟨task, htask, s, hs, hstage⟩ := hold
      obtain ⟨hlease, hrecorded⟩ := hsealed s (Db.mem_stages.mpr ⟨task, htask, hs⟩)
      refine ⟨fun h => hlease (hstage.lease hgranted h), fun h => ?_⟩
      obtain ⟨hkept, hrequest, hnot⟩ := (hstage.completion h).resolve_right hlease
      obtain ⟨hQ, hsince⟩ := hrecorded hkept
      refine ⟨hrequest ▸ hQ, fun grant hgrant => ?_⟩
      rw [hstage.samePlan.stageId]
      rcases List.mem_append.mp hgrant with hgrant | hgrant
      · exact hsince grant hgrant
      · exact hnot grant (by simpa using hgrant)
  rows hsub hI hother stage hmem := hI hother stage (hsub stage hmem)

theorem run_sealed {Q : Option (Digest CompleteStageRequest) → Prop} {labels : List Label}
    (h : (controlPlane self).Run db labels db') (hkeys : db.KeysNodup)
    (hother : ∀ grant ∈ labels.flatMap Label.grants, grant.token ≠ token)
    (hsealed : db.Sealed token Q []) :
    db'.Sealed token Q (labels.flatMap Label.grants) :=
  (sealed_invariant token Q).run h hkeys
    (fun _ => hsealed :
      (∀ grant ∈ ([] : List LeaseGrant), grant.token ≠ token) → db.Sealed token Q []) hother

theorem run_fenced {labels : List Label} (h : (controlPlane self).Run db labels db')
    (hkeys : db.KeysNodup) (hother : ∀ grant ∈ labels.flatMap Label.grants, grant.token ≠ token)
    (hfenced : db.Fenced token) : db'.Fenced token := by
  have hsealed : db.Sealed token (fun _ => True) [] := fun stage hmem =>
    ⟨hfenced stage hmem, fun _ => ⟨trivial, by simp⟩⟩
  exact fun stage hmem => (run_sealed h hkeys hother hsealed stage hmem).1

end ParserServe
