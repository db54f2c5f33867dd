import Mathlib.Logic.Relation
import Mathlib.Tactic.NormNum
import ParserServe.Control.Operations
import ParserServe.Control.Retention

/-! # The life of one stage row

`StageMove` lists everything a transaction does to a stage row, a granted lease apart, and
`StageRecord.Sound` is what the columns of a stage agree on at any time.  Both are about a
single row; what the rows of a task have to do with each other is in `Lifecycle.Task`.
-/

namespace ParserServe

open Foundation Relation

/-! ## Outcomes of an execution -/

/-- How a held stage ends: it delivers, or it is queued again, skipped or failed according
to the attempts it has left. -/
inductive Ending (now : Time) (s : StageRecord) : StageRecord → Prop
  | finished (resultUri : Option String) :
      s.status = .running → Ending now s (s.finish resultUri now)
  | requeued : s.status.active → s.attempt < s.maximumAttempts → Ending now s (s.requeue now)
  | skipped : s.status.active → ¬ s.attempt < s.maximumAttempts → s.optional →
      Ending now s (s.skip now)
  | failed (error : Option ErrorDetail) : s.status.active →
      ¬ s.attempt < s.maximumAttempts → ¬ s.optional → Ending now s (s.fail error now)

theorem Ending.active {now : Time} {s s' : StageRecord} (h : Ending now s s') :
    s.status.active := by
  cases h with
  | finished _ hrunning => simp [hrunning, StageStatus.active]
  | requeued hactive _ | skipped hactive _ _ | failed _ hactive _ _ => exact hactive

theorem requireTaskTransition_eq_ok {a b : TaskStatus} {u : Unit} :
    requireTaskTransition a b = .ok u ↔ canTransitionTask a b := by
  simp [requireTaskTransition]

theorem requireRetryTransition_of_active {a : StageStatus} (h : a.active) :
    requireRetryTransition a = .ok () := by
  cases a <;> first | rfl | simp [StageStatus.active] at h

/-- The transition guards inside `_fail_or_retry_stage` never fire. -/
theorem failOrRetry_eq_ok {s s' : StageRecord} {error : Option ErrorDetail} {now : Time} :
    s.failOrRetry error now = .ok s' ↔ s.status.active ∧
      ((s.attempt < s.maximumAttempts ∧ s.requeue now = s') ∨
        (¬ s.attempt < s.maximumAttempts ∧ s.optional ∧ s.skip now = s') ∨
        (¬ s.attempt < s.maximumAttempts ∧ ¬ s.optional ∧ s.fail error now = s')) := by
  by_cases hactive : s.status.active
  · have hfail : requireStageTransition s.status .failed = .ok () := by
      cases hs : s.status <;> first | rfl | simp [hs, StageStatus.active] at hactive
    have hskip : requireStageTransition .failed .skipped = .ok () := rfl
    have hretry := requireRetryTransition_of_active hactive
    unfold StageRecord.failOrRetry
    by_cases hattempt : s.attempt < s.maximumAttempts
    · simp [hactive, hattempt, hretry]
    · by_cases hoptional : s.optional
      · simp [hactive, hattempt, hoptional, hfail, hskip]
      · simp [hactive, hattempt, hoptional, hfail]
  · simp [StageRecord.failOrRetry, hactive]

theorem Ending.of_failOrRetry {s s' : StageRecord} {error : Option ErrorDetail} {now : Time}
    (h : s.failOrRetry error now = .ok s') : Ending now s s' := by
  obtain ⟨hactive, h⟩ := failOrRetry_eq_ok.mp h
  obtain ⟨hlt, rfl⟩ | ⟨hge, hopt, rfl⟩ | ⟨hge, hopt, rfl⟩ := h
  · exact .requeued hactive hlt
  · exact .skipped hactive hge hopt
  · exact .failed error hactive hge hopt

theorem Ending.of_complete {s s' : StageRecord} {request : CompleteStageRequest} {now : Time}
    (hrunning : s.status = .running) (h : s.complete request now = .ok s') :
    Ending now (s.recordCompletion request) s' := by
  unfold StageRecord.complete at h
  split at h
  · simp only [StageRecord.succeed, bind_eq_ok] at h
    obtain ⟨_, _, h⟩ := h
    cases h
    exact .finished _ hrunning
  · exact .of_failOrRetry h

/-- A held stage ends by the completion its worker reports under a valid lease, or by the
expiry of the lease. -/
inductive Ended (now : Time) (s s' : StageRecord) : Prop
  | completed (request : CompleteStageRequest) : s.status = .running →
      s.completionRequestDigest = none → s.workerId = some request.workerId →
        s.leaseTokenDigest = some (leaseDigest request.leaseToken) →
          Ending now (s.recordCompletion request) s' → Ended now s s'
  | expired : Ending now s s' → Ended now s s'

theorem Ended.active {now : Time} {s s' : StageRecord} (h : Ended now s s') :
    s.status.active := by
  cases h with
  | completed _ hrunning => simp [hrunning, StageStatus.active]
  | expired hend => exact hend.active

theorem Ending.status {now : Time} {s s' : StageRecord} (h : Ending now s s') :
    s'.status = .pending ∨ s'.status.finished ∨ s'.status = .failed := by
  cases h with
  | finished => exact .inr (.inl rfl)
  | requeued => exact .inl rfl
  | skipped => exact .inr (.inl rfl)
  | failed => exact .inr (.inr rfl)

theorem Ended.status {now : Time} {s s' : StageRecord} (h : Ended now s s') :
    s'.status = .pending ∨ s'.status.finished ∨ s'.status = .failed := by
  cases h with
  | completed _ _ _ _ _ hend | expired hend => exact hend.status

/-! ## Moves -/

/-- One write to a stage row; only a user's call, where `manual` holds, cancels or resets it. -/
inductive StageMove (manual : Prop) (now : Time) (s : StageRecord) : StageRecord → Prop
  | renewed (expiresAt : Time) : s.status.active →
      StageMove manual now s { s with leaseExpiresAt := some expiresAt, updatedAt := now }
  | started : s.status = .leased →
      StageMove manual now s
        { s with status := .running, startedAt := some (s.startedAt.getD now), updatedAt := now }
  | progressed (percent : ℚ) : s.status = .running → 0 ≤ percent → percent ≤ 100 →
      StageMove manual now s { s with progressPercent := percent, updatedAt := now }
  | ended {s' : StageRecord} : Ended now s s' → StageMove manual now s s'
  | stopped : StageMove manual now s (s.stop now)
  | cancelled : manual → StageMove manual now s (s.cancel now)
  | reset : manual → StageMove manual now s (s.reset now)
  | forgot (uri : String) : StageMove manual now s (s.forgetResult uri now)

/-- Any number of writes at one time. -/
abbrev StageMoves (manual : Prop) (now : Time) : StageRecord → StageRecord → Prop :=
  ReflTransGen (StageMove manual now)

variable {manual : Prop} {now : Time} {s s' : StageRecord}

/-- The columns that routing writes and nothing changes. -/
structure SamePlan (s s' : StageRecord) : Prop where
  stageId : s'.stageId = s.stageId
  name : s'.name = s.name
  position : s'.position = s.position
  dependsOn : s'.dependsOn = s.dependsOn
  optional : s'.optional = s.optional
  timeoutSeconds : s'.timeoutSeconds = s.timeoutSeconds
  backendCandidates : s'.backendCandidates = s.backendCandidates
  requiredRuntimes : s'.requiredRuntimes = s.requiredRuntimes
  maximumAttempts : s'.maximumAttempts = s.maximumAttempts
  createdAt : s'.createdAt = s.createdAt

theorem SamePlan.refl (s : StageRecord) : SamePlan s s :=
  ⟨rfl, rfl, rfl, rfl, rfl, rfl, rfl, rfl, rfl, rfl⟩

theorem SamePlan.trans {s t u : StageRecord} (h : SamePlan s t) (h' : SamePlan t u) :
    SamePlan s u := by
  obtain ⟨h₀, h₁, h₂, h₃, h₄, h₅, h₆, h₇, h₈, h₉⟩ := h
  obtain ⟨g₀, g₁, g₂, g₃, g₄, g₅, g₆, g₇, g₈, g₉⟩ := h'
  exact ⟨g₀.trans h₀, g₁.trans h₁, g₂.trans h₂, g₃.trans h₃, g₄.trans h₄, g₅.trans h₅,
    g₆.trans h₆, g₇.trans h₇, g₈.trans h₈, g₉.trans h₉⟩

theorem SamePlan.grant (s : StageRecord) (grant : Grant) (now : Time) :
    SamePlan s (s.grant grant now) :=
  ⟨rfl, rfl, rfl, rfl, rfl, rfl, rfl, rfl, rfl, rfl⟩

theorem Ending.samePlan (h : Ending now s s') :
    SamePlan s s' := by
  cases h <;> exact ⟨rfl, rfl, rfl, rfl, rfl, rfl, rfl, rfl, rfl, rfl⟩

theorem Ended.samePlan (h : Ended now s s') :
    SamePlan s s' := by
  cases h with
  | completed request _ _ _ _ hend =>
      have hrec : SamePlan s (s.recordCompletion request) :=
        ⟨rfl, rfl, rfl, rfl, rfl, rfl, rfl, rfl, rfl, rfl⟩
      exact hrec.trans hend.samePlan
  | expired hend => exact hend.samePlan

theorem StageMove.samePlan (h : StageMove manual now s s') :
    SamePlan s s' := by
  cases h with
  | renewed | started | progressed => exact ⟨rfl, rfl, rfl, rfl, rfl, rfl, rfl, rfl, rfl, rfl⟩
  | ended hend => exact hend.samePlan
  | stopped =>
      unfold StageRecord.stop
      split <;> exact ⟨rfl, rfl, rfl, rfl, rfl, rfl, rfl, rfl, rfl, rfl⟩
  | cancelled =>
      unfold StageRecord.cancel
      split <;> exact ⟨rfl, rfl, rfl, rfl, rfl, rfl, rfl, rfl, rfl, rfl⟩
  | reset =>
      unfold StageRecord.reset
      split <;> exact ⟨rfl, rfl, rfl, rfl, rfl, rfl, rfl, rfl, rfl, rfl⟩
  | forgot =>
      unfold StageRecord.forgetResult
      split <;> exact ⟨rfl, rfl, rfl, rfl, rfl, rfl, rfl, rfl, rfl, rfl⟩

theorem StageMoves.samePlan (h : StageMoves manual now s s') :
    SamePlan s s' := by
  induction h with
  | refl => exact SamePlan.refl s
  | tail _ hmove ih => exact ih.trans hmove.samePlan

/-! ## Columns that agree -/

/-- What the columns of a stage row say about each other. -/
structure StageRecord.Sound (s : StageRecord) : Prop where
  timeout : 1 ≤ s.timeoutSeconds ∧ s.timeoutSeconds ≤ 86400
  dependsOn_nodup : s.dependsOn.Nodup
  candidates_nodup : s.backendCandidates.Nodup
  runtimes_nodup : s.requiredRuntimes.Nodup
  progress : 0 ≤ s.progressPercent ∧ s.progressPercent ≤ 100
  attempts : 1 ≤ s.maximumAttempts ∧ s.attempt ≤ s.maximumAttempts
  pending : s.status = .pending → s.attempt < s.maximumAttempts
  lease : s.leaseTokenDigest.isSome ↔ s.status.active
  expiry : s.leaseExpiresAt.isSome ↔ s.status.active
  started : s.status = .running → s.startedAt.isSome
  completed : s.completedAt.isSome ↔ s.status.terminal
  error : s.error.isSome ↔ s.status = .failed
  result : s.resultUri.isSome → s.status = .succeeded
  completion : s.status.active → s.completionRequestDigest = none
  completionDevice : s.completionDeviceId.isSome → s.completionWorkerId.isSome

theorem StageRecord.Sound.grant {s : StageRecord} (h : s.Sound) (hpending : s.status = .pending)
    (grant : Grant) (now : Time) : (s.grant grant now).Sound := by
  have hattempts : 1 ≤ s.maximumAttempts ∧ s.attempt + 1 ≤ s.maximumAttempts :=
    ⟨h.attempts.1, h.pending hpending⟩
  obtain ⟨_, _, _, _, _, _, _, _, _, _, hcompleted, herror, hresult, _, _⟩ := h
  constructor
  case attempts => exact hattempts
  all_goals simp_all [StageRecord.grant, StageStatus.active, StageStatus.terminal]

/-- A stage that has not ended carries no trace of an end. -/
theorem StageRecord.Sound.open {s : StageRecord} (h : s.Sound) (hopen : s.status.unfinished) :
    s.completedAt = none ∧ s.error = none ∧ s.resultUri = none := by
  have hcompleted := h.completed
  have herror := h.error
  have hresult := h.result
  cases hs : s.status <;>
    simp_all [StageStatus.unfinished, StageStatus.terminal]

theorem StageStatus.unfinished_of_active {a : StageStatus} (h : a.active) : a.unfinished := by
  cases a <;> first | rfl | simp [StageStatus.active] at h

/-- How a stage ended, with what matters of its row before: the recorded completion is no
part of `Sound` once the stage is not held any more. -/
theorem Ending.sound (h : Ending now s s')
    (hs : { s with completionRequestDigest := none }.Sound) : s'.Sound := by
  have hactive := h.active
  obtain ⟨hcompleted, herror, hresult⟩ := hs.open (StageStatus.unfinished_of_active hactive)
  obtain ⟨_, _, _, _, _, _, _, _, _, _, _, _, _, _, _⟩ := hs
  cases h <;>
    constructor <;>
      simp_all [StageRecord.finish, StageRecord.requeue, StageRecord.skip, StageRecord.fail,
        StageRecord.clearLease, StageStatus.active, StageStatus.terminal]

theorem Ended.sound (h : Ended now s s') (hs : s.Sound) :
    s'.Sound := by
  cases h with
  | completed request hrunning hnone hworker htoken hend =>
      refine hend.sound ?_
      obtain ⟨_, _, _, _, _, _, _, _, _, _, _, _, _, _, _⟩ := hs
      constructor <;> simp_all [StageRecord.recordCompletion]
  | expired hend =>
      refine hend.sound ?_
      obtain ⟨_, _, _, _, _, _, _, _, _, _, _, _, _, _, _⟩ := hs
      constructor <;> simp_all

theorem StageMove.sound (h : StageMove manual now s s')
    (hs : s.Sound) : s'.Sound := by
  have hopen := hs.open
  cases h with
  | renewed expiresAt hactive =>
      obtain ⟨_, _, _, _, _, _, _, _, _, _, _, _, _, _, _⟩ := hs
      constructor <;> simp_all
  | started hleased =>
      obtain ⟨_, _, _, _, _, _, _, _, _, _, _, _, _, _, _⟩ := hs
      constructor <;> simp_all [StageStatus.active, StageStatus.terminal]
  | progressed percent hrunning hlow hhigh =>
      obtain ⟨_, _, _, _, _, _, _, _, _, _, _, _, _, _, _⟩ := hs
      constructor <;> simp_all
  | ended hend => exact hend.sound hs
  | stopped =>
      unfold StageRecord.stop
      split
      · next hunfinished =>
          obtain ⟨_, _, _⟩ := hopen hunfinished
          obtain ⟨_, _, _, _, _, _, _, _, _, _, _, _, _, _, _⟩ := hs
          constructor <;>
            simp_all [StageRecord.clearLease, StageStatus.active, StageStatus.terminal]
      · exact hs
  | cancelled =>
      unfold StageRecord.cancel
      split
      · next hunfinished =>
          obtain ⟨_, _, _⟩ := hopen hunfinished
          obtain ⟨_, _, _, _, _, _, _, _, _, _, _, _, _, _, _⟩ := hs
          constructor <;> simp_all [StageStatus.active, StageStatus.terminal]
      · exact hs
  | reset =>
      unfold StageRecord.reset
      split
      · next hended =>
          have hresult : s.resultUri = none := by
            have := hs.result
            rcases hended with hended | hended <;> simp_all
          obtain ⟨_, _, _, _, _, _, _, _, _, _, _, _, _, _, _⟩ := hs
          constructor <;> simp_all [StageStatus.active, StageStatus.terminal]
          omega
      · exact hs
  | forgot uri =>
      unfold StageRecord.forgetResult
      split
      · obtain ⟨_, _, _, _, _, _, _, _, _, _, _, _, _, _, _⟩ := hs
        constructor <;> simp_all
      · exact hs

theorem StageMoves.sound (h : StageMoves manual now s s')
    (hs : s.Sound) : s'.Sound := by
  induction h with
  | refl => exact hs
  | tail _ hmove ih => exact hmove.sound ih

/-! ## Status -/

/-- A composition of steps that `STAGE_TRANSITIONS` allows. -/
abbrev StagePath : StageStatus → StageStatus → Prop :=
  ReflTransGen fun a b => canTransitionStage a b

theorem Ending.path (h : Ending now s s') :
    StagePath s.status s'.status := by
  have hfailed : StagePath s.status .failed := by
    have hactive := h.active
    cases hs : s.status <;> simp [hs, StageStatus.active] at hactive <;>
      exact .single rfl
  cases h with
  | finished _ hrunning =>
      rw [hrunning]
      exact .single rfl
  | requeued => exact hfailed.tail rfl
  | skipped => exact hfailed.tail rfl
  | failed => exact hfailed

theorem Ended.path (h : Ended now s s') :
    StagePath s.status s'.status := by
  cases h with
  | completed _ _ _ _ _ hend | expired hend => exact hend.path

theorem StageMove.path (h : StageMove manual now s s') :
    StagePath s.status s'.status := by
  cases h with
  | renewed | progressed => exact .refl
  | started hleased =>
      rw [hleased]
      exact .single rfl
  | ended hend => exact hend.path
  | stopped =>
      unfold StageRecord.stop
      split
      · next hopen =>
          cases hs : s.status <;> simp [hs, StageStatus.unfinished] at hopen <;>
            exact .single rfl
      · exact .refl
  | cancelled =>
      unfold StageRecord.cancel
      split
      · next hopen =>
          cases hs : s.status <;> simp [hs, StageStatus.unfinished] at hopen <;>
            exact .single rfl
      · exact .refl
  | reset =>
      unfold StageRecord.reset
      split
      · next hended =>
          rcases hended with hended | hended <;> rw [hended] <;> exact .single rfl
      · exact .refl
  | forgot =>
      unfold StageRecord.forgetResult
      split <;> exact .refl

theorem StageMoves.path (h : StageMoves manual now s s') :
    StagePath s.status s'.status := by
  induction h with
  | refl => exact .refl
  | tail _ hmove ih => exact ih.trans hmove.path

/-- `SUCCEEDED` and `SKIPPED` have no way out. -/
theorem StagePath.eq_of_finished {a b : StageStatus} (h : StagePath a b) (ha : a.finished) :
    b = a := by
  induction h with
  | refl => rfl
  | tail _ hstep ih =>
      rw [ih] at hstep
      cases a <;> simp [StageStatus.finished] at ha <;>
        simp [canTransitionStage, stageTransitions] at hstep

/-- The statuses of a stage whose execution has begun: not `PENDING` or `CANCELLED`. -/
def StageStatus.begun : StageStatus → Bool
  | .pending | .cancelled => false
  | _ => true

/-- Short of a grant, nothing begins a stage. -/
theorem StageMove.begun (h : StageMove manual now s s')
    (hs' : s'.status.begun) : s.status.begun := by
  cases h with
  | renewed | progressed | forgot => simpa [StageRecord.forgetResult, apply_ite] using hs'
  | started hleased => simp [hleased, StageStatus.begun]
  | ended hend =>
      have hactive := hend.active
      cases hs : s.status <;> simp_all [StageStatus.active, StageStatus.begun]
  | stopped =>
      unfold StageRecord.stop at hs'
      split at hs'
      · simp [StageRecord.clearLease, StageStatus.begun] at hs'
      · exact hs'
  | cancelled =>
      unfold StageRecord.cancel at hs'
      split at hs'
      · simp [StageStatus.begun] at hs'
      · exact hs'
  | reset =>
      unfold StageRecord.reset at hs'
      split at hs'
      · simp [StageStatus.begun] at hs'
      · exact hs'

theorem StageMoves.begun (h : StageMoves manual now s s')
    (hs' : s'.status.begun) : s.status.begun := by
  induction h with
  | refl => exact hs'
  | tail _ hmove ih => exact ih (hmove.begun hs')

end ParserServe
