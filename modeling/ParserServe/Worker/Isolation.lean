import Mathlib.Algebra.BigOperators.Group.List.Basic
import ParserServe.Worker.Agent

/-! # Isolation of the leases of a batch

An exception leaves `execute` in three places only: the call that starts the stage, the
report of a failure, and a failure whose message is blank.  A poll in which none of them
raises returns, completes each of its leases and restores the count of active leases; a poll
in which one of them raises ends the poll loop.
-/

namespace ParserServe

open Foundation

variable {workerId : String} {lease : LeasedStage} {phase phase' : Phase} {event : Event}
  {s s' : AgentState} {label : AgentLabel} {labels : List AgentLabel} {leases : List LeasedStage}
  {count : Int}

/-! ## One lease -/

/-- The event raises outside the handlers of `_execute`, or inside one. -/
def Phase.Escapes (phase : Phase) : Event → Prop
  | .answered .start .rejected => True
  | .answered (.complete request) .rejected => request.status = .failed
  | .woke => ∃ message retryable,
      phase = .racing (.finished (.error (.backendExecution message retryable))) .waiting ∧
        nonEmptyStr message = none
  | _ => False

def Phase.hasRaised : Phase → Bool
  | .raised _ => true
  | _ => false

/-- What a lease adds to `_active_count`. -/
def Phase.load (phase : Phase) : Int :=
  if phase = .scheduled ∨ phase.ended then 0 else 1

/-- Everything an event can do to a phase. -/
inductive PhaseMove (workerId : String) (lease : LeasedStage) : Phase → Event → Phase → Prop
  | began : PhaseMove workerId lease .scheduled .began .starting
  | started {uri : String} :
      PhaseMove workerId lease .starting (.answered .start (.accepted uri))
        (.racing .resolving .waiting)
  | startRejected : PhaseMove workerId lease .starting (.answered .start .rejected)
      (.raised controlPlaneError)
  | renewed {work : Work} {renewal renewal' : Renewal} {answer : Answer} :
      PhaseMove workerId lease (.racing work renewal) (.answered .renew answer)
        (.racing work renewal')
  | worked {work work' : Work} {renewal : Renewal} {event : Event} :
      work.step lease event = some work' →
        PhaseMove workerId lease (.racing work renewal) event (.racing work' renewal)
  | renewalFailed {work : Work} :
      PhaseMove workerId lease (.racing work .failed) .woke (.failing renewalError)
  | delivered {uri : String} :
      PhaseMove workerId lease (.racing (.finished (.ok uri)) .waiting) .woke
        (.completing uri .waiting)
  | gaveUp {error : WorkError} {detail : ErrorDetail} : errorDetail lease error = some detail →
      PhaseMove workerId lease (.racing (.finished (.error error)) .waiting) .woke
        (.failing detail)
  | blank {message : String} {retryable : Bool} : nonEmptyStr message = none →
      PhaseMove workerId lease
        (.racing (.finished (.error (.backendExecution message retryable))) .waiting) .woke
        (.raised "ValidationError")
  | renewedLate {uri : String} {renewal renewal' : Renewal} {answer : Answer} :
      PhaseMove workerId lease (.completing uri renewal) (.answered .renew answer)
        (.completing uri renewal')
  | succeeded {uri body : String} {renewal : Renewal} :
      PhaseMove workerId lease (.completing uri renewal)
        (.answered (.complete (succeededRequest workerId lease uri)) (.accepted body))
        (.returned true)
  | successRejected {uri : String} {renewal : Renewal} :
      PhaseMove workerId lease (.completing uri renewal)
        (.answered (.complete (succeededRequest workerId lease uri)) .rejected)
        (.failing completionError)
  | reported {error : ErrorDetail} {body : String} :
      PhaseMove workerId lease (.failing error)
        (.answered (.complete (failedRequest workerId lease error)) (.accepted body))
        (.returned false)
  | reportRejected {error : ErrorDetail} :
      PhaseMove workerId lease (.failing error)
        (.answered (.complete (failedRequest workerId lease error)) .rejected)
        (.raised controlPlaneError)

theorem errorDetail_eq_none {error : WorkError} (h : errorDetail lease error = none) :
    ∃ message retryable, error = .backendExecution message retryable ∧
      nonEmptyStr message = none := by
  cases error with
  | timeout | other => cases h
  | backendExecution message retryable =>
      exact ⟨message, retryable, rfl, Option.map_eq_none_iff.mp h⟩

theorem PhaseMove.of_wake {work : Work} {renewal : Renewal}
    (h : wake lease work renewal = some phase') :
    PhaseMove workerId lease (.racing work renewal) .woke phase' := by
  unfold wake at h
  split at h
  · cases h
    exact .renewalFailed
  · cases h
    exact .delivered
  · split at h
    · next hdetail =>
        cases h
        exact .gaveUp hdetail
    · next hnone =>
        cases h
        obtain ⟨message, retryable, rfl, hblank⟩ := errorDetail_eq_none hnone
        exact .blank hblank
  · cases h

theorem PhaseMove.of_step (h : phase.step workerId lease event = some phase') :
    PhaseMove workerId lease phase event phase' := by
  unfold Phase.step at h
  split at h
  · cases h
    exact .began
  · cases h
    exact .started
  · cases h
    exact .startRejected
  · split at h
    · exact .of_wake h
    · obtain ⟨renewal', _, rfl⟩ := Option.map_eq_some_iff.mp h
      exact .renewed
    · obtain ⟨work', hwork, rfl⟩ := Option.map_eq_some_iff.mp h
      exact .worked hwork
  · next uri renewal call answer =>
      split at h
      · next hrenew =>
          obtain ⟨renewal', _, rfl⟩ := Option.map_eq_some_iff.mp h
          rw [hrenew]
          exact .renewedLate
      · split at h
        · next hcall =>
            rw [hcall]
            cases answer with
            | accepted body =>
                cases h
                exact .succeeded
            | rejected =>
                cases h
                exact .successRejected
        · cases h
  · next error call answer =>
      split at h
      · next hcall =>
          rw [hcall]
          cases answer with
          | accepted body =>
              cases h
              exact .reported
          | rejected =>
              cases h
              exact .reportRejected
      · cases h
  · cases h

theorem PhaseMove.not_ended (h : PhaseMove workerId lease phase event phase') :
    ¬ phase.ended := by
  cases h <;> simp [Phase.ended]

/-- The work never handles the calls that may escape. -/
theorem Work.step_not_escapes {work work' : Work} (h : work.step lease event = some work')
    (renewal : Renewal) : ¬ (Phase.racing work renewal).Escapes event := by
  unfold Work.step at h
  split at h <;> first | (simp [Phase.Escapes]; done) | cases h

theorem PhaseMove.hasRaised_iff (h : PhaseMove workerId lease phase event phase') :
    phase'.hasRaised ↔ phase.Escapes event := by
  cases h with
  | worked hwork => simp [Phase.hasRaised, Work.step_not_escapes hwork]
  | blank hblank => simp [Phase.hasRaised, Phase.Escapes, hblank]
  | gaveUp hdetail =>
      simp only [Phase.hasRaised, Phase.Escapes, Bool.false_eq_true, false_iff]
      rintro ⟨message, retryable, heq, hblank⟩
      cases heq
      simp [errorDetail, hblank] at hdetail
  | began | started | startRejected | renewed | renewalFailed | delivered | renewedLate
    | succeeded | successRejected | reported | reportRejected =>
      simp [Phase.hasRaised, Phase.Escapes, succeededRequest, CompleteStageRequest.success,
        failedRequest, CompleteStageRequest.failure]

theorem PhaseMove.activeChange (h : PhaseMove workerId lease phase event phase') :
    activeChange event phase' = phase'.load - phase.load := by
  cases h with
  | @worked work work' renewal event hwork =>
      have hne : event ≠ .began := by
        rintro rfl
        cases work <;> cases hwork
      simp [ParserServe.activeChange, Phase.load, Phase.ended, hne]
  | began | started | startRejected | renewed | renewalFailed | delivered | gaveUp | blank
    | renewedLate | succeeded | successRejected | reported | reportRejected =>
      simp [ParserServe.activeChange, Phase.load, Phase.ended]

theorem PhaseMove.completes (h : PhaseMove workerId lease phase event phase')
    (hreturned : phase'.hasReturned) :
    ∃ request answer, event = .answered (.complete request) answer := by
  cases h with
  | succeeded | reported => exact ⟨_, _, rfl⟩
  | began | started | startRejected | renewed | worked | renewalFailed | delivered | gaveUp
    | blank | renewedLate | successRejected | reportRejected => cases hreturned

/-! ## The batch -/

def AgentState.Escapes (s : AgentState) : AgentLabel → Prop
  | .lease index event => ∃ execution, s.executions[index]? = some execution ∧
      execution.phase.Escapes event
  | _ => False

/-- The agent as long as no exception leaves an execution. -/
def containedAgent (workerId : String) : System AgentState AgentLabel :=
  (workerAgent workerId).restrict fun s label => ¬ s.Escapes label

/-- What a step of the agent is: an event of one lease, or one of the two ends of `gather`. -/
theorem AgentState.step_cases (h : s.step workerId label = some s') :
    (∃ before execution after event phase, label = .lease before.length event ∧
      s.executions = before ++ execution :: after ∧
      PhaseMove workerId execution.lease execution.phase event phase ∧
      s' = { s with
        executions := before ++ ⟨execution.lease, phase⟩ :: after
        activeCount := s.activeCount + activeChange event phase }) ∨
    (label = .gathered ∧ s.outcome = .gathering ∧
      (∀ execution ∈ s.executions, execution.phase.hasReturned) ∧
        s' = { s with outcome := .returned s.executions.length }) ∨
    ∃ index typeName, label = .escaped index ∧ s.outcome = .gathering ∧
      (∃ execution ∈ s.executions, execution.phase = .raised typeName) ∧
        s' = { s with outcome := .raised typeName } := by
  cases label with
  | lease index event =>
      left
      simp only [AgentState.step, Option.bind_eq_bind, Option.bind_eq_some_iff] at h
      obtain ⟨execution, hget, phase, hstep, h⟩ := h
      cases h
      obtain ⟨hlt, hget⟩ := List.getElem?_eq_some_iff.mp hget
      have hlength : (s.executions.take index).length = index := by simp; omega
      refine ⟨s.executions.take index, execution, s.executions.drop (index + 1), event, phase,
        by rw [hlength], ?_, .of_step hstep, ?_⟩
      · rw [← hget, ← List.drop_eq_getElem_cons hlt, List.take_append_drop]
      · rw [List.set_eq_take_append_cons_drop, if_pos hlt]
  | gathered =>
      right; left
      simp only [AgentState.step] at h
      split at h
      · next hall =>
          cases h
          exact ⟨rfl, hall.1, hall.2, rfl⟩
      · cases h
  | escaped index =>
      right; right
      simp only [AgentState.step, Option.bind_eq_bind, Option.bind_eq_some_iff] at h
      obtain ⟨execution, hget, h⟩ := h
      split at h
      · next typeName houtcome hphase =>
          cases h
          exact ⟨index, typeName, rfl, houtcome,
            ⟨execution, List.mem_of_getElem? hget, hphase⟩, rfl⟩
      · cases h

/-- What a run of the agent keeps: the leases, the count, and what the outcome means. -/
structure AgentState.Accounted (leases : List LeasedStage) (count : Int)
    (labels : List AgentLabel) (s : AgentState) : Prop where
  leases : s.executions.map (·.lease) = leases
  count : s.activeCount = count + (s.executions.map (·.phase.load)).sum
  completed : ∀ index execution, s.executions[index]? = some execution →
    execution.phase.hasReturned →
      ∃ request answer, .lease index (.answered (.complete request) answer) ∈ labels
  returned : ∀ n, s.outcome = .returned n → n = s.executions.length ∧
    ∀ execution ∈ s.executions, execution.phase.hasReturned
  raised : ∀ typeName, s.outcome = .raised typeName →
    ∃ execution ∈ s.executions, execution.phase = .raised typeName

theorem getElem?_replace {before after : List Execution} {x y : Execution} {index : Nat}
    (h : index ≠ before.length) :
    (before ++ x :: after)[index]? = (before ++ y :: after)[index]? := by
  rcases Nat.lt_or_gt_of_ne h with h | h
  · rw [List.getElem?_append_left h, List.getElem?_append_left h]
  · obtain ⟨k, rfl⟩ := Nat.exists_eq_add_of_lt h
    rw [List.getElem?_append_right (by omega), List.getElem?_append_right (by omega)]
    simp [Nat.add_assoc]

theorem mem_replace_of_ne {before after : List Execution} {x y other : Execution}
    (h : other ∈ before ++ x :: after) (hne : other ≠ x) : other ∈ before ++ y :: after := by
  simp only [List.mem_append, List.mem_cons] at h ⊢
  tauto

theorem start_accounted (leases : List LeasedStage) (count : Int) :
    (AgentState.start leases count).Accounted leases count [] := by
  constructor
  · simp [AgentState.start, Function.comp_def]
  · simp [AgentState.start, Phase.load, Function.comp_def]
  · intro index execution hget hreturned
    have hmem := List.mem_of_getElem? hget
    simp only [AgentState.start, List.mem_map] at hmem
    obtain ⟨lease, _, rfl⟩ := hmem
    cases hreturned
  · intro n h
    cases h
  · intro typeName h
    cases h

theorem step_accounted (h : s.step workerId label = some s')
    (hs : s.Accounted leases count labels) :
    s'.Accounted leases count (labels ++ [label]) := by
  rcases AgentState.step_cases h with ⟨before, execution, after, event, phase, rfl, hsplit, hmove,
    rfl⟩ | ⟨rfl, hgathering, hall, rfl⟩ | ⟨index, typeName, rfl, hgathering, hraised, rfl⟩
  · have hmem : execution ∈ s.executions := by simp [hsplit]
    constructor
    · rw [← hs.leases, hsplit]
      simp
    · rw [hs.count, hmove.activeChange, hsplit]
      simp only [List.map_append, List.map_cons, List.sum_append, List.sum_cons]
      omega
    · intro index other hget hreturned
      by_cases hindex : index = before.length
      · rw [hindex, List.getElem?_append_right (by omega)] at hget
        simp only [Nat.sub_self, List.getElem?_cons_zero, Option.some.injEq] at hget
        subst hget
        obtain ⟨request, answer, rfl⟩ := hmove.completes hreturned
        exact ⟨request, answer, by simp [hindex]⟩
      · rw [getElem?_replace hindex, ← hsplit] at hget
        obtain ⟨request, answer, hlabel⟩ := hs.completed index other hget hreturned
        exact ⟨request, answer, List.mem_append_left _ hlabel⟩
    · intro n houtcome
      have hreturned := (hs.returned n houtcome).2 execution hmem
      have hended : execution.phase.ended := by
        cases hp : execution.phase <;> simp_all [Phase.hasReturned, Phase.ended]
      exact absurd hended hmove.not_ended
    · intro typeName houtcome
      obtain ⟨other, hother, hraised⟩ := hs.raised typeName houtcome
      have hne : other ≠ execution := by
        rintro rfl
        exact hmove.not_ended (by simp [hraised, Phase.ended])
      exact ⟨other, mem_replace_of_ne (hsplit ▸ hother) hne, hraised⟩
  · refine ⟨hs.leases, hs.count, ?_, ?_, ?_⟩
    · intro index execution hget hreturned
      obtain ⟨request, answer, hlabel⟩ := hs.completed index execution hget hreturned
      exact ⟨request, answer, List.mem_append_left _ hlabel⟩
    · intro n houtcome
      cases houtcome
      exact ⟨rfl, hall⟩
    · intro typeName houtcome
      cases houtcome
  · refine ⟨hs.leases, hs.count, ?_, ?_, ?_⟩
    · intro index execution hget hreturned
      obtain ⟨request, answer, hlabel⟩ := hs.completed index execution hget hreturned
      exact ⟨request, answer, List.mem_append_left _ hlabel⟩
    · intro n houtcome
      cases houtcome
    · intro name houtcome
      cases houtcome
      exact hraised

theorem run_accounted (h : (workerAgent workerId).Run (.start leases count) labels s) :
    s.Accounted leases count labels := by
  generalize hstart : AgentState.start leases count = start at h
  induction h with
  | nil => exact hstart ▸ start_accounted leases count
  | snoc _ hstep ih => exact step_accounted hstep ih

/-! ## What escapes -/

def AgentState.HasRaised (s : AgentState) : Prop :=
  ∃ execution ∈ s.executions, execution.phase.hasRaised

theorem step_hasRaised (h : s.step workerId label = some s') (hs : s.HasRaised) :
    s'.HasRaised := by
  obtain ⟨other, hother, hraised⟩ := hs
  rcases AgentState.step_cases h with ⟨before, execution, after, event, phase, rfl, hsplit, hmove,
    rfl⟩ | ⟨_, _, _, rfl⟩ | ⟨_, _, _, _, _, rfl⟩
  · have hne : other ≠ execution := by
      rintro rfl
      refine hmove.not_ended ?_
      cases hp : other.phase <;> simp_all [Phase.hasRaised, Phase.ended]
    exact ⟨other, mem_replace_of_ne (hsplit ▸ hother) hne, hraised⟩
  · exact ⟨other, hother, hraised⟩
  · exact ⟨other, hother, hraised⟩

/-- A step lets an exception out exactly when it escapes. -/
theorem step_hasRaised_iff (h : s.step workerId label = some s') (hs : ¬ s.HasRaised) :
    s'.HasRaised ↔ s.Escapes label := by
  rcases AgentState.step_cases h with ⟨before, execution, after, event, phase, rfl, hsplit, hmove,
    rfl⟩ | ⟨rfl, _, _, rfl⟩ | ⟨_, _, rfl, _, ⟨other, hother, hraised⟩, rfl⟩
  · have hget : s.executions[before.length]? = some execution := by simp [hsplit]
    constructor
    · rintro ⟨other, hother, hraised⟩
      simp only [List.mem_append, List.mem_cons] at hother
      have hold : other ∈ s.executions ∨ other = ⟨execution.lease, phase⟩ := by
        rw [hsplit]
        simp only [List.mem_append, List.mem_cons]
        tauto
      rcases hold with hold | rfl
      · exact absurd ⟨other, hold, hraised⟩ hs
      · exact ⟨execution, hget, hmove.hasRaised_iff.mp hraised⟩
    · rintro ⟨found, hfound, hescapes⟩
      rw [hget] at hfound
      cases hfound
      exact ⟨⟨execution.lease, phase⟩, by simp, hmove.hasRaised_iff.mpr hescapes⟩
  · exact ⟨fun h => absurd h hs, fun h => h.elim⟩
  · exact absurd ⟨other, hother, by simp [hraised, Phase.hasRaised]⟩ hs

/-- A run stays contained as long as no execution has raised, and no longer. -/
theorem run_contained_iff (h : (workerAgent workerId).Run (.start leases count) labels s) :
    (containedAgent workerId).Run (.start leases count) labels s ↔ ¬ s.HasRaised := by
  constructor
  · intro hrun
    refine hrun.keeps (I := fun s => ¬ s.HasRaised) ?_ ?_
    · intro s label s' hs hstep hraised
      exact hstep.2 ((step_hasRaised_iff hstep.1 hs).mp hraised)
    · rintro ⟨execution, hmem, hraised⟩
      simp only [AgentState.start, List.mem_map] at hmem
      obtain ⟨lease, _, rfl⟩ := hmem
      cases hraised
  · intro hnot
    have hor := h.restrict_or (I := fun _ => True) (P := fun s label => ¬ s.Escapes label)
      (B := AgentState.HasRaised) (fun _ _ _ _ _ => trivial)
      (fun s label s' _ hstep hescapes => ?_) (fun _ _ _ _ hs hstep => step_hasRaised hstep hs)
      trivial
    · exact hor.resolve_right hnot
    · by_cases hs : s.HasRaised
      · exact step_hasRaised hstep hs
      · exact (step_hasRaised_iff hstep hs).mpr (not_not.mp hescapes)

/-! ## Every poll can come to an end -/

/-- Events until the execution has ended, if the environment lets it. -/
def Phase.remaining : Phase → Nat
  | .scheduled => 5
  | .starting => 4
  | .racing (.finished _) _ | .racing _ .failed => 2
  | .racing _ _ => 3
  | .completing _ _ | .failing _ => 1
  | .returned _ | .raised _ => 0

theorem Phase.exists_step (workerId : String) (lease : LeasedStage) (h : ¬ phase.ended) :
    ∃ event phase', phase.step workerId lease event = some phase' ∧
      phase'.remaining < phase.remaining := by
  cases phase with
  | scheduled => exact ⟨.began, _, rfl, by simp [Phase.remaining]⟩
  | starting => exact ⟨.answered .start (.accepted ""), _, rfl, by simp [Phase.remaining]⟩
  | racing work renewal =>
      cases renewal with
      | failed => exact ⟨.woke, .failing renewalError, by cases work <;> rfl,
          by cases work <;> simp [Phase.remaining]⟩
      | waiting =>
          cases work with
          | resolving =>
              exact ⟨.resolved (.error .timeout), .racing (.finished (.error .timeout)) .waiting,
                rfl, by simp [Phase.remaining]⟩
          | executing =>
              exact ⟨.executed (.error .timeout), .racing (.finished (.error .timeout)) .waiting,
                rfl, by simp [Phase.remaining]⟩
          | uploading output uris =>
              refine ⟨.answered (.uploadArtifact (artifactKey lease uris.length)) .rejected,
                .racing (.finished (.error (.other controlPlaneError))) .waiting, ?_,
                by simp [Phase.remaining]⟩
              simp [Phase.step, Work.step]
          | finished result =>
              cases result with
              | ok uri => exact ⟨.woke, .completing uri .waiting, rfl, by simp [Phase.remaining]⟩
              | error error =>
                  cases hdetail : errorDetail lease error with
                  | some detail =>
                      exact ⟨.woke, .failing detail, by simp [Phase.step, wake, hdetail],
                        by simp [Phase.remaining]⟩
                  | none =>
                      exact ⟨.woke, .raised "ValidationError", by simp [Phase.step, wake, hdetail],
                        by simp [Phase.remaining]⟩
  | completing uri renewal =>
      refine ⟨.answered (.complete (succeededRequest workerId lease uri)) (.accepted ""),
        .returned true, ?_, Nat.zero_lt_one⟩
      simp [Phase.step]
  | failing error =>
      refine ⟨.answered (.complete (failedRequest workerId lease error)) (.accepted ""),
        .returned false, ?_, Nat.zero_lt_one⟩
      simp [Phase.step]
  | returned | raised => exact absurd rfl h

theorem run_settles (workerId : String) (s : AgentState) : ∃ labels s',
    (workerAgent workerId).Run s labels s' ∧ s'.outcome ≠ .gathering := by
  induction hn : (s.executions.map (·.phase.remaining)).sum using Nat.strong_induction_on
    generalizing s with
  | _ n ih =>
      by_cases hgathering : s.outcome = .gathering
      · by_cases hall : ∀ execution ∈ s.executions, execution.phase.ended
        · by_cases hreturned : ∀ execution ∈ s.executions, execution.phase.hasReturned
          · have hstep : s.step workerId .gathered =
                some { s with outcome := .returned s.executions.length } := by
              simp only [AgentState.step]
              rw [if_pos ⟨hgathering, hreturned⟩]
            exact ⟨_, _, .single hstep, by simp⟩
          · push Not at hreturned
            obtain ⟨execution, hmem, hnot⟩ := hreturned
            obtain ⟨index, hget⟩ := List.getElem?_of_mem hmem
            obtain ⟨typeName, hphase⟩ : ∃ typeName, execution.phase = .raised typeName := by
              have hended := hall execution hmem
              cases hp : execution.phase <;> simp_all [Phase.ended, Phase.hasReturned]
            have hstep : s.step workerId (.escaped index) =
                some { s with outcome := .raised typeName } := by
              simp [AgentState.step, hget, hgathering, hphase]
            exact ⟨_, _, .single hstep, by simp⟩
        · push Not at hall
          obtain ⟨execution, hmem, hnot⟩ := hall
          obtain ⟨before, after, hsplit⟩ := List.append_of_mem hmem
          obtain ⟨event, phase, hphase, hless⟩ := Phase.exists_step workerId execution.lease hnot
          obtain ⟨next, hstep, hnext⟩ : ∃ next,
              s.step workerId (.lease before.length event) = some next ∧
                (next.executions.map (·.phase.remaining)).sum < n := by
            refine ⟨{ s with
              executions := before ++ ⟨execution.lease, phase⟩ :: after
              activeCount := s.activeCount + activeChange event phase }, ?_, ?_⟩
            · simp [AgentState.step, hsplit, hphase]
            · rw [← hn, hsplit]
              simp only [List.map_append, List.map_cons, List.sum_append, List.sum_cons]
              omega
          obtain ⟨labels, s', hrun, hsettled⟩ := ih _ hnext next rfl
          exact ⟨_, s', (System.Run.single hstep).trans hrun, hsettled⟩
      · exact ⟨[], s, .nil s, hgathering⟩

/-! ## Results -/

/-- A poll that returned had nothing escape, restored the count and completed its leases. -/
theorem run_returned (h : (workerAgent workerId).Run (.start leases count) labels s) {n : Nat}
    (houtcome : s.outcome = .returned n) :
    n = leases.length ∧ ¬ s.HasRaised ∧ s.activeCount = count ∧ ∀ index < leases.length,
      ∃ request answer, .lease index (.answered (.complete request) answer) ∈ labels := by
  have hs := run_accounted h
  have hlength : s.executions.length = leases.length := by
    simpa using congrArg List.length hs.leases
  obtain ⟨rfl, hall⟩ := hs.returned n houtcome
  refine ⟨hlength, ?_, ?_, ?_⟩
  · rintro ⟨execution, hmem, hraised⟩
    have := hall execution hmem
    cases hp : execution.phase <;> simp_all [Phase.hasReturned, Phase.hasRaised]
  · have hzero : ∀ load ∈ s.executions.map (·.phase.load), load = 0 := by
      intro load hload
      obtain ⟨execution, hmem, rfl⟩ := List.mem_map.mp hload
      have := hall execution hmem
      cases hp : execution.phase <;> simp_all [Phase.hasReturned, Phase.load, Phase.ended]
    rw [hs.count, List.sum_eq_zero hzero, add_zero]
  · intro index hlt
    have hget := List.getElem?_eq_getElem (hlength ▸ hlt)
    exact hs.completed index _ hget (hall _ (List.mem_of_getElem? hget))

theorem run_raised (h : (workerAgent workerId).Run (.start leases count) labels s)
    {typeName : String} (houtcome : s.outcome = .raised typeName) : s.HasRaised := by
  obtain ⟨execution, hmem, hraised⟩ := (run_accounted h).raised typeName houtcome
  exact ⟨execution, hmem, by simp [hraised, Phase.hasRaised]⟩

/-- A poll takes the loop on with the count it had, or ends it. -/
theorem pollStep_contained_iff {poll : List LeasedStage × List AgentLabel} {p : PollState}
    (h : PollStep (workerAgent workerId) (.polling count) poll p) :
    (p = .polling count ↔ PollStep (containedAgent workerId) (.polling count) poll p) ∧
      (p = .polling count ∨ ∃ typeName, p = .ended typeName) := by
  cases h with
  | returned hrun houtcome =>
      obtain ⟨_, hnone, hcount, _⟩ := run_returned hrun houtcome
      have hstep := PollStep.returned ((run_contained_iff hrun).mpr hnone) houtcome
      rw [hcount] at hstep ⊢
      exact ⟨⟨fun _ => hstep, fun _ => rfl⟩, .inl rfl⟩
  | raised hrun houtcome =>
      refine ⟨⟨nofun, fun h => ?_⟩, .inr ⟨_, rfl⟩⟩
      cases h with
      | raised hcontained houtcome' =>
          have hrun' := hcontained.of_restrict
          exact absurd (run_raised hrun' houtcome') ((run_contained_iff hrun').mp hcontained)

theorem polls_cases {polls : List (List LeasedStage × List AgentLabel)} {p : PollState}
    (h : (pollLoop (workerAgent workerId)).Run (.polling count) polls p) :
    p = .polling count ∨ ∃ typeName, p = .ended typeName := by
  generalize hstart : PollState.polling count = start at h
  induction h with
  | nil => exact .inl rfl
  | snoc _ hstep ih =>
      rcases ih with rfl | ⟨typeName, rfl⟩
      · subst hstart
        exact (pollStep_contained_iff hstep).2
      · cases hstep

theorem polls_contained_iff {polls : List (List LeasedStage × List AgentLabel)} {p : PollState}
    (h : (pollLoop (workerAgent workerId)).Run (.polling count) polls p) :
    p = .polling count ↔ (pollLoop (containedAgent workerId)).Run (.polling count) polls p := by
  constructor
  · generalize hstart : PollState.polling count = start at h
    induction h with
    | nil => exact fun _ => .nil _
    | snoc hrun hstep ih =>
        subst hstart
        rintro rfl
        rcases polls_cases hrun with rfl | ⟨typeName, rfl⟩
        · exact (ih rfl).snoc ((pollStep_contained_iff hstep).1.mp rfl)
        · cases hstep
  · intro hcontained
    clear h
    generalize hstart : PollState.polling count = start at hcontained
    induction hcontained with
    | nil => rfl
    | snoc hrun hstep ih =>
        subst hstart
        rw [ih] at hstep
        cases hstep with
        | returned hrun houtcome => rw [(run_returned hrun.of_restrict houtcome).2.2.1]
        | raised hrun houtcome =>
            have hrun' := hrun.of_restrict
            exact absurd (run_raised hrun' houtcome) ((run_contained_iff hrun').mp hrun)

/-- A poll that has come to an end returned, restored the count and completed every lease
that was not rejected, exactly when it was contained; every poll can come to an end; and the
poll loop goes on exactly as long as its polls are contained. -/
theorem worker_isolation (workerId : String) :
    (∀ leases count labels s, (workerAgent workerId).Run (.start leases count) labels s →
      s.outcome ≠ .gathering →
        ((s.outcome = .returned leases.length ∧ s.activeCount = count ∧
          ∀ index < leases.length, (∀ call, .lease index (.answered call .rejected) ∉ labels) →
            ∃ request answer, .lease index (.answered (.complete request) answer) ∈ labels) ↔
          (containedAgent workerId).Run (.start leases count) labels s)) ∧
    (∀ leases count labels s, (workerAgent workerId).Run (.start leases count) labels s →
      ∃ more s', (workerAgent workerId).Run s more s' ∧ s'.outcome ≠ .gathering) ∧
    ∀ count polls p, (pollLoop (workerAgent workerId)).Run (.polling count) polls p →
      (p = .polling count ↔
        (pollLoop (containedAgent workerId)).Run (.polling count) polls p) := by
  refine ⟨?_, fun _ _ _ s _ => run_settles workerId s, fun _ _ _ h => polls_contained_iff h⟩
  intro leases count labels s hrun hsettled
  rw [run_contained_iff hrun]
  cases houtcome : s.outcome with
  | gathering => exact absurd houtcome hsettled
  | returned n =>
      obtain ⟨rfl, hnone, hcount, hcompleted⟩ := run_returned hrun houtcome
      exact ⟨fun _ => hnone, fun _ => ⟨rfl, hcount, fun index hlt _ => hcompleted index hlt⟩⟩
  | raised typeName =>
      exact ⟨fun h => by simp at h, fun h => absurd (run_raised hrun houtcome) h⟩

/-! ## A batch of two -/

def sampleLease (stageId leaseToken : String) : LeasedStage where
  taskId := "task"
  stageId := stageId
  stageName := stageId
  backendId := "backend"
  backendName := "docling"
  backendVersion := "1.0.0"
  backendCandidates := ["backend"]
  runtime := .cpu
  deviceId := "cpu"
  source := .url "https://host/report.pdf"
  sourceMetadata := { mimeType := ⟨"application", "pdf"⟩, mediaCategory := .document }
  taskOptions := default
  parameters := "{}"
  timeoutSeconds := 60
  attempt := 1
  maximumAttempts := 1
  leaseToken := leaseToken
  leaseExpiresAt := 62

def sampleBatch : List LeasedStage :=
  [sampleLease "stage-layout" "token-layout", sampleLease "stage-tables" "token-tables"]

/-- The first lease loses its renewal and reports it, the second delivers. -/
def renewalRejected : List AgentLabel :=
  [.lease 0 .began, .lease 1 .began, .lease 0 (.answered .start (.accepted "")),
    .lease 1 (.answered .start (.accepted "")), .lease 0 (.answered .renew .rejected),
    .lease 0 .woke, .lease 1 (.resolved (.ok ())),
    .lease 1 (.executed (.ok { artifacts := ["tables.json"] })),
    .lease 1 (.answered (.uploadArtifact "stage-tables:1:0") (.accepted "s3://tables")),
    .lease 1 .woke,
    .lease 0 (.answered (.complete (failedRequest "worker"
      (sampleLease "stage-layout" "token-layout") renewalError)) (.accepted "")),
    .lease 1 (.answered (.complete (succeededRequest "worker"
      (sampleLease "stage-tables" "token-tables") "s3://tables")) (.accepted "")),
    .gathered]

theorem worker_isolation_renewal : ∃ s,
    (workerAgent "worker").Run (.start sampleBatch 0) renewalRejected s ∧
      s.outcome = .returned 2 ∧ s.activeCount = 0 := by
  have hruns : ∃ s ∈ renewalRejected.foldlM (AgentState.step "worker") (.start sampleBatch 0),
      s.outcome ≠ .gathering ∧ ∀ execution ∈ s.executions, ¬ execution.phase.hasRaised := by
    decide +kernel
  obtain ⟨s, hfold, hsettled, hnone⟩ := hruns
  have hrun : (workerAgent "worker").Run (.start sampleBatch 0) renewalRejected s :=
    System.ofStep_run hfold
  have hcontained := (run_contained_iff hrun).mpr fun ⟨execution, hmem, hraised⟩ =>
    hnone execution hmem hraised
  obtain ⟨houtcome, hcount, _⟩ :=
    ((worker_isolation "worker").1 _ _ _ _ hrun hsettled).mpr hcontained
  exact ⟨s, hrun, houtcome, hcount⟩

/-- The start of the first lease is rejected while the second executes. -/
def startRejected : List AgentLabel :=
  [.lease 0 .began, .lease 1 .began, .lease 0 (.answered .start .rejected),
    .lease 1 (.answered .start (.accepted "")), .escaped 0]

/-- The rejection ends the poll and the poll loop, with the second lease, which nothing
rejected, neither completed nor taken off the count. -/
theorem start_rejection_ends_poll_loop : ∃ s,
    (workerAgent "worker").Run (.start sampleBatch 0) startRejected s ∧
      s.outcome = .raised controlPlaneError ∧ s.activeCount = 1 ∧
      (∀ call, .lease 1 (.answered call .rejected) ∉ startRejected) ∧
      (∀ request answer, .lease 1 (.answered (.complete request) answer) ∉ startRejected) ∧
      (pollLoop (workerAgent "worker")).Run (.polling 0) [(sampleBatch, startRejected)]
        (.ended controlPlaneError) := by
  have hruns : ∃ s ∈ startRejected.foldlM (AgentState.step "worker") (.start sampleBatch 0),
      s.outcome = .raised controlPlaneError ∧ s.activeCount = 1 := by
    decide +kernel
  obtain ⟨s, hfold, houtcome, hcount⟩ := hruns
  have hrun : (workerAgent "worker").Run (.start sampleBatch 0) startRejected s :=
    System.ofStep_run hfold
  refine ⟨s, hrun, houtcome, hcount, ?_, ?_, .single (PollStep.raised hrun houtcome)⟩
  · simp [startRejected]
  · simp [startRejected]

end ParserServe
