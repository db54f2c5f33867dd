import ParserServe.Callback.DeliveryState
import ParserServe.Control.CallbackTransport

/-! # What the callback views refuse

The result of a request is stored as it is and validated when it is read back.  A view fails for
a status code above 599, and for a delivery that was written at a time before its creation.
-/

namespace ParserServe

open Foundation

variable {self : CallbackDispatcher} {transport : HttpCallbackTransport} {db db' : Db}
  {s t : CallbackState} {label : CallbackLabel} {labels : List CallbackLabel}
  {record : CallbackDeliveryRecord} {deliveryId : String} {now : Time} {time : CallTime}

/-! ## Reports -/

/-- The status codes of HTTP have three digits. -/
def AnswerValid (answer : Except TransportError TargetResponse) : Prop :=
  ∀ response, answer = .ok response → 100 ≤ response.statusCode ∧ response.statusCode ≤ 999

/-- What every report has. -/
structure CallbackResult.Reported (result : CallbackResult) : Prop where
  error_iff : result.delivered ↔ result.error = none
  code : ∀ code ∈ result.responseStatusCode, 100 ≤ code

theorem callbackFailure_reported (durationMs : Nat) (code : ErrorCode) (message : String)
    (retryable : Bool) : (callbackFailure durationMs code message retryable).report.Reported :=
  ⟨by simp [callbackFailure, CallbackHttpResult.report, CallbackHttpResult.resultError],
    by simp [callbackFailure, CallbackHttpResult.report]⟩

theorem TransportError.callbackFailure_reported (error : TransportError) (durationMs : Nat) :
    (error.callbackFailure durationMs).report.Reported := by
  cases error <;> exact ParserServe.callbackFailure_reported _ _ _ _

theorem send_reported {config : Option CallbackConfig} {turn : Nat} {url : HttpUrl}
    {answer : Except TransportError TargetResponse} (hanswer : AnswerValid answer)
    (durationMs : Nat) : (transport.send config turn url answer durationMs).report.Reported := by
  unfold HttpCallbackTransport.send HttpCallbackTransport.deliver
  split
  · exact ⟨by simp [missingConfiguration, CallbackHttpResult.report,
      CallbackHttpResult.resultError], by simp [missingConfiguration, CallbackHttpResult.report]⟩
  · split
    · exact callbackFailure_reported _ _ _ _
    · split
      · exact TransportError.callbackFailure_reported _ _
      · next response =>
          split
          · exact TransportError.callbackFailure_reported _ _
          · constructor
            · by_cases hdelivered : 200 ≤ response.statusCode ∧ response.statusCode < 300
              · simp [CallbackHttpResult.report, CallbackHttpResult.resultError, hdelivered]
              · simp [CallbackHttpResult.report, CallbackHttpResult.resultError, hdelivered]
            · simpa [CallbackHttpResult.report] using (hanswer response rfl).1

/-- The result a step reports. -/
def CallbackLabel.result? : CallbackLabel → Option CallbackResult
  | .returned (.recordResult _ _ result _) _ => some result
  | _ => none

/-- A report tells of some answer of a target. -/
def CallbackLabel.Answered (transport : HttpCallbackTransport) (label : CallbackLabel) : Prop :=
  ∀ result ∈ label.result?, ∃ config turn url answer durationMs,
    AnswerValid answer ∧ result = (transport.send config turn url answer durationMs).report

/-- Dispatchers that send through the transport, with a valid number of attempts. -/
def sendingCallbacks (self : CallbackDispatcher) (transport : HttpCallbackTransport) :
    System CallbackState CallbackLabel :=
  (callbacks self).restrict fun _ label => label.AttemptsValid ∧ label.Answered transport

/-! ## What every state keeps -/

/-- What every audit row has. -/
structure CallbackAttemptRecord.Sound (row : CallbackAttemptRecord) : Prop where
  sequence : 1 ≤ row.sequence
  attemptNumber : 1 ≤ row.attemptNumber
  ordered : row.startedAt ≤ row.completedAt
  error_iff : row.delivered ↔ row.error = none
  code : ∀ code ∈ row.responseStatusCode, 100 ≤ code

structure Recorded (s : CallbackState) : Prop where
  deliveries : ∀ record ∈ s.db.deliveries, record.Sound
  codes : ∀ record ∈ s.db.deliveries, ∀ code ∈ record.responseStatusCode, 100 ≤ code
  attempts : ∀ row ∈ s.db.attempts, row.Sound
  requests : ∀ claim ∈ s.inFlight, 1 ≤ claim.sequence ∧ 1 ≤ claim.attemptNumber

theorem audit_sound {claim : CallbackClaim} {result : CallbackResult} {attemptId : String}
    (hclaim : 1 ≤ claim.sequence ∧ 1 ≤ claim.attemptNumber) (hresult : result.Reported) :
    (claim.audit attemptId result now).Sound where
  sequence := hclaim.1
  attemptNumber := hclaim.2
  ordered := by
    have hduration : (0 : ℚ) ≤ result.durationMs / 1000 :=
      div_nonneg (Nat.cast_nonneg _) (by norm_num)
    exact le_add_of_nonneg_right hduration
  error_iff := hresult.error_iff
  code := hresult.code

/-- A claim sends a request for the attempt it has counted. -/
theorem CallbackStep.sent (hstep : CallbackStep self s label t) {claim : CallbackClaim}
    (hclaim : claim ∈ t.inFlight) :
    claim ∈ s.inFlight ∨ 1 ≤ claim.sequence ∧ 1 ≤ claim.attemptNumber := by
  cases hstep with
  | elsewhere => exact .inl hclaim
  | @raised call error =>
      cases call with
      | materialize | claimDue | retry => exact .inl hclaim
      | recordResult => exact .inl (List.mem_of_mem_erase hclaim)
  | @returned db' call response _ hexec =>
      cases call with
      | materialize | retry => exact .inl hclaim
      | recordResult => exact .inl (List.mem_of_mem_erase hclaim)
      | claimDue lockedFirst lockedSecond time =>
          cases hexec
          split at hclaim
          · exact .inl hclaim
          · rcases List.mem_append.mp hclaim with hclaim | hclaim
            · exact .inl hclaim
            · rw [List.mem_singleton.mp hclaim]
              exact .inr ⟨Nat.succ_le_succ (Nat.zero_le _), Nat.succ_le_succ (Nat.zero_le _)⟩

theorem Answered.reported {attemptId : String} {claim : CallbackClaim} {result : CallbackResult}
    {response : CallbackResponse} (h : CallbackLabel.Answered transport
      (.returned (.recordResult attemptId claim result time) response)) : result.Reported := by
  obtain ⟨_, _, _, _, _, hanswer, rfl⟩ := h result rfl
  exact send_reported hanswer _

theorem recorded_step (hs : Recorded s) (hstep : (sendingCallbacks self transport).Step s label t) :
    Recorded t := by
  obtain ⟨hstep, hvalid, hanswered⟩ := hstep
  have hstep : CallbackStep self s label t := hstep
  refine ⟨fun record hrecord => ?_, fun record hrecord => ?_, ?_, fun claim hclaim => ?_⟩
  · refine (hstep.move record.deliveryId).sound (fun row hrow => ?_) (fun hnone row hrow => ?_)
      record (Db.delivery?_of_mem hrecord)
    · exact hs.deliveries row (Db.delivery?_mem hrow).1
    · obtain ⟨maximumAttempts, now, hlabel, hnew⟩ := hstep.created hnone hrow
      exact hnew.sound (hvalid _ hlabel)
  · have hafter := Db.delivery?_of_mem hrecord
    have hmove := hstep.move record.deliveryId
    rw [hafter] at hmove
    generalize hbefore : s.db.delivery? record.deliveryId = row at hmove
    have hcodes : ∀ old, row = some old → ∀ code ∈ old.responseStatusCode, 100 ≤ code :=
      fun old hold => hs.codes old (Db.delivery?_mem (hbefore.trans hold)).1
    cases hmove with
    | kept | expired | claimed | audited =>
        have hsame := hcodes _ rfl
        exact hsame
    | created =>
        obtain ⟨_, _, _, hnew⟩ := hstep.created hbefore hafter
        simp [hnew.responseStatusCode]
    | settled => exact (Answered.reported hanswered).code
    | retried => simp [CallbackDeliveryRecord.reset]
  · rcases hstep.attempts_cases with
      ⟨hsame, -⟩ | ⟨attemptId, claim, result, now, answer, rfl, hsent, -, hadded⟩
    · rw [hsame]
      exact hs.attempts
    · rw [hadded]
      intro row hrow
      rcases List.mem_append.mp hrow with hrow | hrow
      · exact hs.attempts row hrow
      · rw [List.mem_singleton.mp hrow]
        exact audit_sound (hs.requests claim hsent) (Answered.reported hanswered)
  · exact (hstep.sent hclaim).elim (hs.requests claim) id

/-! ## The views -/

def StatusShown (statusCode : Option Nat) : Prop := ∀ code ∈ statusCode, code ≤ 599

/-- What the view of a row may still refuse. -/
def CallbackDeliveryRecord.Shown (record : CallbackDeliveryRecord) : Prop :=
  record.createdAt ≤ record.updatedAt ∧ StatusShown record.responseStatusCode

theorem callbackDeliveryDetail_isOk_iff (hsound : record.Sound)
    (hcodes : ∀ code ∈ record.responseStatusCode, 100 ≤ code) :
    (∃ detail, callbackDeliveryDetail record = .ok detail) ↔ record.Shown := by
  have hvalid : record.view.validateDelivery = .ok () ↔ record.createdAt ≤ record.updatedAt := by
    rw [validateDelivery_iff]
    exact ⟨fun h => h.2.2.1,
      fun h => ⟨hsound.attempt_le, hsound.attempt_le_sequence, h, hsound.next_iff⟩⟩
  have hcode : requireStatusCode record.view.responseStatusCode = .ok () ↔
      StatusShown record.responseStatusCode := by
    simp only [requireStatusCode, bind_eq_ok, ensure_eq_ok]
    constructor
    · rintro ⟨_, _, h⟩
      exact h
    · intro h
      exact ⟨(), hcodes, h⟩
  simp only [callbackDeliveryDetail, bind_eq_ok, ensure_eq_ok]
  constructor
  · rintro ⟨_, _, _, _, _, _, hstatus, _, hdelivery, _⟩
    exact ⟨hvalid.mp hdelivery, hcode.mp hstatus⟩
  · rintro ⟨htimes, hstatus⟩
    exact ⟨_, (), hsound.maximum_valid.1, (), hsound.maximum_valid.2, (), hcode.mpr hstatus, (),
      hvalid.mpr htimes, rfl⟩

theorem callbackAttemptDetail_isOk_iff {row : CallbackAttemptRecord} (hsound : row.Sound) :
    (∃ detail, callbackAttemptDetail row = .ok detail) ↔ StatusShown row.responseStatusCode := by
  have hfailed : row.delivered = false → row.error.isSome := by
    intro hnot
    rw [Option.isSome_iff_ne_none]
    intro hnone
    rw [hsound.error_iff.mpr hnone] at hnot
    cases hnot
  simp only [callbackAttemptDetail, requireStatusCode, CallbackAttempt.validateAttempt, bind_eq_ok,
    ensure_eq_ok]
  constructor
  · rintro ⟨_, _, _, _, _, _, ⟨_, _, hstatus⟩, _⟩
    exact hstatus
  · intro hstatus
    exact ⟨_, (), hsound.sequence, (), hsound.attemptNumber, (), ⟨(), hsound.code, hstatus⟩, (),
      ⟨(), hsound.ordered, (), hsound.error_iff.mp, hfailed⟩, rfl⟩

/-- Neither view raises for a row of the tables. -/
def Viewable (s : CallbackState) : Prop :=
  (∀ record ∈ s.db.deliveries, ∃ detail, callbackDeliveryDetail record = .ok detail) ∧
    ∀ row ∈ s.db.attempts, ∃ detail, callbackAttemptDetail row = .ok detail

theorem viewable_iff (hs : Recorded s) :
    Viewable s ↔ (∀ record ∈ s.db.deliveries, record.Shown) ∧
      ∀ row ∈ s.db.attempts, StatusShown row.responseStatusCode := by
  refine and_congr (forall₂_congr fun record hrecord => ?_) (forall₂_congr fun row hrow => ?_)
  · exact callbackDeliveryDetail_isOk_iff (hs.deliveries record hrecord) (hs.codes record hrecord)
  · exact callbackAttemptDetail_isOk_iff (hs.attempts row hrow)

/-! ## Which steps keep them -/

/-- No row is written at a time before its creation, and no report has a status code above 599. -/
def Writable (self : CallbackDispatcher) (s : CallbackState) : CallbackLabel → Prop
  | .returned (.claimDue lockedFirst lockedSecond time) _ =>
      let staleBefore := time.now - self.claimTimeoutSeconds
      (∀ row ∈ s.db.firstDelivery lockedFirst (·.exhausted staleBefore),
          row.createdAt ≤ time.now) ∧
        ∀ row ∈ (expireClaim s.db staleBefore lockedFirst time).firstDelivery lockedSecond
          (·.due time.now staleBefore), row.createdAt ≤ time.now
  | .returned (.recordResult _ claim result time) _ =>
      ∀ row ∈ s.db.delivery? claim.deliveryId, StatusShown result.responseStatusCode ∧
        (row.attemptSequence = claim.sequence → row.createdAt ≤ time.now)
  | .returned (.retry deliveryId time) _ =>
      ∀ row ∈ s.db.delivery? deliveryId, row.createdAt ≤ time.now
  | _ => True

theorem forall_changeDelivery {p : CallbackDeliveryRecord → Prop} {old : CallbackDeliveryRecord}
    (hold : old ∈ db.deliveries) (hid : old.deliveryId = record.deliveryId) :
    (∀ row ∈ (db.changeDelivery record now).deliveries, p row) ↔
      p record ∧ ∀ row ∈ db.deliveries, row.deliveryId ≠ record.deliveryId → p row := by
  constructor
  · intro h
    exact ⟨h record (mem_replaceKey_self hold hid),
      fun row hrow hne => h row (mem_replaceKey_of_ne hrow hne)⟩
  · rintro ⟨hrecord, hothers⟩ row hrow
    rcases mem_replaceKey_cases hrow with rfl | ⟨hrow, hne⟩
    · exact hrecord
    · exact hothers row hrow hne

/-- Writing one row of a table whose rows are shown. -/
theorem shown_changeDelivery (hdb : ∀ row ∈ db.deliveries, row.Shown)
    {old : CallbackDeliveryRecord} (hold : old ∈ db.deliveries)
    (hid : old.deliveryId = record.deliveryId) :
    (∀ row ∈ (db.changeDelivery record now).deliveries, row.Shown) ↔ record.Shown := by
  rw [forall_changeDelivery hold hid]
  exact and_iff_left fun row hrow _ => hdb row hrow

/-- A row that keeps its creation is shown when it is written late enough. -/
theorem shown_flush {loaded changed : CallbackDeliveryRecord} (hloaded : loaded.Shown)
    (hcreated : changed.createdAt = loaded.createdAt) (hupdated : changed.updatedAt = time.now)
    (hcode : StatusShown changed.responseStatusCode) :
    (loaded.flush changed time).Shown ↔ loaded.createdAt ≤ time.now := by
  have hsame : (loaded.flush changed time).Shown ↔
      changed.createdAt ≤ (loaded.flush changed time).updatedAt := and_iff_left hcode
  rw [hsame, hcreated, CallbackDeliveryRecord.flush]
  split
  · next hkept =>
      -- the row has the time of the call already, and the transaction began no earlier
      have hbefore : loaded.createdAt ≤ time.now := hloaded.1.trans (hkept.2.symm.trans hupdated).le
      exact iff_of_true (hbefore.trans time.now_le) hbefore
  · rw [hupdated]

theorem expireClaim_shown_iff (hdb : ∀ row ∈ db.deliveries, row.Shown) (staleBefore : Time)
    (locked : List String) :
    (∀ row ∈ (expireClaim db staleBefore locked time).deliveries, row.Shown) ↔
      ∀ row ∈ db.firstDelivery locked (·.exhausted staleBefore), row.createdAt ≤ time.now := by
  unfold expireClaim
  cases hfirst : db.firstDelivery locked (·.exhausted staleBefore) with
  | none => simpa using hdb
  | some row =>
      have hmem := (Db.firstDelivery_spec hfirst).1
      have hexpired : (row.expire time).Shown ↔ row.createdAt ≤ time.now :=
        shown_flush (hdb row hmem) rfl rfl (hdb row hmem).2
      simp only [Option.mem_some_iff, forall_eq', ← hexpired]
      exact shown_changeDelivery hdb hmem rfl

/-- The row that is given up is not due. -/
theorem mem_of_due_expireClaim {staleBefore : Time} {locked : List String}
    (hmem : record ∈ (expireClaim db staleBefore locked time).deliveries)
    (hdue : record.due now staleBefore) : record ∈ db.deliveries := by
  unfold expireClaim at hmem
  split at hmem
  · exact hmem
  · rcases mem_replaceKey_cases hmem with rfl | ⟨hmem, -⟩
    · exact absurd hdue (expire_not_due _ _ _ _)
    · exact hmem

theorem claimDue_shown_iff (hdb : ∀ row ∈ s.db.deliveries, row.Shown)
    (lockedFirst lockedSecond : List String) (response : CallbackResponse) :
    (∀ row ∈ (claimDue s.db self.claimTimeoutSeconds lockedFirst lockedSecond
      time).1.deliveries, row.Shown) ↔
      Writable self s (.returned (.claimDue lockedFirst lockedSecond time) response) := by
  set staleBefore := time.now - self.claimTimeoutSeconds with hstale
  simp only [claimDue, Writable, ← hstale,
    ← expireClaim_shown_iff hdb staleBefore lockedFirst]
  cases hfirst : (expireClaim s.db staleBefore lockedFirst time).firstDelivery lockedSecond
      (·.due time.now staleBefore) with
  | none => simp
  | some record =>
      obtain ⟨hmem, hdue⟩ := Db.firstDelivery_spec hfirst
      have hshown := hdb record (mem_of_due_expireClaim hmem hdue)
      have hclaimed : (record.claim time).Shown ↔ record.createdAt ≤ time.now :=
        shown_flush hshown rfl rfl hshown.2
      simp only [Option.mem_some_iff, forall_eq', ← hclaimed]
      have hid : record.deliveryId = (record.claim time).deliveryId := rfl
      rw [forall_changeDelivery hmem hid]
      refine and_comm.trans (and_congr_left' ⟨fun h row hrow => ?_, fun h row hrow _ => h row hrow⟩)
      by_cases hid : row.deliveryId = record.deliveryId
      · rwa [List.inj_on_of_nodup_map (Db.deliveries_nodup _) hrow hmem hid]
      · exact h row hrow hid

theorem recordResult_shown_iff (hdb : ∀ row ∈ s.db.deliveries, row.Shown)
    (hattempts : ∀ row ∈ s.db.attempts, StatusShown row.responseStatusCode)
    {attemptId : String} {claim : CallbackClaim} {result : CallbackResult}
    {answer : Option CallbackDeliveryRecord}
    (h : recordResult s.db self.timing attemptId claim.deliveryId claim.sequence
      claim.attemptNumber result time = .ok (db', answer)) (response : CallbackResponse) :
    ((∀ row ∈ db'.deliveries, row.Shown) ∧
      ∀ row ∈ db'.attempts, StatusShown row.responseStatusCode) ↔
      Writable self s (.returned (.recordResult attemptId claim result time) response) := by
  have hadded : (∀ row ∈ s.db.attempts ++ [claim.audit attemptId result time.now],
      StatusShown row.responseStatusCode) ↔ StatusShown result.responseStatusCode := by
    simp only [List.forall_mem_append, List.forall_mem_singleton]
    exact and_iff_right hattempts
  unfold recordResult at h
  simp only [Writable]
  cases hrow : s.db.delivery? claim.deliveryId with
  | none =>
      rw [hrow] at h
      cases h
      simpa using ⟨hdb, hattempts⟩
  | some record =>
      obtain ⟨hmem, -⟩ := Db.delivery?_mem hrow
      simp only [hrow, bind_eq_ok, ensure_eq_ok] at h
      obtain ⟨_, _, h⟩ := h
      simp only [Option.mem_some_iff, forall_eq', ← hadded]
      split at h
      · next hstale =>
          cases h
          simp only [hstale, false_imp_iff, and_true]
          exact and_iff_right hdb
      · next hcurrent =>
          cases h
          simp only [not_not.mp hcurrent, true_imp_iff]
          rw [and_comm]
          refine and_congr_right fun hcode => ?_
          have hsettled : (record.settle result self.timing time).Shown ↔
              record.createdAt ≤ time.now :=
            shown_flush (hdb record hmem) rfl rfl (hadded.mp hcode)
          rw [← hsettled]
          exact shown_changeDelivery hdb hmem rfl

theorem retryDelivery_shown_iff (hdb : ∀ row ∈ s.db.deliveries, row.Shown)
    {answer : Option CallbackDeliveryRecord}
    (h : retryDelivery s.db deliveryId time = .ok (db', answer)) (response : CallbackResponse) :
    (∀ row ∈ db'.deliveries, row.Shown) ↔
      Writable self s (.returned (.retry deliveryId time) response) := by
  unfold retryDelivery at h
  simp only [Writable]
  cases hrow : s.db.delivery? deliveryId with
  | none =>
      rw [hrow] at h
      cases h
      simpa using hdb
  | some record =>
      obtain ⟨hmem, -⟩ := Db.delivery?_mem hrow
      simp only [hrow, bind_eq_ok, ensure_eq_ok] at h
      obtain ⟨_, _, h⟩ := h
      cases h
      have hreset : (record.reset time).Shown ↔ record.createdAt ≤ time.now :=
        shown_flush (hdb record hmem) rfl rfl (by simp [StatusShown])
      simp only [Option.mem_some_iff, forall_eq', ← hreset]
      exact shown_changeDelivery hdb hmem rfl

theorem viewable_step_iff (hs : Recorded s) (hview : Viewable s)
    (hstep : (sendingCallbacks self transport).Step s label t) :
    Writable self s label ↔ Viewable t := by
  rw [viewable_iff (recorded_step hs hstep)]
  obtain ⟨hdb, hattempts⟩ := (viewable_iff hs).mp hview
  have hstep : CallbackStep self s label t := hstep.1
  cases hstep with
  | raised => exact ⟨fun _ => ⟨hdb, hattempts⟩, fun _ => trivial⟩
  | elsewhere hdeliveries hrows =>
      rw [hdeliveries, hrows]
      exact ⟨fun _ => ⟨hdb, hattempts⟩, fun _ => trivial⟩
  | @returned db' call response hsent hexec =>
      have hsame := CallbackStep.attempts_cases (CallbackStep.returned hsent hexec)
      cases call with
      | materialize maximumAttempts limit deliveryIds now =>
          obtain ⟨⟨db₁, records⟩, hcall, heq⟩ := bind_eq_ok.mp hexec
          cases heq
          refine ⟨fun _ => ⟨fun row hrow => ?_, ?_⟩, fun _ => trivial⟩
          · rcases materialize_new hcall row hrow with hold | hnew
            · exact hdb row hold
            · refine ⟨(hnew.createdAt.trans hnew.updatedAt.symm).le, ?_⟩
              simp [StatusShown, hnew.responseStatusCode]
          · rcases hsame with ⟨hsame, -⟩ | ⟨_, _, _, _, _, hlabel, -⟩
            · rw [hsame]
              exact hattempts
            · cases hlabel
      | claimDue lockedFirst lockedSecond time =>
          have hclaim : (claimDue s.db self.claimTimeoutSeconds lockedFirst lockedSecond time).1 =
              db' := congrArg Prod.fst (Except.ok.inj hexec)
          have hrows : db'.attempts = s.db.attempts := hclaim ▸ claimDue_attempts _ _ _ _ _
          rw [hrows, ← claimDue_shown_iff hdb, hclaim]
          exact (and_iff_left hattempts).symm
      | recordResult attemptId claim result time =>
          obtain ⟨⟨db₁, answer⟩, hcall, heq⟩ := bind_eq_ok.mp hexec
          cases heq
          exact (recordResult_shown_iff hdb hattempts hcall _).symm
      | retry id time =>
          obtain ⟨⟨db₁, answer⟩, hcall, heq⟩ := bind_eq_ok.mp hexec
          cases heq
          rw [← retryDelivery_shown_iff hdb hcall]
          rcases hsame with ⟨hsame, -⟩ | ⟨_, _, _, _, _, hlabel, -⟩
          · rw [hsame]
            exact (and_iff_left hattempts).symm
          · cases hlabel

/-- The views work in every state of a run exactly when no step of it reports a status code above
599 or writes a delivery at a time before its creation. -/
theorem callback_views_iff {s₀ : CallbackState}
    (hstart : (sendingCallbacks self transport).Initial s₀) :
    ((sendingCallbacks self transport).through Viewable).Run s₀ labels s ↔
      ((sendingCallbacks self transport).restrict (Writable self)).Run s₀ labels s := by
  obtain ⟨hdeliveries, hattempts, hrequests⟩ := hstart
  refine (System.restrict_run_iff_through (I := Recorded) (fun _ _ _ => recorded_step)
    (fun _ _ _ => viewable_step_iff) ?_ ?_).symm
  · exact ⟨by simp [hdeliveries], by simp [hdeliveries], by simp [hattempts], by simp [hrequests]⟩
  · exact ⟨by simp [hdeliveries], by simp [hattempts]⟩

/-! ## An answer the views show, and one they refuse -/

def sampleTransport : HttpCallbackTransport where
  timeoutSeconds := 10
  maximumResponseBytes := 1024
  network :=
    { ipAddress := fun text => if text = "93.184.216.34" then some ⟨text, true⟩ else none
      resolver := fun _ _ _ => some ["93.184.216.34"] }

/-- What a dispatcher reports of a target that answers with a status code and no body. -/
def sampleReport (statusCode : Nat) : CallbackResult :=
  (sampleTransport.send (subscribedState.db.tasks.head?.bind (·.callback)) 0
    { text := "https://host/hook", scheme := .https, host := "host", path := "/hook" }
    (.ok { statusCode := statusCode }) 5).report

/-- The delivery is claimed at 1, and its result arrives. -/
def reportCalls (statusCode : Nat) : List CallbackCall :=
  [.materialize 3 500 (fun _ => "delivery") 0, .claimDue [] [] 1,
    .recordResult "attempt" ⟨"delivery", 1, 1⟩ (sampleReport statusCode) 1]

theorem sampleReport_answered {statusCode : Nat} (hcode : 100 ≤ statusCode ∧ statusCode ≤ 999)
    (hresult : ∀ result ∈ label.result?, result = sampleReport statusCode) :
    label.Answered sampleTransport := by
  intro result hmem
  rw [hresult result hmem]
  refine ⟨_, _, _, _, _, ?_, rfl⟩
  rintro response ⟨⟩
  exact hcode

instance (self : CallbackDispatcher) (s : CallbackState) : DecidablePred (Writable self s)
  | .returned (.claimDue ..) _ => inferInstanceAs (Decidable (_ ∧ _))
  | .returned (.recordResult ..) _ => inferInstanceAs (Decidable (∀ row ∈ _, (∀ code ∈ _, _) ∧ _))
  | .returned (.retry ..) _ => inferInstanceAs (Decidable (∀ row ∈ _, _))
  | .returned (.materialize ..) _ | .raised .. | .elsewhere => isTrue trivial

/-- Every call of a script meets `P` in the state it is made in. -/
def Throughout (self : CallbackDispatcher) (P : CallbackState → CallbackCall → Prop) :
    CallbackState → List CallbackCall → Prop
  | _, [] => True
  | s, call :: calls =>
      call.Sent s.inFlight ∧ P s call ∧ Throughout self P (call.take self s).2 calls

instance decidableThroughout {P : CallbackState → CallbackCall → Prop}
    [∀ s, DecidablePred (P s)] : ∀ s, DecidablePred (Throughout self P s)
  | _, [] => isTrue trivial
  | s, call :: calls =>
      have : Decidable (Throughout self P (call.take self s).2 calls) :=
        decidableThroughout _ calls
      inferInstanceAs (Decidable (_ ∧ _ ∧ _))

theorem Throughout.run {P : CallbackState → CallbackCall → Prop} {calls : List CallbackCall}
    {S : System CallbackState CallbackLabel}
    (hstep : ∀ s call, call.Sent s.inFlight → P s call →
      S.Step s (call.take self s).1 (call.take self s).2)
    (h : Throughout self P s calls) :
    S.Run s (runCalls self s calls).1 (runCalls self s calls).2 := by
  induction calls generalizing s with
  | nil => exact .nil s
  | cons call calls ih =>
      obtain ⟨hsent, hcall, hrest⟩ := h
      rw [runCalls, if_pos hsent]
      exact (System.Run.single (hstep s call hsent hcall)).trans (ih hrest)

/-- A call of a dispatcher whose target answers with the status code. -/
def Sends (statusCode : Nat) (s : CallbackState) (call : CallbackCall) : Prop :=
  (call.take sampleDispatcher s).1.AttemptsValid ∧
    ∀ result ∈ (call.take sampleDispatcher s).1.result?, result = sampleReport statusCode

instance (statusCode : Nat) (s : CallbackState) : DecidablePred (Sends statusCode s) :=
  fun _ => inferInstanceAs (Decidable (_ ∧ _))

theorem sends_step {statusCode : Nat} (hcode : 100 ≤ statusCode ∧ statusCode ≤ 999)
    (s : CallbackState) (call : CallbackCall) (hsent : call.Sent s.inFlight)
    (h : Sends statusCode s call) :
    (sendingCallbacks sampleDispatcher sampleTransport).Step s
      (call.take sampleDispatcher s).1 (call.take sampleDispatcher s).2 :=
  ⟨take_step hsent, h.1, sampleReport_answered hcode h.2⟩

/-- A target that answers 503 is tried again, and the views show it. -/
theorem callback_views_unavailable :
    ((sendingCallbacks sampleDispatcher sampleTransport).through Viewable).Run subscribedState
      (runCalls sampleDispatcher subscribedState (reportCalls 503)).1
      (runCalls sampleDispatcher subscribedState (reportCalls 503)).2 := by
  have hcalls : Throughout sampleDispatcher (fun s call => Sends 503 s call ∧
      Writable sampleDispatcher s (call.take sampleDispatcher s).1) subscribedState
      (reportCalls 503) := by
    decide +kernel
  exact (callback_views_iff (subscribedState_initial sampleDispatcher)).mpr
    (hcalls.run fun s call hsent h => ⟨sends_step (by decide) s call hsent h.1, h.2⟩)

/-- A target that answers 600 breaks both views. -/
theorem callback_views_refused : ∃ labels s,
    (sendingCallbacks sampleDispatcher sampleTransport).Run subscribedState labels s ∧
    (∃ record ∈ s.db.deliveries, callbackDeliveryDetail record =
      .error "Input should be less than or equal to 599") ∧
    ∃ row ∈ s.db.attempts, callbackAttemptDetail row =
      .error "Input should be less than or equal to 599" := by
  have hcalls : Throughout sampleDispatcher (Sends 600) subscribedState (reportCalls 600) := by
    decide +kernel
  refine ⟨_, _, hcalls.run (sends_step (by decide)), ?_, ?_⟩ <;> decide +kernel

end ParserServe
