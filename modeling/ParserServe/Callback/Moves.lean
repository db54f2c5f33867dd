import ParserServe.Control.Callbacks

/-! # What a step does to a delivery

`DeliveryMove` lists every way in which a step of the callback service may write the row of a
delivery.  All that is said of runs below is read off it.
-/

namespace ParserServe

open Foundation

variable {self : CallbackDispatcher} {db db' : Db} {record : CallbackDeliveryRecord}
  {deliveryId : String} {now : Time} {time : CallTime}

/-! ## Reading a row back -/

theorem Db.delivery?_of_mem (h : record ∈ db.deliveries) :
    db.delivery? record.deliveryId = some record :=
  find?_key_eq_some db.deliveries_nodup h

theorem Db.delivery?_mem (h : db.delivery? deliveryId = some record) :
    record ∈ db.deliveries ∧ record.deliveryId = deliveryId :=
  ⟨List.mem_of_find?_eq_some h, by simpa using List.find?_some h⟩

theorem Db.delivery?_changeDelivery_self {row : CallbackDeliveryRecord}
    (h : db.delivery? record.deliveryId = some row) :
    (db.changeDelivery record now).delivery? record.deliveryId = some record :=
  find?_replaceKey_self h rfl

theorem Db.delivery?_changeDelivery_of_ne (h : deliveryId ≠ record.deliveryId) :
    (db.changeDelivery record now).delivery? deliveryId = db.delivery? deliveryId :=
  find?_replaceKey_of_ne h

theorem Db.delivery?_addAttempt (row : CallbackAttemptRecord) :
    (db.addAttempt row).delivery? deliveryId = db.delivery? deliveryId := rfl

theorem Db.firstDelivery_spec {locked : List String} {p : CallbackDeliveryRecord → Bool}
    (h : db.firstDelivery locked p = some record) : record ∈ db.deliveries ∧ p record := by
  have hmem := List.mem_of_mem_head? h
  rw [List.mem_insertionSort, List.mem_filter, Bool.and_eq_true] at hmem
  exact ⟨hmem.1, hmem.2.1⟩

/-! ## The moves of a row -/

/-- A step that neither claims the delivery, nor retries it, nor reports on it. -/
def CallbackLabel.PassesBy (deliveryId : String) (label : CallbackLabel) : Prop :=
  label.claimed? deliveryId = none ∧ label.retried? ≠ some deliveryId ∧
    ∀ sequence, label.reported? ≠ some (deliveryId, sequence)

theorem CallbackLabel.PassesBy.of_none {label : CallbackLabel}
    (hclaimed : label.claimed? deliveryId = none) (hretried : label.retried? = none)
    (hreported : label.reported? = none) : label.PassesBy deliveryId :=
  ⟨hclaimed, by simp [hretried], by simp [hreported]⟩

inductive DeliveryMove (self : CallbackDispatcher) (deliveryId : String) :
    CallbackLabel → Option CallbackDeliveryRecord → Option CallbackDeliveryRecord → Prop
  | kept {label : CallbackLabel} (row : Option CallbackDeliveryRecord) :
      label.PassesBy deliveryId → DeliveryMove self deliveryId label row row
  | created {label : CallbackLabel} {record : CallbackDeliveryRecord} :
      label.PassesBy deliveryId → record.status = .pending → record.attemptSequence = 0 →
        DeliveryMove self deliveryId label none (some record)
  | expired {label : CallbackLabel} {record : CallbackDeliveryRecord} (time : CallTime) :
      label.PassesBy deliveryId → record.status = .delivering →
        DeliveryMove self deliveryId label (some record) (some (record.expire time))
  | claimed {record : CallbackDeliveryRecord} {lockedFirst lockedSecond : List String}
      {time : CallTime} : record.deliveryId = deliveryId →
        record.due time.now (time.now - self.claimTimeoutSeconds) →
        DeliveryMove self deliveryId
          (.returned (.claimDue lockedFirst lockedSecond time)
            (.delivery (some (record.claim time))))
          (some record) (some (record.claim time))
  | audited {record : CallbackDeliveryRecord} {attemptId : String} {claim : CallbackClaim}
      {result : CallbackResult} {time : CallTime} : claim.deliveryId = deliveryId →
        record.attemptSequence ≠ claim.sequence →
        DeliveryMove self deliveryId
          (.returned (.recordResult attemptId claim result time) (.delivery (some record)))
          (some record) (some record)
  | settled {record : CallbackDeliveryRecord} {attemptId : String} {claim : CallbackClaim}
      {result : CallbackResult} {time : CallTime} : claim.deliveryId = deliveryId →
        record.attemptSequence = claim.sequence →
        DeliveryMove self deliveryId
          (.returned (.recordResult attemptId claim result time)
            (.delivery (some (record.settle result self.timing time))))
          (some record) (some (record.settle result self.timing time))
  | retried {record : CallbackDeliveryRecord} {time : CallTime} :
      record.status = .failed ∨ record.status = .cancelled ∨ record.status = .succeeded →
        DeliveryMove self deliveryId
          (.returned (.retry deliveryId time) (.delivery (some (record.reset time))))
          (some record) (some (record.reset time))

/-! ## Each call makes one of these moves -/

/-- A result of the current claim never leaves the delivery waiting for its first attempt. -/
theorem settle_status_ne_pending (record : CallbackDeliveryRecord) (result : CallbackResult)
    (timing : RetryTiming) (time : CallTime) :
    (record.settle result timing time).status ≠ .pending := by
  simp only [CallbackDeliveryRecord.settle, CallbackDeliveryRecord.outcome]
  split_ifs <;> simp

/-- The rows `materialize` adds wait for their first attempt. -/
theorem newDelivery?_spec {event : EventRecord} {maximumAttempts : Nat}
    (h : db.newDelivery? event deliveryId maximumAttempts now = some record) :
    record.deliveryId = deliveryId ∧ record.status = .pending ∧ record.attemptSequence = 0 := by
  simp only [Db.newDelivery?, bind, Option.bind_eq_some_iff] at h
  obtain ⟨_, _, _, _, _, _, h⟩ := h
  cases h
  exact ⟨rfl, rfl, rfl⟩

/-- What a pass has done to the row of a delivery so far. -/
def Materialized (before after : Option CallbackDeliveryRecord) : Prop :=
  after = before ∨ before = none ∧
    ∃ record, after = some record ∧ record.status = .pending ∧ record.attemptSequence = 0

theorem addDelivery_eq_ok (h : db.addDelivery record now = .ok db') :
    db.delivery? record.deliveryId = none ∧ db'.deliveries = db.deliveries ++ [record] := by
  unfold Db.addDelivery at h
  split at h
  · next hnew =>
      simp only [bind_eq_ok, ensure_eq_ok] at h
      obtain ⟨_, _, h⟩ := h
      cases h
      exact ⟨by simpa [Db.delivery?] using hnew, rfl⟩
  · cases h

theorem materializeEvent_keeps {maximumAttempts : Nat} {deliveryIds : Nat → String}
    {state state' : Db × List CallbackDeliveryRecord} {event : EventRecord}
    {before : Option CallbackDeliveryRecord}
    (hstate : Materialized before (state.1.delivery? deliveryId))
    (h : materializeEvent maximumAttempts deliveryIds now state event = .ok state') :
    Materialized before (state'.1.delivery? deliveryId) := by
  have hmarked : (state.1.markProcessed event).delivery? = state.1.delivery? := rfl
  simp only [materializeEvent] at h
  split at h
  · cases h
    exact hstate
  · next record hrecord =>
      obtain ⟨_, hpending, hsequence⟩ := newDelivery?_spec hrecord
      obtain ⟨db, hadd, h⟩ := bind_eq_ok.mp h
      cases h
      obtain ⟨hnone, hrows⟩ := addDelivery_eq_ok hadd
      have hrow : db.delivery? deliveryId = (state.1.delivery? deliveryId).or
          ([record].find? (·.deliveryId = deliveryId)) := by
        rw [Db.delivery?, hrows, List.find?_append]
        rfl
      rw [hmarked] at hnone
      by_cases hid : record.deliveryId = deliveryId
      · rw [hid] at hnone
        rw [hnone] at hrow hstate
        have hbefore : before = none := by
          rcases hstate with h | ⟨h, _⟩
          · exact h.symm
          · exact h
        exact .inr ⟨hbefore, record, by simpa [hid] using hrow, hpending, hsequence⟩
      · have hsame : db.delivery? deliveryId = state.1.delivery? deliveryId := by
          simpa [hid] using hrow
        rwa [← hsame] at hstate

theorem materialize_move {maximumAttempts limit : Nat} {deliveryIds : Nat → String}
    {records : List CallbackDeliveryRecord}
    (h : materialize db maximumAttempts limit deliveryIds now = .ok (db', records)) :
    DeliveryMove self deliveryId
      (.returned (.materialize maximumAttempts limit deliveryIds now) (.materialized records))
      (db.delivery? deliveryId) (db'.delivery? deliveryId) := by
  have hpasses : (CallbackLabel.returned (.materialize maximumAttempts limit deliveryIds now)
      (.materialized records)).PassesBy deliveryId := .of_none rfl rfl rfl
  have hkeeps : Materialized (db.delivery? deliveryId) (db'.delivery? deliveryId) :=
    foldlM_keeps (I := fun state => Materialized (db.delivery? deliveryId)
      (state.1.delivery? deliveryId)) (fun _ _ _ => materializeEvent_keeps) (.inl rfl) h
  rcases hkeeps with heq | ⟨hnone, record, hsome, hpending, hsequence⟩
  · rw [heq]
    exact .kept _ hpasses
  · rw [hnone, hsome]
    exact .created hpasses hpending hsequence

/-- One row may be given up; it is not claimed in the same call. -/
theorem expireClaim_cases (db : Db) (staleBefore : Time) (locked : List String) (time : CallTime)
    (deliveryId : String) :
    (expireClaim db staleBefore locked time).delivery? deliveryId = db.delivery? deliveryId ∨
      ∃ record, db.delivery? deliveryId = some record ∧ record.status = .delivering ∧
        (expireClaim db staleBefore locked time).delivery? deliveryId =
          some (record.expire time) := by
  unfold expireClaim
  split
  · exact .inl rfl
  · next record hfirst =>
      obtain ⟨hmem, hexhausted⟩ := Db.firstDelivery_spec hfirst
      have hrow := Db.delivery?_of_mem hmem
      by_cases hid : deliveryId = record.deliveryId
      · subst hid
        refine .inr ⟨record, hrow, ?_, Db.delivery?_changeDelivery_self hrow⟩
        simp only [CallbackDeliveryRecord.exhausted, Bool.and_eq_true, beq_iff_eq] at hexhausted
        exact hexhausted.1.1
      · exact .inl (Db.delivery?_changeDelivery_of_ne hid)

theorem expireClaim_move {label : CallbackLabel} (hpasses : label.PassesBy deliveryId)
    (staleBefore : Time) (locked : List String) :
    DeliveryMove self deliveryId label (db.delivery? deliveryId)
      ((expireClaim db staleBefore locked time).delivery? deliveryId) := by
  rcases expireClaim_cases db staleBefore locked time deliveryId with
    heq | ⟨record, hrow, hdelivering, heq⟩
  · rw [heq]
    exact .kept _ hpasses
  · rw [hrow, heq]
    exact .expired time hpasses hdelivering

theorem expire_not_due (record : CallbackDeliveryRecord) (expiredAt : CallTime)
    (now staleBefore : Time) :
    ¬ (record.expire expiredAt).due now staleBefore := by
  simp [CallbackDeliveryRecord.due, CallbackDeliveryRecord.expire]

theorem claimDue_move {lockedFirst lockedSecond : List String}
    {answer : Option CallbackDeliveryRecord}
    (h : claimDue db self.claimTimeoutSeconds lockedFirst lockedSecond time = (db', answer)) :
    DeliveryMove self deliveryId
      (.returned (.claimDue lockedFirst lockedSecond time) (.delivery answer))
      (db.delivery? deliveryId) (db'.delivery? deliveryId) := by
  set staleBefore := time.now - self.claimTimeoutSeconds with hstale
  simp only [claimDue, ← hstale] at h
  split at h
  · cases h
    exact expireClaim_move (.of_none rfl rfl rfl) _ _
  · next record hfirst =>
      cases h
      obtain ⟨hmem, hdue⟩ := Db.firstDelivery_spec hfirst
      have hfound := Db.delivery?_of_mem hmem
      by_cases hid : deliveryId = record.deliveryId
      · subst hid
        have hclaimed : ((expireClaim db staleBefore lockedFirst time).changeDelivery
            (record.claim time) time.now).delivery? record.deliveryId = some (record.claim time) :=
          Db.delivery?_changeDelivery_self hfound
        rw [hclaimed]
        rcases expireClaim_cases db staleBefore lockedFirst time record.deliveryId with
          heq | ⟨_, _, _, heq⟩
        · rw [← heq, hfound]
          exact .claimed rfl hdue
        · rw [hfound] at heq
          cases heq
          exact absurd hdue (expire_not_due _ _ _ _)
      · have hother : ((expireClaim db staleBefore lockedFirst time).changeDelivery
            (record.claim time) time.now).delivery? deliveryId =
              (expireClaim db staleBefore lockedFirst time).delivery? deliveryId :=
          Db.delivery?_changeDelivery_of_ne hid
        rw [hother]
        refine expireClaim_move (.of_none ?_ rfl rfl) _ _
        exact if_neg (Ne.symm hid)

theorem recordResult_move {attemptId : String} {claim : CallbackClaim} {result : CallbackResult}
    {answer : Option CallbackDeliveryRecord}
    (h : recordResult db self.timing attemptId claim.deliveryId claim.sequence
      claim.attemptNumber result time = .ok (db', answer)) :
    DeliveryMove self deliveryId
      (.returned (.recordResult attemptId claim result time) (.delivery answer))
      (db.delivery? deliveryId) (db'.delivery? deliveryId) := by
  unfold recordResult at h
  split at h
  · cases h
    exact .kept _ (.of_none rfl rfl rfl)
  · next record hrow =>
      simp only [bind_eq_ok, ensure_eq_ok] at h
      obtain ⟨_, _, h⟩ := h
      obtain ⟨_, hkey⟩ := Db.delivery?_mem hrow
      by_cases hid : claim.deliveryId = deliveryId
      · rw [hid] at hrow hkey
        split at h
        · next hstale =>
            cases h
            rw [Db.delivery?_addAttempt, hrow]
            exact .audited hid hstale
        · next hcurrent =>
            cases h
            have hsettled : (record.settle result self.timing time).deliveryId = deliveryId := hkey
            rw [← hsettled] at hrow ⊢
            have hadded := (Db.delivery?_addAttempt (newAttempt attemptId claim.deliveryId
              claim.sequence claim.attemptNumber result time.now)).trans hrow
            rw [hrow, Db.delivery?_changeDelivery_self hadded]
            exact .settled (hid.trans hsettled.symm) (not_not.mp hcurrent)
      · have hpasses : (CallbackLabel.returned (.recordResult attemptId claim result time)
            (.delivery answer)).PassesBy deliveryId := by
          cases answer with
          | none => exact .of_none rfl rfl rfl
          | some _ =>
              refine ⟨rfl, by simp [CallbackLabel.retried?], ?_⟩
              simp [CallbackLabel.reported?, hid]
        split at h
        · cases h
          exact .kept _ hpasses
        · cases h
          have hne : deliveryId ≠ (record.settle result self.timing time).deliveryId :=
            fun heq => hid (hkey.symm.trans heq.symm)
          rw [Db.delivery?_changeDelivery_of_ne hne, Db.delivery?_addAttempt]
          exact .kept _ hpasses

theorem retryDelivery_move {id : String} {answer : Option CallbackDeliveryRecord}
    (h : retryDelivery db id time = .ok (db', answer)) :
    DeliveryMove self deliveryId (.returned (.retry id time) (.delivery answer))
      (db.delivery? deliveryId) (db'.delivery? deliveryId) := by
  unfold retryDelivery at h
  split at h
  · cases h
    exact .kept _ (.of_none rfl rfl rfl)
  · next record hrow =>
      simp only [bind_eq_ok, ensure_eq_ok] at h
      obtain ⟨_, hended, h⟩ := h
      cases h
      obtain ⟨_, hkey⟩ := Db.delivery?_mem hrow
      subst hkey
      by_cases hid : deliveryId = record.deliveryId
      · subst hid
        have hreset : (db.changeDelivery (record.reset time) time.now).delivery? record.deliveryId =
            some (record.reset time) := Db.delivery?_changeDelivery_self hrow
        rw [hrow, hreset]
        exact .retried hended
      · have hother : (db.changeDelivery (record.reset time) time.now).delivery? deliveryId =
            db.delivery? deliveryId := Db.delivery?_changeDelivery_of_ne hid
        rw [hother]
        refine .kept _ ⟨rfl, ?_, by simp [CallbackLabel.reported?]⟩
        simpa [CallbackLabel.retried?] using Ne.symm hid

theorem CallbackStep.move {s t : CallbackState} {label : CallbackLabel}
    (h : CallbackStep self s label t) (deliveryId : String) :
    DeliveryMove self deliveryId label (s.db.delivery? deliveryId)
      (t.db.delivery? deliveryId) := by
  cases h with
  | @returned db' call response _ hexec =>
      cases call with
      | materialize maximumAttempts limit deliveryIds now =>
          obtain ⟨⟨db₁, records⟩, hcall, heq⟩ := bind_eq_ok.mp hexec
          cases heq
          exact materialize_move hcall
      | claimDue lockedFirst lockedSecond time =>
          cases hexec
          exact claimDue_move rfl
      | recordResult attemptId claim result time =>
          obtain ⟨⟨db₁, answer⟩, hcall, heq⟩ := bind_eq_ok.mp hexec
          cases heq
          exact recordResult_move hcall
      | retry id time =>
          obtain ⟨⟨db₁, answer⟩, hcall, heq⟩ := bind_eq_ok.mp hexec
          cases heq
          exact retryDelivery_move hcall
  | raised => exact .kept _ (.of_none rfl rfl rfl)
  | elsewhere hdeliveries _ =>
      simp only [Db.delivery?, hdeliveries]
      exact .kept _ (.of_none rfl rfl rfl)

end ParserServe
