import ParserServe.Callback.LateResults

/-! # The states of a delivery

The status of a delivery bounds its attempt counter: a delivery that may be claimed without a
timeout has attempts left.  The counter is the number of claims since the last manual retry.
-/

namespace ParserServe

open Foundation

variable {self : CallbackDispatcher} {db db' : Db} {s₀ s t : CallbackState}
  {label : CallbackLabel} {labels : List CallbackLabel} {record : CallbackDeliveryRecord}
  {deliveryId : String} {now : Time} {time : CallTime}

/-! ## New rows -/

/-- A row as `materialize` adds it. -/
structure CallbackDeliveryRecord.New (record : CallbackDeliveryRecord) (maximumAttempts : Nat)
    (now : Time) : Prop where
  pending : record.status = .pending
  attempt : record.attempt = 0
  attemptSequence : record.attemptSequence = 0
  maximumAttempts : record.maximumAttempts = maximumAttempts
  responseStatusCode : record.responseStatusCode = none
  nextAttemptAt : record.nextAttemptAt = none
  createdAt : record.createdAt = now
  updatedAt : record.updatedAt = now

theorem newDelivery?_new {event : EventRecord} {maximumAttempts : Nat}
    (h : db.newDelivery? event deliveryId maximumAttempts now = some record) :
    record.New maximumAttempts now := by
  simp only [Db.newDelivery?, bind, Option.bind_eq_some_iff] at h
  obtain ⟨_, _, _, _, _, _, h⟩ := h
  cases h
  exact ⟨rfl, rfl, rfl, rfl, rfl, rfl, rfl, rfl⟩

theorem materializeEvent_new {maximumAttempts : Nat} {deliveryIds : Nat → String}
    {state state' : Db × List CallbackDeliveryRecord} {event : EventRecord}
    (hstate : ∀ record ∈ state.1.deliveries,
      record ∈ db.deliveries ∨ record.New maximumAttempts now)
    (h : materializeEvent maximumAttempts deliveryIds now state event = .ok state') :
    ∀ record ∈ state'.1.deliveries, record ∈ db.deliveries ∨ record.New maximumAttempts now := by
  simp only [materializeEvent] at h
  split at h
  · cases h
    exact hstate
  · next added hadded =>
      obtain ⟨db₁, hadd, h⟩ := bind_eq_ok.mp h
      cases h
      intro record hrecord
      rw [(addDelivery_eq_ok hadd).2, List.mem_append, List.mem_singleton] at hrecord
      rcases hrecord with hold | rfl
      · exact hstate record hold
      · exact .inr (newDelivery?_new hadded)

/-- A pass of `materialize` keeps the rows there are and adds new ones. -/
theorem materialize_new {maximumAttempts limit : Nat} {deliveryIds : Nat → String}
    {records : List CallbackDeliveryRecord}
    (h : materialize db maximumAttempts limit deliveryIds now = .ok (db', records)) :
    ∀ record ∈ db'.deliveries, record ∈ db.deliveries ∨ record.New maximumAttempts now :=
  foldlM_keeps (I := fun state => ∀ record ∈ state.1.deliveries,
    record ∈ db.deliveries ∨ record.New maximumAttempts now)
    (fun _ _ _ => materializeEvent_new) (fun _ hmem => .inl hmem) h

/-- The attempts and the time of the call that may add deliveries. -/
def CallbackLabel.materialized? : CallbackLabel → Option (Nat × Time)
  | .returned (.materialize maximumAttempts _ _ now) _ => some (maximumAttempts, now)
  | _ => none

/-- Rows written at one time or later, none of them new. -/
structure Rewrites (now : Option Time) (rows rows' : List CallbackDeliveryRecord) : Prop where
  ids : rows'.map (·.deliveryId) = rows.map (·.deliveryId)
  written : ∀ row ∈ rows', row ∈ rows ∨ ∃ time ∈ now, time ≤ row.updatedAt

theorem Rewrites.refl (now : Option Time) (rows : List CallbackDeliveryRecord) :
    Rewrites now rows rows :=
  ⟨rfl, fun _ hrow => .inl hrow⟩

theorem Rewrites.change {rows : List CallbackDeliveryRecord}
    (h : Rewrites (some now) rows db.deliveries) (htime : now ≤ record.updatedAt) :
    Rewrites (some now) rows (db.changeDelivery record now).deliveries := by
  refine ⟨(map_replaceKey _ _ _).trans h.ids, fun row hrow => ?_⟩
  rcases mem_replaceKey_cases hrow with rfl | ⟨hrow, -⟩
  · exact .inr ⟨now, rfl, htime⟩
  · exact h.written row hrow

theorem claimDue_rewrites (db : Db) (claimTimeoutSeconds : ℚ)
    (lockedFirst lockedSecond : List String) (time : CallTime) :
    Rewrites (some time.now) db.deliveries
      (claimDue db claimTimeoutSeconds lockedFirst lockedSecond time).1.deliveries := by
  have hexpire : ∀ staleBefore, Rewrites (some time.now) db.deliveries
      (expireClaim db staleBefore lockedFirst time).deliveries := by
    intro staleBefore
    unfold expireClaim
    split
    · exact .refl _ _
    · exact (Rewrites.refl _ _).change (CallbackDeliveryRecord.le_flush_updatedAt _ _ _ rfl)
  simp only [claimDue]
  split
  · exact hexpire _
  · exact (hexpire _).change (CallbackDeliveryRecord.le_flush_updatedAt _ _ _ rfl)

theorem recordResult_rewrites {timing : RetryTiming} {attemptId : String}
    {sequence attemptNumber : Nat} {result : CallbackResult}
    {answer : Option CallbackDeliveryRecord}
    (h : recordResult db timing attemptId deliveryId sequence attemptNumber result time =
      .ok (db', answer)) : Rewrites (some time.now) db.deliveries db'.deliveries := by
  unfold recordResult at h
  split at h
  · cases h
    exact .refl _ _
  · simp only [bind_eq_ok, ensure_eq_ok] at h
    obtain ⟨_, _, h⟩ := h
    split at h
    · cases h
      exact .refl _ _
    · cases h
      exact (Rewrites.refl _ _).change (CallbackDeliveryRecord.le_flush_updatedAt _ _ _ rfl)

theorem retryDelivery_rewrites {answer : Option CallbackDeliveryRecord}
    (h : retryDelivery db deliveryId time = .ok (db', answer)) :
    Rewrites (some time.now) db.deliveries db'.deliveries := by
  unfold retryDelivery at h
  split at h
  · cases h
    exact .refl _ _
  · simp only [bind_eq_ok, ensure_eq_ok] at h
    obtain ⟨_, _, h⟩ := h
    cases h
    exact (Rewrites.refl _ _).change (CallbackDeliveryRecord.le_flush_updatedAt _ _ _ rfl)

/-- Only a pass of `materialize` adds rows. -/
theorem CallbackStep.rewrites (hstep : CallbackStep self s label t)
    (hlabel : label.materialized? = none) :
    Rewrites label.time? s.db.deliveries t.db.deliveries := by
  cases hstep with
  | @returned db' call response _ hexec =>
      cases call with
      | materialize => cases hlabel
      | claimDue lockedFirst lockedSecond time =>
          cases hexec
          exact claimDue_rewrites _ _ _ _ _
      | recordResult attemptId claim result time =>
          obtain ⟨⟨db₁, answer⟩, hcall, heq⟩ := bind_eq_ok.mp hexec
          cases heq
          exact recordResult_rewrites hcall
      | retry id time =>
          obtain ⟨⟨db₁, answer⟩, hcall, heq⟩ := bind_eq_ok.mp hexec
          cases heq
          exact retryDelivery_rewrites hcall
  | raised => exact .refl _ _
  | elsewhere hdeliveries _ =>
      rw [hdeliveries]
      exact .refl _ _

theorem CallbackStep.materialize_new (hstep : CallbackStep self s label t)
    {maximumAttempts : Nat} (hlabel : label.materialized? = some (maximumAttempts, now)) :
    label.time? = some now ∧
      ∀ row ∈ t.db.deliveries, row ∈ s.db.deliveries ∨ row.New maximumAttempts now := by
  cases hstep with
  | raised | elsewhere => cases hlabel
  | @returned db' call response _ hexec =>
      cases call with
      | claimDue | recordResult | retry => cases hlabel
      | materialize =>
          obtain ⟨⟨db₁, records⟩, hcall, heq⟩ := bind_eq_ok.mp hexec
          cases heq
          cases hlabel
          exact ⟨rfl, ParserServe.materialize_new hcall⟩

/-- A delivery that a step creates is a new row of a pass of `materialize`. -/
theorem CallbackStep.created (hstep : CallbackStep self s label t)
    (hbefore : s.db.delivery? deliveryId = none)
    (hafter : t.db.delivery? deliveryId = some record) :
    ∃ maximumAttempts now, label.materialized? = some (maximumAttempts, now) ∧
      record.New maximumAttempts now := by
  obtain ⟨hmem, hid⟩ := Db.delivery?_mem hafter
  have hnew : record.deliveryId ∉ s.db.deliveries.map (·.deliveryId) := by
    rw [hid]
    simpa [Db.delivery?] using hbefore
  cases hlabel : label.materialized? with
  | none =>
      rw [← (hstep.rewrites hlabel).ids] at hnew
      exact absurd (List.mem_map_of_mem hmem) hnew
  | some call =>
      refine ⟨call.1, call.2, rfl, ((hstep.materialize_new hlabel).2 record hmem).resolve_left ?_⟩
      exact fun hold => hnew (List.mem_map_of_mem hold)

/-! ## The status bounds the attempt -/

/-- What holds of every row. -/
structure CallbackDeliveryRecord.Sound (record : CallbackDeliveryRecord) : Prop where
  maximum_valid : 1 ≤ record.maximumAttempts ∧ record.maximumAttempts ≤ 20
  attempt_le : record.attempt ≤ record.maximumAttempts
  attempt_le_sequence : record.attempt ≤ record.attemptSequence
  next_iff : record.nextAttemptAt.isSome ↔ record.status = .retryWait
  pending : record.status = .pending → record.attempt = 0
  retryWait : record.status = .retryWait → record.attempt < record.maximumAttempts

theorem CallbackDeliveryRecord.New.sound {maximumAttempts : Nat}
    (h : record.New maximumAttempts now) (hmax : 1 ≤ maximumAttempts ∧ maximumAttempts ≤ 20) :
    record.Sound := by
  refine ⟨h.maximumAttempts ▸ hmax, ?_, ?_, ?_, fun _ => h.attempt, ?_⟩
  · simp [h.attempt]
  · simp [h.attempt]
  · simp [h.nextAttemptAt, h.pending]
  · simp [h.pending]

theorem CallbackDeliveryRecord.Sound.attempt_lt {staleBefore : Time} (h : record.Sound)
    (hdue : record.due now staleBefore) : record.attempt < record.maximumAttempts := by
  simp only [CallbackDeliveryRecord.due, Bool.or_eq_true, Bool.and_eq_true, beq_iff_eq,
    decide_eq_true_eq] at hdue
  rcases hdue with (hpending | ⟨hwaits, -⟩) | ⟨-, hleft⟩
  · rw [h.pending hpending]
    exact h.maximum_valid.1
  · exact h.retryWait hwaits
  · exact hleft

theorem CallbackDeliveryRecord.Sound.claim {staleBefore : Time} (h : record.Sound)
    (hdue : record.due now staleBefore) (time : CallTime) : (record.claim time).Sound where
  maximum_valid := h.maximum_valid
  attempt_le := h.attempt_lt hdue
  attempt_le_sequence := Nat.succ_le_succ h.attempt_le_sequence
  next_iff := by simp [CallbackDeliveryRecord.claim]
  pending := nofun
  retryWait := nofun

theorem CallbackDeliveryRecord.Sound.expire (h : record.Sound)
    (hdelivering : record.status = .delivering) (time : CallTime) :
    (record.expire time).Sound where
  maximum_valid := h.maximum_valid
  attempt_le := h.attempt_le
  attempt_le_sequence := h.attempt_le_sequence
  next_iff := by
    have hnext := h.next_iff
    simp only [hdelivering, reduceCtorEq, iff_false] at hnext
    simpa [CallbackDeliveryRecord.expire] using hnext
  pending := nofun
  retryWait := nofun

theorem CallbackDeliveryRecord.Sound.settle (h : record.Sound) (result : CallbackResult)
    (timing : RetryTiming) (time : CallTime) : (record.settle result timing time).Sound := by
  refine ⟨h.maximum_valid, h.attempt_le, h.attempt_le_sequence, ?_, ?_, ?_⟩
  · simp only [CallbackDeliveryRecord.settle, CallbackDeliveryRecord.outcome]
    split_ifs <;> simp
  · exact fun hpending => absurd hpending (settle_status_ne_pending record result timing time)
  · simp only [CallbackDeliveryRecord.settle, CallbackDeliveryRecord.outcome]
    split_ifs with _ hretry
    · simp
    · exact fun _ => hretry.2
    · simp

theorem CallbackDeliveryRecord.Sound.reset (h : record.Sound) (time : CallTime) :
    (record.reset time).Sound where
  maximum_valid := h.maximum_valid
  attempt_le := Nat.zero_le _
  attempt_le_sequence := Nat.zero_le _
  next_iff := by simp [CallbackDeliveryRecord.reset]
  pending _ := rfl
  retryWait := nofun

theorem DeliveryMove.sound {row row' : Option CallbackDeliveryRecord}
    (h : DeliveryMove self deliveryId label row row') (hrow : ∀ record ∈ row, record.Sound)
    (hcreated : row = none → ∀ record ∈ row', record.Sound) : ∀ record ∈ row', record.Sound := by
  cases h with
  | kept | audited => exact hrow
  | created => exact hcreated rfl
  | expired time _ hdelivering =>
      rintro _ ⟨⟩
      exact (hrow _ rfl).expire hdelivering time
  | claimed _ hdue =>
      rintro _ ⟨⟩
      exact (hrow _ rfl).claim hdue _
  | settled =>
      rintro _ ⟨⟩
      exact (hrow _ rfl).settle _ _ _
  | retried =>
      rintro _ ⟨⟩
      exact (hrow _ rfl).reset _

/-- The calls of `materialize` allow between 1 and 20 attempts. -/
def CallbackLabel.AttemptsValid (label : CallbackLabel) : Prop :=
  ∀ call ∈ label.materialized?, 1 ≤ call.1 ∧ call.1 ≤ 20

instance : DecidablePred CallbackLabel.AttemptsValid :=
  fun label => inferInstanceAs (Decidable (∀ call ∈ label.materialized?, _))

theorem sound_run (hstart : (callbacks self).Initial s₀) (hrun : (callbacks self).Run s₀ labels s)
    (hmax : ∀ label ∈ labels, label.AttemptsValid) (deliveryId : String) :
    ∀ record ∈ s.db.delivery? deliveryId, record.Sound := by
  induction hrun with
  | nil => simp [Db.delivery?, hstart.1]
  | @snoc t u labels label hrun hstep ih =>
      have hrow := ih fun other hother => hmax other (List.mem_append_left _ hother)
      refine (CallbackStep.move hstep deliveryId).sound hrow fun hnone record hrecord => ?_
      obtain ⟨maximumAttempts, now, hlabel, hnew⟩ := CallbackStep.created hstep hnone hrecord
      exact hnew.sound (hmax label (by simp) _ hlabel)

/-! ## Times -/

/-- The clock readings of a run. -/
def clockOf (labels : List CallbackLabel) : List Time :=
  labels.filterMap (·.time?)

/-- A row keeps its creation, and is written at the time of the call or later. -/
theorem CallbackStep.times (hstep : CallbackStep self s label t)
    (hafter : t.db.delivery? deliveryId = some record) :
    s.db.delivery? deliveryId = some record ∨
      ∃ now, label.time? = some now ∧ now ≤ record.updatedAt ∧
        (now = record.createdAt ∨
          ∃ row, s.db.delivery? deliveryId = some row ∧ row.createdAt = record.createdAt) := by
  obtain ⟨hmem, hid⟩ := Db.delivery?_mem hafter
  cases hlabel : label.materialized? with
  | some call =>
      obtain ⟨htime, hrows⟩ := hstep.materialize_new hlabel
      rcases hrows record hmem with hold | hnew
      · exact .inl (hid ▸ Db.delivery?_of_mem hold)
      · exact .inr ⟨_, htime, hnew.updatedAt.ge, .inl hnew.createdAt.symm⟩
  | none =>
      rcases (hstep.rewrites hlabel).written record hmem with hold | ⟨now, htime, hle⟩
      · exact .inl (hid ▸ Db.delivery?_of_mem hold)
      · refine .inr ⟨now, htime, hle, .inr ?_⟩
        have hmove := hstep.move deliveryId
        rw [hafter] at hmove
        generalize hbefore : s.db.delivery? deliveryId = row at hmove
        cases hmove with
        | created =>
            obtain ⟨_, _, hmaterialized, _⟩ := hstep.created hbefore hafter
            rw [hlabel] at hmaterialized
            cases hmaterialized
        | kept | expired | claimed | audited | settled | retried => exact ⟨_, rfl, rfl⟩

theorem times_run (hstart : (callbacks self).Initial s₀) (hrun : (callbacks self).Run s₀ labels s)
    (hclock : (clockOf labels).Pairwise (· ≤ ·)) :
    ∀ record ∈ s.db.delivery? deliveryId, record.createdAt ∈ clockOf labels ∧
      record.createdAt ≤ record.updatedAt := by
  induction hrun with
  | nil => simp [Db.delivery?, hstart.1]
  | @snoc t u labels label hrun hstep ih =>
      intro record hrecord
      rw [clockOf, List.filterMap_append, List.pairwise_append] at hclock
      obtain ⟨hbefore, -, hlast⟩ := hclock
      have hlater : ∀ time, label.time? = some time →
          ∀ earlier ∈ clockOf labels, earlier ≤ time := by
        intro time htime earlier hearlier
        exact hlast earlier hearlier time (by simp [htime])
      have hkept : ∀ time ∈ clockOf labels, time ∈ clockOf (labels ++ [label]) := by
        intro time htime
        rw [clockOf, List.filterMap_append]
        exact List.mem_append_left _ htime
      rcases CallbackStep.times hstep hrecord with
        hold | ⟨now, hwritten, hle, rfl | ⟨row, hrow, hcreated⟩⟩
      · obtain ⟨hin, hle⟩ := ih hbefore record hold
        exact ⟨hkept _ hin, hle⟩
      · refine ⟨?_, hle⟩
        rw [clockOf, List.filterMap_append]
        exact List.mem_append_right _ (by simp [hwritten])
      · obtain ⟨hin, -⟩ := ih hbefore row hrow
        rw [hcreated] at hin
        exact ⟨hkept _ hin, (hlater _ hwritten _ hin).trans hle⟩

/-! ## Audit rows -/

theorem materializeEvent_attempts {maximumAttempts : Nat} {deliveryIds : Nat → String}
    {state state' : Db × List CallbackDeliveryRecord} {event : EventRecord}
    (h : materializeEvent maximumAttempts deliveryIds now state event = .ok state') :
    state'.1.attempts = state.1.attempts := by
  simp only [materializeEvent] at h
  split at h
  · cases h
    rfl
  · obtain ⟨db₁, hadd, h⟩ := bind_eq_ok.mp h
    cases h
    unfold Db.addDelivery at hadd
    split at hadd
    · simp only [bind_eq_ok, ensure_eq_ok] at hadd
      obtain ⟨_, _, hadd⟩ := hadd
      cases hadd
      rfl
    · cases hadd

theorem claimDue_attempts (db : Db) (claimTimeoutSeconds : ℚ)
    (lockedFirst lockedSecond : List String) (time : CallTime) :
    (claimDue db claimTimeoutSeconds lockedFirst lockedSecond time).1.attempts = db.attempts := by
  have hexpire : ∀ staleBefore,
      (expireClaim db staleBefore lockedFirst time).attempts = db.attempts := by
    intro staleBefore
    unfold expireClaim
    split <;> rfl
  simp only [claimDue]
  split
  · exact hexpire _
  · exact hexpire _

/-- The row a report adds. -/
def CallbackClaim.audit (claim : CallbackClaim) (attemptId : String) (result : CallbackResult)
    (now : Time) : CallbackAttemptRecord :=
  newAttempt attemptId claim.deliveryId claim.sequence claim.attemptNumber result now

/-- A report on a delivery adds one row, of a request in flight that has none yet. -/
theorem CallbackStep.attempts_cases (hstep : CallbackStep self s label t) :
    (t.db.attempts = s.db.attempts ∧ label.reported? = none) ∨
      ∃ attemptId claim result time record,
        label = .returned (.recordResult attemptId claim result time) (.delivery (some record)) ∧
        claim ∈ s.inFlight ∧
        (claim.deliveryId, claim.sequence) ∉
          s.db.attempts.map (fun row => (row.deliveryId, row.sequence)) ∧
        t.db.attempts = s.db.attempts ++ [claim.audit attemptId result time.now] := by
  cases hstep with
  | raised => exact .inl ⟨rfl, rfl⟩
  | elsewhere _ hattempts => exact .inl ⟨hattempts, rfl⟩
  | @returned db' call response hsent hexec =>
      cases call with
      | materialize maximumAttempts limit deliveryIds now =>
          obtain ⟨⟨db₁, records⟩, hcall, heq⟩ := bind_eq_ok.mp hexec
          cases heq
          refine .inl ⟨?_, rfl⟩
          exact foldlM_keeps (I := fun state => state.1.attempts = s.db.attempts)
            (fun _ _ _ hstate hevent => (materializeEvent_attempts hevent).trans hstate) rfl hcall
      | claimDue lockedFirst lockedSecond time =>
          cases hexec
          exact .inl ⟨claimDue_attempts _ _ _ _ _, rfl⟩
      | recordResult attemptId claim result time =>
          obtain ⟨⟨db₁, answer⟩, hcall, heq⟩ := bind_eq_ok.mp hexec
          cases heq
          unfold recordResult at hcall
          split at hcall
          · cases hcall
            exact .inl ⟨rfl, rfl⟩
          · simp only [bind_eq_ok, ensure_eq_ok] at hcall
            obtain ⟨_, ⟨_, hnew⟩, hcall⟩ := hcall
            split at hcall <;> cases hcall <;>
              exact .inr ⟨attemptId, claim, result, time, _, rfl, hsent, hnew, rfl⟩
      | retry id time =>
          obtain ⟨⟨db₁, answer⟩, hcall, heq⟩ := bind_eq_ok.mp hexec
          cases heq
          unfold retryDelivery at hcall
          split at hcall
          · cases hcall
            exact .inl ⟨rfl, rfl⟩
          · simp only [bind_eq_ok, ensure_eq_ok] at hcall
            obtain ⟨_, _, hcall⟩ := hcall
            cases hcall
            exact .inl ⟨rfl, rfl⟩

theorem audit_run (hstart : (callbacks self).Initial s₀) (hrun : (callbacks self).Run s₀ labels s) :
    (s.db.attempts.map fun row => (row.deliveryId, row.sequence)).Nodup ∧
      ∀ row ∈ s.db.attempts, row.sequence ∈ claimsOf row.deliveryId labels := by
  induction hrun with
  | nil => simp [hstart.2.1]
  | @snoc t u labels label hrun hstep ih =>
      obtain ⟨hdistinct, hclaimed⟩ := ih
      have hkept : ∀ row ∈ t.db.attempts,
          row.sequence ∈ claimsOf row.deliveryId (labels ++ [label]) :=
        fun row hrow => mem_claimsOf_append (hclaimed row hrow)
      rcases CallbackStep.attempts_cases hstep with
        ⟨hsame, -⟩ | ⟨attemptId, claim, result, time, record, -, hsent, hnew, hadded⟩
      · rw [hsame]
        exact ⟨hdistinct, hkept⟩
      · rw [hadded]
        constructor
        · rw [List.map_append, List.nodup_append']
          refine ⟨hdistinct, List.nodup_singleton _, ?_⟩
          simpa [CallbackClaim.audit, newAttempt] using hnew
        · intro row hrow
          rcases List.mem_append.mp hrow with hrow | hrow
          · exact hkept row hrow
          · rw [List.mem_singleton.mp hrow]
            exact mem_claimsOf_append ((requests_run hstart hrun).claimed claim hsent)

/-- Attempts that were claimed are numbered up to the sequence of their delivery. -/
theorem exists_of_mem_claimsOf {sequence : Nat} (hstart : (callbacks self).Initial s₀)
    (hrun : (callbacks self).Run s₀ labels s) (hclaimed : sequence ∈ claimsOf deliveryId labels) :
    ∃ record, s.db.delivery? deliveryId = some record ∧ 1 ≤ sequence ∧
      sequence ≤ record.attemptSequence := by
  rw [claimsOf_run hstart hrun, List.mem_range'_1] at hclaimed
  cases hrow : s.db.delivery? deliveryId with
  | none =>
      simp only [hrow, sequenceOf, Option.elim_none] at hclaimed
      omega
  | some record =>
      simp only [hrow, sequenceOf, Option.elim_some] at hclaimed
      exact ⟨record, rfl, hclaimed.1, by omega⟩

/-! ## Claims between manual retries -/

/-- The attempt of a row; a delivery that does not exist yet has none. -/
def attemptOf (row : Option CallbackDeliveryRecord) : Nat :=
  row.elim 0 (·.attempt)

/-- A claim takes one attempt, and only a manual retry gives any back. -/
theorem DeliveryMove.attemptOf_eq {row row' : Option CallbackDeliveryRecord}
    (h : DeliveryMove self deliveryId label row row') (hrow' : ∀ record ∈ row', record.Sound)
    (hretried : label.retried? ≠ some deliveryId) :
    attemptOf row' = attemptOf row + (claimsOf deliveryId [label]).length := by
  rw [claimsOf_singleton]
  cases h with
  | kept row hpasses => simp [hpasses.1]
  | created hpasses hpending =>
      simp [hpasses.1, attemptOf, (hrow' _ rfl).pending hpending]
  | expired now hpasses => simp [hpasses.1, attemptOf, CallbackDeliveryRecord.expire]
  | claimed hid => simp [CallbackLabel.claimed?, CallbackDeliveryRecord.claim, hid, attemptOf]
  | audited | settled => rfl
  | retried => exact absurd rfl hretried

/-- No row goes away, and each keeps the attempts it was created with. -/
theorem DeliveryMove.isSome {row : CallbackDeliveryRecord}
    {row' : Option CallbackDeliveryRecord}
    (h : DeliveryMove self deliveryId label (some row) row') :
    ∃ record, row' = some record ∧ record.maximumAttempts = row.maximumAttempts := by
  cases h <;> exact ⟨_, rfl, rfl⟩

theorem maximumAttempts_run {row : CallbackDeliveryRecord}
    (hrun : (callbacks self).Run s labels t) (hrow : s.db.delivery? deliveryId = some row) :
    ∃ record, t.db.delivery? deliveryId = some record ∧
      record.maximumAttempts = row.maximumAttempts := by
  induction hrun with
  | nil => exact ⟨row, hrow, rfl⟩
  | @snoc t u labels label _ hstep ih =>
      obtain ⟨record, hrecord, hmaximum⟩ := ih
      have hmove := CallbackStep.move hstep deliveryId
      rw [hrecord] at hmove
      obtain ⟨record', hrecord', hmaximum'⟩ := hmove.isSome
      exact ⟨record', hrecord', hmaximum'.trans hmaximum⟩

theorem attemptOf_run {before middle : List CallbackLabel} (hstart : (callbacks self).Initial s₀)
    (hbefore : (callbacks self).Run s₀ before s) (hmiddle : (callbacks self).Run s middle t)
    (hmax : ∀ label ∈ before ++ middle, label.AttemptsValid)
    (hretried : ∀ label ∈ middle, label.retried? ≠ some deliveryId) :
    attemptOf (t.db.delivery? deliveryId) =
      attemptOf (s.db.delivery? deliveryId) + (claimsOf deliveryId middle).length := by
  induction hmiddle with
  | nil => rfl
  | @snoc t u middle label hmiddle hstep ih =>
      rw [← List.append_assoc] at hmax
      have hsound := sound_run hstart ((hbefore.trans hmiddle).snoc hstep) hmax deliveryId
      have hone := (CallbackStep.move hstep deliveryId).attemptOf_eq hsound
        (hretried label (by simp))
      have hrest := ih (fun other hother => hmax other (List.mem_append_left _ hother))
        fun other hother => hretried other (List.mem_append_left _ hother)
      rw [hone, hrest, claimsOf_append, List.length_append, Nat.add_assoc]

theorem claims_le_maximum {before middle after : List CallbackLabel}
    (hstart : (callbacks self).Initial s₀)
    (hrun : (callbacks self).Run s₀ (before ++ middle ++ after) s)
    (hmax : ∀ label ∈ before ++ middle ++ after, label.AttemptsValid)
    (hretried : ∀ label ∈ middle, label.retried? ≠ some deliveryId)
    (hrow : s.db.delivery? deliveryId = some record) :
    (claimsOf deliveryId middle).length ≤ record.maximumAttempts := by
  obtain ⟨t, hfirst, hafter⟩ := hrun.split
  obtain ⟨u, hbefore, hmiddle⟩ := hfirst.split
  have hvalid : ∀ label ∈ before ++ middle, label.AttemptsValid :=
    fun label hlabel => hmax label (List.mem_append_left _ hlabel)
  have hattempt := attemptOf_run hstart hbefore hmiddle hvalid hretried
  cases hfound : t.db.delivery? deliveryId with
  | none =>
      rw [hfound, attemptOf, Option.elim_none] at hattempt
      omega
  | some row =>
      obtain ⟨record', hrecord', hmaximum⟩ := maximumAttempts_run hafter hfound
      cases hrow.symm.trans hrecord'
      have hle := (sound_run hstart hfirst hvalid deliveryId row hfound).attempt_le
      rw [hfound, attemptOf, Option.elim_some] at hattempt
      omega

/-! ## Every reachable state -/

theorem validateDelivery_iff {detail : CallbackDeliveryDetail} :
    detail.validateDelivery = .ok () ↔
      detail.attempt ≤ detail.maximumAttempts ∧ detail.attempt ≤ detail.totalAttempts ∧
        detail.createdAt ≤ detail.updatedAt ∧
        (detail.nextAttemptAt.isSome ↔ detail.status = .retryWait) := by
  have hnext : (detail.nextAttemptAt.isSome ↔ detail.status = .retryWait) ↔
      (detail.status = .retryWait → detail.nextAttemptAt.isSome) ∧
        (detail.status ≠ .retryWait → detail.nextAttemptAt = none) := by
    rw [ne_eq, not_imp_comm, ← ne_eq, Option.ne_none_iff_isSome, and_comm]
    exact iff_iff_implies_and_implies
  simp only [CallbackDeliveryDetail.validateDelivery, bind_eq_ok, ensure_eq_ok, hnext,
    exists_and_left, exists_const]

theorem delivery_states_sound (hstart : (callbacks self).Initial s₀)
    (hrun : (callbacks self).Run s₀ labels s) (hclock : (clockOf labels).Pairwise (· ≤ ·))
    (hmax : ∀ label ∈ labels, label.AttemptsValid) :
    (∀ record ∈ s.db.deliveries,
      record.attempt ≤ record.maximumAttempts ∧ record.attempt ≤ record.attemptSequence ∧
      (record.nextAttemptAt.isSome ↔ record.status = .retryWait) ∧
      record.view.validateDelivery = .ok () ∧
      ∀ before middle after, labels = before ++ middle ++ after →
        (∀ label ∈ middle, label.retried? ≠ some record.deliveryId) →
        (claimsOf record.deliveryId middle).length ≤ record.maximumAttempts) ∧
    (s.db.attempts.map fun row => (row.deliveryId, row.sequence)).Nodup ∧
    ∀ row ∈ s.db.attempts, ∃ record, s.db.delivery? row.deliveryId = some record ∧
      row.sequence ≤ record.attemptSequence := by
  obtain ⟨hdistinct, hclaimed⟩ := audit_run hstart hrun
  refine ⟨fun record hmem => ?_, hdistinct, fun row hrow => ?_⟩
  · have hrow := Db.delivery?_of_mem hmem
    have hsound := sound_run hstart hrun hmax _ record hrow
    have htimes := times_run hstart hrun hclock record hrow
    refine ⟨hsound.attempt_le, hsound.attempt_le_sequence, hsound.next_iff,
      validateDelivery_iff.mpr ⟨hsound.attempt_le, hsound.attempt_le_sequence, htimes.2,
        hsound.next_iff⟩, ?_⟩
    rintro before middle after rfl hretried
    exact claims_le_maximum hstart hrun hmax hretried hrow
  · obtain ⟨record, hrecord, -, hle⟩ := exists_of_mem_claimsOf hstart hrun (hclaimed row hrow)
    exact ⟨record, hrecord, hle⟩

/-- Claimed at 1, given up at 61, retried by hand and claimed again. -/
theorem delivery_states_reclaimed :
    reclaimedRun.2.db.deliveries ≠ [] ∧ reclaimedRun.2.db.attempts ≠ [] ∧
      ∀ record ∈ reclaimedRun.2.db.deliveries, record.view.validateDelivery = .ok () := by
  have hsound := delivery_states_sound (subscribedState_initial _)
    (runCalls_run sampleDispatcher _ (retryCalls ++ [.claimDue [] [] 62, lateCall]))
    (by decide +kernel) (by decide +kernel)
  refine ⟨by decide +kernel, by decide +kernel, fun record hrecord => ?_⟩
  exact (hsound.1 record hrecord).2.2.2.1

end ParserServe
