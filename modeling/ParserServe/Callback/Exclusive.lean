import ParserServe.Callback.LateResults
import ParserServe.Control.Dispatcher

/-! # How long a claim is exclusive

A claim writes the time that its pass read at its start, and another dispatcher counts the timeout
from there.  The claim therefore lasts for the whole timeout exactly when it is made at that time,
or when the row has that time already, so that the database writes its own.
-/

namespace ParserServe

open Foundation

variable {self : CallbackDispatcher} {batchSize : Nat} {db : Db} {s t u v : DispatchState}
  {label again : DispatchLabel} {labels : List DispatchLabel} {row : CallbackDeliveryRecord}
  {deliveryId : String} {sequence : Nat} {now stamp : Time} {time : CallTime}

/-! ## Clocks -/

/-- No pass has read a time that is still to come, or has more turns than it began with. -/
def PassesStarted (batchSize : Nat) (s : DispatchState) : Prop :=
  ∀ pass ∈ s.passes, pass.current ≤ s.clock ∧ pass.remaining ≤ batchSize

theorem RunningPass.next_le {pass pass' : RunningPass} {label : CallbackLabel}
    (h : pass.next label = some pass') :
    pass'.current = pass.current ∧ pass'.remaining ≤ pass.remaining := by
  unfold RunningPass.next at h
  split at h
  · split at h <;> cases h
    exact ⟨rfl, le_rfl⟩
  · split at h <;> cases h
    exact ⟨rfl, le_rfl⟩
  · split at h
    · split at h
      · cases h
      · cases h
        exact ⟨rfl, le_rfl⟩
      · next hremaining =>
          cases h
          exact ⟨rfl, hremaining ▸ Nat.le_succ _⟩
    · cases h
  · split at h <;> cases h
    exact ⟨rfl, le_rfl⟩
  · split at h <;> cases h
    exact ⟨rfl, le_rfl⟩
  · cases h

theorem passesStarted_step (hs : PassesStarted batchSize s)
    (hstep : DispatchStep self batchSize s label t) : PassesStarted batchSize t := by
  cases hstep with
  | waited hle => exact fun pass hpass => ⟨(hs pass hpass).1.trans hle, (hs pass hpass).2⟩
  | started =>
      intro pass hpass
      rcases List.mem_append.mp hpass with hpass | hpass
      · exact hs pass hpass
      · rw [List.mem_singleton.mp hpass]
        exact ⟨le_rfl, le_rfl⟩
  | called hpass hnext _ =>
      intro other hother
      rcases List.mem_or_eq_of_mem_set hother with hother | rfl
      · exact hs other hother
      · obtain ⟨hread, hturns⟩ := hs _ (List.mem_of_getElem? hpass)
        obtain ⟨hsame, hle⟩ := RunningPass.next_le hnext
        exact ⟨hsame ▸ hread, hle.trans hturns⟩
  | stopped hpass =>
      intro other hother
      rcases List.mem_or_eq_of_mem_set hother with hother | rfl
      · exact hs other hother
      · have hread := hs _ (List.mem_of_getElem? hpass)
        exact hread
  | requested => exact hs

theorem passesStarted_reachable (h : (dispatchers self batchSize).Reachable s) :
    PassesStarted batchSize s := by
  refine h.invariant (fun s hstart => ?_) fun _ _ _ => passesStarted_step
  simp [PassesStarted, hstart.2]

theorem clock_mono (hstep : DispatchStep self batchSize s label t) : s.clock ≤ t.clock := by
  cases hstep with
  | waited hle => exact hle
  | started | called | stopped | requested => exact le_rfl

/-- The time of a claim is the one its pass read. -/
theorem claimDue_of_next {a b : CallbackState} {pass pass' : RunningPass}
    {lockedFirst lockedSecond : List String} {response : CallbackResponse}
    (hnext : pass.next (.returned (.claimDue lockedFirst lockedSecond time) response) = some pass')
    (hcall : CallbackStep self a (.returned (.claimDue lockedFirst lockedSecond time) response) b) :
    time.now = pass.current ∧ 1 ≤ pass.remaining ∧
      (claimDue a.db self.claimTimeoutSeconds lockedFirst lockedSecond time).1 = b.db := by
  refine ⟨?_, ?_, ?_⟩
  · by_contra hne
    cases response with
    | materialized => cases hnext
    | delivery => simp [RunningPass.next, hne] at hnext
  · by_contra hnone
    have hzero : pass.remaining = 0 := by omega
    cases response with
    | materialized => cases hnext
    | delivery => simp [RunningPass.next, hzero] at hnext
  · cases hcall with
    | returned _ hexec => exact congrArg Prod.fst (Except.ok.inj hexec)

/-- A claim finds its delivery due and counts one attempt more. -/
theorem claimed_row {a b : CallbackState} {lockedFirst lockedSecond : List String}
    {record : CallbackDeliveryRecord}
    (hcall : CallbackStep self a (.returned (.claimDue lockedFirst lockedSecond time)
      (.delivery (some record))) b) :
    ∃ row, a.db.delivery? record.deliveryId = some row ∧
      row.due time.now (time.now - self.claimTimeoutSeconds) ∧ record = row.claim time ∧
      b.db.delivery? record.deliveryId = some record := by
  have hmove := hcall.move record.deliveryId
  have hclaimed : (CallbackLabel.returned (.claimDue lockedFirst lockedSecond time)
      (.delivery (some record))).claimed? record.deliveryId = some record.attemptSequence :=
    if_pos rfl
  generalize hbefore : a.db.delivery? record.deliveryId = before at hmove
  generalize hafter : b.db.delivery? record.deliveryId = after at hmove
  generalize hlabel : CallbackLabel.returned (.claimDue lockedFirst lockedSecond time)
    (.delivery (some record)) = label at hmove hclaimed
  cases hmove with
  | kept _ hpasses | created hpasses | expired _ hpasses =>
      rw [hpasses.1] at hclaimed
      cases hclaimed
  | audited | settled | retried => cases hlabel
  | claimed _ hdue =>
      cases hlabel
      exact ⟨_, rfl, hdue, rfl, rfl⟩

/-- A claim is made by a pass, with the time the pass read, in a transaction of its own. -/
theorem claim?_spec (hstep : DispatchStep self batchSize s label t)
    (hclaim : label.claim? = some ⟨deliveryId, sequence, now⟩) :
    (∃ pass ∈ s.passes, now = pass.current ∧ 1 ≤ pass.remaining) ∧ t.clock = s.clock ∧
      ∃ (row : CallbackDeliveryRecord) (time : CallTime), time.now = now ∧ time.began = s.clock ∧
        s.callbacks.db.delivery? deliveryId = some row ∧
        row.due now (now - self.claimTimeoutSeconds) ∧ row.attemptSequence + 1 = sequence ∧
        t.callbacks.db.delivery? deliveryId = some (row.claim time) := by
  cases hstep with
  | waited | started | stopped | requested => cases hclaim
  | @called i pass pass' label callbacks hpass hnext hbegun hcall =>
      unfold DispatchLabel.claim? at hclaim
      split at hclaim
      · next lockedFirst lockedSecond time record heq =>
          cases hclaim
          cases heq
          obtain ⟨row, hrow, hdue, rfl, hafter⟩ := claimed_row hcall
          obtain ⟨hread, hturn, -⟩ := claimDue_of_next hnext hcall
          exact ⟨⟨pass, List.mem_of_getElem? hpass, hread, hturn⟩, rfl, row, time, rfl, hbegun,
            hrow, hdue, rfl, hafter⟩
      · cases hclaim

/-! ## A claim lasts until it is stale -/

/-- A claim writes the time of its pass, or that of its transaction over the time of the pass. -/
theorem claim_updatedAt (row : CallbackDeliveryRecord) (time : CallTime) :
    (row.claim time).updatedAt = if row.updatedAt = time.now then time.began else time.now := by
  simp only [CallbackDeliveryRecord.claim, CallbackDeliveryRecord.flush]
  refine if_congr ?_ rfl rfl
  rw [eq_comm (a := time.now)]
  refine and_iff_right fun hsame => ?_
  have hattempt := congrArg CallbackDeliveryRecord.attempt hsame
  exact absurd hattempt (Nat.succ_ne_self row.attempt)

/-- A delivery that is being sent is left alone until its last write is old enough. -/
theorem claimDue_stale (hrow : db.delivery? deliveryId = some row)
    (hdelivering : row.status = .delivering) (timeout : ℚ)
    (lockedFirst lockedSecond : List String) (time : CallTime) :
    (claimDue db timeout lockedFirst lockedSecond time).1.delivery? deliveryId = some row ∨
      row.updatedAt ≤ time.now - timeout := by
  by_cases hstale : row.updatedAt ≤ time.now - timeout
  · exact .inr hstale
  refine .inl ?_
  -- neither query selects the row
  have hskips : ∀ {db' : Db} {locked : List String} {p : CallbackDeliveryRecord → Bool}
      {record : CallbackDeliveryRecord}, db'.delivery? deliveryId = some row → p row = false →
      db'.firstDelivery locked p = some record → deliveryId ≠ record.deliveryId := by
    intro db' locked p record hfound hnot hfirst heq
    obtain ⟨hmem, hselected⟩ := Db.firstDelivery_spec hfirst
    rw [heq, Db.delivery?_of_mem hmem] at hfound
    cases hfound
    rw [hnot] at hselected
    cases hselected
  have hexpired : (expireClaim db (time.now - timeout) lockedFirst time).delivery? deliveryId =
      some row := by
    unfold expireClaim
    split
    · exact hrow
    · next record hfirst =>
        have hother : deliveryId ≠ record.deliveryId := by
          refine hskips hrow ?_ hfirst
          simp [CallbackDeliveryRecord.exhausted, hstale]
        have hne : deliveryId ≠ (record.expire time).deliveryId := hother
        exact (Db.delivery?_changeDelivery_of_ne hne).trans hrow
  simp only [claimDue]
  split
  · exact hexpired
  · next record hfirst =>
      have hother : deliveryId ≠ record.deliveryId := by
        refine hskips hexpired ?_ hfirst
        simp [CallbackDeliveryRecord.due, hdelivering, hstale]
      have hne : deliveryId ≠ (record.claim time).deliveryId := hother
      exact (Db.delivery?_changeDelivery_of_ne hne).trans hexpired

/-- A pass of `materialize` keeps the rows there are. -/
theorem materialize_delivery? {db' : Db} {maximumAttempts limit : Nat}
    {deliveryIds : Nat → String} {records : List CallbackDeliveryRecord}
    (h : materialize db maximumAttempts limit deliveryIds now = .ok (db', records))
    (hrow : db.delivery? deliveryId = some row) : db'.delivery? deliveryId = some row := by
  have hkeeps : Materialized (db.delivery? deliveryId) (db'.delivery? deliveryId) :=
    foldlM_keeps (I := fun state => Materialized (db.delivery? deliveryId)
      (state.1.delivery? deliveryId)) (fun _ _ _ => materializeEvent_keeps) (.inl rfl) h
  rcases hkeeps with hsame | ⟨hnone, -⟩
  · rw [hsame, hrow]
  · rw [hrow] at hnone
    cases hnone

/-- A result of another claim changes nothing in a delivery. -/
theorem recordResult_delivery? {db' : Db} {timing : RetryTiming} {attemptId claimed : String}
    {attemptNumber : Nat} {result : CallbackResult} {answer : Option CallbackDeliveryRecord}
    (h : recordResult db timing attemptId claimed sequence attemptNumber result time =
      .ok (db', answer)) (hrow : db.delivery? deliveryId = some row)
    (hother : answer.isSome → (claimed, sequence) ≠ (deliveryId, row.attemptSequence)) :
    db'.delivery? deliveryId = some row := by
  unfold recordResult at h
  split at h
  · cases h
    exact hrow
  · next record hrecord =>
      simp only [bind_eq_ok, ensure_eq_ok] at h
      obtain ⟨_, _, h⟩ := h
      split at h
      · cases h
        exact hrow
      · next hcurrent =>
          cases h
          obtain ⟨-, hid⟩ := Db.delivery?_mem hrecord
          have hne : deliveryId ≠ (record.settle result timing time).deliveryId := by
            intro hsame
            obtain rfl : deliveryId = claimed := hsame.trans hid
            rw [hrecord] at hrow
            cases hrow
            exact hother rfl (by rw [not_not.mp hcurrent])
          rw [Db.delivery?_changeDelivery_of_ne hne, Db.delivery?_addAttempt]
          exact hrow

/-- A delivery that is being sent is not retried by hand. -/
theorem retryDelivery_delivery? {db' : Db} {retried : String}
    {answer : Option CallbackDeliveryRecord}
    (h : retryDelivery db retried time = .ok (db', answer))
    (hrow : db.delivery? deliveryId = some row) (hdelivering : row.status = .delivering) :
    db'.delivery? deliveryId = some row := by
  unfold retryDelivery at h
  split at h
  · cases h
    exact hrow
  · next record hrecord =>
      simp only [bind_eq_ok, ensure_eq_ok] at h
      obtain ⟨_, hended, h⟩ := h
      cases h
      obtain ⟨-, hid⟩ := Db.delivery?_mem hrecord
      have hne : deliveryId ≠ (record.reset time).deliveryId := by
        intro hsame
        rw [hsame.trans hid, hrecord] at hrow
        cases hrow
        simp [hdelivering] at hended
      exact (Db.delivery?_changeDelivery_of_ne hne).trans hrow

/-- Apart from claims, only its result changes a delivery that is being sent. -/
theorem CallbackStep.keeps_delivering {a b : CallbackState} {label : CallbackLabel}
    (hstep : CallbackStep self a label b) (hrow : a.db.delivery? deliveryId = some row)
    (hdelivering : row.status = .delivering)
    (hclaims : ∀ lockedFirst lockedSecond time response,
      label ≠ .returned (.claimDue lockedFirst lockedSecond time) response)
    (hreports : label.reported? ≠ some (deliveryId, row.attemptSequence)) :
    b.db.delivery? deliveryId = some row := by
  cases hstep with
  | raised => exact hrow
  | elsewhere hdeliveries _ =>
      rw [Db.delivery?, hdeliveries]
      exact hrow
  | @returned db' call response _ hexec =>
      cases call with
      | claimDue => exact absurd rfl (hclaims _ _ _ _)
      | materialize =>
          obtain ⟨⟨db₁, records⟩, hcall, heq⟩ := bind_eq_ok.mp hexec
          cases heq
          exact materialize_delivery? hcall hrow
      | recordResult attemptId claim result time =>
          obtain ⟨⟨db₁, answer⟩, hcall, heq⟩ := bind_eq_ok.mp hexec
          cases heq
          refine recordResult_delivery? hcall hrow fun hanswer hsame => hreports ?_
          obtain ⟨record, rfl⟩ := Option.isSome_iff_exists.mp hanswer
          exact congrArg some hsame
      | retry id time =>
          obtain ⟨⟨db₁, answer⟩, hcall, heq⟩ := bind_eq_ok.mp hexec
          cases heq
          exact retryDelivery_delivery? hcall hrow hdelivering

/-- The claim stands as it was written, or its timeout has passed since the time written. -/
def ClaimStands (self : CallbackDispatcher) (deliveryId : String) (sequence : Nat) (stamp : Time)
    (s : DispatchState) : Prop :=
  stamp + self.claimTimeoutSeconds ≤ s.clock ∨
    ∃ row, s.callbacks.db.delivery? deliveryId = some row ∧ row.status = .delivering ∧
      row.attemptSequence = sequence ∧ row.updatedAt = stamp

theorem reported?_of_requested {label : CallbackLabel} {clock : Time}
    (h : label.RequestedAt clock) : label.reported? = none := by
  unfold CallbackLabel.RequestedAt at h
  split at h
  all_goals first | rfl | exact h.elim

theorem claimStands_step (h : ClaimStands self deliveryId sequence stamp s)
    (hs : PassesStarted batchSize s) (hstep : DispatchStep self batchSize s label t)
    (hreports : label.reported? ≠ some (deliveryId, sequence)) :
    ClaimStands self deliveryId sequence stamp t := by
  rcases h with hpassed | ⟨row, hrow, hdelivering, hsequence, hupdated⟩
  · exact .inl (hpassed.trans (clock_mono hstep))
  have hkept : ∀ {db' : Db}, db'.delivery? deliveryId = some row →
      ∃ row, db'.delivery? deliveryId = some row ∧ row.status = .delivering ∧
        row.attemptSequence = sequence ∧ row.updatedAt = stamp :=
    fun h => ⟨row, h, hdelivering, hsequence, hupdated⟩
  cases hstep with
  | waited | started | stopped => exact .inr (hkept hrow)
  | requested hlabel hcall =>
      refine .inr (hkept (hcall.keeps_delivering hrow hdelivering ?_ ?_))
      · rintro lockedFirst lockedSecond time response rfl
        exact hlabel
      · rw [reported?_of_requested hlabel]
        simp
  | @called i pass pass' label callbacks hpass hnext _ hcall =>
      by_cases hclaims : ∃ lockedFirst lockedSecond time response,
          label = .returned (.claimDue lockedFirst lockedSecond time) response
      · obtain ⟨lockedFirst, lockedSecond, time, response, rfl⟩ := hclaims
        obtain ⟨hread, -, hdb⟩ := claimDue_of_next hnext hcall
        rcases claimDue_stale hrow hdelivering self.claimTimeoutSeconds lockedFirst lockedSecond
          time with hsame | hstale
        · refine .inr (hkept ?_)
          rw [hdb] at hsame
          exact hsame
        · refine .inl (le_trans ?_ (hs pass (List.mem_of_getElem? hpass)).1)
          rw [← hread, ← hupdated]
          exact le_sub_iff_add_le.mp hstale
      · refine .inr (hkept (hcall.keeps_delivering hrow hdelivering ?_ (hsequence ▸ hreports)))
        rintro lockedFirst lockedSecond time response rfl
        exact hclaims ⟨lockedFirst, lockedSecond, time, response, rfl⟩

theorem claimStands_run (h : ClaimStands self deliveryId sequence stamp s)
    (hs : PassesStarted batchSize s) (hrun : (dispatchers self batchSize).Run s labels t)
    (hreports : ∀ label ∈ labels, label.reported? ≠ some (deliveryId, sequence)) :
    ClaimStands self deliveryId sequence stamp t ∧ PassesStarted batchSize t := by
  induction hrun with
  | nil => exact ⟨h, hs⟩
  | @snoc t u labels label _ hstep ih =>
      obtain ⟨hstands, hstarted⟩ := ih fun other hother => hreports other (by simp [hother])
      exact ⟨claimStands_step hstands hstarted hstep (hreports label (by simp)),
        passesStarted_step hstarted hstep⟩

/-- Without a result, a claimed delivery is claimed again only when the timeout has passed since the
time written. -/
theorem updatedAt_add_timeout_le (hs : PassesStarted batchSize t)
    (hrow : t.callbacks.db.delivery? deliveryId = some row) (hdelivering : row.status = .delivering)
    (hrun : (dispatchers self batchSize).Run t labels u)
    (hreports : ∀ label ∈ labels, label.reported? ≠ some (deliveryId, row.attemptSequence))
    (hagain : DispatchStep self batchSize u again v) {later : Nat}
    (hclaims : again.claim? = some ⟨deliveryId, later, now⟩) :
    row.updatedAt + self.claimTimeoutSeconds ≤ u.clock := by
  have hstands : ClaimStands self deliveryId row.attemptSequence row.updatedAt t :=
    .inr ⟨row, hrow, hdelivering, rfl, rfl⟩
  obtain ⟨hpassed | ⟨found, hfound, hdelivering, -, hupdated⟩, hstarted⟩ :=
    claimStands_run hstands hs hrun hreports
  · exact hpassed
  · obtain ⟨⟨pass, hpass, hread, -⟩, -, other, _, -, -, hother, hdue, -⟩ :=
      claim?_spec hagain hclaims
    rw [hfound] at hother
    cases hother
    simp only [CallbackDeliveryRecord.due, hdelivering, Bool.or_eq_true, Bool.and_eq_true,
      beq_iff_eq, reduceCtorEq, false_and, or_false, false_or, true_and,
      decide_eq_true_eq] at hdue
    rw [← hupdated]
    exact (le_sub_iff_add_le.mp hdue.1).trans (hread ▸ (hstarted pass hpass).1)

/-! ## What another dispatcher may do at a time -/

theorem firstDelivery_locked (db : Db) (p : CallbackDeliveryRecord → Bool) :
    db.firstDelivery (db.deliveries.map (·.deliveryId)) p = none := by
  cases hfirst : db.firstDelivery (db.deliveries.map (·.deliveryId)) p with
  | none => rfl
  | some record =>
      have hmem := List.mem_of_mem_head? hfirst
      simp only [List.mem_insertionSort, List.mem_filter, Bool.and_eq_true,
        decide_eq_true_eq] at hmem
      exact absurd (List.mem_map_of_mem hmem.1) hmem.2.2

/-- The rows that sessions lock beside one delivery. -/
def Db.othersLocked (db : Db) (deliveryId : String) : List String :=
  (db.deliveries.map (·.deliveryId)).filter (· ≠ deliveryId)

theorem firstDelivery_othersLocked {p : CallbackDeliveryRecord → Bool}
    (hrow : db.delivery? deliveryId = some row) (hp : p row) :
    db.firstDelivery (db.othersLocked deliveryId) p = some row := by
  obtain ⟨hmem, hid⟩ := Db.delivery?_mem hrow
  cases hfirst : db.firstDelivery (db.othersLocked deliveryId) p with
  | none =>
      have hsorted : row ∈ (db.deliveries.filter fun record =>
          p record && record.deliveryId ∉ db.othersLocked deliveryId).insertionSort
            deliveryBefore := by
        rw [List.mem_insertionSort, List.mem_filter]
        exact ⟨hmem, by simp [hp, hid, Db.othersLocked]⟩
      rw [List.head?_eq_none_iff.mp hfirst] at hsorted
      cases hsorted
  | some record =>
      have hmem' := List.mem_of_mem_head? hfirst
      simp only [List.mem_insertionSort, List.mem_filter, Bool.and_eq_true, decide_eq_true_eq,
        Db.othersLocked, List.mem_map, not_and, not_not] at hmem'
      obtain ⟨hrecord, -, hother⟩ := hmem'
      have hsame := hother ⟨record, hrecord, rfl⟩
      rw [List.inj_on_of_nodup_map db.deliveries_nodup hrecord hmem (hsame.trans hid.symm)]

/-- A new pass reads the clock and materializes, and then stands before its first claim. -/
theorem exists_claiming (self : CallbackDispatcher) (batchSize : Nat) (u : DispatchState)
    (hrow : u.callbacks.db.delivery? deliveryId = some row) :
    ∃ labels, ∃ w : DispatchState, ∃ i : Nat, (dispatchers self batchSize).Run u labels w ∧
      (∀ label ∈ labels, label.reported? = none) ∧ w.clock = u.clock ∧
      w.passes[i]? = some ⟨u.clock, batchSize, .claiming⟩ ∧
      w.callbacks.db.delivery? deliveryId = some row := by
  have hstarted : (dispatchers self batchSize).Step u .started
      { u with passes := u.passes ++ [⟨u.clock, batchSize, .materializing⟩] } :=
    DispatchStep.started
  have hcall : ∃ label callbacks, CallbackStep self u.callbacks label callbacks ∧
      RunningPass.next ⟨u.clock, batchSize, .materializing⟩ label =
        some ⟨u.clock, batchSize, .claiming⟩ ∧ label.BegunAt u.clock ∧ label.reported? = none ∧
      callbacks.db.delivery? deliveryId = some row := by
    cases hmaterialize : materialize u.callbacks.db 1 500 toString u.clock with
    | error error =>
        refine ⟨.raised (.materialize 1 500 toString u.clock) error, _, .raised trivial ?_, ?_,
          trivial, rfl, hrow⟩
        · rw [CallbackCall.exec, hmaterialize]
          rfl
        · simp [RunningPass.next]
    | ok made =>
        refine ⟨.returned (.materialize 1 500 toString u.clock) (.materialized made.2), _,
          .returned trivial (bind_eq_ok.mpr ⟨made, hmaterialize, rfl⟩), ?_, trivial, rfl,
          materialize_delivery? hmaterialize hrow⟩
        simp [RunningPass.next]
  obtain ⟨label, callbacks, hcall, hnext, hbegun, hquiet, hfound⟩ := hcall
  have hmaterialized : (dispatchers self batchSize).Step
      { u with passes := u.passes ++ [⟨u.clock, batchSize, .materializing⟩] }
      (.called u.passes.length label) _ :=
    DispatchStep.called List.getElem?_concat_length hnext hbegun hcall
  refine ⟨[.started, .called u.passes.length label], _, u.passes.length,
    (System.Run.single hstarted).snoc hmaterialized, ?_, rfl, ?_, hfound⟩
  · simp [DispatchLabel.reported?, hquiet]
  · simp

/-- The first claim of a new pass, whatever rows other sessions have locked then. -/
theorem exists_claimDue (self : CallbackDispatcher) (hbatch : 1 ≤ batchSize)
    (hrow : u.callbacks.db.delivery? deliveryId = some row)
    (lockedFirst lockedSecond : Db → List String) :
    ∃ labels, ∃ w : DispatchState, ∃ i answer, ∃ v : DispatchState,
      (dispatchers self batchSize).Run u labels w ∧
      (∀ label ∈ labels, label.reported? = none) ∧ w.clock = u.clock ∧ v.clock = u.clock ∧
      w.callbacks.db.delivery? deliveryId = some row ∧
      claimDue w.callbacks.db self.claimTimeoutSeconds (lockedFirst w.callbacks.db)
        (lockedSecond w.callbacks.db) (.ofClock u.clock) = (v.callbacks.db, answer) ∧
      DispatchStep self batchSize w (.called i (.returned (.claimDue (lockedFirst w.callbacks.db)
        (lockedSecond w.callbacks.db) (.ofClock u.clock)) (.delivery answer))) v := by
  obtain ⟨remaining, rfl⟩ : ∃ remaining, batchSize = remaining + 1 := ⟨batchSize - 1, by omega⟩
  obtain ⟨labels, w, i, hrun, hquiet, hclock, hpass, hfound⟩ :=
    exists_claiming self (remaining + 1) u hrow
  cases hclaim : claimDue w.callbacks.db self.claimTimeoutSeconds (lockedFirst w.callbacks.db)
    (lockedSecond w.callbacks.db) (.ofClock u.clock) with
  | mk db answer =>
      have hcall : CallbackStep self w.callbacks (.returned (.claimDue (lockedFirst w.callbacks.db)
          (lockedSecond w.callbacks.db) (.ofClock u.clock)) (.delivery answer)) _ :=
        .returned trivial (by rw [CallbackCall.exec, hclaim])
      obtain ⟨pass', hnext⟩ : ∃ pass', RunningPass.next ⟨u.clock, remaining + 1, .claiming⟩
          (.returned (.claimDue (lockedFirst w.callbacks.db) (lockedSecond w.callbacks.db)
            (.ofClock u.clock)) (.delivery answer)) = some pass' := by
        cases answer <;> simp [RunningPass.next]
      have hstep : (dispatchers self (remaining + 1)).Step w _ _ :=
        DispatchStep.called hpass hnext hclock.symm hcall
      refine ⟨labels, w, i, answer, _, hrun, hquiet, hclock, ?_, hfound, ?_, hstep⟩
      · exact hclock
      · exact hclaim

/-- A new pass may claim a delivery that is due at this time. -/
theorem exists_claim (hbatch : 1 ≤ batchSize)
    (hrow : u.callbacks.db.delivery? deliveryId = some row)
    (hdue : row.due u.clock (u.clock - self.claimTimeoutSeconds)) :
    ∃ labels w again v later, (dispatchers self batchSize).Run u labels w ∧
      (∀ label ∈ labels, label.reported? = none) ∧ w.clock = u.clock ∧
      DispatchStep self batchSize w again v ∧
      again.claim? = some ⟨deliveryId, later, u.clock⟩ := by
  obtain ⟨labels, w, i, answer, v, hrun, hquiet, hclock, -, hfound, hclaim, hstep⟩ :=
    exists_claimDue self hbatch hrow (·.deliveries.map (·.deliveryId))
      (·.othersLocked deliveryId)
  obtain ⟨-, rfl⟩ := Db.delivery?_mem hrow
  have hselected : w.callbacks.db.firstDelivery (w.callbacks.db.othersLocked row.deliveryId)
      (·.due u.clock (u.clock - self.claimTimeoutSeconds)) = some row :=
    firstDelivery_othersLocked hfound hdue
  simp only [claimDue, expireClaim, CallTime.now_ofClock, firstDelivery_locked, hselected,
    Prod.mk.injEq] at hclaim
  obtain ⟨-, rfl⟩ := hclaim
  exact ⟨labels, w, _, v, _, hrun, hquiet, hclock, hstep, rfl⟩

/-- A new pass may give up a claim of the last attempt that is stale at this time. -/
theorem exists_expire (hbatch : 1 ≤ batchSize)
    (hrow : u.callbacks.db.delivery? deliveryId = some row)
    (hexhausted : row.exhausted (u.clock - self.claimTimeoutSeconds)) :
    ∃ labels, ∃ v : DispatchState, (dispatchers self batchSize).Run u labels v ∧
      (∀ label ∈ labels, label.reported? = none) ∧ v.clock = u.clock ∧
      v.callbacks.db.delivery? deliveryId = some (row.expire (.ofClock u.clock)) := by
  obtain ⟨labels, w, i, answer, v, hrun, hquiet, -, hclock, hfound, hclaim, hstep⟩ :=
    exists_claimDue self hbatch hrow (·.othersLocked deliveryId)
      (·.deliveries.map (·.deliveryId))
  obtain ⟨-, rfl⟩ := Db.delivery?_mem hrow
  set db := w.callbacks.db with hdb
  have hselected : db.firstDelivery (db.othersLocked row.deliveryId)
      (·.exhausted (u.clock - self.claimTimeoutSeconds)) = some row :=
    firstDelivery_othersLocked hfound hexhausted
  have hids : (db.changeDelivery (row.expire (.ofClock u.clock)) u.clock).deliveries.map
      (·.deliveryId) = db.deliveries.map (·.deliveryId) := map_replaceKey _ _ _
  simp only [claimDue, expireClaim, CallTime.now_ofClock, hselected, ← hids,
    firstDelivery_locked, Prod.mk.injEq] at hclaim
  obtain ⟨hexpired, rfl⟩ := hclaim
  refine ⟨_, v, hrun.snoc hstep, ?_, hclock, ?_⟩
  · intro label hlabel
    rcases List.mem_append.mp hlabel with hlabel | hlabel
    · exact hquiet label hlabel
    · rw [List.mem_singleton.mp hlabel]
      rfl
  · have hid : row.deliveryId = (row.expire (.ofClock u.clock)).deliveryId := rfl
    rw [← hexpired, hid]
    exact Db.delivery?_changeDelivery_self hfound

/-- An operator may retry a delivery that was given up. -/
theorem exists_retry (self : CallbackDispatcher) (batchSize : Nat)
    (hrow : u.callbacks.db.delivery? deliveryId = some row) (hfailed : row.status = .failed) :
    ∃ label, ∃ w : DispatchState, (dispatchers self batchSize).Step u label w ∧
      label.reported? = none ∧ w.clock = u.clock ∧
      w.callbacks.db.delivery? deliveryId = some (row.reset (.ofClock u.clock)) := by
  have hretry : retryDelivery u.callbacks.db deliveryId (.ofClock u.clock) =
      .ok (u.callbacks.db.changeDelivery (row.reset (.ofClock u.clock)) u.clock,
        some (row.reset (.ofClock u.clock))) := by
    rw [retryDelivery, hrow]
    exact bind_eq_ok.mpr ⟨(), ensure_of_true (.inl hfailed), rfl⟩
  have hcall : CallbackStep self u.callbacks (.returned (.retry deliveryId (.ofClock u.clock))
      (.delivery (some (row.reset (.ofClock u.clock)))))
      ⟨u.callbacks.db.changeDelivery (row.reset (.ofClock u.clock)) u.clock,
        u.callbacks.inFlight⟩ :=
    .returned trivial (bind_eq_ok.mpr ⟨_, hretry, rfl⟩)
  have hstep : (dispatchers self batchSize).Step u
      (.requested (.returned (.retry deliveryId (.ofClock u.clock))
        (.delivery (some (row.reset (.ofClock u.clock)))))) _ :=
    DispatchStep.requested ⟨rfl, rfl⟩ hcall
  refine ⟨_, _, hstep, rfl, rfl, ?_⟩
  obtain ⟨-, rfl⟩ := Db.delivery?_mem hrow
  have hreset : row.deliveryId = (row.reset (.ofClock u.clock)).deliveryId := rfl
  rw [hreset]
  exact Db.delivery?_changeDelivery_self hrow

/-! ## The timeout of a claim -/

/-- With the timeout passed since its last write, the delivery may be claimed again at once. -/
theorem exists_reclaim (hbatch : 1 ≤ batchSize)
    (hrow : u.callbacks.db.delivery? deliveryId = some row) (hdelivering : row.status = .delivering)
    (hstale : row.updatedAt ≤ u.clock - self.claimTimeoutSeconds) :
    ∃ labels w again v later, (dispatchers self batchSize).Run u labels w ∧
      (∀ label ∈ labels, label.reported? = none) ∧ w.clock = u.clock ∧
      DispatchStep self batchSize w again v ∧
      again.claim? = some ⟨deliveryId, later, u.clock⟩ := by
  by_cases hleft : row.attempt < row.maximumAttempts
  · exact exists_claim hbatch hrow
      (by simp [CallbackDeliveryRecord.due, hdelivering, hstale, hleft])
  · -- the last attempt is given up first, and an operator retries the delivery
    have hexhausted : row.exhausted (u.clock - self.claimTimeoutSeconds) := by
      simpa [CallbackDeliveryRecord.exhausted, hdelivering, hstale] using hleft
    obtain ⟨before, w, hexpire, hbefore, hclock, hfound⟩ := exists_expire hbatch hrow hexhausted
    obtain ⟨retry, x, hretry, hquiet, hclock', hreset⟩ := exists_retry self batchSize hfound rfl
    have hdue : ((row.expire (.ofClock u.clock)).reset (.ofClock w.clock)).due x.clock
        (x.clock - self.claimTimeoutSeconds) := rfl
    obtain ⟨after, y, again, v, later, hrun, hafter, hclock'', hagain, hclaims⟩ :=
      exists_claim hbatch hreset hdue
    have htime : x.clock = u.clock := hclock'.trans hclock
    refine ⟨before ++ [retry] ++ after, y, again, v, later, (hexpire.snoc hretry).trans hrun, ?_,
      hclock''.trans htime, hagain, htime ▸ hclaims⟩
    simp only [List.mem_append, List.mem_singleton]
    rintro label ((hlabel | rfl) | hlabel)
    · exact hbefore label hlabel
    · exact hquiet
    · exact hafter label hlabel

/-- A claim keeps every dispatcher away for the whole timeout exactly when it is made at the time
its pass has read, or when that time was the last one written to the row. -/
theorem claim_exclusive_iff (hs : (dispatchers self batchSize).Reachable s)
    (htimeout : 0 < self.claimTimeoutSeconds) (hstep : DispatchStep self batchSize s label t)
    (hclaim : label.claim? = some ⟨deliveryId, sequence, now⟩) :
    (∀ labels u again v later now', (dispatchers self batchSize).Run t labels u →
      (∀ label ∈ labels, label.reported? ≠ some (deliveryId, sequence)) →
      DispatchStep self batchSize u again v → again.claim? = some ⟨deliveryId, later, now'⟩ →
      s.clock + self.claimTimeoutSeconds ≤ u.clock) ↔
    now = s.clock ∨ ∃ row ∈ s.callbacks.db.delivery? deliveryId, row.updatedAt = now := by
  have hstarted := passesStarted_reachable hs
  obtain ⟨⟨pass, hpass, hread, hturn⟩, hclock, row, time, rfl, hbegan, hfound, -, rfl, hrow⟩ :=
    claim?_spec hstep hclaim
  obtain ⟨hcurrent, hbatch⟩ := hstarted pass hpass
  have hwritten : (row.claim time).updatedAt = s.clock ↔
      time.now = s.clock ∨ ∃ row ∈ s.callbacks.db.delivery? deliveryId,
        row.updatedAt = time.now := by
    rw [claim_updatedAt, hbegan, hfound]
    simp only [Option.mem_some_iff, exists_eq_left']
    split
    · next hsame => exact iff_of_true rfl (.inr hsame)
    · next hother => exact (or_iff_left hother).symm
  rw [← hwritten]
  constructor
  · intro hexclusive
    by_contra hne
    have hle : (row.claim time).updatedAt ≤ s.clock := by
      rw [claim_updatedAt]
      split
      · exact hbegan.le
      · exact hread ▸ hcurrent
    have hearlier := lt_of_le_of_ne hle hne
    -- the clock moves to the first moment at which the claim counts as stale
    set clock := max s.clock ((row.claim time).updatedAt + self.claimTimeoutSeconds) with hmoment
    have hwaited : (dispatchers self batchSize).Step t .waited { t with clock := clock } :=
      DispatchStep.waited (hclock ▸ le_max_left _ _)
    have hstale : (row.claim time).updatedAt ≤ clock - self.claimTimeoutSeconds :=
      le_sub_iff_add_le.mpr (le_max_right _ _)
    obtain ⟨labels, u, again, v, later, hrun, hquiet, hlater, hagain, hclaims⟩ :=
      exists_reclaim (u := { t with clock := clock }) (hturn.trans hbatch) hrow rfl hstale
    have hle := hexclusive (.waited :: labels) u again v later _
      ((System.Run.single hwaited).trans hrun) ?_ hagain hclaims
    · rw [hlater] at hle
      refine absurd hle (not_le.mpr (max_lt ?_ ?_))
      · exact lt_add_of_pos_right _ htimeout
      · exact add_lt_add_left hearlier _
    · intro other hother
      rcases List.mem_cons.mp hother with rfl | hother
      · simp [DispatchLabel.reported?]
      · simp [hquiet other hother]
  · rintro hsame labels u again v later now' hrun hreports hagain hclaims
    rw [← hsame]
    exact updatedAt_add_timeout_le (passesStarted_step hstarted hstep) hrow rfl hrun hreports
      hagain hclaims

/-! ## A claim that lasts, and one that does not -/

/-- Two tasks whose creation calls for a callback. -/
def twoCallbacks : DispatchState where
  callbacks :=
    { subscribedState with
      db := { subscribedState.db with
        tasks := subscribedState.db.tasks.flatMap fun task =>
          [task, { task with taskId := "other" }]
        events := [⟨"event-a", .taskCreated "task", 0, false⟩,
          ⟨"event-b", .taskCreated "other", 0, false⟩] } }
  clock := 0
  passes := []

def deliveryName (n : Nat) : String := if n = 0 then "delivery-a" else "delivery-b"

/-- The pass that starts at 0 materializes both deliveries. -/
def firstMoves : List DispatchMove :=
  [.start, .call 0 (.materialize 5 500 deliveryName 0)]

/-- Another pass starts at 1. -/
def secondMoves : List DispatchMove :=
  [.wait 1, .start, .call 1 (.materialize 5 500 deliveryName 1)]

/-- A pass claims the first delivery, and its request lasts until `late`. -/
def slowMoves (pass : Nat) (start late : CallTime) : List DispatchMove :=
  [.call pass (.claimDue [] [] start), .wait late.began,
    .call pass (.recordResult "attempt" ⟨"delivery-a", 1, 1⟩ acceptedResult late)]

/-- What the first pass writes at 100, and the second at 101. -/
def firstLate : CallTime := ⟨0, 100, by norm_num⟩

def secondLate : CallTime := ⟨1, 101, by norm_num⟩

/-- A third pass starts at 101. -/
def thirdMoves : List DispatchMove :=
  [.start, .call 2 (.materialize 5 500 deliveryName 101)]

def claimMove (pass : Nat) (time : CallTime) : DispatchMove :=
  .call pass (.claimDue [] [] time)

def movesFrom (s : DispatchState) (moves : List DispatchMove) : DispatchState :=
  (runMoves sampleDispatcher 20 s moves).2

theorem movesFrom_reachable (moves : List DispatchMove) :
    (dispatchers sampleDispatcher 20).Reachable (movesFrom twoCallbacks moves) :=
  ⟨twoCallbacks, _, ⟨⟨rfl, rfl, rfl⟩, rfl⟩, runMoves_run _ _ _ _⟩

/-- The pass that has materialized the second delivery claims it at 100 with the time 0. -/
theorem claim_exclusive_materialized : ∃ s label t,
    (dispatchers sampleDispatcher 20).Reachable s ∧ DispatchStep sampleDispatcher 20 s label t ∧
    label.claim? = some ⟨"delivery-b", 1, 0⟩ ∧ s.clock = 100 ∧
    ∀ labels u again v later now, (dispatchers sampleDispatcher 20).Run t labels u →
      (∀ label ∈ labels, label.reported? ≠ some ("delivery-b", 1)) →
      DispatchStep sampleDispatcher 20 u again v →
      again.claim? = some ⟨"delivery-b", later, now⟩ →
      s.clock + sampleDispatcher.claimTimeoutSeconds ≤ u.clock := by
  set moves := firstMoves ++ slowMoves 0 0 firstLate with hmoves
  have hreachable := movesFrom_reachable moves
  have hstep := DispatchMove.take_step sampleDispatcher 20 (movesFrom twoCallbacks moves)
    (claimMove 0 firstLate)
  have hclaim : ((claimMove 0 firstLate).take sampleDispatcher 20
      (movesFrom twoCallbacks moves)).1.claim? = some ⟨"delivery-b", 1, 0⟩ := by
    decide +kernel
  have htimeout : 0 < sampleDispatcher.claimTimeoutSeconds := by decide +kernel
  have hclock : (movesFrom twoCallbacks moves).clock = 100 := by decide +kernel
  have hwritten : ∃ row ∈ (movesFrom twoCallbacks moves).callbacks.db.delivery? "delivery-b",
      row.updatedAt = 0 := by
    decide +kernel
  exact ⟨_, _, _, hreachable, hstep, hclaim, hclock,
    (claim_exclusive_iff hreachable htimeout hstep hclaim).mpr (.inr hwritten)⟩

/-- The second pass claims it at 101 with the time 1, and the third pass claims it again at 101. -/
theorem claim_repeated_early : ∃ s label t labels u again v,
    (dispatchers sampleDispatcher 20).Reachable s ∧
    DispatchStep sampleDispatcher 20 s label t ∧ label.claim? = some ⟨"delivery-b", 1, 1⟩ ∧
    (dispatchers sampleDispatcher 20).Run t labels u ∧
    (∀ label ∈ labels, label.reported? ≠ some ("delivery-b", 1)) ∧
    DispatchStep sampleDispatcher 20 u again v ∧
    again.claim? = some ⟨"delivery-b", 2, 101⟩ ∧
    u.clock < s.clock + sampleDispatcher.claimTimeoutSeconds := by
  set s := movesFrom twoCallbacks (firstMoves ++ secondMoves ++ slowMoves 1 1 secondLate) with hs
  set claimed := (claimMove 1 secondLate).take sampleDispatcher 20 s with hclaimed
  set others := runMoves sampleDispatcher 20 claimed.2 thirdMoves with hothers
  refine ⟨s, claimed.1, claimed.2, others.1, others.2, _, _, movesFrom_reachable _,
    DispatchMove.take_step _ _ _ _, ?_, runMoves_run _ _ _ _, ?_,
    DispatchMove.take_step _ _ _ (claimMove 2 101), ?_, ?_⟩ <;>
    decide +kernel

end ParserServe
