import ParserServe.Callback.Moves
import ParserServe.Lifecycle.Progress

/-! # Results that arrive after a manual retry

A result is told from those of earlier claims by the attempt sequence of the delivery, which
a claim advances and a manual retry does not.  A result of the last claim is therefore taken
for a current one when the delivery was given up and retried in the meantime.
-/

namespace ParserServe

open Foundation

variable {self : CallbackDispatcher} {s₀ s t u : CallbackState} {label : CallbackLabel}
  {labels before after : List CallbackLabel} {deliveryId : String} {sequence : Nat}

/-! ## Attempts are numbered by their claims -/

/-- The attempt sequence of a row; a delivery that does not exist yet has none. -/
def sequenceOf (row : Option CallbackDeliveryRecord) : Nat :=
  row.elim 0 (·.attemptSequence)

theorem DeliveryMove.claimed?_eq {row row' : Option CallbackDeliveryRecord}
    (h : DeliveryMove self deliveryId label row row') :
    (label.claimed? deliveryId = none ∧ sequenceOf row' = sequenceOf row) ∨
      (label.claimed? deliveryId = some (sequenceOf row + 1) ∧
        sequenceOf row' = sequenceOf row + 1) := by
  cases h with
  | kept row hpasses => exact .inl ⟨hpasses.1, rfl⟩
  | created hpasses _ hsequence => exact .inl ⟨hpasses.1, hsequence⟩
  | expired now hpasses => exact .inl ⟨hpasses.1, rfl⟩
  | claimed hid => exact .inr ⟨if_pos hid, rfl⟩
  | audited | settled | retried => exact .inl ⟨rfl, rfl⟩

theorem claimsOf_append (deliveryId : String) (labels labels' : List CallbackLabel) :
    claimsOf deliveryId (labels ++ labels') =
      claimsOf deliveryId labels ++ claimsOf deliveryId labels' :=
  List.filterMap_append

theorem claimsOf_singleton (deliveryId : String) (label : CallbackLabel) :
    claimsOf deliveryId [label] = (label.claimed? deliveryId).toList := by
  cases h : label.claimed? deliveryId <;> simp [claimsOf, h]

theorem claimsOf_run (hstart : (callbacks self).Initial s₀)
    (hrun : (callbacks self).Run s₀ labels s)
    (deliveryId : String) :
    claimsOf deliveryId labels = List.range' 1 (sequenceOf (s.db.delivery? deliveryId)) := by
  induction hrun with
  | nil => simp [claimsOf, sequenceOf, Db.delivery?, hstart.1]
  | snoc _ hstep ih =>
      rw [claimsOf_append, claimsOf_singleton, ih]
      rcases (CallbackStep.move hstep deliveryId).claimed?_eq with
        ⟨hclaim, hsequence⟩ | ⟨hclaim, hsequence⟩
      · rw [hclaim, hsequence, Option.toList_none, List.append_nil]
      · rw [hclaim, hsequence, List.range'_1_concat, Nat.add_comm 1, Option.toList_some]

/-! ## Requests in flight -/

theorem CallbackStep.inFlight_cases (h : CallbackStep self s label t) :
    (t.inFlight = s.inFlight ∧
        ∀ deliveryId sequence, label.reported? ≠ some (deliveryId, sequence)) ∨
      (∃ record : CallbackDeliveryRecord, t.inFlight = s.inFlight ++ [record.request] ∧
        label.claimed? record.deliveryId = some record.attemptSequence ∧
        ∀ deliveryId sequence, label.reported? ≠ some (deliveryId, sequence)) ∨
      ∃ claim ∈ s.inFlight, t.inFlight = s.inFlight.erase claim ∧
        ∀ deliveryId sequence, label.reported? = some (deliveryId, sequence) →
          claim.deliveryId = deliveryId ∧ claim.sequence = sequence := by
  cases h with
  | @returned db' call response hsent _ =>
      cases call with
      | materialize | retry => exact .inl ⟨rfl, nofun⟩
      | claimDue =>
          cases response with
          | materialized => exact .inl ⟨rfl, nofun⟩
          | delivery answer =>
              cases answer with
              | none => exact .inl ⟨rfl, nofun⟩
              | some record => exact .inr (.inl ⟨record, rfl, if_pos rfl, nofun⟩)
      | recordResult attemptId claim =>
          refine .inr (.inr ⟨claim, hsent, rfl, fun deliveryId sequence hreports => ?_⟩)
          cases response with
          | materialized => cases hreports
          | delivery answer =>
              cases answer with
              | none => cases hreports
              | some _ => exact Prod.ext_iff.mp (Option.some.inj hreports)
  | @raised call error hsent _ =>
      cases call with
      | materialize | retry | claimDue => exact .inl ⟨rfl, nofun⟩
      | recordResult attemptId claim =>
          exact .inr (.inr ⟨claim, hsent, rfl, nofun⟩)
  | elsewhere => exact .inl ⟨rfl, nofun⟩

/-- Each request in flight is of its own attempt, which was claimed and has no result yet. -/
structure Requests (labels : List CallbackLabel) (s : CallbackState) : Prop where
  claimed : ∀ claim ∈ s.inFlight, claim.sequence ∈ claimsOf claim.deliveryId labels
  unreported : ∀ claim ∈ s.inFlight, ∀ label ∈ labels,
    label.reported? ≠ some (claim.deliveryId, claim.sequence)
  reported : ∀ label ∈ labels, ∀ deliveryId sequence,
    label.reported? = some (deliveryId, sequence) → sequence ∈ claimsOf deliveryId labels
  distinct : (s.inFlight.map fun claim => (claim.deliveryId, claim.sequence)).Nodup

theorem mem_claimsOf_append {labels' : List CallbackLabel}
    (h : sequence ∈ claimsOf deliveryId labels) :
    sequence ∈ claimsOf deliveryId (labels ++ labels') := by
  rw [claimsOf_append]
  exact List.mem_append_left _ h

/-- A claim takes a number that none before it had. -/
theorem claimed?_fresh (hstart : (callbacks self).Initial s₀)
    (hrun : (callbacks self).Run s₀ labels s) (hstep : CallbackStep self s label t)
    (hclaim : label.claimed? deliveryId = some sequence) :
    sequence ∉ claimsOf deliveryId labels := by
  rw [claimsOf_run hstart hrun]
  rcases (hstep.move deliveryId).claimed?_eq with ⟨hnone, _⟩ | ⟨hsome, _⟩
  · rw [hnone] at hclaim
    cases hclaim
  · rw [hsome] at hclaim
    cases hclaim
    simp [Nat.add_comm]

/-- A result is taken of a request in flight only. -/
theorem Requests.reported_step (h : Requests labels s) (hstep : CallbackStep self s label t)
    (hreports : label.reported? = some (deliveryId, sequence)) :
    sequence ∈ claimsOf deliveryId labels := by
  rcases hstep.inFlight_cases with ⟨_, hquiet⟩ | ⟨_, _, _, hquiet⟩ | ⟨claim, hclaim, _, honly⟩
  · exact absurd hreports (hquiet _ _)
  · exact absurd hreports (hquiet _ _)
  · obtain ⟨rfl, rfl⟩ := honly _ _ hreports
    exact h.claimed claim hclaim

theorem Requests.step (h : Requests labels s) (hstep : CallbackStep self s label t)
    (hfresh : ∀ deliveryId sequence, label.claimed? deliveryId = some sequence →
      sequence ∉ claimsOf deliveryId labels) :
    Requests (labels ++ [label]) t := by
  have hreported : ∀ other ∈ labels ++ [label], ∀ deliveryId sequence,
      other.reported? = some (deliveryId, sequence) → sequence ∈ claimsOf deliveryId labels := by
    intro other hother deliveryId sequence hreports
    rcases List.mem_append.mp hother with hother | hother
    · exact h.reported other hother _ _ hreports
    · rw [List.mem_singleton.mp hother] at hreports
      exact h.reported_step hstep hreports
  have hkept : ∀ claim ∈ s.inFlight, label.reported? ≠ some (claim.deliveryId, claim.sequence) →
      claim.sequence ∈ claimsOf claim.deliveryId (labels ++ [label]) ∧
      ∀ other ∈ labels ++ [label], other.reported? ≠ some (claim.deliveryId, claim.sequence) := by
    intro claim hclaim hquiet
    refine ⟨mem_claimsOf_append (h.claimed claim hclaim), fun other hother => ?_⟩
    rcases List.mem_append.mp hother with hother | hother
    · exact h.unreported claim hclaim other hother
    · rwa [List.mem_singleton.mp hother]
  -- the requests in flight after the step, each with its claim and without a result
  suffices hflight : (∀ claim ∈ t.inFlight,
      claim.sequence ∈ claimsOf claim.deliveryId (labels ++ [label]) ∧
        ∀ other ∈ labels ++ [label], other.reported? ≠ some (claim.deliveryId, claim.sequence)) ∧
      (t.inFlight.map fun claim => (claim.deliveryId, claim.sequence)).Nodup by
    exact ⟨fun claim hclaim => (hflight.1 claim hclaim).1,
      fun claim hclaim => (hflight.1 claim hclaim).2,
      fun other hother _ _ hreports => mem_claimsOf_append (hreported other hother _ _ hreports),
      hflight.2⟩
  rcases hstep.inFlight_cases with
    ⟨hsame, hquiet⟩ | ⟨record, hsent, hclaimed, hquiet⟩ | ⟨claim, hclaim, herased, honly⟩
  · rw [hsame]
    exact ⟨fun claim hclaim => hkept claim hclaim (hquiet _ _), h.distinct⟩
  · have hnew := hfresh _ _ hclaimed
    rw [hsent]
    constructor
    · intro claim hclaim
      rcases List.mem_append.mp hclaim with hclaim | hclaim
      · exact hkept claim hclaim (hquiet _ _)
      · rw [List.mem_singleton.mp hclaim]
        constructor
        · rw [claimsOf_append, claimsOf_singleton]
          exact List.mem_append_right _ (by simp [CallbackDeliveryRecord.request, hclaimed])
        · exact fun other hother hreports => hnew (hreported other hother _ _ hreports)
    · rw [List.map_append, List.nodup_append']
      refine ⟨h.distinct, List.nodup_singleton _, ?_⟩
      intro key hmem hlast
      obtain ⟨claim, hclaim, rfl⟩ := List.mem_map.mp hmem
      obtain ⟨hid, hsequence⟩ : claim.deliveryId = record.deliveryId ∧
          claim.sequence = record.attemptSequence :=
        Prod.ext_iff.mp (List.mem_singleton.mp hlast)
      exact hnew (hid ▸ hsequence ▸ h.claimed claim hclaim)
  · have hnodup : s.inFlight.Nodup := h.distinct.of_map
    rw [herased]
    refine ⟨fun other hother => hkept other (List.mem_of_mem_erase hother) fun hreports => ?_, ?_⟩
    · obtain ⟨hid, hsequence⟩ := honly _ _ hreports
      have heq : other = claim := List.inj_on_of_nodup_map h.distinct
        (List.mem_of_mem_erase hother) hclaim (Prod.ext hid.symm hsequence.symm)
      rw [heq] at hother
      exact hnodup.not_mem_erase hother
    · exact h.distinct.sublist ((List.erase_sublist).map _)

theorem requests_run (hstart : (callbacks self).Initial s₀)
    (hrun : (callbacks self).Run s₀ labels s) : Requests labels s := by
  induction hrun with
  | nil => exact ⟨by simp [hstart.2.2], by simp, by simp, by simp [hstart.2.2]⟩
  | snoc hrun hstep ih => exact ih.step hstep fun _ _ => claimed?_fresh hstart hrun hstep

/-! ## After a manual retry -/

/-- Until it is claimed, a delivery waits, or the result of its last claim has arrived. -/
theorem waits_until_claimed {record : CallbackDeliveryRecord}
    (hrun : (callbacks self).Run s labels t) (hrow : s.db.delivery? deliveryId = some record)
    (hpending : record.status = .pending) (hclaims : claimsOf deliveryId labels = []) :
    ∃ row, t.db.delivery? deliveryId = some row ∧
      row.attemptSequence = record.attemptSequence ∧
      (row.status = .pending ∨
        ∃ label ∈ labels, label.reported? = some (deliveryId, record.attemptSequence)) := by
  induction hrun with
  | nil => exact ⟨record, hrow, rfl, .inl hpending⟩
  | @snoc t u labels label _ hstep ih =>
      rw [claimsOf_append, List.append_eq_nil_iff, claimsOf_singleton,
        Option.toList_eq_nil_iff] at hclaims
      obtain ⟨row, hfound, hsequence, hstatus⟩ := ih hclaims.1
      have hmove := CallbackStep.move hstep deliveryId
      rw [hfound] at hmove
      have hstatus : row.status = .pending ∨
          ∃ other ∈ labels ++ [label],
            other.reported? = some (deliveryId, record.attemptSequence) := by
        rcases hstatus with hwaits | ⟨other, hother, hreports⟩
        · exact .inl hwaits
        · exact .inr ⟨other, List.mem_append_left _ hother, hreports⟩
      generalize hafter : u.db.delivery? deliveryId = after at hmove
      cases hmove with
      | kept | audited => exact ⟨row, rfl, hsequence, hstatus⟩
      | expired time _ hdelivering =>
          refine ⟨_, rfl, hsequence, .inr (hstatus.resolve_left ?_)⟩
          rw [hdelivering]
          simp
      | claimed hid => simp [CallbackLabel.claimed?, CallbackDeliveryRecord.claim, hid] at hclaims
      | settled hid hcurrent =>
          refine ⟨_, rfl, hsequence, .inr ⟨_, List.mem_append_right _ List.mem_cons_self, ?_⟩⟩
          simp [CallbackLabel.reported?, hid, ← hcurrent, hsequence]
      | retried => exact ⟨_, rfl, hsequence, .inl rfl⟩

theorem claimed?_of_retried? {id : String} (h : label.retried? = some deliveryId) :
    label.claimed? id = none := by
  unfold CallbackLabel.retried? at h
  split at h
  · rfl
  · cases h

/-- A manual retry leaves the delivery waiting. -/
theorem pending_of_retried? (hstep : CallbackStep self s label t)
    (hretry : label.retried? = some deliveryId) :
    ∃ record, t.db.delivery? deliveryId = some record ∧ record.status = .pending := by
  have hmove := hstep.move deliveryId
  generalize hbefore : s.db.delivery? deliveryId = row at hmove
  generalize hafter : t.db.delivery? deliveryId = row' at hmove
  cases hmove with
  | kept _ hpasses | created hpasses | expired _ hpasses => exact absurd hretry hpasses.2.1
  | claimed | audited | settled => cases hretry
  | retried => exact ⟨_, rfl, rfl⟩

/-- A result counts when its attempt is the last one claimed, and is only recorded otherwise. -/
theorem reports_cases (hstep : CallbackStep self s label t)
    (hreports : label.reported? = some (deliveryId, sequence)) :
    ∃ row, s.db.delivery? deliveryId = some row ∧
      ((row.attemptSequence ≠ sequence ∧ t.db.delivery? deliveryId = some row) ∨
        (row.attemptSequence = sequence ∧ ∃ result time,
          t.db.delivery? deliveryId = some (row.settle result self.timing time))) := by
  have hmove := hstep.move deliveryId
  generalize hbefore : s.db.delivery? deliveryId = row at hmove
  generalize hafter : t.db.delivery? deliveryId = row' at hmove
  cases hmove with
  | kept _ hpasses | created hpasses | expired _ hpasses =>
      exact absurd hreports (hpasses.2.2 sequence)
  | claimed | retried => cases hreports
  | audited _ hstale =>
      obtain ⟨_, rfl⟩ := Prod.ext_iff.mp (Option.some.inj hreports)
      exact ⟨_, rfl, .inl ⟨hstale, rfl⟩⟩
  | settled _ hcurrent =>
      obtain ⟨_, rfl⟩ := Prod.ext_iff.mp (Option.some.inj hreports)
      exact ⟨_, rfl, .inr ⟨hcurrent, _, _, rfl⟩⟩

/-! ## Late results -/

/-- A manual retry came after the claim of the attempt. -/
def RetriedSince (labels : List CallbackLabel) (deliveryId : String) (sequence : Nat) : Prop :=
  ∃ before after, labels = before ++ after ∧ sequence ∈ claimsOf deliveryId before ∧
    ∃ retry ∈ after, retry.retried? = some deliveryId

/-- After `before`, the result of an attempt that was claimed before a manual retry. -/
def LateResult (before : List CallbackLabel) (label : CallbackLabel) (deliveryId : String)
    (sequence : Nat) : Prop :=
  label.reported? = some (deliveryId, sequence) ∧ RetriedSince before deliveryId sequence

/-- The columns a result may change. -/
def Db.deliveryState (db : Db) (deliveryId : String) :
    Option (CallbackDeliveryStatus × Nat × Option Time × Option Nat × Option String) :=
  (db.delivery? deliveryId).map fun row =>
    (row.status, row.attempt, row.nextAttemptAt, row.responseStatusCode, row.responseSummary)

theorem getLast?_claimsOf (hstart : (callbacks self).Initial s₀)
    (hrun : (callbacks self).Run s₀ labels s) (hclaimed : sequence ∈ claimsOf deliveryId labels) :
    (claimsOf deliveryId labels).getLast? = some (sequenceOf (s.db.delivery? deliveryId)) := by
  rw [claimsOf_run hstart hrun] at hclaimed ⊢
  have hpos : sequenceOf (s.db.delivery? deliveryId) ≠ 0 := by
    intro hzero
    simp [hzero] at hclaimed
  rw [List.getLast?_range', if_neg hpos, Nat.add_sub_cancel_left]

/-- Nothing follows the last entry of a list without repetitions. -/
theorem eq_nil_of_getLast? {xs ys : List Nat} (hnodup : (xs ++ ys).Nodup) (hmem : sequence ∈ xs)
    (hlast : (xs ++ ys).getLast? = some sequence) : ys = [] := by
  by_contra hne
  have hys : ys.getLast? = some sequence := by
    rw [List.getLast?_append, List.getLast?_eq_some_getLast hne, Option.some_or] at hlast
    rwa [List.getLast?_eq_some_getLast hne]
  exact (List.disjoint_of_nodup_append hnodup) hmem (List.mem_of_getLast? hys)

/-- The delivery of a late result still waits if that attempt is the last one claimed. -/
theorem pending_of_late (hstart : (callbacks self).Initial s₀)
    (hrun : (callbacks self).Run s₀ before s) (hstep : CallbackStep self s label t)
    (hlate : LateResult before label deliveryId sequence)
    (hlast : (claimsOf deliveryId before).getLast? = some sequence) :
    ∃ row, s.db.delivery? deliveryId = some row ∧ row.attemptSequence = sequence ∧
      row.status = .pending := by
  obtain ⟨hreports, first, second, rfl, hclaimed, retry, hmem, hretry⟩ := hlate
  have hnodup : (claimsOf deliveryId (first ++ second)).Nodup := by
    rw [claimsOf_run hstart hrun]
    exact List.nodup_range'
  rw [claimsOf_append] at hnodup
  have hrequests := requests_run hstart hrun
  have hsequence := getLast?_claimsOf hstart hrun (mem_claimsOf_append hclaimed)
  obtain ⟨middle, last, rfl⟩ := List.append_of_mem hmem
  obtain ⟨s₁, hfirst, hrest⟩ := hrun.split
  obtain ⟨s₂, _, hrest⟩ := hrest.split
  obtain ⟨s₃, hretried, hrest⟩ := hrest.uncons
  obtain ⟨record, hrecord, hpending⟩ := pending_of_retried? hretried hretry
  have hnone : claimsOf deliveryId last = [] := by
    have hnil := eq_nil_of_getLast? hnodup hclaimed (by rwa [← claimsOf_append])
    rw [claimsOf_append, List.append_eq_nil_iff, ← List.singleton_append, claimsOf_append,
      List.append_eq_nil_iff] at hnil
    exact hnil.2.2
  obtain ⟨row, hrow, hrecorded, hstatus⟩ := waits_until_claimed hrest hrecord hpending hnone
  rw [hlast, hrow, Option.some_inj] at hsequence
  have hlatest : row.attemptSequence = sequence := hsequence.symm
  refine ⟨row, hrow, hlatest, hstatus.resolve_right ?_⟩
  rintro ⟨other, hother, hothers⟩
  rw [← hrecorded, hlatest] at hothers
  rcases hstep.inFlight_cases with ⟨_, hquiet⟩ | ⟨_, _, _, hquiet⟩ | ⟨claim, hclaim, _, honly⟩
  · exact hquiet _ _ hreports
  · exact hquiet _ _ hreports
  · obtain ⟨hid, hnumber⟩ := honly _ _ hreports
    refine hrequests.unreported claim hclaim other ?_ (hid ▸ hnumber ▸ hothers)
    simp [hother]

/-- A late result changes nothing exactly when the delivery was claimed again after that
attempt. -/
theorem deliveryState_late_iff (hstart : (callbacks self).Initial s₀)
    (hrun : (callbacks self).Run s₀ before s) (hstep : CallbackStep self s label t)
    (hlate : LateResult before label deliveryId sequence) :
    t.db.deliveryState deliveryId = s.db.deliveryState deliveryId ↔
      (claimsOf deliveryId before).getLast? ≠ some sequence := by
  obtain ⟨row, hrow, hcases⟩ := reports_cases hstep hlate.1
  constructor
  · intro hsame hlast
    obtain ⟨row', hrow', hsequence, hpending⟩ := pending_of_late hstart hrun hstep hlate hlast
    cases hrow.symm.trans hrow'
    rcases hcases with ⟨hstale, _⟩ | ⟨_, result, time, hsettled⟩
    · exact hstale hsequence
    · simp only [Db.deliveryState, hrow, hsettled, Option.map_some, Option.some_inj,
        Prod.mk.injEq] at hsame
      exact settle_status_ne_pending row result self.timing time (hsame.1.trans hpending)
  · intro hlast
    obtain ⟨_, first, second, rfl, hclaimed, _⟩ := hlate
    have hsequence := getLast?_claimsOf hstart hrun (mem_claimsOf_append hclaimed)
    rw [hrow] at hsequence
    rcases hcases with ⟨_, hkept⟩ | ⟨hcurrent, _⟩
    · rw [Db.deliveryState, hkept, Db.deliveryState, hrow]
    · refine absurd ?_ hlast
      rw [hsequence, ← hcurrent]
      rfl

/-- A delivery retried by hand waits until it is claimed, unless a late result is of the last
attempt claimed. -/
theorem pending_of_fenced {retry : CallbackLabel} (hstart : (callbacks self).Initial s₀)
    (hrun : (callbacks self).Run s₀ (before ++ retry :: after) s)
    (hretry : retry.retried? = some deliveryId) (hnone : claimsOf deliveryId after = [])
    (hfenced : ∀ middle label last sequence, after = middle ++ label :: last →
      LateResult (before ++ retry :: middle) label deliveryId sequence →
        (claimsOf deliveryId (before ++ retry :: middle)).getLast? ≠ some sequence) :
    ∃ record, s.db.delivery? deliveryId = some record ∧ record.status = .pending := by
  obtain ⟨t, hbefore, hrest⟩ := hrun.split
  obtain ⟨u, hstep, hafter⟩ := hrest.uncons
  obtain ⟨record, hrecord, hpending⟩ := pending_of_retried? hstep hretry
  obtain ⟨row, hrow, _, hstatus⟩ := waits_until_claimed hafter hrecord hpending hnone
  refine ⟨row, hrow, hstatus.resolve_right ?_⟩
  rintro ⟨label, hmem, hreports⟩
  obtain ⟨middle, last, rfl⟩ := List.append_of_mem hmem
  rw [claimsOf_append, List.append_eq_nil_iff] at hnone
  obtain ⟨v, hmiddle, hrest⟩ := hafter.split
  obtain ⟨w, hreported, _⟩ := hrest.uncons
  have hprefix : (callbacks self).Run s₀ (before ++ retry :: middle) v :=
    hbefore.trans ((System.Run.single hstep).trans hmiddle)
  obtain ⟨found, hfound, hnumber, _⟩ := waits_until_claimed hmiddle hrecord hpending hnone.1
  have hclaimed := (requests_run hstart hprefix).reported_step hreported hreports
  have hsequence := getLast?_claimsOf hstart hprefix hclaimed
  have hwaits : claimsOf deliveryId (retry :: middle) = [] := by
    rw [← List.singleton_append, claimsOf_append, claimsOf_singleton,
      claimed?_of_retried? hretry, hnone.1]
    rfl
  rw [claimsOf_append, hwaits, List.append_nil] at hclaimed
  refine hfenced middle label last _ rfl
    ⟨hreports, before, retry :: middle, rfl, hclaimed, retry, List.mem_cons_self, hretry⟩ ?_
  rw [hsequence, hfound, ← hnumber]
  rfl

/-- Late results are fenced, and a delivery retried by hand waits until it is claimed, exactly
in the runs in which no late result is of the last attempt claimed. -/
theorem late_results_fenced_iff (hstart : (callbacks self).Initial s₀)
    (hrun : (callbacks self).Run s₀ labels s) :
    ((∀ before t label u after deliveryId sequence,
        (callbacks self).At s₀ labels s before t label u after →
        LateResult before label deliveryId sequence →
          u.db.deliveryState deliveryId = t.db.deliveryState deliveryId) ∧
      ∀ before retry after deliveryId, labels = before ++ retry :: after →
        retry.retried? = some deliveryId → claimsOf deliveryId after = [] →
          ∃ record, s.db.delivery? deliveryId = some record ∧ record.status = .pending) ↔
    ∀ before label after deliveryId sequence, labels = before ++ label :: after →
      LateResult before label deliveryId sequence →
        (claimsOf deliveryId before).getLast? ≠ some sequence := by
  constructor
  · rintro ⟨hfenced, _⟩ before label after deliveryId sequence rfl hlate
    obtain ⟨t, hbefore, hrest⟩ := hrun.split
    obtain ⟨u, hstep, hafter⟩ := hrest.uncons
    exact (deliveryState_late_iff hstart hbefore hstep hlate).mp
      (hfenced before t label u after deliveryId sequence ⟨rfl, hbefore, hstep, hafter⟩ hlate)
  · intro hlast
    constructor
    · rintro before t label u after deliveryId sequence ⟨heq, hbefore, hstep, _⟩ hlate
      exact (deliveryState_late_iff hstart hbefore hstep hlate).mpr
        (hlast before label after deliveryId sequence heq hlate)
    · rintro before retry after deliveryId rfl hretry hnone
      refine pending_of_fenced hstart hrun hretry hnone ?_
      rintro middle label last sequence rfl hlate
      exact hlast _ label last deliveryId sequence (by simp) hlate

/-! ## A result that is fenced, and one that is not -/

def sampleDispatcher : CallbackDispatcher where
  timing := ⟨2, 300⟩
  claimTimeoutSeconds := 60

/-- A task whose creation calls for a callback. -/
def subscribedState : CallbackState where
  db := { sampleDb with
    tasks := [newTask
      { source := .url "https://host/report.pdf"
        options := default
        callback := some { url := "https://host/hook", events := [.taskCreated] } }
      none "task" (some sampleMetadata) 0]
    events := [⟨"event", .taskCreated "task", 0, false⟩] }
  inFlight := []

theorem subscribedState_initial (self : CallbackDispatcher) :
    (callbacks self).Initial subscribedState :=
  ⟨rfl, rfl, rfl⟩

def acceptedResult : CallbackResult where
  delivered := true
  retryable := false
  responseStatusCode := some 204
  responseSummary := none
  durationMs := 5
  error := none

/-- The only attempt is claimed at 1 and given up at 61; the delivery is retried at 62. -/
def retryCalls : List CallbackCall :=
  [.materialize 1 500 (fun _ => "delivery") 0, .claimDue [] [] 1, .claimDue [] [] 61,
    .retry "delivery" 62]

def lateCall : CallbackCall := .recordResult "attempt" ⟨"delivery", 1, 1⟩ acceptedResult 63

theorem fenced_of_forall (h : ∀ i < labels.length, ∀ label ∈ labels[i]?,
      ∀ report ∈ label.reported?, (claimsOf report.1 (labels.take i)).getLast? ≠ some report.2) :
    ∀ before label after deliveryId sequence, labels = before ++ label :: after →
      LateResult before label deliveryId sequence →
        (claimsOf deliveryId before).getLast? ≠ some sequence := by
  rintro before label after deliveryId sequence rfl hlate
  have hreport := h before.length (by simp) label (by simp) _ hlate.1
  rwa [List.take_left] at hreport

def reclaimedRun : List CallbackLabel × CallbackState :=
  runCalls sampleDispatcher subscribedState (retryCalls ++ [.claimDue [] [] 62, lateCall])

/-- Claimed again at 62, the delivery is told from the request of the first claim. -/
theorem late_results_fenced_reclaimed :
    (reclaimedRun.1.map (·.reported?)).getLast? = some (some ("delivery", 1)) ∧
      ∀ before t label u after deliveryId sequence,
        (callbacks sampleDispatcher).At subscribedState reclaimedRun.1 reclaimedRun.2
          before t label u after →
        LateResult before label deliveryId sequence →
          u.db.deliveryState deliveryId = t.db.deliveryState deliveryId := by
  refine ⟨by decide +kernel,
    ((late_results_fenced_iff (subscribedState_initial _) (runCalls_run _ _ _)).mpr ?_).1⟩
  exact fenced_of_forall (by decide +kernel)

/-- Not claimed again, it takes the result of the claim that was given up: the manual retry
ends without a request. -/
theorem late_result_overwrites : ∃ before t label u,
    (callbacks sampleDispatcher).Run subscribedState before t ∧
      (callbacks sampleDispatcher).Step t label u ∧ LateResult before label "delivery" 1 ∧
      t.db.deliveryState "delivery" = some (.pending, 0, none, none, none) ∧
      u.db.deliveryState "delivery" = some (.succeeded, 0, none, some 204, none) := by
  set claimed := runCalls sampleDispatcher subscribedState (retryCalls.take 3) with hclaimed
  set retried := runCalls sampleDispatcher claimed.2 (retryCalls.drop 3) with hretried
  have hrun : (callbacks sampleDispatcher).Run subscribedState (claimed.1 ++ retried.1)
      retried.2 := (runCalls_run _ _ _).trans (runCalls_run _ _ _)
  have hsent : lateCall.Sent retried.2.inFlight := by decide +kernel
  refine ⟨_, _, _, _, hrun, take_step hsent, ⟨?_, claimed.1, retried.1, rfl, ?_, ?_⟩, ?_, ?_⟩ <;>
    decide +kernel

end ParserServe
