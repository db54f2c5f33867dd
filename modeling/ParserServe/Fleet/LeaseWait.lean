import Mathlib.Algebra.Order.Ring.Rat
import Mathlib.Order.Nat
import ParserServe.Foundation.NoticeStream
import ParserServe.Foundation.Runs

/-! # Waiting for a lease

`lease_stages` of `api/routes/workers.py` over the Redis stream of `queue/redis.py`.  A request that
finds nothing to lease waits for a notice that is newer than its snapshot of the stream; whoever
makes a stage available publishes a notice after the commit, or fails to.  Requests and publishers
take their steps in any order.  Identifiers of the stream are of a linear order whose least element
stands for `0-0`.
-/

namespace ParserServe

open Foundation

variable {ι : Type*} [LinearOrder ι] [OrderBot ι]

inductive PollPhase (ι : Type*)
  | received
  | leasing (cursor : Option ι)
  | waiting (cursor : ι)
  | leasingAgain
  | answered
  deriving DecidableEq

structure LeasePoll (ι : Type*) where
  waitSeconds : ℚ
  phase : PollPhase ι := .received

/-- `committed` transactions may have made a stage available; those in `unpublished` are
committed, and their notice is yet to be published. -/
structure LeaseWaitState (ι : Type*) [LinearOrder ι] [OrderBot ι] where
  committed : Nat
  unpublished : List Nat
  stream : NoticeStream ι Nat
  polls : List (LeasePoll ι)

inductive LeaseWaitLabel
  | committed (transaction : Nat)
  | published (transaction : Nat)
  | notPublished (transaction : Nat)
  | received
  | snapshot (poll : Nat)
  | noSnapshot (poll : Nat)
  | tried (poll : Nat)
  | woken (poll : Nat)
  | timedOut (poll : Nat)
  | waitFailed (poll : Nat)
  | answered (poll : Nat)

/-- `snapshot`: the newest record, or `0-0`. -/
def snapshotCursor (stream : NoticeStream ι Nat) : ι := stream.entries.getLast?.elim ⊥ (·.1)

/-- What the request does after its first attempt. -/
def LeasePoll.afterFirst (poll : LeasePoll ι) (maximumSeconds : ℚ) (cursor : Option ι)
    (leases : Bool) : PollPhase ι :=
  match cursor with
  | none => .answered
  | some cursor =>
      if leases = false ∧ 0 < min poll.waitSeconds maximumSeconds then .waiting cursor
      else .answered

def LeaseWaitState.setPhase (s : LeaseWaitState ι) (position : Nat) (poll : LeasePoll ι)
    (phase : PollPhase ι) : LeaseWaitState ι :=
  { s with polls := s.polls.set position { poll with phase := phase } }

inductive LeaseWaitStep (maximumLength : Nat) (maximumSeconds : ℚ) :
    LeaseWaitState ι → LeaseWaitLabel → LeaseWaitState ι → Prop
  | committed {s : LeaseWaitState ι} :
      LeaseWaitStep maximumLength maximumSeconds s (.committed s.committed)
        { s with committed := s.committed + 1, unpublished := s.unpublished ++ [s.committed] }
  -- `XADD` with an approximate `MAXLEN` keeps at least that many entries
  | published {s : LeaseWaitState ι} {transaction dropped : Nat} {id : ι}
      (hid : s.stream.lastId < id) : transaction ∈ s.unpublished →
        dropped = 0 ∨ dropped + maximumLength ≤ s.stream.entries.length + 1 →
        LeaseWaitStep maximumLength maximumSeconds s (.published transaction)
          { s with
            unpublished := s.unpublished.erase transaction
            stream := s.stream.add id transaction dropped hid }
  | notPublished {s : LeaseWaitState ι} {transaction : Nat} : transaction ∈ s.unpublished →
      LeaseWaitStep maximumLength maximumSeconds s (.notPublished transaction)
        { s with unpublished := s.unpublished.erase transaction }
  | received {s : LeaseWaitState ι} {waitSeconds : ℚ} : 0 ≤ waitSeconds →
      LeaseWaitStep maximumLength maximumSeconds s .received
        { s with polls := s.polls ++ [{ waitSeconds := waitSeconds }] }
  | snapshot {s : LeaseWaitState ι} {position : Nat} {poll : LeasePoll ι} :
      s.polls[position]? = some poll → poll.phase = .received → 0 < poll.waitSeconds →
      LeaseWaitStep maximumLength maximumSeconds s (.snapshot position)
        (s.setPhase position poll (.leasing (some (snapshotCursor s.stream))))
  -- the request does not wait, or the snapshot fails
  | noSnapshot {s : LeaseWaitState ι} {position : Nat} {poll : LeasePoll ι} :
      s.polls[position]? = some poll → poll.phase = .received →
      LeaseWaitStep maximumLength maximumSeconds s (.noSnapshot position)
        (s.setPhase position poll (.leasing none))
  | tried {s : LeaseWaitState ι} {position : Nat} {poll : LeasePoll ι} {cursor : Option ι}
      {leases : Bool} : s.polls[position]? = some poll → poll.phase = .leasing cursor →
      LeaseWaitStep maximumLength maximumSeconds s (.tried position)
        (s.setPhase position poll (poll.afterFirst maximumSeconds cursor leases))
  -- `XREAD` returns at once when there is something after the cursor
  | woken {s : LeaseWaitState ι} {position : Nat} {poll : LeasePoll ι} {cursor : ι} :
      s.polls[position]? = some poll → poll.phase = .waiting cursor →
      s.stream.after cursor ≠ [] →
      LeaseWaitStep maximumLength maximumSeconds s (.woken position)
        (s.setPhase position poll .leasingAgain)
  | timedOut {s : LeaseWaitState ι} {position : Nat} {poll : LeasePoll ι} {cursor : ι} :
      s.polls[position]? = some poll → poll.phase = .waiting cursor →
      s.stream.after cursor = [] →
      LeaseWaitStep maximumLength maximumSeconds s (.timedOut position)
        (s.setPhase position poll .leasingAgain)
  | waitFailed {s : LeaseWaitState ι} {position : Nat} {poll : LeasePoll ι} {cursor : ι} :
      s.polls[position]? = some poll → poll.phase = .waiting cursor →
      LeaseWaitStep maximumLength maximumSeconds s (.waitFailed position)
        (s.setPhase position poll .leasingAgain)
  -- the second attempt, or an error of either attempt
  | answered {s : LeaseWaitState ι} {position : Nat} {poll : LeasePoll ι} :
      s.polls[position]? = some poll →
      poll.phase = .leasingAgain ∨ (∃ cursor, poll.phase = .leasing cursor) →
      LeaseWaitStep maximumLength maximumSeconds s (.answered position)
        (s.setPhase position poll .answered)

/-- Nothing is committed or asked for yet; the stream may hold notices from before. -/
structure LeaseWaitStart (s : LeaseWaitState ι) : Prop where
  unpublished : s.unpublished = []
  polls : s.polls = []

def leaseWaiting (ι : Type*) [LinearOrder ι] [OrderBot ι] (maximumLength : Nat)
    (maximumSeconds : ℚ) : System (LeaseWaitState ι) LeaseWaitLabel where
  Initial := LeaseWaitStart
  Step := LeaseWaitStep maximumLength maximumSeconds

/-! ## What a waiting request has missed -/

variable {maximumLength : Nat} {maximumSeconds : ℚ} {s t : LeaseWaitState ι}
  {labels : List LeaseWaitLabel} {label : LeaseWaitLabel} {position : Nat}

/-- The cursor of the request, until it has been answered or woken. -/
def PollPhase.cursor? : PollPhase ι → Option ι
  | .leasing cursor => cursor
  | .waiting cursor => some cursor
  | _ => none

theorem snapshotCursor_eq (stream : NoticeStream ι Nat) :
    snapshotCursor stream = stream.lastId := stream.newest

/-- The request took its snapshot at some time, something is after its cursor exactly when a notice
was published since, and a request that waits has tried once since. -/
def CursorSound (labels : List LeaseWaitLabel) (stream : NoticeStream ι Nat) (position : Nat)
    (phase : PollPhase ι) : Prop :=
  ∀ cursor, phase.cursor? = some cursor →
    ∃ before since, labels = before ++ .snapshot position :: since ∧ cursor ≤ stream.lastId ∧
      (cursor < stream.lastId ↔ ∃ transaction, .published transaction ∈ since) ∧
      (phase = .waiting cursor → .tried position ∈ since)

/-- What the labels of a run tell of its last state. -/
structure LeaseWaitHistory (labels : List LeaseWaitLabel) (s : LeaseWaitState ι) : Prop where
  unpublished : ∀ transaction ∈ s.unpublished, .committed transaction ∈ labels
  published : ∀ transaction, .published transaction ∈ labels → .committed transaction ∈ labels
  cursors : ∀ position (poll : LeasePoll ι), s.polls[position]? = some poll →
    CursorSound labels s.stream position poll.phase

theorem CursorSound.of_none {stream : NoticeStream ι Nat} {phase : PollPhase ι}
    (h : phase.cursor? = none) : CursorSound labels stream position phase := by
  intro cursor hcursor
  rw [h] at hcursor
  cases hcursor

/-- A step that publishes nothing is no news. -/
theorem news_append (hquiet : ∀ transaction, label ≠ .published transaction) :
    (∃ transaction, .published transaction ∈ labels) ↔
      ∃ transaction, .published transaction ∈ labels ++ [label] := by
  constructor
  · rintro ⟨transaction, hmem⟩
    exact ⟨transaction, List.mem_append_left _ hmem⟩
  · rintro ⟨transaction, hmem⟩
    rcases List.mem_append.mp hmem with hmem | hmem
    · exact ⟨transaction, hmem⟩
    · exact absurd (List.mem_singleton.mp hmem).symm (hquiet transaction)

theorem CursorSound.quiet {stream : NoticeStream ι Nat} {phase : PollPhase ι}
    (h : CursorSound labels stream position phase)
    (hquiet : ∀ transaction, label ≠ .published transaction) :
    CursorSound (labels ++ [label]) stream position phase := by
  intro cursor hcursor
  obtain ⟨before, since, rfl, hle, hnews, htried⟩ := h cursor hcursor
  exact ⟨before, since ++ [label], by simp, hle, hnews.trans (news_append hquiet), fun hphase =>
    List.mem_append_left _ (htried hphase)⟩

/-- A notice is after every cursor. -/
theorem CursorSound.published {stream : NoticeStream ι Nat} {phase : PollPhase ι}
    (h : CursorSound labels stream position phase) {transaction dropped : Nat} {id : ι}
    (hid : stream.lastId < id) :
    CursorSound (labels ++ [.published transaction]) (stream.add id transaction dropped hid)
      position phase := by
  intro cursor hcursor
  obtain ⟨before, since, rfl, hle, -, htried⟩ := h cursor hcursor
  have hlt : cursor < id := lt_of_le_of_lt hle hid
  refine ⟨before, since ++ [.published transaction], by simp, hlt.le, ?_, fun hphase =>
    List.mem_append_left _ (htried hphase)⟩
  exact ⟨fun _ => ⟨transaction, by simp⟩, fun _ => hlt⟩

theorem LeaseWaitHistory.start (hs : LeaseWaitStart s) : LeaseWaitHistory [] s where
  unpublished := by simp [hs.unpublished]
  published := by simp
  cursors := by simp [hs.polls]

/-- A step of one request. -/
theorem LeaseWaitHistory.setPhase (h : LeaseWaitHistory labels s) {poll : LeasePoll ι}
    {phase : PollPhase ι}
    (hlabel : ∀ transaction, label ≠ .published transaction ∧ label ≠ .committed transaction)
    (hphase : CursorSound (labels ++ [label]) s.stream position phase) :
    LeaseWaitHistory (labels ++ [label]) (s.setPhase position poll phase) where
  unpublished transaction hmem := List.mem_append_left _ (h.unpublished transaction hmem)
  published transaction hmem := by
    rcases List.mem_append.mp hmem with hmem | hmem
    · exact List.mem_append_left _ (h.published transaction hmem)
    · exact absurd (List.mem_singleton.mp hmem).symm (hlabel transaction).1
  cursors other otherPoll hother := by
    have hset : (s.polls.set position { poll with phase := phase })[other]? = some otherPoll :=
      hother
    rw [List.getElem?_set] at hset
    split at hset
    · next heq =>
        subst heq
        split at hset
        · cases hset
          exact hphase
        · cases hset
    · exact (h.cursors other otherPoll hset).quiet fun transaction => (hlabel transaction).1

theorem LeaseWaitHistory.step (h : LeaseWaitHistory labels s)
    (hstep : LeaseWaitStep maximumLength maximumSeconds s label t) :
    LeaseWaitHistory (labels ++ [label]) t := by
  cases hstep with
  | committed =>
      refine ⟨fun transaction hmem => ?_, fun transaction hmem => ?_, fun position poll hpoll =>
        (h.cursors position poll hpoll).quiet (by simp)⟩
      · rcases List.mem_append.mp hmem with hmem | hmem
        · exact List.mem_append_left _ (h.unpublished transaction hmem)
        · rw [List.mem_singleton.mp hmem]
          exact List.mem_append_right _ List.mem_cons_self
      · rcases List.mem_append.mp hmem with hmem | hmem
        · exact List.mem_append_left _ (h.published transaction hmem)
        · cases List.mem_singleton.mp hmem
  | @published transaction dropped id hid hready =>
      refine ⟨fun other hmem => ?_, fun other hmem => ?_, fun position poll hpoll =>
        (h.cursors position poll hpoll).published hid⟩
      · exact List.mem_append_left _ (h.unpublished other (List.mem_of_mem_erase hmem))
      · rcases List.mem_append.mp hmem with hmem | hmem
        · exact List.mem_append_left _ (h.published other hmem)
        · cases List.mem_singleton.mp hmem
          exact List.mem_append_left _ (h.unpublished transaction hready)
  | notPublished hready =>
      refine ⟨fun other hmem => ?_, fun other hmem => ?_, fun position poll hpoll =>
        (h.cursors position poll hpoll).quiet (by simp)⟩
      · exact List.mem_append_left _ (h.unpublished other (List.mem_of_mem_erase hmem))
      · rcases List.mem_append.mp hmem with hmem | hmem
        · exact List.mem_append_left _ (h.published other hmem)
        · cases List.mem_singleton.mp hmem
  | @received waitSeconds hwait =>
      refine ⟨fun other hmem => List.mem_append_left _ (h.unpublished other hmem),
        fun other hmem => ?_, fun position poll hpoll => ?_⟩
      · rcases List.mem_append.mp hmem with hmem | hmem
        · exact List.mem_append_left _ (h.published other hmem)
        · cases List.mem_singleton.mp hmem
      · have happend : (s.polls ++ [{ waitSeconds := waitSeconds }])[position]? = some poll := hpoll
        rw [List.getElem?_append] at happend
        split at happend
        · exact (h.cursors position poll happend).quiet (by simp)
        · rw [List.mem_singleton.mp (List.mem_of_getElem? happend)]
          exact CursorSound.of_none rfl
  | @snapshot position poll hpoll hphase hwait =>
      apply h.setPhase (by simp)
      rintro cursor hcursor
      cases hcursor
      have hlast := snapshotCursor_eq s.stream
      exact ⟨labels, [], rfl, hlast.le, by simp [hlast], by simp⟩
  | noSnapshot => exact h.setPhase (by simp) (CursorSound.of_none rfl)
  | @tried position poll cursor leases hpoll hphase =>
      apply h.setPhase (by simp)
      intro newest hnewest
      cases cursor with
      | none => cases hnewest
      | some cursor =>
          have hsame : newest = cursor := by
            rw [LeasePoll.afterFirst] at hnewest
            split at hnewest <;> simp_all [PollPhase.cursor?]
          subst hsame
          obtain ⟨before, since, rfl, hle, hnews, -⟩ :=
            h.cursors position poll hpoll newest (by rw [hphase]; rfl)
          exact ⟨before, since ++ [.tried position], by simp, hle,
            hnews.trans (news_append (by simp)), fun _ => by simp⟩
  | woken | timedOut | waitFailed | answered =>
      exact h.setPhase (by simp) (CursorSound.of_none rfl)

theorem lease_wait_history (hs : LeaseWaitStart s)
    (h : (leaseWaiting ι maximumLength maximumSeconds).Run s labels t) :
    LeaseWaitHistory labels t := by
  induction h with
  | nil => exact .start hs
  | snoc _ hstep ih => exact ih.step hstep

/-- A request that waits can be woken exactly when a notice was published since its snapshot, which
it took before it tried to lease. -/
theorem lease_wait_wakes (hs : LeaseWaitStart s)
    (h : (leaseWaiting ι maximumLength maximumSeconds).Run s labels t) {poll : LeasePoll ι}
    (hpoll : t.polls[position]? = some poll) {cursor : ι} (hphase : poll.phase = .waiting cursor) :
    ∃ before since, labels = before ++ .snapshot position :: since ∧ .tried position ∈ since ∧
      (t.stream.after cursor ≠ [] ↔ ∃ transaction, .published transaction ∈ since) := by
  obtain ⟨before, since, hsplit, -, hnews, htried⟩ :=
    (lease_wait_history hs h).cursors position poll hpoll cursor (by rw [hphase]; rfl)
  exact ⟨before, since, hsplit, htried hphase,
    NoticeStream.after_ne_nil_iff.trans hnews⟩

/-- One notice is out, and there is one request. -/
def sampleWait (phase : PollPhase Nat) : LeaseWaitState Nat where
  committed := 1
  unpublished := []
  stream := NoticeStream.empty.add 1 0 0 (by decide)
  polls := [{ waitSeconds := 5, phase := phase }]

def sampleWaitLabels : List LeaseWaitLabel :=
  [.committed 0, .published 0, .received, .snapshot 0, .tried 0]

theorem sampleWait_run :
    (leaseWaiting Nat 100 30).Run ⟨0, [], .empty, []⟩ sampleWaitLabels
      (sampleWait (.waiting 1)) := by
  have hcommitted : LeaseWaitStep 100 30 ⟨0, [], .empty, []⟩ (.committed 0)
      (⟨1, [0], .empty, []⟩ : LeaseWaitState Nat) := .committed
  have hpublished : LeaseWaitStep 100 30 (⟨1, [0], .empty, []⟩ : LeaseWaitState Nat) (.published 0)
      { sampleWait .received with polls := [] } :=
    .published (by decide) List.mem_cons_self (.inl rfl)
  have hreceived : LeaseWaitStep 100 30 { sampleWait .received with polls := [] } .received
      (sampleWait .received) := .received (by decide)
  have hsnapshot : LeaseWaitStep 100 30 (sampleWait .received) (.snapshot 0)
      (sampleWait (.leasing (some 1))) :=
    @LeaseWaitStep.snapshot Nat _ _ 100 30 _ 0 { waitSeconds := 5 } rfl rfl (by decide)
  have htried : LeaseWaitStep 100 30 (sampleWait (.leasing (some 1))) (.tried 0)
      (sampleWait (.waiting 1)) :=
    @LeaseWaitStep.tried Nat _ _ 100 30 _ 0 { waitSeconds := 5, phase := .leasing (some 1) } _
      false rfl rfl
  exact ((((System.Run.single hcommitted).snoc hpublished).snoc hreceived).snoc hsnapshot).snoc
    htried

/-- A second notice is published while the request waits. -/
def wokenWait : LeaseWaitState Nat :=
  { sampleWait (.waiting 1) with
    committed := 2
    stream := (sampleWait (.waiting 1)).stream.add 2 1 0 (by decide) }

def wokenWaitLabels : List LeaseWaitLabel := sampleWaitLabels ++ [.committed 1, .published 1]

theorem wokenWait_run :
    (leaseWaiting Nat 100 30).Run ⟨0, [], .empty, []⟩ wokenWaitLabels wokenWait := by
  have hcommitted : LeaseWaitStep 100 30 (sampleWait (.waiting 1)) (.committed 1)
      { sampleWait (.waiting 1) with committed := 2, unpublished := [1] } := .committed
  have hpublished : LeaseWaitStep 100 30
      { sampleWait (.waiting 1) with committed := 2, unpublished := [1] } (.published 1)
      wokenWait := .published (by decide) List.mem_cons_self (.inl rfl)
  have hrun := (sampleWait_run.snoc hcommitted).snoc hpublished
  rw [List.append_assoc] at hrun
  exact hrun

theorem lease_wait_wakes_sample :
    ((sampleWait (.waiting 1)).stream.after 1 = [] ∧ ∃ before since,
        sampleWaitLabels = before ++ .snapshot 0 :: since ∧ .tried 0 ∈ since ∧
          ∀ transaction, .published transaction ∉ since) ∧
      wokenWait.stream.after 1 ≠ [] ∧ ∃ before since,
        wokenWaitLabels = before ++ .snapshot 0 :: since ∧ .tried 0 ∈ since ∧
          ∃ transaction, .published transaction ∈ since := by
  constructor
  · have hquiet : (sampleWait (.waiting 1)).stream.after 1 = [] := by decide
    have hpoll : (sampleWait (.waiting 1)).polls[0]? = some ⟨5, .waiting 1⟩ := rfl
    obtain ⟨before, since, hsplit, htried, hnews⟩ :=
      lease_wait_wakes ⟨rfl, rfl⟩ sampleWait_run hpoll rfl
    exact ⟨hquiet, before, since, hsplit, htried,
      fun transaction hmem => hnews.mpr ⟨transaction, hmem⟩ hquiet⟩
  · have hwoken : wokenWait.stream.after 1 ≠ [] := by decide
    have hpoll : wokenWait.polls[0]? = some ⟨5, .waiting 1⟩ := rfl
    obtain ⟨before, since, hsplit, htried, hnews⟩ :=
      lease_wait_wakes ⟨rfl, rfl⟩ wokenWait_run hpoll rfl
    exact ⟨hwoken, before, since, hsplit, htried, hnews.mp hwoken⟩

/-- A request that waits until its time is up has missed nothing: each transaction whose notice has
been published was committed before the request tried to lease. -/
theorem lease_wait_misses_nothing {v u : LeaseWaitState ι} {before after : List LeaseWaitLabel}
    (hs : LeaseWaitStart s) (h : (leaseWaiting ι maximumLength maximumSeconds).At s labels v
      before t (.timedOut position) u after) :
    ∃ earlier since, before = earlier ++ .tried position :: since ∧
      ∀ transaction, .published transaction ∈ before → .committed transaction ∈ earlier := by
  obtain ⟨-, hbefore, hstep, -⟩ := h
  have hhistory := lease_wait_history hs hbefore
  generalize hlabel : LeaseWaitLabel.timedOut position = label at hstep
  cases hstep with
  | @timedOut other poll cursor hpoll hphase hnothing =>
      cases hlabel
      obtain ⟨first, since, rfl, -, hnews, htried⟩ :=
        hhistory.cursors position poll hpoll cursor (by rw [hphase]; rfl)
      have hquiet : ∀ transaction, .published transaction ∉ since := by
        intro transaction hmem
        exact NoticeStream.after_ne_nil_iff.mpr (hnews.mpr ⟨transaction, hmem⟩) hnothing
      obtain ⟨middle, rest, rfl⟩ := List.append_of_mem (htried hphase)
      refine ⟨first ++ .snapshot position :: middle, rest, by simp, fun transaction hmem => ?_⟩
      have hfirst : .published transaction ∈ first := by
        rcases List.mem_append.mp hmem with hmem | hmem
        · exact hmem
        · rcases List.mem_cons.mp hmem with hsame | hmem
          · cases hsame
          · exact absurd hmem (hquiet transaction)
      obtain ⟨w, hprefix, -⟩ := hbefore.split
      exact List.mem_append_left _ ((lease_wait_history hs hprefix).published transaction hfirst)
  | _ => cases hlabel

theorem lease_wait_misses_nothing_sample :
    ∃ earlier since, sampleWaitLabels = earlier ++ .tried 0 :: since ∧
      ∀ transaction, .published transaction ∈ sampleWaitLabels →
        .committed transaction ∈ earlier := by
  have hstep : LeaseWaitStep 100 30 (sampleWait (.waiting 1)) (.timedOut 0)
      (sampleWait .leasingAgain) :=
    @LeaseWaitStep.timedOut Nat _ _ 100 30 _ 0 { waitSeconds := 5, phase := .waiting 1 } 1 rfl rfl
      (by decide)
  exact lease_wait_misses_nothing ⟨rfl, rfl⟩ ⟨rfl, sampleWait_run, hstep, .nil _⟩

end ParserServe
