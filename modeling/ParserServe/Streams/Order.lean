import ParserServe.Streams.Cursor

/-! # Events that commit behind a stream

The rows of a stream are ordered by the time their transaction began at, and they appear at its
commit.  A stream has sent everything up to its cursor exactly as long as no event commits at or
before one that it has read.
-/

namespace ParserServe

open Foundation

variable {settings : SseSettings} {retention : RetentionService} {s t : StreamState}
  {label : StreamLabel} {labels : List StreamLabel}

/-- Streams that start without a cursor, over a table that nothing is deleted from. -/
def wholeStreams (settings : SseSettings) (retention : RetentionService) :
    System StreamState StreamLabel where
  Initial s := (eventStreams settings retention).Initial s ∧ s.stream.current = none
  Step s label t := (eventStreams settings retention).Step s label t ∧ label ≠ .retained

/-- Everything the stream is to send up to its cursor is sent. -/
def StreamState.Complete (s : StreamState) : Prop :=
  ∀ cursor ∈ s.db.events, s.stream.current = some cursor.eventId →
    ∀ event ∈ s.db.events, s.stream.query.selects event → eventBefore event cursor →
      event.eventId ∈ s.stream.yielded.map (·.eventId)

/-- What the stream has read: the events it has sent and the rest of its batch. -/
def EventStream.fetched (stream : EventStream) : List EventRecord :=
  stream.yielded ++ stream.remaining

/-- The stream when the rest of its batch is sent. -/
def EventStream.finishBatch (stream : EventStream) : EventStream :=
  { stream with
    current := (stream.remaining.getLast?.map (·.eventId)).or stream.current
    frames := stream.frames ++ stream.remaining.map .event
    phase := .polling }

def StreamState.finishBatch (s : StreamState) : StreamState :=
  { s with stream := s.stream.finishBatch }

/-- No event the stream is to send commits at or before one that it has read. -/
def CommitsAhead (s : StreamState) : StreamLabel → Prop
  | .committed i => ∀ transaction ∈ s.transactions[i]?, ∀ event ∈ transaction.added,
      s.stream.query.selects event → ∀ read ∈ s.stream.fetched, ¬ eventBefore event read
  | _ => True

instance (s : StreamState) (label : StreamLabel) : Decidable (CommitsAhead s label) :=
  match label with
  | .committed _ => inferInstanceAs (Decidable (∀ _ ∈ _, _))
  | .waited | .began | .published .. | .abandoned _ | .retained | .resumed | .disconnected =>
      isTrue trivial

/-! ## What is read is in order -/

structure OrderKept (s : StreamState) : Prop where
  kept : CursorKept s
  resumed : s.resumed = none
  committed : ∀ event ∈ s.stream.fetched, ∃ row ∈ s.db.events, row.fixed = event.fixed
  sorted : s.stream.fetched.Pairwise fun a b => a.key < b.key

theorem EventStreamQuery.selects_of_fixed (query : EventStreamQuery) {a b : EventRecord}
    (h : a.fixed = b.fixed) : query.selects a = query.selects b := by
  rw [EventStreamQuery.selects, EventStreamQuery.selects, (Prod.mk.inj (Prod.mk.inj h).2).1]

/-- The last of an ordered list is the greatest. -/
theorem key_le_getLast? {events : List EventRecord} {event last : EventRecord}
    (hsorted : events.Pairwise fun a b => a.key < b.key) (hlast : events.getLast? = some last)
    (hevent : event ∈ events) : event.key ≤ last.key := by
  obtain ⟨front, rfl⟩ := List.getLast?_eq_some_iff.mp hlast
  rcases List.mem_append.mp hevent with hevent | hevent
  · exact ((List.pairwise_append.mp hsorted).2.2 event hevent last List.mem_cons_self).le
  · rw [List.mem_singleton.mp hevent]

theorem FreshEventIds.events_nodup (hs : FreshEventIds s) :
    (s.db.events.map (·.eventId)).Nodup :=
  hs.nodup.sublist ((List.sublist_append_left _ _).map _)

/-- A row with the identifier of an event that was read is at its place. -/
theorem OrderKept.fixed_eq (hs : OrderKept s) {row event : EventRecord} (hrow : row ∈ s.db.events)
    (hevent : event ∈ s.stream.fetched) (hid : row.eventId = event.eventId) :
    row.fixed = event.fixed := by
  refine hs.kept.seen_fixed event ?_ row (StreamState.mem_known hrow) hid
  rw [StreamState.seen, List.append_assoc]
  exact List.mem_append_right _ hevent

theorem OrderKept.current_eq (hs : OrderKept s) :
    s.stream.current = s.stream.yielded.getLast?.map (·.eventId) := by
  rw [hs.kept.cursor, StreamState.last?, hs.resumed, Option.or_none]

/-- A poll chooses from the events later than everything that was sent. -/
theorem OrderKept.mem_behind_iff (hs : OrderKept s) {event : EventRecord} :
    event ∈ s.stream.behind s.db ↔
      event ∈ s.db.events ∧ s.stream.query.selects event ∧
        ∀ sent ∈ s.stream.yielded, sent.key < event.key := by
  have hcurrent := hs.current_eq
  cases hlast : s.stream.yielded.getLast? with
  | none =>
      rw [hlast] at hcurrent
      simp [EventStream.behind, hcurrent, List.getLast?_eq_none_iff.mp hlast]
  | some last =>
      rw [hlast] at hcurrent
      have hmem : last ∈ s.stream.fetched := List.mem_append_left _ (List.mem_of_getLast? hlast)
      obtain ⟨row, hrow, hfixed⟩ := hs.committed last hmem
      have hid : row.eventId = last.eventId := EventRecord.id_of_fixed hfixed
      have hget : EventRepository.get s.db last.eventId = some row := by
        rw [← hid]
        exact find?_key_eq_some hs.kept.fresh.events_nodup hrow
      have hkey : row.key = last.key := EventRecord.key_of_fixed hfixed
      have hgreatest : ∀ sent ∈ s.stream.yielded, sent.key ≤ last.key := fun sent hsent =>
        key_le_getLast? (List.pairwise_append.mp hs.sorted).1 hlast hsent
      simp only [EventStream.behind, hcurrent, Option.map_some, hget, List.mem_filter,
        decide_eq_true_eq, hkey, and_assoc]
      refine and_congr_right fun _ => and_congr_right fun _ => ?_
      exact ⟨fun h sent hsent => (hgreatest sent hsent).trans_lt h,
        fun h => h last (List.mem_of_getLast? hlast)⟩

theorem OrderKept.behind_nodup (hs : OrderKept s) :
    ((s.stream.behind s.db).map (·.key)).Nodup :=
  (nodup_map_rank EventRecord.occurredAt hs.kept.fresh.events_nodup).sublist
    ((behind_sublist _ _).map _)

/-! ## What a poll returns -/

theorem OrderKept.poll_sorted (hs : OrderKept s) :
    (s.stream.poll s.db).Pairwise fun a b => a.key < b.key := by
  rw [poll_eq]
  exact (pairwise_insertionSort_of_rank occurredAt_before_iff hs.behind_nodup).sublist
    (List.take_sublist _ _)

/-- A poll leaves out nothing that comes before one of its rows. -/
theorem OrderKept.mem_poll_of_le (hs : OrderKept s) {event read : EventRecord}
    (hread : read ∈ s.stream.poll s.db) (hevent : event ∈ s.stream.behind s.db)
    (hle : event.key ≤ read.key) : event ∈ s.stream.poll s.db := by
  rw [poll_eq] at hread ⊢
  exact mem_batch_of_le occurredAt_before_iff hs.behind_nodup hread hevent hle

theorem OrderKept.sent_lt_poll (hs : OrderKept s) {sent read : EventRecord}
    (hsent : sent ∈ s.stream.yielded) (hread : read ∈ s.stream.poll s.db) :
    sent.key < read.key := by
  rw [poll_eq] at hread
  exact (hs.mem_behind_iff.mp ((List.mem_insertionSort _).mp (List.mem_of_mem_take hread))).2.2
    sent hsent

/-! ## Steps -/

/-- The events of `added` become visible. -/
structure Publishes (s t : StreamState) (added : List EventRecord) : Prop where
  stream : t.stream = s.stream
  resumed : t.resumed = s.resumed
  events : t.db.events.map (·.fixed) = (s.db.events ++ added).map (·.fixed)
  pending : ∀ event ∈ added, event ∈ s.transactions.flatMap (·.added)

theorem Publishes.exists_row {added : List EventRecord} (h : Publishes s t added)
    {row : EventRecord} (hrow : row ∈ s.db.events ++ added) :
    ∃ row' ∈ t.db.events, row'.fixed = row.fixed :=
  List.mem_map.mp (h.events ▸ List.mem_map_of_mem hrow)

theorem Publishes.source {added : List EventRecord} (h : Publishes s t added) {row : EventRecord}
    (hrow : row ∈ t.db.events) : ∃ event ∈ s.db.events ++ added, event.fixed = row.fixed :=
  List.mem_map.mp (h.events ▸ List.mem_map_of_mem hrow)

theorem whole_step_cases (hstep : (wholeStreams settings retention).Step s label t) :
    (∃ added, Publishes s t added ∧ (CommitsAhead s label ↔
      ∀ event ∈ added, s.stream.query.selects event →
        ∀ read ∈ s.stream.fetched, ¬ eventBefore event read)) ∨
    (StreamMoves s t ∧ CommitsAhead s label) := by
  obtain ⟨hstep, hlabel⟩ := hstep
  cases hstep with
  | waited | began | published | abandoned =>
      exact .inl ⟨[], ⟨rfl, rfl, by simp, by simp⟩, by simp [CommitsAhead]⟩
  | @committed i transaction db htransaction hcommit =>
      refine .inl ⟨transaction.added, ⟨rfl, rfl, hcommit.events, ?_⟩, ?_⟩
      · exact fun event hevent =>
          List.mem_flatMap.mpr ⟨transaction, List.mem_of_getElem? htransaction, hevent⟩
      · simp only [CommitsAhead, htransaction, Option.mem_def, Option.some.injEq, forall_eq']
  | retained => exact absurd rfl hlabel
  | resumed =>
      exact .inr ⟨⟨rfl, rfl, rfl, resume_query .., resume_moves ..⟩, by simp [CommitsAhead]⟩
  | disconnected =>
      exact .inr ⟨⟨rfl, rfl, rfl, rfl, .dropped rfl rfl rfl⟩, by simp [CommitsAhead]⟩

theorem StreamMoves.fetched (h : StreamMoves s t) :
    t.stream.fetched = s.stream.fetched ∨ t.stream.fetched = s.stream.yielded ∨
      (s.stream.remaining = [] ∧
        t.stream.fetched = s.stream.yielded ++ s.stream.poll s.db) := by
  simp only [EventStream.fetched]
  cases h.moves with
  | kept hyielded hremaining _ => exact .inl (by rw [hyielded, hremaining])
  | dropped hyielded hremaining _ => exact .inr (.inl (by simp [hyielded, hremaining]))
  | polled hnone hyielded hremaining _ => exact .inr (.inr ⟨hnone, by rw [hyielded, hremaining]⟩)
  | sent first hremaining hyielded _ =>
      exact .inl (by rw [hyielded, hremaining, List.append_assoc, List.singleton_append])

theorem orderKept_step (hs : OrderKept s)
    (hstep : (wholeStreams settings retention).Step s label t) : OrderKept t := by
  have hkept : CursorKept t := cursorKept_step hs.kept hstep.1
  rcases whole_step_cases hstep with ⟨added, hadded, -⟩ | ⟨hmoves, -⟩
  · refine ⟨hkept, hadded.resumed.trans hs.resumed, ?_, ?_⟩
    · rw [hadded.stream]
      intro event hevent
      obtain ⟨row, hrow, hfixed⟩ := hs.committed event hevent
      obtain ⟨row', hrow', hfixed'⟩ := hadded.exists_row (List.mem_append_left _ hrow)
      exact ⟨row', hrow', hfixed'.trans hfixed⟩
    · rw [hadded.stream]
      exact hs.sorted
  · refine ⟨hkept, hmoves.resumed.trans hs.resumed, ?_, ?_⟩
    · rw [hmoves.db]
      intro event hevent
      rcases hmoves.fetched with heq | heq | ⟨-, heq⟩
      · exact hs.committed event (heq ▸ hevent)
      · exact hs.committed event (List.mem_append_left _ (heq ▸ hevent))
      · rw [heq, List.mem_append] at hevent
        rcases hevent with hevent | hevent
        · exact hs.committed event (List.mem_append_left _ hevent)
        · exact ⟨event, mem_of_poll hevent, rfl⟩
    · have hsent := (List.pairwise_append.mp hs.sorted).1
      rcases hmoves.fetched with heq | heq | ⟨-, heq⟩
      · exact heq ▸ hs.sorted
      · exact heq ▸ hsent
      · rw [heq, List.pairwise_append]
        exact ⟨hsent, hs.poll_sorted, fun sent hsent read => hs.sent_lt_poll hsent⟩

theorem fetched_initial (h : (eventStreams settings retention).Initial s) :
    s.stream.fetched = [] := by
  obtain ⟨-, -, query, header, hopened, -⟩ := h
  obtain ⟨hframes, hphase, -⟩ := streamResponse_spec hopened
  simp [EventStream.fetched, EventStream.yielded, EventStream.remaining, hframes, hphase]

theorem orderKept_initial (h : (wholeStreams settings retention).Initial s) : OrderKept s := by
  obtain ⟨hstart, hcurrent⟩ := h
  have hresumed : s.resumed = none := by
    obtain ⟨-, -, query, header, -, hresumed⟩ := hstart
    rw [hresumed, hcurrent]
    rfl
  refine ⟨cursorKept_initial hstart, hresumed, ?_, ?_⟩ <;> simp [fetched_initial hstart]

/-! ## Everything up to what was read -/

/-- What comes before an event that was read was read too. -/
def StreamState.ReadsAll (s : StreamState) : Prop :=
  ∀ event ∈ s.db.events, s.stream.query.selects event → ∀ read ∈ s.stream.fetched,
    event.key ≤ read.key → event.eventId ∈ s.stream.fetched.map (·.eventId)

/-- An event with the identifier of one that was read is at its place. -/
theorem OrderKept.key_eq (hs : OrderKept s) {event : EventRecord} (hevent : event ∈ s.db.events)
    (hid : event.eventId ∈ s.stream.fetched.map (·.eventId)) :
    ∃ read ∈ s.stream.fetched, read.eventId = event.eventId ∧ read.key = event.key := by
  obtain ⟨read, hread, heq⟩ := List.mem_map.mp hid
  exact ⟨read, hread, heq, (EventRecord.key_of_fixed (hs.fixed_eq hevent hread heq.symm)).symm⟩

/-- An event that comes before one that was sent has been sent itself. -/
theorem OrderKept.sent_of_le (hs : OrderKept s) (hreads : s.ReadsAll) {event sent : EventRecord}
    (hevent : event ∈ s.db.events) (hselects : s.stream.query.selects event)
    (hsent : sent ∈ s.stream.yielded) (hle : event.key ≤ sent.key) :
    event.eventId ∈ s.stream.yielded.map (·.eventId) := by
  obtain ⟨read, hread, hid, hkey⟩ := hs.key_eq hevent
    (hreads event hevent hselects sent (List.mem_append_left _ hsent) hle)
  rcases List.mem_append.mp hread with hread | hread
  · exact List.mem_map.mpr ⟨read, hread, hid⟩
  · have hlater := (List.pairwise_append.mp hs.sorted).2.2 sent hsent read hread
    exact absurd (hkey ▸ hlater) (not_lt.mpr hle)

/-- The cursor is the last event that was sent. -/
theorem OrderKept.cursor_sent (hs : OrderKept s) {cursor : EventRecord}
    (hcursor : cursor ∈ s.db.events) (hcurrent : s.stream.current = some cursor.eventId) :
    ∃ last, s.stream.yielded.getLast? = some last ∧ last.key = cursor.key := by
  rw [hs.current_eq, Option.map_eq_some_iff] at hcurrent
  obtain ⟨last, hlast, hid⟩ := hcurrent
  have hmem : last ∈ s.stream.fetched := List.mem_append_left _ (List.mem_of_getLast? hlast)
  exact ⟨last, hlast, (EventRecord.key_of_fixed (hs.fixed_eq hcursor hmem hid.symm)).symm⟩

theorem OrderKept.complete (hs : OrderKept s) (hreads : s.ReadsAll) : s.Complete := by
  intro cursor hcursor hcurrent event hevent hselects hbefore
  obtain ⟨last, hlast, hkey⟩ := hs.cursor_sent hcursor hcurrent
  refine hs.sent_of_le hreads hevent hselects (List.mem_of_getLast? hlast) ?_
  rw [hkey, ← eventBefore_iff]
  exact hbefore

/-! ## The rest of the batch -/

theorem finishBatch_yielded (stream : EventStream) :
    stream.finishBatch.yielded = stream.fetched := by
  simp [EventStream.finishBatch, EventStream.yielded, EventStream.fetched, SseFrame.record?,
    List.filterMap_map]

theorem finishBatch_fetched (stream : EventStream) :
    stream.finishBatch.fetched = stream.fetched := by
  rw [EventStream.fetched, finishBatch_yielded]
  exact List.append_nil _

theorem OrderKept.finishBatch_current (hs : OrderKept s) :
    s.stream.finishBatch.current = s.stream.fetched.getLast?.map (·.eventId) := by
  rw [EventStream.fetched, List.getLast?_append, EventStream.finishBatch, hs.current_eq]
  cases s.stream.remaining.getLast? <;> rfl

theorem OrderKept.finishBatch (hs : OrderKept s) : OrderKept s.finishBatch := by
  have hseen : s.finishBatch.seen = s.seen := by
    rw [StreamState.seen, StreamState.seen, List.append_assoc, List.append_assoc]
    exact congrArg _ (finishBatch_fetched s.stream)
  refine ⟨⟨?_, ?_, ?_, ?_⟩, hs.resumed, ?_, ?_⟩
  · exact ⟨hs.kept.fresh.injective, hs.kept.fresh.nodup, hs.kept.fresh.unused⟩
  · have hcurrent := hs.finishBatch_current
    rw [← finishBatch_yielded] at hcurrent
    refine hcurrent.trans ?_
    rw [StreamState.last?, StreamState.finishBatch, hs.resumed, Option.or_none]
  · rw [hseen]
    exact hs.kept.seen_drawn
  · rw [hseen]
    exact hs.kept.seen_fixed
  · rw [StreamState.finishBatch, finishBatch_fetched]
    exact hs.committed
  · rw [StreamState.finishBatch, finishBatch_fetched]
    exact hs.sorted

/-- What was read is complete exactly when the stream is now and with the rest of its batch. -/
theorem OrderKept.readsAll_iff (hs : OrderKept s) :
    s.ReadsAll ↔ s.Complete ∧ s.finishBatch.Complete := by
  constructor
  · intro hreads
    refine ⟨hs.complete hreads, hs.finishBatch.complete ?_⟩
    rw [StreamState.ReadsAll, StreamState.finishBatch, finishBatch_fetched]
    exact hreads
  · rintro ⟨-, hcomplete⟩ event hevent hselects read hread hle
    obtain ⟨last, hlast⟩ : ∃ last, s.stream.fetched.getLast? = some last :=
      Option.isSome_iff_exists.mp (List.getLast?_isSome.mpr (List.ne_nil_of_mem hread))
    obtain ⟨row, hrow, hfixed⟩ := hs.committed last (List.mem_of_getLast? hlast)
    have hcurrent : s.stream.finishBatch.current = some row.eventId := by
      rw [hs.finishBatch_current, hlast, EventRecord.id_of_fixed hfixed]
      rfl
    have hbefore : eventBefore event row := by
      rw [eventBefore_iff, EventRecord.key_of_fixed hfixed]
      exact hle.trans (key_le_getLast? hs.sorted hlast hread)
    have hsent := hcomplete row hrow hcurrent event hevent hselects hbefore
    rw [StreamState.finishBatch, finishBatch_yielded] at hsent
    exact hsent

/-! ## Runs -/

/-- An event of an open transaction has not been read. -/
theorem OrderKept.not_read (hs : OrderKept s) {event : EventRecord}
    (hevent : event ∈ s.transactions.flatMap (·.added)) :
    event.eventId ∉ s.stream.fetched.map (·.eventId) := by
  intro hid
  obtain ⟨read, hread, heq⟩ := List.mem_map.mp hid
  obtain ⟨row, hrow, hfixed⟩ := hs.committed read hread
  have hnodup := hs.kept.fresh.nodup
  rw [StreamState.known, List.map_append, List.nodup_append'] at hnodup
  refine hnodup.2.2 (List.mem_map_of_mem hrow) ?_
  rw [EventRecord.id_of_fixed hfixed, heq]
  exact List.mem_map_of_mem hevent

theorem commitsAhead_iff (hs : OrderKept s) (hreads : s.ReadsAll)
    (hstep : (wholeStreams settings retention).Step s label t) :
    CommitsAhead s label ↔ t.ReadsAll := by
  rcases whole_step_cases hstep with ⟨added, hadded, hiff⟩ | ⟨hmoves, hahead⟩
  · rw [hiff, StreamState.ReadsAll, hadded.stream]
    constructor
    · intro hahead row hrow hselects read hread hle
      obtain ⟨event, hevent, hfixed⟩ := hadded.source hrow
      rw [← EventStreamQuery.selects_of_fixed _ hfixed] at hselects
      rw [← EventRecord.key_of_fixed hfixed] at hle
      rw [← EventRecord.id_of_fixed hfixed]
      rcases List.mem_append.mp hevent with hevent | hevent
      · exact hreads event hevent hselects read hread hle
      · exact absurd ((eventBefore_iff _ _).mpr hle) (hahead event hevent hselects read hread)
    · intro hall event hevent hselects read hread hbefore
      obtain ⟨row, hrow, hfixed⟩ := hadded.exists_row (List.mem_append_right _ hevent)
      refine hs.not_read (hadded.pending event hevent) ?_
      rw [← EventRecord.id_of_fixed hfixed]
      refine hall row hrow ?_ read hread ?_
      · rwa [EventStreamQuery.selects_of_fixed _ hfixed]
      · rwa [EventRecord.key_of_fixed hfixed, ← eventBefore_iff]
  · refine iff_of_true hahead ?_
    rw [StreamState.ReadsAll, hmoves.db, hmoves.query]
    intro event hevent hselects read hread hle
    rcases hmoves.fetched with heq | heq | ⟨hnone, heq⟩ <;> rw [heq] at hread ⊢
    · exact hreads event hevent hselects read hread hle
    · exact hs.sent_of_le hreads hevent hselects hread hle
    · rw [List.map_append, List.mem_append]
      by_cases hsent : ∃ sent ∈ s.stream.yielded, event.key ≤ sent.key
      · obtain ⟨sent, hsent, hle⟩ := hsent
        exact .inl (hs.sent_of_le hreads hevent hselects hsent hle)
      · have hlater : ∀ sent ∈ s.stream.yielded, sent.key < event.key := by
          simpa using hsent
        rcases List.mem_append.mp hread with hread | hread
        · exact absurd hle (not_le.mpr (hlater read hread))
        · have hbehind := hs.mem_behind_iff.mpr ⟨hevent, hselects, hlater⟩
          exact .inr (List.mem_map_of_mem (hs.mem_poll_of_le hread hbehind hle))

/-- A stream has sent everything up to its cursor in every state of a run, and will have with the
rest of its batch, exactly when no event commits at or before one that it has read. -/
theorem stream_complete_iff (h : (wholeStreams settings retention).Initial s) :
    ((wholeStreams settings retention).restrict CommitsAhead).Run s labels t ↔
      ((wholeStreams settings retention).through fun u =>
        u.Complete ∧ u.finishBatch.Complete).Run s labels t := by
  have hstart := orderKept_initial h
  have hreads : s.ReadsAll := by simp [StreamState.ReadsAll, fetched_initial h.1]
  refine System.restrict_run_iff_through (I := OrderKept) (fun _ _ _ => orderKept_step)
    (fun u label v hu hcomplete hstep => ?_) hstart (hstart.readsAll_iff.mp hreads)
  rw [commitsAhead_iff hu (hu.readsAll_iff.mpr hcomplete) hstep]
  exact (orderKept_step hu hstep).readsAll_iff

/-! ## Two transactions -/

theorem quietStream_whole : (wholeStreams settings retention).Initial quietStream :=
  ⟨quietStream_initial, rfl⟩

/-- The second transaction begins when the first event is sent, and both events arrive. -/
theorem stream_complete_two : ∃ labels,
    ((wholeStreams sampleSse sampleRetention).through fun u =>
        u.Complete ∧ u.finishBatch.Complete).Run quietStream labels
      (quietAfter (sentMoves ++ offlineMoves ++ [.resume, .resume])) ∧
    (quietAfter (sentMoves ++ offlineMoves ++ [.resume, .resume])).stream.yielded.map (·.eventId) =
      ["e", "ee"] := by
  have hkeeps : System.ScriptKeeps (StreamMove.take sampleSse sampleRetention)
      (fun s label => label ≠ .retained ∧ CommitsAhead s label) quietStream
      (sentMoves ++ offlineMoves ++ [.resume, .resume]) := by decide +kernel
  have hrun := System.script_run_restrict (StreamMove.take_step _ _) hkeeps
  refine ⟨_, (stream_complete_iff quietStream_whole).mp (hrun.mono fun u label v hstep => ?_), ?_⟩
  · exact ⟨⟨hstep.1, hstep.2.1⟩, hstep.2.2⟩
  · decide +kernel

/-- A transaction that begins at 0 commits after the event of one that began at 1 is sent. -/
def lateMoves : List StreamMove :=
  [.resume, .resume, .begin, .wait 1, .begin,
    .publish 1 (.workerStatusChanged "worker" (some .online) .draining), .commit 1,
    .resume, .resume,
    .publish 0 (.workerStatusChanged "worker" (some .draining) .offline), .commit 0]

/-- The event of the first transaction is behind the cursor and is never sent. -/
theorem stream_skips_event : ∃ s,
    (wholeStreams sampleSse sampleRetention).Reachable s ∧ ¬ s.Complete := by
  have hkeeps : System.ScriptKeeps (StreamMove.take sampleSse sampleRetention)
      (fun _ label => label ≠ .retained) quietStream lateMoves := by decide +kernel
  have hrun := System.script_run_restrict (StreamMove.take_step _ _) hkeeps
  refine ⟨quietAfter lateMoves,
    ⟨quietStream, _, quietStream_whole, hrun.mono fun u label v hstep => ?_⟩, fun hcomplete => ?_⟩
  · exact ⟨hstep.1, hstep.2⟩
  · have hsent := hcomplete ⟨"e", .workerStatusChanged "worker" (some .online) .draining, 1, false⟩
      (by decide +kernel) (by decide +kernel)
      ⟨"ee", .workerStatusChanged "worker" (some .draining) .offline, 0, false⟩
      (by decide +kernel) (by decide +kernel) (by decide +kernel)
    revert hsent
    decide +kernel

end ParserServe
