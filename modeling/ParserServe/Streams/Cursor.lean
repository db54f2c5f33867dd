import ParserServe.Api.Events
import ParserServe.Retention.Safety

/-! # The cursor of a stream

A stream remembers the identifier of the last event it has sent and looks the event up again with
every poll.  A waiting event is therefore found exactly as long as the row of that event is in the
table.
-/

namespace ParserServe

open Foundation

variable {settings : SseSettings} {retention : RetentionService} {s t : StreamState}
  {label : StreamLabel} {db : Db} {stream : EventStream}

/-! ## Polls -/

/-- The rows a poll has to choose from. -/
def EventStream.behind (stream : EventStream) (db : Db) : List EventRecord :=
  match stream.current with
  | none => db.events.filter stream.query.selects
  | some eventId =>
      match EventRepository.get db eventId with
      | none => []
      | some cursor =>
          (db.events.filter stream.query.selects).filter fun row => cursor.key < row.key

theorem poll_eq (stream : EventStream) (db : Db) :
    stream.poll db =
      ((stream.behind db).insertionSort (EventSortField.occurredAt.before false)).take 100 := by
  simp only [EventStream.poll, EventRepository.list, EventStream.behind, EventQuery.filters]
  cases hcurrent : stream.current with
  | none => rfl
  | some eventId =>
      cases hget : EventRepository.get db eventId with
      | none =>
          simp only [hget]
          rfl
      | some cursor =>
          have hafter : ∀ row, decide ((EventQuery.stream
              { stream.query with lastEventId := some eventId }).before true cursor row) =
              decide (cursor.key < row.key) :=
            fun row => decide_eq_decide.mpr (occurredAt_before_true_iff cursor row)
          simp only [hget, hafter]
          rfl

theorem poll_ne_nil_iff : stream.poll db ≠ [] ↔ ∃ event, event ∈ stream.behind db := by
  rw [poll_eq, ne_eq, List.take_eq_nil_iff, List.eq_nil_iff_forall_not_mem]
  simp [List.mem_insertionSort]

theorem behind_sublist (stream : EventStream) (db : Db) :
    (stream.behind db).Sublist db.events := by
  unfold EventStream.behind
  split
  · exact List.filter_sublist
  · split
    · exact List.nil_sublist _
    · exact List.filter_sublist.trans List.filter_sublist

theorem mem_of_poll {event : EventRecord} (h : event ∈ stream.poll db) : event ∈ db.events := by
  rw [poll_eq] at h
  exact (behind_sublist stream db).subset ((List.mem_insertionSort _).mp (List.mem_of_mem_take h))

/-! ## What a stream does when it is resumed -/

inductive EventStream.Moves (db : Db) (a b : EventStream) : Prop
  | kept : b.yielded = a.yielded → b.remaining = a.remaining → b.current = a.current → Moves db a b
  | dropped : b.yielded = a.yielded → b.remaining = [] → b.current = a.current → Moves db a b
  | polled : a.remaining = [] → b.yielded = a.yielded → b.remaining = a.poll db →
      b.current = a.current → Moves db a b
  | sent (event : EventRecord) : a.remaining = event :: b.remaining →
      b.yielded = a.yielded ++ [event] → b.current = some event.eventId → Moves db a b

theorem resume_moves (stream : EventStream) (settings : SseSettings) (db : Db) (clock : Time) :
    stream.Moves db (stream.resume settings db clock) := by
  unfold EventStream.resume
  split
  · exact .dropped (by simp [EventStream.yielded, EventStream.send, SseFrame.record?]) rfl rfl
  · next hphase =>
      split
      · exact .dropped rfl rfl rfl
      · split
        · exact .dropped rfl rfl rfl
        · exact .kept rfl (by simp [EventStream.remaining, hphase]) rfl
        · exact .dropped rfl rfl rfl
  · next hphase =>
      have hremaining : stream.remaining = [] := by simp [EventStream.remaining, hphase]
      split
      · split
        · refine .dropped ?_ rfl rfl
          simp [EventStream.yielded, EventStream.send, SseFrame.record?]
        · exact .kept rfl rfl rfl
      · next hpoll => exact .polled hremaining rfl hpoll.symm rfl
  · exact .dropped rfl rfl rfl
  · next record records hphase =>
      refine .sent record (by simp [EventStream.remaining, EventStream.send, hphase]) ?_ rfl
      simp [EventStream.yielded, EventStream.send, SseFrame.record?]
  · exact .kept rfl rfl rfl

theorem resume_query (stream : EventStream) (settings : SseSettings) (db : Db) (clock : Time) :
    (stream.resume settings db clock).query = stream.query := by
  unfold EventStream.resume
  repeat' split
  all_goals rfl

/-! ## What a transaction does to the events -/

/-- A step beside the stream: rows may go, and one event may be added. -/
structure Writes (s t : StreamState) (new : Option EventRecord) : Prop where
  stream : t.stream = s.stream
  resumed : t.resumed = s.resumed
  factory : t.db.eventIdFactory = s.db.eventIdFactory
  known : (t.known.map (·.fixed)).Subperm ((s.known ++ new.toList).map (·.fixed))
  published : s.db.published ≤ t.db.published
  drawn : ∀ event ∈ new,
    event.eventId = s.db.eventIdFactory s.db.published ∧ s.db.published < t.db.published

/-- A step of the stream itself. -/
structure StreamMoves (s t : StreamState) : Prop where
  db : t.db = s.db
  transactions : t.transactions = s.transactions
  resumed : t.resumed = s.resumed
  query : t.stream.query = s.stream.query
  moves : s.stream.Moves s.db t.stream

theorem known_of_erased {i : Nat} {transaction : Transaction}
    (h : s.transactions[i]? = some transaction) :
    ((s.db.events ++ transaction.added) ++ (s.transactions.eraseIdx i).flatMap (·.added)).Perm
      s.known := by
  obtain ⟨hi, rfl⟩ := List.getElem?_eq_some_iff.mp h
  rw [StreamState.known, List.append_assoc]
  refine List.Perm.append_left _ ?_
  rw [← List.flatMap_cons]
  exact (List.getElem_cons_eraseIdx_perm hi).flatMap_right _

/-- The generator of event identifiers has not been called. -/
def Db.NotDrawn (db db' : Db) : Prop :=
  db'.eventIdFactory = db.eventIdFactory ∧ db'.published = db.published

theorem deletes_notDrawn (self : RetentionService) (db : Db) (storage : List String)
    (deleteFails : String → Bool) (now : Time) (limit : Nat) :
    db.NotDrawn (self.deletes db storage deleteFails now limit).db := by
  unfold RetentionService.deletes
  refine List.foldlRecOn (motive := fun state : RetentionState => db.NotDrawn state.db) _ _ ?_ ?_
  · refine List.foldlRecOn (motive := fun state : RetentionState => db.NotDrawn state.db) _ _
      ⟨rfl, rfl⟩ ?_
    intro state hstate record _
    unfold deleteUpload
    split <;> exact hstate
  · intro state hstate record _
    unfold deleteArtifact
    split <;> exact hstate

theorem retained_events {storage storage' : List String} {db' : Db} {deleteFails : String → Bool}
    {now : Time} {dryRun : Bool} {maximumRecords : Option Nat} {report : RetentionRunData}
    (h : retention.runOnce db storage deleteFails now dryRun maximumRecords =
      some (db', storage', report)) :
    db'.events.Sublist db.events ∧ db.NotDrawn db' := by
  cases dryRun with
  | false =>
      refine ⟨(runOnce_effect h).events ▸ List.filter_sublist, ?_⟩
      rw [runOnce_eq] at h
      dsimp only at h
      split at h
      · cases h
      · cases h
        exact deletes_notDrawn retention db storage deleteFails now _
  | true =>
      rw [runOnce_eq] at h
      dsimp only at h
      split at h
      · cases h
      · cases h
        exact ⟨.refl _, rfl, rfl⟩

theorem step_cases (hstep : StreamStep settings retention s label t) :
    (∃ new, Writes s t new) ∨ StreamMoves s t := by
  cases hstep with
  | waited _ =>
      refine .inl ⟨none, rfl, rfl, rfl, List.Perm.subperm ?_, le_rfl, by simp⟩
      simp [StreamState.known]
  | began =>
      refine .inl ⟨none, rfl, rfl, rfl, List.Perm.subperm ?_, le_rfl, by simp⟩
      simp [StreamState.known]
  | @published i transaction payload htransaction =>
      refine .inl ⟨some (s.db.newEvent transaction.current payload), rfl, rfl, rfl, ?_,
        Nat.le_succ _, ?_⟩
      · obtain ⟨hi, heq⟩ := List.getElem?_eq_some_iff.mp htransaction
        have hset := (List.set_perm_cons_eraseIdx hi { transaction with
          added := transaction.added ++ [s.db.newEvent transaction.current payload] }).flatMap_right
            (·.added)
        refine (List.Perm.map _ ((hset.append_left _).trans ?_)).subperm
        refine List.Perm.trans ?_ ((known_of_erased htransaction).append_right _)
        simp only [List.flatMap_cons, List.append_assoc]
        exact List.Perm.append_left _ (List.Perm.append_left _ List.perm_append_comm)
      · intro event hevent
        rw [← Option.some.inj hevent]
        exact ⟨rfl, Nat.lt_succ_self _⟩
  | committed htransaction hcommit =>
      refine .inl ⟨none, rfl, rfl, hcommit.factory, ?_, hcommit.published.ge, by simp⟩
      refine List.Perm.subperm ?_
      rw [StreamState.known, List.map_append, hcommit.events, ← List.map_append,
        Option.toList_none, List.append_nil]
      exact (known_of_erased htransaction).map _
  | @abandoned i =>
      refine .inl ⟨none, rfl, rfl, rfl, ?_, le_rfl, by simp⟩
      rw [Option.toList_none, List.append_nil]
      refine (List.Sublist.map _ ?_).subperm
      exact (List.Sublist.refl _).append ((List.eraseIdx_sublist _ _).flatMap _)
  | retained _ hpass =>
      obtain ⟨hevents, hfactory, hpublished⟩ := retained_events hpass
      refine .inl ⟨none, rfl, rfl, hfactory, ?_, hpublished.ge, by simp⟩
      rw [Option.toList_none, List.append_nil]
      exact ((hevents.append (.refl _)).map _).subperm
  | resumed => exact .inr ⟨rfl, rfl, rfl, resume_query .., resume_moves ..⟩
  | disconnected => exact .inr ⟨rfl, rfl, rfl, rfl, .dropped rfl rfl rfl⟩

theorem EventRecord.id_of_fixed {a b : EventRecord} (h : a.fixed = b.fixed) :
    a.eventId = b.eventId := congrArg Prod.fst h

theorem EventRecord.key_of_fixed {a b : EventRecord} (h : a.fixed = b.fixed) : a.key = b.key := by
  rw [EventRecord.key, EventRecord.key, id_of_fixed h, (Prod.mk.inj (Prod.mk.inj h).2).2]

/-! ## The invariant -/

/-- The event after which the stream stands. -/
def StreamState.last? (s : StreamState) : Option EventRecord :=
  s.stream.yielded.getLast?.or s.resumed

/-- Every event the stream has read. -/
def StreamState.seen (s : StreamState) : List EventRecord :=
  s.resumed.toList ++ s.stream.yielded ++ s.stream.remaining

/-- The cursor names the last event, and nobody else has the identifier of an event that was
read. -/
structure CursorKept (s : StreamState) : Prop where
  fresh : FreshEventIds s
  cursor : s.stream.current = s.last?.map (·.eventId)
  seen_drawn : ∀ event ∈ s.seen, ∀ k ≥ s.db.published, s.db.eventIdFactory k ≠ event.eventId
  seen_fixed : ∀ event ∈ s.seen, ∀ row ∈ s.known, row.eventId = event.eventId →
    row.fixed = event.fixed

theorem StreamState.mem_known {event : EventRecord} (h : event ∈ s.db.events) :
    event ∈ s.known := List.mem_append_left _ h

theorem FreshEventIds.not_drawn (hs : FreshEventIds s) {row : EventRecord} (hrow : row ∈ s.known)
    {k : Nat} (hk : s.db.published ≤ k) : s.db.eventIdFactory k ≠ row.eventId := fun heq =>
  hs.unused k hk (heq ▸ List.mem_map_of_mem hrow)

theorem Writes.source {new : Option EventRecord} (h : Writes s t new) {row : EventRecord}
    (hrow : row ∈ t.known) : (∃ old ∈ s.known, old.fixed = row.fixed) ∨
      (row.eventId = s.db.eventIdFactory s.db.published ∧ s.db.published < t.db.published) := by
  obtain ⟨old, hold, hfixed⟩ := List.mem_map.mp (h.known.subset (List.mem_map_of_mem hrow))
  rcases List.mem_append.mp hold with hold | hnew
  · exact .inl ⟨old, hold, hfixed⟩
  · obtain ⟨hid, hlt⟩ := h.drawn old (Option.mem_toList.mp hnew)
    exact .inr ⟨(EventRecord.id_of_fixed hfixed).symm.trans hid, hlt⟩

theorem FreshEventIds.writes (hs : FreshEventIds s) {new : Option EventRecord}
    (h : Writes s t new) : FreshEventIds t := by
  have hids : ∀ rows : List EventRecord,
      rows.map (·.eventId) = (rows.map (·.fixed)).map Prod.fst := by simp [EventRecord.fixed]
  refine ⟨h.factory ▸ hs.injective, ?_, ?_⟩
  · obtain ⟨rows, hperm, hsub⟩ := h.known
    rw [hids, ← (hperm.map Prod.fst).nodup_iff]
    refine List.Nodup.sublist (hsub.map Prod.fst) ?_
    rw [← hids, List.map_append, List.nodup_append']
    refine ⟨hs.nodup, ?_, ?_⟩
    · cases new <;> simp
    · intro eventId hknown hnew
      obtain ⟨event, hevent, rfl⟩ := List.mem_map.mp hnew
      rw [(h.drawn event (Option.mem_toList.mp hevent)).1] at hknown
      exact hs.unused _ le_rfl hknown
  · intro k hk hused
    obtain ⟨row, hrow, hid⟩ := List.mem_map.mp hused
    rw [h.factory] at hid
    rcases h.source hrow with ⟨old, hold, hfixed⟩ | ⟨hdrawn, hlt⟩
    · refine hs.not_drawn hold (h.published.trans hk) ?_
      rw [← hid]
      exact (EventRecord.id_of_fixed hfixed).symm
    · have heq := hs.injective (hid.symm.trans hdrawn)
      omega

theorem CursorKept.writes (hs : CursorKept s) {new : Option EventRecord} (h : Writes s t new) :
    CursorKept t := by
  have hseen : t.seen = s.seen := by simp only [StreamState.seen, h.stream, h.resumed]
  refine ⟨hs.fresh.writes h, ?_, ?_, ?_⟩
  · rw [h.stream, hs.cursor, StreamState.last?, StreamState.last?, h.stream, h.resumed]
  · rw [hseen, h.factory]
    exact fun event hevent k hk => hs.seen_drawn event hevent k (h.published.trans hk)
  · rw [hseen]
    intro event hevent row hrow hid
    rcases h.source hrow with ⟨old, hold, hfixed⟩ | ⟨hdrawn, -⟩
    · rw [← hfixed]
      exact hs.seen_fixed event hevent old hold ((EventRecord.id_of_fixed hfixed).trans hid)
    · exact absurd (hdrawn.symm.trans hid) (hs.seen_drawn event hevent _ le_rfl)

/-- The stream reads nothing but committed events. -/
theorem StreamMoves.seen (h : StreamMoves s t) {event : EventRecord} (hevent : event ∈ t.seen) :
    event ∈ s.seen ∨ event ∈ s.db.events := by
  simp only [StreamState.seen, List.mem_append, h.resumed] at hevent ⊢
  cases h.moves with
  | kept hyielded hremaining _ =>
      rw [hyielded, hremaining] at hevent
      exact .inl hevent
  | dropped hyielded hremaining _ =>
      rw [hyielded, hremaining] at hevent
      exact .inl (.inl (hevent.resolve_right List.not_mem_nil))
  | polled _ hyielded hremaining _ =>
      rw [hyielded, hremaining] at hevent
      exact hevent.imp .inl mem_of_poll
  | sent first hremaining hyielded _ =>
      rw [hyielded, List.mem_append, List.mem_singleton] at hevent
      rw [hremaining, List.mem_cons]
      tauto

theorem CursorKept.moves (hs : CursorKept s) (h : StreamMoves s t) : CursorKept t := by
  have hknown : t.known = s.known := by rw [StreamState.known, h.db, h.transactions]; rfl
  refine ⟨⟨?_, ?_, ?_⟩, ?_, ?_, ?_⟩
  · exact h.db ▸ hs.fresh.injective
  · exact hknown ▸ hs.fresh.nodup
  · rw [hknown, h.db]
    exact hs.fresh.unused
  · have hcursor := hs.cursor
    rw [StreamState.last?] at hcursor ⊢
    cases h.moves with
    | kept hyielded _ hcurrent => rw [hcurrent, hyielded, h.resumed, hcursor]
    | dropped hyielded _ hcurrent => rw [hcurrent, hyielded, h.resumed, hcursor]
    | polled _ hyielded _ hcurrent => rw [hcurrent, hyielded, h.resumed, hcursor]
    | sent event _ hyielded hcurrent =>
        rw [hcurrent, hyielded, List.getLast?_concat]
        rfl
  · rw [h.db]
    intro event hevent k hk
    rcases h.seen hevent with hevent | hevent
    · exact hs.seen_drawn event hevent k hk
    · exact hs.fresh.not_drawn (StreamState.mem_known hevent) hk
  · rw [hknown]
    intro event hevent row hrow hid
    rcases h.seen hevent with hevent | hevent
    · exact hs.seen_fixed event hevent row hrow hid
    · rw [List.inj_on_of_nodup_map hs.fresh.nodup hrow (StreamState.mem_known hevent) hid]

theorem cursorKept_step (hs : CursorKept s) (hstep : StreamStep settings retention s label t) :
    CursorKept t := by
  rcases step_cases hstep with ⟨new, h⟩ | h
  · exact hs.writes h
  · exact hs.moves h

/-- A stream is opened at an event of the table or without a cursor. -/
theorem streamResponse_spec {query : EventStreamQuery} {header : Option String} {clock : Time}
    (h : streamResponse db query header clock = .ok stream) :
    stream.frames = [] ∧ stream.phase = .opened ∧
      ∀ eventId ∈ stream.current, ∃ row, EventRepository.get db eventId = some row := by
  unfold streamResponse at h
  obtain ⟨resolved, -, h⟩ := bind_eq_ok.mp h
  obtain ⟨_, hvalid, h⟩ := bind_eq_ok.mp h
  cases h
  refine ⟨rfl, rfl, ?_⟩
  rintro eventId (rfl : resolved = some eventId)
  unfold validateLastEvent at hvalid
  cases hget : EventRepository.get db eventId with
  | none => simp [hget] at hvalid
  | some row => exact ⟨row, rfl⟩

theorem get_mem {eventId : String} {row : EventRecord}
    (h : EventRepository.get db eventId = some row) : row ∈ db.events ∧ row.eventId = eventId :=
  ⟨List.mem_of_find?_eq_some h, by simpa using List.find?_some h⟩

theorem cursorKept_initial (h : (eventStreams settings retention).Initial s) : CursorKept s := by
  obtain ⟨hfresh, -, query, header, hopened, hresumed⟩ := h
  obtain ⟨hframes, hphase, hcurrent⟩ := streamResponse_spec hopened
  have hyielded : s.stream.yielded = [] := by rw [EventStream.yielded, hframes]; rfl
  have hremaining : s.stream.remaining = [] := by rw [EventStream.remaining, hphase]
  have hseen : ∀ event ∈ s.seen, event ∈ s.known := by
    intro event hevent
    rw [StreamState.seen, hyielded, hremaining, List.append_nil, List.append_nil, hresumed,
      Option.mem_toList] at hevent
    obtain ⟨eventId, -, hget⟩ := Option.bind_eq_some_iff.mp hevent
    exact StreamState.mem_known (get_mem hget).1
  refine ⟨hfresh, ?_, ?_, ?_⟩
  · rw [StreamState.last?, hyielded, hresumed, List.getLast?_nil, Option.none_or]
    cases hid : s.stream.current with
    | none => rfl
    | some eventId =>
        obtain ⟨row, hget⟩ := hcurrent eventId hid
        simp [hget, (get_mem hget).2]
  · exact fun event hevent k hk => hfresh.not_drawn (hseen event hevent) hk
  · intro event hevent row hrow hid
    rw [List.inj_on_of_nodup_map hfresh.nodup hrow (hseen event hevent) hid]

theorem cursorKept_reachable (h : (eventStreams settings retention).Reachable s) :
    CursorKept s :=
  h.invariant (fun _ => cursorKept_initial) fun _ _ _ => cursorKept_step

/-! ## Polls of a stream -/

/-- A committed event that the stream has to send and has not, later than where it stands. -/
def StreamState.Waiting (s : StreamState) (event : EventRecord) : Prop :=
  event ∈ s.db.events ∧ s.stream.query.selects event ∧
    event.eventId ∉ s.stream.yielded.map (·.eventId) ∧
    ∀ last ∈ s.last?, ¬ eventBefore event last

/-- The row the cursor names is at the place of the event the stream has sent. -/
theorem CursorKept.key_eq (hs : CursorKept s) {row last : EventRecord} (hrow : row ∈ s.db.events)
    (hlast : last ∈ s.last?) (hid : row.eventId = last.eventId) : row.key = last.key := by
  have hseen : last ∈ s.seen := by
    rw [StreamState.last?, Option.mem_def, Option.or_eq_some_iff] at hlast
    simp only [StreamState.seen, List.mem_append, Option.mem_toList]
    rcases hlast with hyielded | ⟨-, hresumed⟩
    · exact .inl (.inr (List.mem_of_getLast? hyielded))
    · exact .inl (.inl hresumed)
  exact EventRecord.key_of_fixed
    (hs.seen_fixed last hseen row (StreamState.mem_known hrow) hid)

/-- A poll finds something while an event is waiting, or the stream ends, exactly when there is no
cursor or the row of its event is still there. -/
theorem stream_not_silenced_iff (h : (eventStreams settings retention).Reachable s)
    (hpolling : s.stream.phase = .polling) {event : EventRecord} (hwaiting : s.Waiting event) :
    (s.stream.poll s.db ≠ [] ∨
        (s.stream.resume settings s.db s.clock).phase = .ended) ↔
      ∀ eventId ∈ s.stream.current, ∃ row ∈ s.db.events, row.eventId = eventId := by
  have hkept := cursorKept_reachable h
  obtain ⟨hevent, hselected, -, hlater⟩ := hwaiting
  have hselect : event ∈ s.db.events.filter s.stream.query.selects :=
    List.mem_filter.mpr ⟨hevent, hselected⟩
  have hopen : (s.stream.resume settings s.db s.clock).phase ≠ .ended := by
    simp only [EventStream.resume, hpolling]
    split
    · split
      · simp [EventStream.send]
      · simp [hpolling]
    · simp
  rw [or_iff_left hopen, poll_ne_nil_iff]
  cases hcurrent : s.stream.current with
  | none => exact ⟨by simp, fun _ => ⟨event, by simpa [EventStream.behind, hcurrent] using hselect⟩⟩
  | some eventId =>
      have hcursor := hkept.cursor
      rw [hcurrent, eq_comm, Option.map_eq_some_iff] at hcursor
      obtain ⟨last, hlast, rfl⟩ := hcursor
      simp only [Option.mem_def, Option.some.injEq, forall_eq']
      cases hget : EventRepository.get s.db last.eventId with
      | none =>
          have hgone : ¬ ∃ row ∈ s.db.events, row.eventId = last.eventId := by
            rintro ⟨row, hrow, hid⟩
            simpa [hid] using List.find?_eq_none.mp hget row hrow
          simp [EventStream.behind, hcurrent, hget, hgone]
      | some cursor =>
          obtain ⟨hrow, hid⟩ := get_mem hget
          refine ⟨fun _ => ⟨cursor, hrow, hid⟩, fun _ => ⟨event, ?_⟩⟩
          simp only [EventStream.behind, hcurrent, hget, List.mem_filter, decide_eq_true_eq]
          refine ⟨⟨hevent, hselected⟩, ?_⟩
          rw [hkept.key_eq hrow hlast hid, ← not_le, ← eventBefore_iff]
          exact hlater last hlast

/-! ## A quiet stream -/

def sampleSse : SseSettings where
  heartbeat_pos := by decide
  delay_pos := by decide

/-- No events yet, and identifiers of growing length. -/
def quietDb : Db where
  tasks := []
  workers := []
  backends := []
  pipelines := []
  events := []
  uploads := []
  artifacts := []
  deliveries := []
  eventIdFactory := fun n => String.ofList (List.replicate (n + 1) 'e')
  published := 0
  workers_nodup := List.nodup_nil
  backends_nodup := List.nodup_nil
  deliveries_nodup := List.nodup_nil

/-- A client has asked for all events. -/
def quietStream : StreamState where
  db := quietDb
  storage := []
  clock := 0
  transactions := []
  stream := .open {} 0
  resumed := none

theorem quietStream_initial : (eventStreams settings retention).Initial quietStream := by
  refine ⟨⟨fun m n heq => ?_, List.nodup_nil, fun _ _ => List.not_mem_nil⟩,
    fun _ h => (List.not_mem_nil h).elim, {}, none, rfl, rfl⟩
  have hlength := congrArg (fun id : String => id.toList.length) heq
  simpa [quietStream, quietDb] using hlength

/-- The state after a script of moves. -/
def quietAfter (moves : List StreamMove) : StreamState :=
  (System.script (StreamMove.take sampleSse sampleRetention) quietStream moves).2

theorem quietAfter_reachable (moves : List StreamMove) :
    (eventStreams sampleSse sampleRetention).Reachable (quietAfter moves) :=
  ⟨quietStream, _, quietStream_initial,
    System.script_run (StreamMove.take_step sampleSse sampleRetention) quietStream moves⟩

/-- An event of a worker, published and committed at once. -/
def offlineMoves : List StreamMove :=
  [.begin, .publish 0 (.workerStatusChanged "worker" (some .online) .offline), .commit 0]

/-- One event is sent, and the stream asks for the next one. -/
def sentMoves : List StreamMove :=
  [.resume, .resume] ++ offlineMoves ++ [.resume, .resume, .resume, .resume, .wait 60]

/-- The second event is found, since the row of the first one is still in the table. -/
theorem stream_not_silenced_second : ∃ event,
    (quietAfter (sentMoves ++ offlineMoves)).Waiting event ∧
      ((quietAfter (sentMoves ++ offlineMoves)).stream.poll
          (quietAfter (sentMoves ++ offlineMoves)).db ≠ [] ∨
        ((quietAfter (sentMoves ++ offlineMoves)).stream.resume sampleSse
          (quietAfter (sentMoves ++ offlineMoves)).db
          (quietAfter (sentMoves ++ offlineMoves)).clock).phase = .ended) := by
  have hwaiting : (quietAfter (sentMoves ++ offlineMoves)).Waiting
      ⟨"ee", .workerStatusChanged "worker" (some .online) .offline, 60, false⟩ := by
    refine ⟨?_, ?_, ?_, ?_⟩ <;> decide +kernel
  refine ⟨_, hwaiting, (stream_not_silenced_iff (quietAfter_reachable _) ?_ hwaiting).mpr ?_⟩
  · decide +kernel
  · decide +kernel

/-- A pass deletes the first event, and the stream does not find the second one. -/
theorem stream_silenced : ∃ s event,
    (eventStreams sampleSse sampleRetention).Reachable s ∧ s.stream.phase = .polling ∧
      s.Waiting event ∧
      ¬ (s.stream.poll s.db ≠ [] ∨
        (s.stream.resume sampleSse s.db s.clock).phase = .ended) := by
  refine ⟨quietAfter (sentMoves ++ [.retain] ++ offlineMoves),
    ⟨"ee", .workerStatusChanged "worker" (some .online) .offline, 60, false⟩,
    quietAfter_reachable _, ?_, ⟨?_, ?_, ?_, ?_⟩, ?_⟩
  all_goals decide +kernel

end ParserServe
