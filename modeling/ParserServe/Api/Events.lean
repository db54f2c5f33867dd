import ParserServe.Control.Retention
import ParserServe.Foundation.Runs
import ParserServe.Persistence.Events

/-! # Event streams

`_stream` of `api/routes/events.py` as a machine that is resumed again and again, beside the
transactions that publish events and the passes of the retention service.  A transaction stamps its
events with the time its request began at; they are visible from its commit on.
-/

namespace ParserServe

open Foundation

/-! ## The stream of one client -/

structure SseSettings where
  heartbeatSeconds : ℚ := 15
  maximumSendDelaySeconds : ℚ := 30
  heartbeat_pos : 0 < heartbeatSeconds
  delay_pos : 0 < maximumSendDelaySeconds

inductive SseFrame
  | retry
  | event (record : EventRecord)
  | heartbeat
  deriving DecidableEq

def SseFrame.record? : SseFrame → Option EventRecord
  | .event record => some record
  | .retry | .heartbeat => none

/-- Where the generator stands: not started, at a `yield` with the rest of the batch behind it, at
the head of the loop, inside the loop over a batch, or returned. -/
inductive StreamPhase
  | opened
  | suspended (frame : SseFrame) (sendStarted : Time) (records : List EventRecord)
  | polling
  | sending (records : List EventRecord)
  | ended
  deriving DecidableEq

structure EventStream where
  query : EventStreamQuery
  current : Option String
  lastActivity : Time
  frames : List SseFrame
  phase : StreamPhase
  deriving DecidableEq

/-- The generator before it is run for the first time. -/
def EventStream.open (query : EventStreamQuery) (clock : Time) : EventStream :=
  ⟨query, query.lastEventId, clock, [], .opened⟩

def EventStream.send (stream : EventStream) (frame : SseFrame) (clock : Time)
    (records : List EventRecord) : EventStream :=
  { stream with
    frames := stream.frames ++ [frame]
    phase := .suspended frame clock records }

def EventStream.poll (stream : EventStream) (db : Db) : List EventRecord :=
  EventRepository.list db (.stream { stream.query with lastEventId := stream.current }) (some 100)

/-- `_stream` up to its next wait. -/
def EventStream.resume (stream : EventStream) (settings : SseSettings) (db : Db) (clock : Time) :
    EventStream :=
  match stream.phase with
  | .opened => { stream with lastActivity := clock }.send .retry clock []
  | .suspended frame sendStarted records =>
      if clock - sendStarted > settings.maximumSendDelaySeconds then
        { stream with phase := .ended }
      else
        match frame with
        | .retry => { stream with phase := .polling }
        | .event _ => { stream with phase := .sending records }
        | .heartbeat => { stream with lastActivity := clock, phase := .polling }
  | .polling =>
      match stream.poll db with
      | [] =>
          if clock - stream.lastActivity ≥ settings.heartbeatSeconds then
            stream.send .heartbeat clock []
          else stream
      | record :: records => { stream with phase := .sending (record :: records) }
  | .sending [] => { stream with lastActivity := clock, phase := .polling }
  | .sending (record :: records) =>
      { stream with current := some record.eventId }.send (.event record) clock records
  | .ended => stream

/-- `_last_event_id`: the cursor of the header or of the query. -/
def lastEventId (queryValue headerValue : Option String) : Except ApiError (Option String) :=
  if queryValue.isSome ∧ headerValue.isSome ∧ queryValue ≠ headerValue then
    .error ⟨422, .validationError, "Last-Event-ID header and query parameter do not match", false⟩
  else .ok (headerValue.or queryValue)

/-- `_validate_last_event`. -/
def validateLastEvent (db : Db) : Option String → Except ApiError Unit
  | none => .ok ()
  | some eventId =>
      match EventRepository.get db eventId with
      | none =>
          .error ⟨404, .notFound, "Last-Event-ID does not exist or has expired", false⟩
      | some _ => .ok ()

/-- `_stream_response`. -/
def streamResponse (db : Db) (query : EventStreamQuery) (headerLastEventId : Option String)
    (clock : Time) : Except ApiError EventStream := do
  let resolved ← lastEventId query.lastEventId headerLastEventId
  validateLastEvent db resolved
  return .open { query with lastEventId := resolved } clock

/-- The events the client has been sent, oldest first. -/
def EventStream.yielded (stream : EventStream) : List EventRecord :=
  stream.frames.filterMap (·.record?)

/-- What is left of the batch the stream has read. -/
def EventStream.remaining (stream : EventStream) : List EventRecord :=
  match stream.phase with
  | .suspended _ _ records | .sending records => records
  | .opened | .polling | .ended => []

/-! ## Transactions beside it -/

/-- `DatabaseEventBus.publish` before the commit. -/
def Db.newEvent (db : Db) (now : Time) (payload : EventPayload) : EventRecord :=
  ⟨db.eventIdFactory db.published, payload, now, false⟩

/-- The time a request read when it began and the events its session has added. -/
structure Transaction where
  current : Time
  added : List EventRecord

/-- The committed tables and objects, the real time, the open transactions and a stream, which
started after the event `resumed` if it had a cursor. -/
structure StreamState where
  db : Db
  storage : List String
  clock : Time
  transactions : List Transaction
  stream : EventStream
  resumed : Option EventRecord

/-- The columns of an event that are never written again. -/
def EventRecord.fixed (record : EventRecord) : String × EventPayload × Time :=
  (record.eventId, record.payload, record.occurredAt)

/-- A commit adds events.  It may write any other table, and the flags of events. -/
structure Commits (db : Db) (added : List EventRecord) (db' : Db) : Prop where
  events : db'.events.map (·.fixed) = (db.events ++ added).map (·.fixed)
  factory : db'.eventIdFactory = db.eventIdFactory
  published : db'.published = db.published

inductive StreamLabel
  | waited
  | began
  | published (transaction : Nat) (payload : EventPayload)
  | committed (transaction : Nat)
  | abandoned (transaction : Nat)
  | retained
  | resumed
  | disconnected
  deriving DecidableEq

inductive StreamStep (settings : SseSettings) (retention : RetentionService) :
    StreamState → StreamLabel → StreamState → Prop
  | waited {s : StreamState} {clock : Time} : s.clock ≤ clock →
      StreamStep settings retention s .waited { s with clock := clock }
  | began {s : StreamState} :
      StreamStep settings retention s .began
        { s with transactions := s.transactions ++ [⟨s.clock, []⟩] }
  | published {s : StreamState} {i : Nat} {transaction : Transaction} {payload : EventPayload} :
      s.transactions[i]? = some transaction →
        StreamStep settings retention s (.published i payload)
          { s with
            db := { s.db with published := s.db.published + 1 }
            transactions := s.transactions.set i { transaction with
              added := transaction.added ++ [s.db.newEvent transaction.current payload] } }
  | committed {s : StreamState} {i : Nat} {transaction : Transaction} {db : Db} :
      s.transactions[i]? = some transaction → Commits s.db transaction.added db →
        StreamStep settings retention s (.committed i)
          { s with db := db, transactions := s.transactions.eraseIdx i }
  | abandoned {s : StreamState} {i : Nat} :
      StreamStep settings retention s (.abandoned i)
        { s with transactions := s.transactions.eraseIdx i }
  | retained {s : StreamState} {db : Db} {storage : List String} {deleteFails : String → Bool}
      {now : Time} {dryRun : Bool} {maximumRecords : Option Nat} {report : RetentionRunData} :
      now ≤ s.clock →
        retention.runOnce s.db s.storage deleteFails now dryRun maximumRecords =
          some (db, storage, report) →
        StreamStep settings retention s .retained { s with db := db, storage := storage }
  | resumed {s : StreamState} :
      StreamStep settings retention s .resumed
        { s with stream := s.stream.resume settings s.db s.clock }
  | disconnected {s : StreamState} :
      StreamStep settings retention s .disconnected
        { s with stream := { s.stream with phase := .ended } }

/-- The committed events and those of open transactions. -/
def StreamState.known (s : StreamState) : List EventRecord :=
  s.db.events ++ s.transactions.flatMap (·.added)

/-- Event identifiers are drawn without repetition. -/
structure FreshEventIds (s : StreamState) : Prop where
  injective : Function.Injective s.db.eventIdFactory
  nodup : (s.known.map (·.eventId)).Nodup
  unused : ∀ k ≥ s.db.published, s.db.eventIdFactory k ∉ s.known.map (·.eventId)

/-- A transaction that has begun and stamps its events with that time. -/
def Transaction.Begun (transaction : Transaction) (clock : Time) : Prop :=
  transaction.current ≤ clock ∧
    ∀ event ∈ transaction.added, event.occurredAt = transaction.current

/-- A request has just been answered with a stream. -/
def eventStreams (settings : SseSettings) (retention : RetentionService) :
    System StreamState StreamLabel where
  Initial s := FreshEventIds s ∧ (∀ transaction ∈ s.transactions, transaction.Begun s.clock) ∧
    ∃ query header, streamResponse s.db query header s.clock = .ok s.stream ∧
      s.resumed = s.stream.current.bind (EventRepository.get s.db)
  Step := StreamStep settings retention

/-! ## Running a script of moves -/

inductive StreamMove
  | wait (clock : Time)
  | begin
  | publish (transaction : Nat) (payload : EventPayload)
  | commit (transaction : Nat)
  | retain
  | resume

/-- The step of a move; one that is not possible waits for no time. -/
def StreamMove.take (settings : SseSettings) (retention : RetentionService) (s : StreamState) :
    StreamMove → StreamLabel × StreamState
  | .wait clock => (.waited, { s with clock := max s.clock clock })
  | .begin => (.began, { s with transactions := s.transactions ++ [⟨s.clock, []⟩] })
  | .publish i payload =>
      match s.transactions[i]? with
      | none => (.waited, s)
      | some transaction =>
          (.published i payload, { s with
            db := { s.db with published := s.db.published + 1 }
            transactions := s.transactions.set i { transaction with
              added := transaction.added ++ [s.db.newEvent transaction.current payload] } })
  | .commit i =>
      match s.transactions[i]? with
      | none => (.waited, s)
      | some transaction =>
          (.committed i, { s with
            db := { s.db with events := s.db.events ++ transaction.added }
            transactions := s.transactions.eraseIdx i })
  | .retain =>
      match retention.runOnce s.db s.storage (fun _ => false) s.clock false none with
      | none => (.waited, s)
      | some (db, storage, _) => (.retained, { s with db := db, storage := storage })
  | .resume => (.resumed, { s with stream := s.stream.resume settings s.db s.clock })

theorem StreamMove.take_step (settings : SseSettings) (retention : RetentionService)
    (s : StreamState) (move : StreamMove) :
    (eventStreams settings retention).Step s (move.take settings retention s).1
      (move.take settings retention s).2 := by
  have hwaited : StreamStep settings retention s .waited s := .waited (le_refl s.clock)
  cases move with
  | wait clock => exact .waited (le_max_left _ _)
  | begin => exact .began
  | publish i payload =>
      simp only [StreamMove.take]
      split
      · exact hwaited
      · next htransaction => exact .published htransaction
  | commit i =>
      simp only [StreamMove.take]
      split
      · exact hwaited
      · next htransaction => exact .committed htransaction ⟨rfl, rfl, rfl⟩
  | retain =>
      simp only [StreamMove.take]
      split
      · exact hwaited
      · next hpass => exact .retained le_rfl hpass
  | resume => exact .resumed

end ParserServe
