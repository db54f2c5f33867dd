import ParserServe.Foundation.Attempt
import ParserServe.Foundation.FileSystem
import ParserServe.Foundation.Keyed
import ParserServe.Foundation.Paths
import ParserServe.Foundation.Percent
import ParserServe.Foundation.Replay
import ParserServe.Foundation.Runs
import ParserServe.Schema.Catalog

/-! # The local file storage

`LocalFileStorage` of `storage/local.py` under any number of calls at once.  A call of `write` is
the list of its steps, and what it has handed to a thread may still happen after the call has been
cancelled.  Nobody else writes below the root, and nothing there is a symbolic link.
-/

namespace ParserServe

open Foundation

/-! ## Keys and names -/

/-- `_path`: `resolve` changes nothing where there is neither a link nor a `..`. -/
def localPath (root : Path) (key : String) : Except String Path := do
  let parts := segments key.toList
  ensure (¬ (key.toList = [] ∨ key.toList.head? = some '/' ∨ '\\' ∈ key.toList ∨
      ∃ part ∈ parts, part = [] ∨ part = ['.'] ∨ part = ['.', '.']))
    "storage key must be a safe relative POSIX path"
  let path := root ++ parts
  ensure (root <+: path) "storage key escapes the storage root"
  return path

/-- The name `mkstemp` makes of `.{destination.name}.`, random characters and `.upload`. -/
def temporaryName (name random : List Char) : List Char :=
  '.' :: name ++ '.' :: random ++ ".upload".toList

def temporaryPath (destination : Path) (random : List Char) : Path :=
  destination.dropLast ++ [temporaryName (destination.getLast?.getD []) random]

/-- A name that `mkstemp` may make. -/
def TemporaryName (name : List Char) : Prop :=
  name.head? = some '.' ∧ ".upload".toList <:+ name

instance : DecidablePred TemporaryName := fun _ => inferInstanceAs (Decidable (_ ∧ _))

/-- No segment of the path could be the name of a temporary file. -/
def OrdinaryPath (path : Path) : Prop := ∀ segment ∈ path, ¬ TemporaryName segment

instance : DecidablePred OrdinaryPath := fun path =>
  inferInstanceAs (Decidable (∀ segment ∈ path, _))

/-! ## A call of `write` -/

structure StorageObject where
  key : String
  uri : String
  sizeBytes : Nat
  sha256 : Digest (List UInt8)
  deriving DecidableEq

/-- What a call raises; `cleanup` is an error inside the `except` clause that the cause has led
to. -/
inductive WriteError
  | tooLarge | notBytes | failed | cancelled
  | cleanup (cause : WriteError)
  deriving DecidableEq, Repr

/-- What the coroutine waits for; `cleaned` says that the `unlink` of the `except` clause has been
made. -/
inductive WritePhase
  | streaming | flushing | closing | replacing
  | failing (error : WriteError)
  | unlinking (error : WriteError)
  | returned (object : StorageObject)
  | raised (error : WriteError) (cleaned : Bool)
  deriving DecidableEq

/-- A call of `write` after `mkstemp`; `replaceThread` and `unlinkThread` are calls of `os.replace`
and `unlink` that a thread has yet to make, and `stream` is what the source has yielded. -/
structure LocalWrite where
  key : String
  destination : Path
  maximumBytes : Nat
  temporary : Path
  inode : Nat
  stream : List UInt8 := []
  sizeBytes : Nat := 0
  digest : List UInt8 := []
  buffered : List UInt8 := []
  closed : Bool := false
  replaceThread : Bool := false
  unlinkThread : Bool := false
  phase : WritePhase := .streaming

inductive WriteEvent
  | chunk (data : List UInt8)
  | notBytes
  | exhausted
  | spill (count : Nat)
  | flush
  | close
  | replace
  | replaceError
  | unlink
  | unlinkError
  | fail
  | cancel
  deriving DecidableEq

/-- The body of `async for chunk in source`. -/
@[grind] def LocalWrite.receive (call : LocalWrite) (data : List UInt8) : LocalWrite :=
  if data = [] then call
  else if call.maximumBytes < call.sizeBytes + data.length then
    { call with
      stream := call.stream ++ data
      sizeBytes := call.sizeBytes + data.length
      phase := .failing .tooLarge }
  else
    { call with
      stream := call.stream ++ data
      sizeBytes := call.sizeBytes + data.length
      digest := call.digest ++ data
      buffered := call.buffered ++ data }

/-- The object `write` returns. -/
@[grind] def LocalWrite.object (call : LocalWrite) : StorageObject where
  key := call.key
  uri := "local:///" ++ quote ['/'] call.key
  sizeBytes := call.sizeBytes
  sha256 := ⟨call.digest⟩

/-- The `except` clause closes the handle first, unless it is closed. -/
@[grind] def LocalWrite.abort (call : LocalWrite) (error : WriteError) : LocalWrite :=
  if call.closed then { call with phase := .unlinking error, unlinkThread := true }
  else { call with phase := .failing error }

/-- One step of a call; `none` when it does not wait for the event. -/
def LocalWrite.step (call : LocalWrite) (files : FileSystem) :
    WriteEvent → Option (FileSystem × LocalWrite)
  | .chunk data =>
      match call.phase with
      | .streaming => some (files, call.receive data)
      | _ => none
  | .notBytes =>
      match call.phase with
      | .streaming => some (files, call.abort .notBytes)
      | _ => none
  | .exhausted =>
      match call.phase with
      | .streaming => some (files, { call with phase := .flushing })
      | _ => none
  -- the buffered writer hands bytes to the system whenever it likes
  | .spill count =>
      if call.closed then none
      else some (files.append call.inode (call.buffered.take count),
        { call with buffered := call.buffered.drop count })
  | .flush =>
      match call.phase with
      | .flushing => some (files.append call.inode call.buffered,
          { call with buffered := [], phase := .closing })
      | _ => none
  | .close =>
      match call.phase with
      | .closing => some (files.append call.inode call.buffered,
          { call with buffered := [], closed := true, phase := .replacing, replaceThread := true })
      | .failing error => some (files.append call.inode call.buffered,
          { call with buffered := [], closed := true, phase := .unlinking error
                      unlinkThread := true })
      | _ => none
  | .replace =>
      if call.replaceThread then
        (files.replace? call.temporary call.destination).map fun files' =>
          (files', { call with
            replaceThread := false
            phase := if call.phase = .replacing then .returned call.object else call.phase })
      else none
  | .replaceError =>
      if call.replaceThread then
        some (files, if call.phase = .replacing then
            { call.abort .failed with replaceThread := false }
          else { call with replaceThread := false })
      else none
  | .unlink =>
      if call.unlinkThread ∧ files.entries call.temporary ≠ some .directory then
        some (files.unlink call.temporary, { call with
          unlinkThread := false
          phase := match call.phase with
            | .unlinking error | .raised error _ => .raised error true
            | phase => phase })
      else none
  | .unlinkError =>
      if call.unlinkThread then
        some (files, { call with
          unlinkThread := false
          phase := match call.phase with
            | .unlinking error => .raised (.cleanup error) false
            | phase => phase })
      else none
  | .fail =>
      match call.phase with
      | .streaming | .flushing | .closing => some (files, call.abort .failed)
      | .failing error => some (files, { call with phase := .raised (.cleanup error) false })
      | _ => none
  -- a thread that is at work goes on
  | .cancel =>
      match call.phase with
      | .streaming | .flushing | .closing | .replacing => some (files, call.abort .cancelled)
      | .failing _ | .unlinking _ =>
          some (files, { call with phase := .raised .cancelled false })
      | _ => none

/-! ## A call of `read` -/

structure LocalRead where
  chunkSize : Nat
  inode : Nat
  offset : Nat := 0
  yielded : List (List UInt8) := []
  finished : Bool := false

/-- `handle.read(chunk_size)`; an empty chunk ends the loop. -/
def LocalRead.advance (call : LocalRead) (files : FileSystem) : LocalRead :=
  let chunk := ((files.contents call.inode).drop call.offset).take call.chunkSize
  if chunk = [] then { call with finished := true }
  else { call with
    offset := call.offset + chunk.length
    yielded := call.yielded ++ [chunk] }

/-! ## The storage under many calls -/

/-- `issued` are the names that `mkstemp` has made; it draws them at random. -/
structure LocalState where
  files : FileSystem
  writes : List LocalWrite
  reads : List LocalRead
  issued : List Path

inductive LocalLabel
  | waited
  | refused (path : Path)
  | opened (path : Path)
  | progressed (call : Nat)
  | replaced (call : Nat) (path : Path) (content : List UInt8)
  | deleted (path : Path)
  | readOpened (path : Path)
  | readAdvanced (call : Nat)

/-- The label of a step of the call at `position`; what it moves into place is what the source
has yielded. -/
def LocalWrite.label (call : LocalWrite) (position : Nat) : WriteEvent → LocalLabel
  | .replace => .replaced position call.destination call.stream
  | _ => .progressed position

inductive LocalStep (root : Path) : LocalState → LocalLabel → LocalState → Prop
  | waited {s : LocalState} : LocalStep root s .waited s
  -- some of the directories may have been made before `write` fails
  | refused {s : LocalState} {key : String} {path directory : Path}
      (free : s.files.NoFileOn directory) :
      localPath root key = .ok path → directory <+: path.dropLast →
        LocalStep root s (.refused path)
          { s with files := s.files.makeDirs directory free }
  | opened {s : LocalState} {key : String} {path : Path} {maximumBytes : Nat}
      {random : List Char} (free : s.files.NoFileOn path.dropLast) :
      1 ≤ maximumBytes → localPath root key = .ok path →
        (s.files.makeDirs path.dropLast free).entries (temporaryPath path random) = none →
        temporaryPath path random ∉ s.issued →
        LocalStep root s (.opened path)
          { s with
            files := (s.files.makeDirs path.dropLast free).create (temporaryPath path random)
            writes := s.writes ++ [{
              key := key
              destination := path
              maximumBytes := maximumBytes
              temporary := temporaryPath path random
              inode := s.files.nextInode }]
            issued := s.issued ++ [temporaryPath path random] }
  | advanced {s : LocalState} {position : Nat} {call call' : LocalWrite} {event : WriteEvent}
      {files' : FileSystem} : s.writes[position]? = some call →
        call.step s.files event = some (files', call') →
        LocalStep root s (call.label position event)
          { s with files := files', writes := s.writes.set position call' }
  | deleted {s : LocalState} {key : String} {path : Path} : localPath root key = .ok path →
        s.files.entries path ≠ some .directory →
        LocalStep root s (.deleted path) { s with files := s.files.unlink path }
  | readOpened {s : LocalState} {key : String} {path : Path} {chunkSize inode : Nat} :
      1 ≤ chunkSize → localPath root key = .ok path → s.files.file? path = some inode →
        LocalStep root s (.readOpened path)
          { s with reads := s.reads ++ [{ chunkSize := chunkSize, inode := inode }] }
  | readAdvanced {s : LocalState} {position : Nat} {call : LocalRead} :
      s.reads[position]? = some call → call.finished = false →
        LocalStep root s (.readAdvanced position)
          { s with reads := s.reads.set position (call.advance s.files) }

/-- No call is under way. -/
structure LocalStart (s : LocalState) : Prop where
  writes : s.writes = []
  reads : s.reads = []

def localStorage (root : Path) : System LocalState LocalLabel where
  Initial := LocalStart
  Step := LocalStep root

/-- What the step does to the stored objects. -/
def LocalLabel.effect : LocalLabel → Option (StoreEffect Path (List UInt8))
  | .replaced _ path content => some (.put path content)
  | .deleted path => some (.remove path)
  | _ => none

/-- The path of the key, where the step is the first of a call. -/
def LocalLabel.path? : LocalLabel → Option Path
  | .refused path | .opened path | .deleted path | .readOpened path => some path
  | _ => none

/-- A call is made with the key of no temporary file. -/
def LocalLabel.Ordinary (label : LocalLabel) : Prop := ∀ path ∈ label.path?, OrdinaryPath path

instance : DecidablePred LocalLabel.Ordinary := fun label =>
  inferInstanceAs (Decidable (∀ path ∈ label.path?, _))

/-- The runs in which no call is made with the key of a temporary file. -/
def ordinaryStorage (root : Path) : System LocalState LocalLabel :=
  (localStorage root).restrict fun _ label => label.Ordinary

/-! ## Running a script of moves -/

inductive LocalMove
  | begin (key : String) (maximumBytes : Nat) (random : List Char)
  | advance (position : Nat) (event : WriteEvent)
  | delete (key : String)
  | openRead (key : String) (chunkSize : Nat)
  | read (position : Nat)

/-- The step of a move; one that is not possible waits. -/
def LocalMove.take (root : Path) (s : LocalState) : LocalMove → LocalLabel × LocalState
  | .begin key maximumBytes random =>
      match localPath root key with
      | .error _ => (.waited, s)
      | .ok path =>
          if h : s.files.NoFileOn path.dropLast then
            if 1 ≤ maximumBytes ∧
                (s.files.makeDirs path.dropLast h).entries (temporaryPath path random) = none ∧
                s.issued.contains (temporaryPath path random) = false then
              (.opened path, { s with
                files := (s.files.makeDirs path.dropLast h).create (temporaryPath path random)
                writes := s.writes ++ [{
                  key := key
                  destination := path
                  maximumBytes := maximumBytes
                  temporary := temporaryPath path random
                  inode := s.files.nextInode }]
                issued := s.issued ++ [temporaryPath path random] })
            else (.waited, s)
          else (.waited, s)
  | .advance position event =>
      match s.writes[position]? with
      | none => (.waited, s)
      | some call =>
          match call.step s.files event with
          | none => (.waited, s)
          | some (files', call') => (call.label position event,
              { s with files := files', writes := s.writes.set position call' })
  | .delete key =>
      match localPath root key with
      | .error _ => (.waited, s)
      | .ok path =>
          if s.files.entries path ≠ some .directory then
            (.deleted path, { s with files := s.files.unlink path })
          else (.waited, s)
  | .openRead key chunkSize =>
      match localPath root key with
      | .error _ => (.waited, s)
      | .ok path =>
          match s.files.file? path with
          | none => (.waited, s)
          | some inode =>
              if 1 ≤ chunkSize then
                (.readOpened path, { s with
                  reads := s.reads ++ [{ chunkSize := chunkSize, inode := inode }] })
              else (.waited, s)
  | .read position =>
      match s.reads[position]? with
      | none => (.waited, s)
      | some call =>
          if call.finished then (.waited, s)
          else (.readAdvanced position,
            { s with reads := s.reads.set position (call.advance s.files) })

theorem LocalMove.take_step (root : Path) (s : LocalState) (move : LocalMove) :
    (localStorage root).Step s (move.take root s).1 (move.take root s).2 := by
  have hwaited : LocalStep root s .waited s := .waited
  cases move with
  | begin key maximumBytes random =>
      simp only [LocalMove.take]
      split
      · exact hwaited
      · next path hpath =>
          split
          · next free =>
              split
              · next hnew =>
                  have hissued : temporaryPath path random ∉ s.issued := by
                    rw [← List.contains_iff_mem, hnew.2.2]
                    exact Bool.false_ne_true
                  exact .opened free hnew.1 hpath hnew.2.1 hissued
              · exact hwaited
          · exact hwaited
  | advance position event =>
      simp only [LocalMove.take]
      split
      · exact hwaited
      · next call hcall =>
          split
          · exact hwaited
          · next hstep => exact .advanced hcall hstep
  | delete key =>
      simp only [LocalMove.take]
      split
      · exact hwaited
      · next path hpath =>
          split
          · next hentry => exact .deleted hpath hentry
          · exact hwaited
  | openRead key chunkSize =>
      simp only [LocalMove.take]
      split
      · exact hwaited
      · next path hpath =>
          split
          · exact hwaited
          · next inode hfile =>
              split
              · next hsize => exact .readOpened hsize hpath hfile
              · exact hwaited
  | read position =>
      simp only [LocalMove.take]
      split
      · exact hwaited
      · next call hcall =>
          split
          · exact hwaited
          · next hfinished => exact .readAdvanced hcall (by simpa using hfinished)

/-- An empty directory tree. -/
def LocalState.empty : LocalState where
  files :=
    { entries := fun _ => none
      contents := fun _ => []
      nextInode := 0
      inode_lt := fun h => by cases h
      single := fun h => by cases h }
  writes := []
  reads := []
  issued := []

theorem LocalState.empty_start : LocalStart .empty := ⟨rfl, rfl⟩

end ParserServe
