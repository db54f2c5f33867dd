import ParserServe.Storage.Local

/-! # Local storage is atomic

The directory tree of the local storage refines a store that puts and removes whole objects: a
call of `write` takes effect in its `os.replace` or not at all.
-/

namespace ParserServe

open Foundation

variable {root path : Path} {random : List Char} {files files' : FileSystem}
  {call call' : LocalWrite} {event : WriteEvent}

/-! ## Names -/

theorem temporaryName_spec (name random : List Char) :
    TemporaryName (temporaryName name random) :=
  ⟨rfl, ⟨'.' :: name ++ '.' :: random, rfl⟩⟩

theorem temporaryPath_not_ordinary : ¬ OrdinaryPath (temporaryPath path random) := fun h =>
  h _ (List.mem_append_right _ List.mem_cons_self) (temporaryName_spec _ _)

/-! ## Steps of one call -/

/-- The phases in which the handle is open. -/
@[grind] def WritePhase.open : WritePhase → Prop
  | .streaming | .flushing | .closing | .failing _ => True
  | _ => False

/-- The phases in which nothing has failed and nothing is in place yet. -/
@[grind] def WritePhase.live : WritePhase → Prop
  | .streaming | .flushing | .closing | .replacing => True
  | _ => False

/-- The error that the call raises or has raised. -/
@[grind] def WritePhase.error? : WritePhase → Option WriteError
  | .failing error | .unlinking error | .raised error _ => some error
  | _ => none

/-- What a call keeps true of itself and of its temporary file. -/
structure LocalWrite.Sound (call : LocalWrite) (files : FileSystem) : Prop where
  hidden : ¬ OrdinaryPath call.temporary
  ordinary : OrdinaryPath call.destination
  handle : call.phase.open → call.closed = false
  pending : call.replaceThread ∨ call.unlinkThread → call.closed
  replacing : call.phase = .replacing → call.replaceThread
  entry : files.entries call.temporary = some (.file call.inode) ∨
    call.closed ∧ files.entries call.temporary = none
  written : call.phase.live ∨ call.replaceThread →
    files.contents call.inode ++ call.buffered = call.stream
  flushed : call.closed → call.buffered = []
  counted : call.phase.live → call.sizeBytes = call.stream.length ∧ call.digest = call.stream ∧
    call.sizeBytes ≤ call.maximumBytes
  limited : call.phase.live ∨ call.replaceThread → call.stream.length ≤ call.maximumBytes
  answer : ∀ object, call.phase = .returned object →
    object = { call.object with sizeBytes := call.stream.length, sha256 := ⟨call.stream⟩ } ∧
      call.stream.length ≤ call.maximumBytes

/-- A step moves the temporary file into place, removes it or writes to its inode. -/
theorem LocalWrite.step_files (hsound : call.Sound files)
    (h : call.step files event = some (files', call')) :
    (event = .replace ∧ call.replaceThread ∧ ∃ hentry, files' =
        files.rename call.temporary call.destination call.inode hentry) ∨
      (event = .unlink ∧ files' = files.unlink call.temporary) ∨
      (event ≠ .replace ∧ ∃ bytes, files' = files.append call.inode bytes ∧
        (call.closed → bytes = [])) := by
  cases event with
  | replace =>
      simp only [LocalWrite.step, Option.ite_none_right_eq_some, Option.map_eq_some_iff] at h
      obtain ⟨hthread, files'', hreplace, heq⟩ := h
      cases heq
      obtain ⟨inode, hentry, rfl⟩ := FileSystem.replace?_eq_some hreplace
      have hown : inode = call.inode := by
        rcases hsound.entry with hfile | ⟨-, hnone⟩
        · rw [hfile] at hentry
          cases hentry
          rfl
        · rw [hnone] at hentry
          cases hentry
      subst hown
      exact .inl ⟨rfl, hthread, hentry, rfl⟩
  | unlink =>
      simp only [LocalWrite.step, Option.ite_none_right_eq_some] at h
      cases h.2
      exact .inr (.inl ⟨rfl, rfl⟩)
  | spill count =>
      simp only [LocalWrite.step, Option.ite_none_left_eq_some] at h
      cases h.2
      exact .inr (.inr ⟨by simp, _, rfl, fun hclosed => absurd hclosed h.1⟩)
  | flush | close =>
      refine .inr (.inr ⟨by simp, call.buffered, ?_, hsound.flushed⟩)
      simp only [LocalWrite.step] at h
      split at h <;> cases h <;> rfl
  | chunk | notBytes | exhausted | fail | cancel =>
      refine .inr (.inr ⟨by simp, [], ?_, fun _ => rfl⟩)
      rw [FileSystem.append_nil]
      simp only [LocalWrite.step] at h
      split at h <;> cases h <;> rfl
  | replaceError | unlinkError =>
      refine .inr (.inr ⟨by simp, [], ?_, fun _ => rfl⟩)
      rw [FileSystem.append_nil]
      simp only [LocalWrite.step, Option.ite_none_right_eq_some] at h
      cases h.2
      rfl

/-- What a step leaves as it was. -/
theorem LocalWrite.step_fixed (h : call.step files event = some (files', call')) :
    call'.key = call.key ∧ call'.destination = call.destination ∧
      call'.maximumBytes = call.maximumBytes ∧ call'.temporary = call.temporary ∧
      call'.inode = call.inode ∧ (call.closed → call'.closed) := by
  cases event <;> simp only [LocalWrite.step] at h <;> grind [Option.map_eq_some_iff]

/-! Each change of a call keeps it sound. -/

theorem LocalWrite.Sound.receive (hsound : call.Sound files) (hphase : call.phase = .streaming)
    (data : List UInt8) : (call.receive data).Sound files := by
  have hlive : call.phase.live := by rw [hphase]; trivial
  have hopen := hsound.handle (by rw [hphase]; trivial)
  have hreplace : call.replaceThread = false := by
    cases hthread : call.replaceThread with
    | false => rfl
    | true => rw [hsound.pending (.inl hthread)] at hopen; cases hopen
  obtain ⟨hsize, hdigest, hbound⟩ := hsound.counted hlive
  have hwritten := hsound.written (.inl hlive)
  rw [LocalWrite.receive]
  split
  · exact hsound
  · split
    · exact { hsound with
        handle := fun _ => hopen
        replacing := by simp
        written := by simp [WritePhase.live, hreplace]
        counted := by simp [WritePhase.live]
        limited := by simp [WritePhase.live, hreplace]
        answer := by simp }
    · next hlimit =>
      exact { hsound with
        written := fun _ => by rw [← hwritten, List.append_assoc]
        flushed := by simp [hopen]
        counted := fun _ => ⟨by simp [hsize], by rw [hdigest], by simpa using hlimit⟩
        limited := fun _ => by rw [List.length_append, ← hsize]; exact Nat.le_of_not_lt hlimit
        answer := by simp [hphase] }

/-- The call goes on to a later phase. -/
theorem LocalWrite.Sound.proceeds (hsound : call.Sound files) {phase : WritePhase}
    (hlive : call.phase.live) (hopen : call.closed = false)
    (hphase : phase = .flushing ∨ phase = .closing) :
    LocalWrite.Sound { call with phase := phase } files :=
  { hsound with
    handle := fun _ => hopen
    replacing := by rcases hphase with rfl | rfl <;> simp
    written := fun _ => hsound.written (.inl hlive)
    counted := fun _ => hsound.counted hlive
    limited := fun _ => hsound.limited (.inl hlive)
    answer := by rcases hphase with rfl | rfl <;> simp }

/-- The system takes the first bytes of the buffer. -/
theorem LocalWrite.Sound.spills (hsound : call.Sound files) {taken left : List UInt8}
    (hbuffer : taken ++ left = call.buffered) :
    LocalWrite.Sound { call with buffered := left } (files.append call.inode taken) :=
  { hsound with
    written := fun hwhen => by
      rw [FileSystem.contents_append_self, List.append_assoc, hbuffer]
      exact hsound.written hwhen
    flushed := fun hclosed => by
      have hempty := hsound.flushed hclosed
      rw [← hbuffer] at hempty
      exact (List.append_eq_nil_iff.mp hempty).2 }

/-- Nothing more is put into place, unless a thread is at it. -/
theorem LocalWrite.Sound.fails (hsound : call.Sound files) {phase : WritePhase} {thread : Bool}
    (herror : ∃ error, phase.error? = some error) (hopen : phase.open → call.closed = false)
    (hthread : thread → call.closed) :
    LocalWrite.Sound { call with phase := phase, unlinkThread := thread } files :=
  have hdead : ¬ phase.live := by
    cases phase <;> simp_all [WritePhase.live, WritePhase.error?]
  { hsound with
    handle := hopen
    pending := by
      rintro (hreplace | hunlink)
      · exact hsound.pending (.inl hreplace)
      · exact hthread hunlink
    replacing := fun hphase => by
      subst hphase
      exact absurd trivial hdead
    written := fun hwhen => hsound.written (.inr (hwhen.resolve_left hdead))
    counted := fun hlive => absurd hlive hdead
    limited := fun hwhen => hsound.limited (.inr (hwhen.resolve_left hdead))
    answer := fun object hphase => by
      subst hphase
      cases herror.choose_spec }

theorem LocalWrite.Sound.abort (hsound : call.Sound files) (error : WriteError) :
    (call.abort error).Sound files := by
  rw [LocalWrite.abort]
  split
  · next hclosed => exact hsound.fails ⟨error, rfl⟩ False.elim fun _ => hclosed
  · next hclosed =>
      exact hsound.fails ⟨error, rfl⟩ (fun _ => Bool.eq_false_iff.mpr hclosed)
        fun hunlink => hsound.pending (.inr hunlink)

theorem LocalWrite.Sound.raises (hsound : call.Sound files) (error : WriteError)
    (cleaned : Bool) : LocalWrite.Sound { call with phase := .raised error cleaned } files :=
  hsound.fails ⟨error, rfl⟩ False.elim fun hunlink => hsound.pending (.inr hunlink)

/-- The handle is closed and all is written. -/
theorem LocalWrite.Sound.closes (hsound : call.Sound files) (hbuffer : call.buffered = [])
    (hlive : call.phase.live) : LocalWrite.Sound
      { call with closed := true, phase := .replacing, replaceThread := true } files :=
  { hsound with
    handle := False.elim
    pending := fun _ => rfl
    replacing := fun _ => rfl
    entry := hsound.entry.imp id fun h => ⟨rfl, h.2⟩
    written := fun _ => hsound.written (.inl hlive)
    flushed := fun _ => hbuffer
    counted := fun _ => hsound.counted hlive
    limited := fun _ => hsound.limited (.inl hlive)
    answer := by simp }

theorem LocalWrite.Sound.closesFailing (hsound : call.Sound files) (hbuffer : call.buffered = [])
    (error : WriteError) : LocalWrite.Sound
      { call with closed := true, phase := .unlinking error, unlinkThread := true } files :=
  { hsound with
    handle := False.elim
    pending := fun _ => rfl
    replacing := by simp
    entry := hsound.entry.imp id fun h => ⟨rfl, h.2⟩
    written := fun hwhen => hsound.written (.inr (hwhen.resolve_left id))
    flushed := fun _ => hbuffer
    counted := False.elim
    limited := fun hwhen => hsound.limited (.inr (hwhen.resolve_left id))
    answer := by simp }

/-- The thread of `os.replace` is over. -/
theorem LocalWrite.Sound.settles (hsound : call.Sound files) (hphase : call.phase ≠ .replacing) :
    LocalWrite.Sound { call with replaceThread := false } files :=
  { hsound with
    pending := fun hwhen => hsound.pending (.inr (hwhen.resolve_left (by simp)))
    replacing := fun h => absurd h hphase
    written := fun hwhen => hsound.written (.inl (hwhen.resolve_right (by simp)))
    limited := fun hwhen => hsound.limited (.inl (hwhen.resolve_right (by simp))) }

/-- The thread of `unlink` is over. -/
theorem LocalWrite.Sound.unlinked (hsound : call.Sound files) {phase : WritePhase}
    (hphase : phase = call.phase ∨ ∃ error cleaned, phase = .raised error cleaned) :
    LocalWrite.Sound { call with unlinkThread := false, phase := phase } files := by
  rcases hphase with rfl | ⟨error, cleaned, rfl⟩
  · exact { hsound with
      pending := fun hwhen => hsound.pending (.inl (hwhen.resolve_right (by simp))) }
  · exact hsound.fails ⟨error, rfl⟩ False.elim (by simp)

/-- `os.replace` has moved the temporary file into place. -/
theorem LocalWrite.Sound.replaces (hsound : call.Sound files) (hthread : call.replaceThread)
    (hreplace : files.replace? call.temporary call.destination = some files') :
    LocalWrite.Sound { call with
      replaceThread := false
      phase := if call.phase = .replacing then .returned call.object else call.phase } files' := by
  have hne : call.temporary ≠ call.destination := fun heq => hsound.hidden (heq ▸ hsound.ordinary)
  have hclosed := hsound.pending (.inl hthread)
  have hbound := hsound.limited (.inr hthread)
  have hdead : call.phase ≠ .replacing → ¬ call.phase.live := by
    intro hphase hlive
    have hhandle := hsound.handle
    cases hcase : call.phase <;> simp_all [WritePhase.live, WritePhase.open]
  obtain ⟨inode, hfile, rfl⟩ := FileSystem.replace?_eq_some hreplace
  have hentry : (files.rename call.temporary call.destination inode hfile).entries
      call.temporary = none := FileSystem.rename_source hne
  split
  · next hphase =>
      obtain ⟨hsize, hdigest, -⟩ := hsound.counted (by rw [hphase]; trivial)
      exact { hsound with
        handle := False.elim
        pending := fun _ => hclosed
        replacing := by simp
        entry := .inr ⟨hclosed, hentry⟩
        written := fun hwhen => by simp [WritePhase.live] at hwhen
        counted := False.elim
        limited := fun _ => hbound
        answer := fun object hobject => by
          cases hobject
          exact ⟨by simp [LocalWrite.object, hsize, hdigest], hbound⟩ }
  · next hphase =>
      exact { hsound with
        pending := fun _ => hclosed
        replacing := fun h => absurd h hphase
        entry := .inr ⟨hclosed, hentry⟩
        written := fun hwhen => absurd (hwhen.resolve_right (by simp)) (hdead hphase)
        counted := fun hlive => absurd hlive (hdead hphase)
        limited := fun _ => hbound }

theorem LocalWrite.Sound.unlinks (hsound : call.Sound files) (hclosed : call.closed) :
    call.Sound (files.unlink call.temporary) :=
  { hsound with
    entry := .inr ⟨hclosed, FileSystem.unlink_self⟩ }

theorem LocalWrite.sound_step (hsound : call.Sound files)
    (h : call.step files event = some (files', call')) : call'.Sound files' := by
  have hwhole : LocalWrite.Sound { call with buffered := [] }
      (files.append call.inode call.buffered) := hsound.spills (List.append_nil _)
  cases event with
  | chunk data =>
      simp only [LocalWrite.step] at h
      split at h <;> cases h
      next hphase => exact hsound.receive hphase data
  | notBytes =>
      simp only [LocalWrite.step] at h
      split at h <;> cases h
      exact hsound.abort .notBytes
  | exhausted =>
      simp only [LocalWrite.step] at h
      split at h <;> cases h
      next hphase =>
        have hopen := hsound.handle (by rw [hphase]; trivial)
        exact hsound.proceeds (by rw [hphase]; trivial) hopen (.inl rfl)
  | spill count =>
      simp only [LocalWrite.step, Option.ite_none_left_eq_some] at h
      cases h.2
      exact hsound.spills (List.take_append_drop count call.buffered)
  | flush =>
      simp only [LocalWrite.step] at h
      split at h <;> cases h
      next hphase =>
        have hopen := hsound.handle (by rw [hphase]; trivial)
        exact hwhole.proceeds (by simp [hphase, WritePhase.live]) hopen (.inr rfl)
  | close =>
      simp only [LocalWrite.step] at h
      split at h <;> cases h
      · next hphase => exact hwhole.closes rfl (by simp [hphase, WritePhase.live])
      · exact hwhole.closesFailing rfl _
  | replace =>
      simp only [LocalWrite.step, Option.ite_none_right_eq_some, Option.map_eq_some_iff] at h
      obtain ⟨hthread, files'', hreplace, heq⟩ := h
      cases heq
      exact hsound.replaces hthread hreplace
  | replaceError =>
      simp only [LocalWrite.step, Option.ite_none_right_eq_some] at h
      obtain ⟨hthread, h⟩ := h
      cases h
      split
      · next hphase =>
          apply (hsound.abort .failed).settles
          rw [LocalWrite.abort]
          split <;> simp
      · next hphase => exact hsound.settles hphase
  | unlink =>
      simp only [LocalWrite.step, Option.ite_none_right_eq_some] at h
      obtain ⟨⟨hthread, -⟩, h⟩ := h
      cases h
      apply LocalWrite.Sound.unlinked (hsound.unlinks (hsound.pending (.inr hthread)))
      split
      case h_1 | h_2 => exact .inr ⟨_, _, rfl⟩
      · exact .inl rfl
  | unlinkError =>
      simp only [LocalWrite.step, Option.ite_none_right_eq_some] at h
      cases h.2
      apply hsound.unlinked
      split
      · exact .inr ⟨_, _, rfl⟩
      · exact .inl rfl
  | fail =>
      simp only [LocalWrite.step] at h
      split at h <;> cases h
      · exact hsound.abort .failed
      · exact hsound.abort .failed
      · exact hsound.abort .failed
      · exact hsound.raises _ false
  | cancel =>
      simp only [LocalWrite.step] at h
      split at h <;> cases h
      · exact hsound.abort .cancelled
      · exact hsound.abort .cancelled
      · exact hsound.abort .cancelled
      · exact hsound.abort .cancelled
      · exact hsound.raises .cancelled false
      · exact hsound.raises .cancelled false

/-- A call does not notice what happens to other files. -/
theorem LocalWrite.Sound.frame (h : call.Sound files)
    (hentry : files'.entries call.temporary = files.entries call.temporary)
    (hbytes : files'.contents call.inode = files.contents call.inode) : call.Sound files' :=
  { h with
    entry := hentry ▸ h.entry
    written := hbytes ▸ h.written }

/-! ## All calls together -/

/-- What the storage keeps true of its calls. -/
structure LocalInv (s : LocalState) : Prop where
  sound : ∀ call ∈ s.writes, call.Sound s.files
  inode_lt : ∀ call ∈ s.writes, call.inode < s.files.nextInode
  inodes : (s.writes.map (·.inode)).Nodup
  temporaries : (s.writes.map (·.temporary)).Nodup
  issued : ∀ call ∈ s.writes, call.temporary ∈ s.issued
  readers : ∀ read ∈ s.reads, read.inode < s.files.nextInode ∧
    ∀ call ∈ s.writes, call.closed = false → call.inode ≠ read.inode

variable {s t : LocalState} {label : LocalLabel} {position : Nat}

theorem LocalStart.inv (h : LocalStart s) : LocalInv s where
  sound := by simp [h.writes]
  inode_lt := by simp [h.writes]
  inodes := by simp [h.writes]
  temporaries := by simp [h.writes]
  issued := by simp [h.writes]
  readers := by simp [h.reads]

/-- The name of a temporary file is on no ordinary path. -/
theorem notMem_inits_of_ordinary {hidden : Path} (hhidden : ¬ OrdinaryPath hidden)
    (hpath : OrdinaryPath path) : hidden ∉ path.inits := by
  intro hmem
  have hbefore := (List.mem_inits _ _).mp hmem
  exact hhidden fun segment hsegment => hpath segment (hbefore.subset hsegment)

theorem ordinary_dropLast (h : OrdinaryPath path) : OrdinaryPath path.dropLast :=
  fun segment hsegment => h segment (List.mem_of_mem_dropLast hsegment)

/-- A temporary file is the only name of the inode that a call writes to. -/
theorem LocalWrite.Sound.writes_hidden (h : call.Sound files) (hopen : call.closed = false)
    (hpath : OrdinaryPath path) : files.entries path ≠ some (.file call.inode) := by
  intro hfile
  rcases h.entry with hentry | ⟨hclosed, -⟩
  · exact h.hidden (files.single hfile hentry ▸ hpath)
  · rw [hopen] at hclosed
    cases hclosed

/-- The files of another call are not touched by a step. -/
theorem step_frame (hinv : LocalInv s) (hcall : s.writes[position]? = some call)
    (hstep : call.step s.files event = some (files', call')) {other : LocalWrite}
    (hother : other ∈ s.writes) (htemporary : other.temporary ≠ call.temporary)
    (hinode : other.inode ≠ call.inode) : other.Sound files' := by
  have hmem := List.mem_of_getElem? hcall
  have hsound := hinv.sound call hmem
  have hothers := hinv.sound other hother
  have htarget : other.temporary ≠ call.destination := fun heq =>
    hothers.hidden (heq ▸ hsound.ordinary)
  rcases LocalWrite.step_files hsound hstep with
    ⟨-, -, hentry, rfl⟩ | ⟨-, rfl⟩ | ⟨-, bytes, rfl, -⟩
  · exact hothers.frame (FileSystem.rename_of_ne htarget htemporary) rfl
  · exact hothers.frame (FileSystem.unlink_of_ne htemporary) rfl
  · exact hothers.frame rfl (FileSystem.contents_append_of_ne hinode)

theorem step_nextInode (hsound : call.Sound files)
    (h : call.step files event = some (files', call')) : files'.nextInode = files.nextInode := by
  rcases LocalWrite.step_files hsound h with ⟨-, -, hentry, rfl⟩ | ⟨-, rfl⟩ | ⟨-, bytes, rfl, -⟩ <;>
    rfl

theorem inv_opened {key : String} {maximumBytes : Nat} (hinv : LocalInv s)
    (hpath : OrdinaryPath path) (free : s.files.NoFileOn path.dropLast)
    (hissued : temporaryPath path random ∉ s.issued) :
    LocalInv { s with
      files := (s.files.makeDirs path.dropLast free).create (temporaryPath path random)
      writes := s.writes ++ [{
        key := key
        destination := path
        maximumBytes := maximumBytes
        temporary := temporaryPath path random
        inode := s.files.nextInode }]
      issued := s.issued ++ [temporaryPath path random] } where
  sound := by
    intro call hcall
    rcases List.mem_append.mp hcall with hcall | hcall
    · have hsound := hinv.sound call hcall
      have hne : call.temporary ≠ temporaryPath path random := fun heq =>
        hissued (heq ▸ hinv.issued call hcall)
      apply hsound.frame
      · rw [FileSystem.create_of_ne hne, FileSystem.makeDirs_of_notMem]
        exact notMem_inits_of_ordinary hsound.hidden (ordinary_dropLast hpath)
      · exact FileSystem.contents_create (hinv.inode_lt call hcall)
    · rw [List.mem_singleton.mp hcall]
      constructor
      · exact temporaryPath_not_ordinary
      · exact hpath
      · exact fun _ => rfl
      · simp
      · intro hphase
        cases hphase
      · exact .inl FileSystem.create_self
      · intro _
        exact (List.append_nil _).trans FileSystem.contents_create_self
      · exact fun _ => rfl
      · exact fun _ => ⟨rfl, rfl, Nat.zero_le _⟩
      · exact fun _ => Nat.zero_le _
      · intro object hphase
        cases hphase
  inode_lt := by
    intro call hcall
    rcases List.mem_append.mp hcall with hcall | hcall
    · exact Nat.lt_succ_of_lt (hinv.inode_lt call hcall)
    · rw [List.mem_singleton.mp hcall]
      exact Nat.lt_succ_self _
  inodes := by
    rw [List.map_append, List.map_singleton, List.nodup_append]
    refine ⟨hinv.inodes, List.nodup_singleton _, ?_⟩
    intro inode hinode fresh hfresh heq
    obtain ⟨call, hcall, rfl⟩ := List.mem_map.mp hinode
    rw [List.mem_singleton.mp hfresh] at heq
    exact absurd (hinv.inode_lt call hcall) (heq ▸ Nat.lt_irrefl _)
  temporaries := by
    rw [List.map_append, List.map_singleton, List.nodup_append]
    refine ⟨hinv.temporaries, List.nodup_singleton _, ?_⟩
    intro name hname fresh hfresh heq
    obtain ⟨call, hcall, rfl⟩ := List.mem_map.mp hname
    rw [List.mem_singleton.mp hfresh] at heq
    have hmem := hinv.issued call hcall
    rw [heq] at hmem
    exact hissued hmem
  issued := by
    intro call hcall
    rcases List.mem_append.mp hcall with hcall | hcall
    · exact List.mem_append_left _ (hinv.issued call hcall)
    · rw [List.mem_singleton.mp hcall]
      exact List.mem_append_right _ List.mem_cons_self
  readers := by
    intro read hread
    obtain ⟨hlt, hwrites⟩ := hinv.readers read hread
    refine ⟨Nat.lt_succ_of_lt hlt, ?_⟩
    intro call hcall hopen
    rcases List.mem_append.mp hcall with hcall | hcall
    · exact hwrites call hcall hopen
    · rw [List.mem_singleton.mp hcall]
      exact (Nat.ne_of_lt hlt).symm

theorem inv_advanced (hinv : LocalInv s) (hcall : s.writes[position]? = some call)
    (hstep : call.step s.files event = some (files', call')) :
    LocalInv { s with files := files', writes := s.writes.set position call' } := by
  have hsound := hinv.sound call (List.mem_of_getElem? hcall)
  obtain ⟨-, -, -, htemporary, hinode, hclosed⟩ := LocalWrite.step_fixed hstep
  have hnext := step_nextInode hsound hstep
  have hcases : ∀ other ∈ s.writes.set position call', other = call' ∨
      other ∈ s.writes ∧ other.temporary ≠ call.temporary ∧ other.inode ≠ call.inode := by
    intro other hother
    rcases mem_set_cases hinv.inodes hcall hother with rfl | ⟨hmem, hne⟩
    · exact .inl rfl
    · rcases mem_set_cases hinv.temporaries hcall hother with rfl | ⟨-, hne'⟩
      · exact .inl rfl
      · exact .inr ⟨hmem, hne', hne⟩
  constructor
  · intro other hother
    rcases hcases other hother with rfl | ⟨hmem, hname, hnumber⟩
    · exact LocalWrite.sound_step hsound hstep
    · exact step_frame hinv hcall hstep hmem hname hnumber
  · intro other hother
    rw [hnext]
    rcases hcases other hother with rfl | ⟨hmem, -⟩
    · rw [hinode]
      exact hinv.inode_lt call (List.mem_of_getElem? hcall)
    · exact hinv.inode_lt other hmem
  · rw [map_set_of_eq hcall hinode]
    exact hinv.inodes
  · rw [map_set_of_eq hcall htemporary]
    exact hinv.temporaries
  · intro other hother
    rcases hcases other hother with rfl | ⟨hmem, -⟩
    · rw [htemporary]
      exact hinv.issued call (List.mem_of_getElem? hcall)
    · exact hinv.issued other hmem
  · intro read hread
    obtain ⟨hlt, hwrites⟩ := hinv.readers read hread
    rw [hnext]
    refine ⟨hlt, ?_⟩
    intro other hother hopen
    rcases hcases other hother with rfl | ⟨hmem, -⟩
    · rw [hinode]
      apply hwrites call (List.mem_of_getElem? hcall)
      cases hvalue : call.closed with
      | false => rfl
      | true => rw [hclosed hvalue] at hopen; cases hopen
    · exact hwrites other hmem hopen

/-- Files that no call has under way may change. -/
theorem LocalInv.frame (hinv : LocalInv s)
    (hentries : ∀ hidden, ¬ OrdinaryPath hidden →
      files'.entries hidden = s.files.entries hidden)
    (hcontents : files'.contents = s.files.contents)
    (hnext : files'.nextInode = s.files.nextInode) : LocalInv { s with files := files' } where
  sound call hcall := (hinv.sound call hcall).frame
    (hentries _ (hinv.sound call hcall).hidden) (congrFun hcontents _)
  inode_lt call hcall := hnext ▸ hinv.inode_lt call hcall
  inodes := hinv.inodes
  temporaries := hinv.temporaries
  issued := hinv.issued
  readers read hread := hnext ▸ hinv.readers read hread

theorem LocalStep.inv (hinv : LocalInv s) (hstep : LocalStep root s label t)
    (hordinary : label.Ordinary) : LocalInv t := by
  cases hstep with
  | waited => exact hinv
  | @refused key path directory free _ hdirectory =>
      refine hinv.frame (fun hidden hhidden => ?_) rfl rfl
      apply FileSystem.makeDirs_of_notMem
      apply notMem_inits_of_ordinary hhidden
      intro segment hsegment
      exact ordinary_dropLast (hordinary path rfl) segment (hdirectory.subset hsegment)
  | opened free _ _ _ hissued => exact inv_opened hinv (hordinary _ rfl) free hissued
  | advanced hcall hadvance => exact inv_advanced hinv hcall hadvance
  | @deleted key path hpath hfile =>
      refine hinv.frame (fun hidden hhidden => ?_) rfl rfl
      apply FileSystem.unlink_of_ne
      intro heq
      exact hhidden (heq ▸ hordinary path rfl)
  | @readOpened key path chunkSize inode _ _ hfile =>
      have hentry := FileSystem.file?_eq_some.mp hfile
      refine { hinv with readers := ?_ }
      intro read hread
      rcases List.mem_append.mp hread with hread | hread
      · exact hinv.readers read hread
      · rw [List.mem_singleton.mp hread]
        refine ⟨s.files.inode_lt hentry, ?_⟩
        rintro call hcall hopen rfl
        exact (hinv.sound call hcall).writes_hidden hopen (hordinary path rfl) hentry
  | @readAdvanced position call hcall _ =>
      refine { hinv with readers := ?_ }
      intro read hread
      rcases List.mem_or_eq_of_mem_set hread with hread | rfl
      · exact hinv.readers read hread
      · have hinode : (call.advance s.files).inode = call.inode := by
          simp only [LocalRead.advance]
          split <;> rfl
        rw [hinode]
        exact hinv.readers call (List.mem_of_getElem? hcall)

/-! ## The stored objects -/

theorem label_effect (call : LocalWrite) (position : Nat) (h : event ≠ .replace) :
    (call.label position event).effect = none := by
  cases event <;> first | rfl | exact absurd rfl h

/-- A step changes the stored objects by its effect. -/
theorem LocalStep.objects (hinv : LocalInv s) (hstep : LocalStep root s label t)
    (hordinary : label.Ordinary) (hpath : OrdinaryPath path) :
    t.files.read? path = replay s.files.read? label.effect.toList path := by
  cases hstep with
  | waited => rfl
  | @refused key destination directory free _ _ =>
      have hfree : s.files.NoFileOn directory := free
      exact FileSystem.read?_makeDirs (h := hfree)
  | @opened key destination maximumBytes random free _ _ _ _ =>
      have hne : path ≠ temporaryPath destination random := fun heq =>
        temporaryPath_not_ordinary (heq ▸ hpath)
      exact (FileSystem.read?_create hne).trans FileSystem.read?_makeDirs
  | @advanced position call call' event files' hcall hadvance =>
      have hsound := hinv.sound call (List.mem_of_getElem? hcall)
      have hne : path ≠ call.temporary := fun heq => hsound.hidden (heq ▸ hpath)
      rcases LocalWrite.step_files hsound hadvance with
        ⟨rfl, hthread, hentry, rfl⟩ | ⟨rfl, rfl⟩ | ⟨hevent, bytes, rfl, hclosed⟩
      · have hwhole := hsound.written (.inr hthread)
        rw [hsound.flushed (hsound.pending (.inl hthread)), List.append_nil] at hwhole
        show FileSystem.read? _ path = StoreEffect.apply _ (.put call.destination call.stream) path
        by_cases htarget : path = call.destination
        · subst htarget
          rw [FileSystem.read?_rename_target, hwhole, apply_put]
        · rw [FileSystem.read?_rename htarget hne]
          exact (apply_of_ne htarget).symm
      · exact FileSystem.read?_unlink hne
      · rw [label_effect call position hevent]
        cases hvalue : call.closed with
        | true =>
            rw [hclosed hvalue, FileSystem.append_nil]
            rfl
        | false => exact FileSystem.read?_append (hsound.writes_hidden hvalue hpath)
  | @deleted key target htarget hfile =>
      show (s.files.unlink target).read? path = StoreEffect.apply _ (.remove target) path
      by_cases heq : path = target
      · subst heq
        rw [FileSystem.read?_unlink_self, apply_remove]
      · rw [FileSystem.read?_unlink heq]
        exact (apply_of_ne heq).symm
  | readOpened => rfl
  | readAdvanced => rfl

theorem ordinary_run_inv {labels : List LocalLabel} (hs : LocalInv s)
    (h : (ordinaryStorage root).Run s labels t) : LocalInv t := by
  induction h with
  | nil => exact hs
  | snoc _ hstep ih => exact hstep.1.inv ih hstep.2

/-- Whatever calls are made and however they interleave, fail or are cancelled, each key holds
what a store that puts and removes whole objects would hold. -/
theorem objects_replay {labels : List LocalLabel} (hs : LocalStart s)
    (h : (ordinaryStorage root).Run s labels t) (hpath : OrdinaryPath path) :
    t.files.read? path = replay s.files.read? (labels.filterMap (·.effect)) path := by
  induction h generalizing path with
  | nil => rfl
  | @snoc u v labels label hrun hstep ih =>
      have hinv := ordinary_run_inv hs.inv hrun
      rw [hstep.1.objects hinv hstep.2 hpath, List.filterMap_append]
      have hrest : [label].filterMap (·.effect) = label.effect.toList := by
        cases label <;> rfl
      rw [hrest]
      cases heffect : label.effect with
      | none => simpa using ih hpath
      | some effect =>
          show StoreEffect.apply u.files.read? effect path = replay _ (_ ++ [effect]) path
          rw [replay_snoc]
          by_cases hkey : path = effect.key
          · subst hkey
            rw [apply_self, apply_self]
          · rw [apply_of_ne hkey, apply_of_ne hkey, ih hpath]

end ParserServe
