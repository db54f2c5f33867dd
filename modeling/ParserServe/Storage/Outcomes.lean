import ParserServe.Storage.Atomic

/-! # What the calls of the local storage answer

A `write` that returns has put its whole stream into place once, one that raises has put nothing
there unless it was cancelled, and no temporary file outlives the clean-up of its call.  A `read`
yields the object as it was when the file was opened.
-/

namespace ParserServe

open Foundation

variable {root path : Path} {files files' : FileSystem} {call call' : LocalWrite}
  {event : WriteEvent} {s t u v : LocalState} {label : LocalLabel} {labels : List LocalLabel}
  {position : Nat} {installed : List (Path × List UInt8)}

/-- What the step moves into place for the call at `position`. -/
def LocalLabel.installedBy (position : Nat) : LocalLabel → Option (Path × List UInt8)
  | .replaced call path content => if call = position then some (path, content) else none
  | _ => none

/-- What was raised does not come from a cancellation. -/
def WriteError.uncancelled : WriteError → Prop
  | .tooLarge | .notBytes | .failed => True
  | .cancelled => False
  | .cleanup cause => cause.uncancelled

/-- The call has returned, or it has raised and its temporary file has been unlinked. -/
@[grind] def WritePhase.done : WritePhase → Prop
  | .returned _ => True
  | .raised _ cleaned => cleaned
  | _ => False

instance : DecidablePred WritePhase.done
  | .returned _ => isTrue trivial
  | .raised _ cleaned => inferInstanceAs (Decidable (cleaned = true))
  | .streaming | .flushing | .closing | .replacing | .failing _ | .unlinking _ => isFalse id

/-! ## What one call has moved into place -/

structure LocalWrite.Accounts (call : LocalWrite) (installed : List (Path × List UInt8)) :
    Prop where
  once : installed = [] ∨ installed = [(call.destination, call.stream)]
  waiting : call.phase.live ∨ call.replaceThread → installed = []
  failed : ∀ error, call.phase.error? = some error → error.uncancelled →
    installed = [] ∧ call.replaceThread = false
  returned : ∀ object, call.phase = .returned object →
    installed = [(call.destination, call.stream)]
  bounded : installed ≠ [] → call.stream.length ≤ call.maximumBytes

theorem LocalWrite.Accounts.nil (hreturned : ∀ object, call.phase ≠ .returned object)
    (hthread : call.phase.live ∨ call.replaceThread = false) : call.Accounts [] where
  once := .inl rfl
  waiting _ := rfl
  failed error herror _ := by
    refine ⟨rfl, hthread.resolve_left fun hlive => ?_⟩
    cases hphase : call.phase <;> simp_all [WritePhase.live, WritePhase.error?]
  returned object hphase := absurd hphase (hreturned object)
  bounded hne := absurd rfl hne

theorem LocalWrite.Accounts.fails (h : call.Accounts installed) {phase : WritePhase}
    {thread closed : Bool} {buffered : List UInt8} {error : WriteError}
    (herror : phase.error? = some error)
    (huncancelled : error.uncancelled → installed = [] ∧ call.replaceThread = false) :
    LocalWrite.Accounts { call with
      buffered := buffered, closed := closed, phase := phase, unlinkThread := thread }
      installed where
  once := h.once
  waiting hwhen := by
    apply h.waiting
    refine .inr (hwhen.resolve_left fun hlive => ?_)
    cases phase <;> simp_all [WritePhase.live, WritePhase.error?]
  failed other hother hclean := by
    cases herror.symm.trans hother
    exact huncancelled hclean
  returned object hphase := by
    subst hphase
    cases herror
  bounded := h.bounded

theorem LocalWrite.Accounts.abort (h : call.Accounts installed) {error : WriteError}
    (huncancelled : error.uncancelled → installed = [] ∧ call.replaceThread = false) :
    (call.abort error).Accounts installed := by
  rw [LocalWrite.abort]
  split
  · exact h.fails rfl huncancelled
  · exact h.fails rfl huncancelled

/-- While the call has not failed, nothing is in place and no thread is at work. -/
theorem LocalWrite.Accounts.quiet (h : call.Accounts installed) (hsound : call.Sound files)
    (hlive : call.phase.live) (hopen : call.phase.open) :
    installed = [] ∧ call.replaceThread = false := by
  refine ⟨h.waiting (.inl hlive), ?_⟩
  cases hthread : call.replaceThread with
  | false => rfl
  | true =>
      have hclosed := hsound.pending (.inl hthread)
      rw [hsound.handle hopen] at hclosed
      cases hclosed

theorem LocalWrite.accounts_replace (hsound : call.Sound files)
    (haccounts : call.Accounts installed) (hthread : call.replaceThread) :
    LocalWrite.Accounts { call with
      replaceThread := false
      phase := if call.phase = .replacing then .returned call.object else call.phase }
      [(call.destination, call.stream)] where
  once := .inr rfl
  waiting hwhen := by
    exfalso
    have hclosed := hsound.pending (.inl hthread)
    have hhandle := hsound.handle
    rcases hwhen with hlive | hagain
    · cases hphase : call.phase <;> simp_all [WritePhase.live, WritePhase.open]
    · cases hagain
  failed error herror huncancelled := by
    exfalso
    have hnone := (haccounts.failed error · huncancelled)
    cases hphase : call.phase <;> simp_all [WritePhase.error?]
  returned _ _ := rfl
  bounded _ := hsound.limited (.inr hthread)

theorem LocalWrite.accounts_step (hsound : call.Sound files) (haccounts : call.Accounts installed)
    (h : call.step files event = some (files', call')) :
    call'.Accounts (installed ++ ((call.label position event).installedBy position).toList) := by
  by_cases hevent : event = .replace
  · subst hevent
    simp only [LocalWrite.step, Option.ite_none_right_eq_some, Option.map_eq_some_iff] at h
    obtain ⟨hthread, files'', -, heq⟩ := h
    cases heq
    have hlabel : ((call.label position .replace).installedBy position).toList =
        [(call.destination, call.stream)] := by
      simp [LocalWrite.label, LocalLabel.installedBy]
    rw [hlabel, haccounts.waiting (.inr hthread)]
    exact LocalWrite.accounts_replace hsound haccounts hthread
  have hlabel : ((call.label position event).installedBy position).toList = [] := by
    cases event <;> simp_all [LocalWrite.label, LocalLabel.installedBy]
  rw [hlabel, List.append_nil]
  have hquiet := haccounts.quiet hsound
  cases event with
  | replace => exact absurd rfl hevent
  | chunk data =>
      simp only [LocalWrite.step] at h
      split at h <;> cases h
      next hphase =>
        obtain ⟨rfl, hthread⟩ := hquiet (by rw [hphase]; trivial) (by rw [hphase]; trivial)
        apply LocalWrite.Accounts.nil <;> rw [LocalWrite.receive] <;>
          (repeat' split) <;> simp [hphase, hthread]
  | notBytes =>
      simp only [LocalWrite.step] at h
      split at h <;> cases h
      next hphase =>
        exact haccounts.abort fun _ => hquiet (by rw [hphase]; trivial) (by rw [hphase]; trivial)
  | exhausted | flush =>
      simp only [LocalWrite.step] at h
      split at h <;> cases h
      next hphase =>
        obtain ⟨rfl, -⟩ := hquiet (by rw [hphase]; trivial) (by rw [hphase]; trivial)
        exact .nil (by simp) (.inl trivial)
  | close =>
      simp only [LocalWrite.step] at h
      split at h <;> cases h
      · next hphase =>
        obtain ⟨rfl, -⟩ := hquiet (by rw [hphase]; trivial) (by rw [hphase]; trivial)
        exact .nil (by simp) (.inl trivial)
      · next error hphase =>
        exact haccounts.fails rfl (haccounts.failed error (by rw [hphase]; rfl))
  | spill count =>
      simp only [LocalWrite.step, Option.ite_none_left_eq_some] at h
      cases h.2
      exact ⟨haccounts.once, haccounts.waiting, haccounts.failed, haccounts.returned,
        haccounts.bounded⟩
  | replaceError =>
      simp only [LocalWrite.step, Option.ite_none_right_eq_some] at h
      obtain ⟨hthread, h⟩ := h
      cases h
      obtain rfl := haccounts.waiting (.inr hthread)
      have hreturned : ∀ object, call.phase ≠ .returned object := fun object hphase => by
        cases haccounts.returned object hphase
      split
      · refine .nil (fun object => ?_) (.inr rfl)
        rw [LocalWrite.abort]
        split <;> simp
      · exact .nil hreturned (.inr rfl)
  | unlink =>
      simp only [LocalWrite.step, Option.ite_none_right_eq_some] at h
      cases h.2
      split
      case h_1 error hphase | h_2 error _ hphase =>
        exact haccounts.fails rfl (haccounts.failed error (by rw [hphase]; rfl))
      · exact ⟨haccounts.once, haccounts.waiting, haccounts.failed, haccounts.returned,
          haccounts.bounded⟩
  | unlinkError =>
      simp only [LocalWrite.step, Option.ite_none_right_eq_some] at h
      cases h.2
      split
      · next error hphase =>
        exact haccounts.fails rfl (haccounts.failed error (by rw [hphase]; rfl))
      · exact ⟨haccounts.once, haccounts.waiting, haccounts.failed, haccounts.returned,
          haccounts.bounded⟩
  | fail =>
      simp only [LocalWrite.step] at h
      split at h <;> cases h
      case h_1 hphase | h_2 hphase | h_3 hphase =>
        exact haccounts.abort fun _ => hquiet (by rw [hphase]; trivial) (by rw [hphase]; trivial)
      · next error hphase =>
        exact haccounts.fails rfl (haccounts.failed error (by rw [hphase]; rfl))
  | cancel =>
      simp only [LocalWrite.step] at h
      split at h <;> cases h
      case h_1 | h_2 | h_3 | h_4 => exact haccounts.abort False.elim
      case h_5 | h_6 => exact haccounts.fails rfl False.elim

/-- A call that is over has left no temporary file. -/
theorem LocalWrite.done_step (hsound : call.Sound files)
    (hdone : call.phase.done → files.entries call.temporary = none)
    (h : call.step files event = some (files', call')) (hdone' : call'.phase.done) :
    files'.entries call'.temporary = none := by
  have hne : call.temporary ≠ call.destination := fun heq => hsound.hidden (heq ▸ hsound.ordinary)
  cases event with
  | replace =>
      simp only [LocalWrite.step, Option.ite_none_right_eq_some, Option.map_eq_some_iff] at h
      obtain ⟨hthread, files'', hreplace, heq⟩ := h
      cases heq
      obtain ⟨inode, hfile, rfl⟩ := FileSystem.replace?_eq_some hreplace
      exact FileSystem.rename_source hne
  | unlink =>
      simp only [LocalWrite.step, Option.ite_none_right_eq_some] at h
      cases h.2
      exact FileSystem.unlink_self
  | chunk | notBytes | exhausted | flush | close | fail | cancel =>
      simp only [LocalWrite.step] at h
      split at h <;> cases h <;> grind [FileSystem.append_entries]
  | spill count =>
      simp only [LocalWrite.step, Option.ite_none_left_eq_some] at h
      cases h.2
      exact hdone hdone'
  | replaceError | unlinkError =>
      simp only [LocalWrite.step, Option.ite_none_right_eq_some] at h
      cases h.2
      grind

/-! ## What a run has moved into place -/

/-- What the steps of a run have moved into place for the call at `position`. -/
def installedBy (labels : List LocalLabel) (position : Nat) : List (Path × List UInt8) :=
  labels.filterMap (·.installedBy position)

theorem installedBy_snoc : installedBy (labels ++ [label]) position =
    installedBy labels position ++ (label.installedBy position).toList := by
  rw [installedBy, List.filterMap_append, ← installedBy, List.filterMap_cons, List.filterMap_nil]
  cases label.installedBy position <;> rfl

/-- The history of a run, as its calls and the directory tree show it. -/
structure RunOutcomes (initial : FileSystem) (labels : List LocalLabel) (s : LocalState) :
    Prop where
  accounts : ∀ position (call : LocalWrite), s.writes[position]? = some call →
    call.Accounts (installedBy labels position)
  unopened : ∀ position, s.writes.length ≤ position → installedBy labels position = []
  tidy : ∀ call ∈ s.writes, call.phase.done → s.files.entries call.temporary = none
  leftover : ∀ hidden inode, ¬ OrdinaryPath hidden →
    s.files.entries hidden = some (.file inode) →
      initial.entries hidden = some (.file inode) ∨ ∃ call ∈ s.writes, call.temporary = hidden

theorem RunOutcomes.start (hs : LocalStart s) : RunOutcomes s.files [] s where
  accounts := by simp [hs.writes]
  unopened _ _ := rfl
  tidy := by simp [hs.writes]
  leftover _ _ _ hentry := .inl hentry

/-- Steps that move nothing into place and touch no temporary file. -/
theorem RunOutcomes.frame {initial : FileSystem} (h : RunOutcomes initial labels s)
    (hlabel : ∀ position, label.installedBy position = none) (hwrites : t.writes = s.writes)
    (hentries : ∀ hidden, ¬ OrdinaryPath hidden →
      t.files.entries hidden = s.files.entries hidden) (hinv : LocalInv s) :
    RunOutcomes initial (labels ++ [label]) t := by
  have hsame : ∀ position, installedBy (labels ++ [label]) position =
      installedBy labels position := by
    intro position
    rw [installedBy_snoc, hlabel position]
    exact List.append_nil _
  constructor
  · intro position call hcall
    rw [hsame]
    exact h.accounts position call (hwrites ▸ hcall)
  · intro position hposition
    rw [hsame]
    exact h.unopened position (hwrites ▸ hposition)
  · intro call hcall hdone
    rw [hwrites] at hcall
    rw [hentries _ (hinv.sound call hcall).hidden]
    exact h.tidy call hcall hdone
  · intro hidden inode hhidden hentry
    rw [hentries _ hhidden] at hentry
    rw [hwrites]
    exact h.leftover hidden inode hhidden hentry

theorem makeDirs_hidden {directory hidden : Path} (free : files.NoFileOn directory)
    (hpath : OrdinaryPath directory) (hhidden : ¬ OrdinaryPath hidden) :
    (files.makeDirs directory free).entries hidden = files.entries hidden :=
  FileSystem.makeDirs_of_notMem (notMem_inits_of_ordinary hhidden hpath)

theorem outcomes_advanced {initial : FileSystem} (hinv : LocalInv s)
    (h : RunOutcomes initial labels s) (hcall : s.writes[position]? = some call)
    (hstep : call.step s.files event = some (files', call')) :
    RunOutcomes initial (labels ++ [call.label position event])
      { s with files := files', writes := s.writes.set position call' } := by
  have hmem := List.mem_of_getElem? hcall
  have hsound := hinv.sound call hmem
  have hlt := (List.getElem?_eq_some_iff.mp hcall).1
  obtain ⟨-, -, -, htemporary, -⟩ := LocalWrite.step_fixed hstep
  have hothers : ∀ other, other ≠ position →
      installedBy (labels ++ [call.label position event]) other = installedBy labels other := by
    intro other hne
    have hnone : (call.label position event).installedBy other = none := by
      cases event <;> simp [LocalWrite.label, LocalLabel.installedBy, hne.symm]
    rw [installedBy_snoc, hnone]
    exact List.append_nil _
  have hentries : ∀ hidden, ¬ OrdinaryPath hidden → hidden ≠ call.temporary →
      files'.entries hidden = s.files.entries hidden := by
    intro hidden hhidden hne
    have htarget : hidden ≠ call.destination := fun heq => hhidden (heq ▸ hsound.ordinary)
    rcases LocalWrite.step_files hsound hstep with
      ⟨-, -, hentry, rfl⟩ | ⟨-, rfl⟩ | ⟨-, bytes, rfl, -⟩
    · exact FileSystem.rename_of_ne htarget hne
    · exact FileSystem.unlink_of_ne hne
    · rfl
  constructor
  · intro other otherCall hother
    by_cases hne : other = position
    · subst hne
      rw [List.getElem?_set_self hlt] at hother
      cases hother
      rw [installedBy_snoc]
      exact LocalWrite.accounts_step hsound (h.accounts other call hcall) hstep
    · rw [List.getElem?_set_ne (Ne.symm hne)] at hother
      rw [hothers other hne]
      exact h.accounts other otherCall hother
  · intro other hother
    rw [List.length_set] at hother
    rw [hothers other (by omega)]
    exact h.unopened other hother
  · intro other hother hdone
    rcases mem_set_cases hinv.temporaries hcall hother with rfl | ⟨hmem', hne⟩
    · exact LocalWrite.done_step hsound (h.tidy call hmem) hstep hdone
    · rw [hentries _ (hinv.sound other hmem').hidden hne]
      exact h.tidy other hmem' hdone
  · intro hidden inode hhidden hentry
    by_cases hne : hidden = call.temporary
    · have hset : call' ∈ s.writes.set position call' := List.mem_set hlt _
      exact .inr ⟨call', hset, htemporary.trans hne.symm⟩
    · rw [hentries hidden hhidden hne] at hentry
      rcases h.leftover hidden inode hhidden hentry with hfirst | ⟨other, hother, rfl⟩
      · exact .inl hfirst
      · have hplace : other.temporary ∈ (s.writes.set position call').map (·.temporary) := by
          rw [map_set_of_eq hcall htemporary]
          exact List.mem_map_of_mem hother
        obtain ⟨same, hsame, heq⟩ := List.mem_map.mp hplace
        exact .inr ⟨same, hsame, heq⟩

theorem outcomes_step {initial : FileSystem} (hinv : LocalInv s) (h : RunOutcomes initial labels s)
    (hstep : LocalStep root s label t) (hordinary : label.Ordinary) :
    RunOutcomes initial (labels ++ [label]) t := by
  cases hstep with
  | waited => exact h.frame (fun _ => rfl) rfl (fun _ _ => rfl) hinv
  | @refused key path directory free _ hdirectory =>
      refine h.frame (fun _ => rfl) rfl (fun hidden hhidden => ?_) hinv
      have hpath := ordinary_dropLast (hordinary path rfl)
      exact makeDirs_hidden free (fun segment hmem => hpath segment (hdirectory.subset hmem))
        hhidden
  | @opened key path maximumBytes random free _ _ hfree hissued =>
      have hpath := ordinary_dropLast (hordinary path rfl)
      have hkept : ∀ hidden, ¬ OrdinaryPath hidden → hidden ≠ temporaryPath path random →
          ((s.files.makeDirs path.dropLast free).create (temporaryPath path random)).entries
              hidden = s.files.entries hidden := fun hidden hhidden hne =>
        (FileSystem.create_of_ne hne).trans (makeDirs_hidden free hpath hhidden)
      have hsame : ∀ position, installedBy (labels ++ [LocalLabel.opened path]) position =
          installedBy labels position := fun position => by
        rw [installedBy_snoc]
        exact List.append_nil _
      constructor
      · intro position call hcall
        rw [hsame]
        rcases Nat.lt_or_ge position s.writes.length with hlt | hge
        · exact h.accounts position call ((List.getElem?_append_left hlt).symm.trans hcall)
        · rw [h.unopened position hge]
          have hmem : call ∈ [_] :=
            List.mem_of_getElem? ((List.getElem?_append_right hge).symm.trans hcall)
          rw [List.mem_singleton.mp hmem]
          constructor <;> simp [WritePhase.error?]
      · intro position hposition
        rw [hsame]
        apply h.unopened
        simp only [List.length_append] at hposition
        omega
      · intro call hcall hdone
        rcases List.mem_append.mp hcall with hcall | hcall
        · rw [hkept _ (hinv.sound call hcall).hidden fun heq =>
            hissued (heq ▸ hinv.issued call hcall)]
          exact h.tidy call hcall hdone
        · rw [List.mem_singleton.mp hcall] at hdone
          cases hdone
      · intro hidden inode hhidden hentry
        by_cases hne : hidden = temporaryPath path random
        · exact .inr ⟨_, List.mem_append_right _ List.mem_cons_self, hne.symm⟩
        · rw [hkept hidden hhidden hne] at hentry
          rcases h.leftover hidden inode hhidden hentry with hfirst | ⟨call, hcall, heq⟩
          · exact .inl hfirst
          · exact .inr ⟨call, List.mem_append_left _ hcall, heq⟩
  | advanced hcall hadvance => exact outcomes_advanced hinv h hcall hadvance
  | @deleted key path _ hfile =>
      refine h.frame (fun _ => rfl) rfl (fun hidden hhidden => ?_) hinv
      exact FileSystem.unlink_of_ne fun heq => hhidden (heq ▸ hordinary path rfl)
  | readOpened => exact h.frame (fun _ => rfl) rfl (fun _ _ => rfl) hinv
  | readAdvanced => exact h.frame (fun _ => rfl) rfl (fun _ _ => rfl) hinv

theorem run_outcomes (hs : LocalStart s) (h : (ordinaryStorage root).Run s labels t) :
    RunOutcomes s.files labels t := by
  induction h with
  | nil => exact .start hs
  | snoc hrun hstep ih =>
      exact outcomes_step (ordinary_run_inv hs.inv hrun) ih hstep.1 hstep.2

/-! ## Writes and a read -/

/-- Two writes of one key, the second of which is cut off, a read that overlaps both, and a third
write that is cancelled. -/
def twoWrites : List LocalMove :=
  [.begin "a/b" 5 ['x'], .advance 0 (.chunk [1, 2]), .begin "a/b" 2 ['y'],
   .advance 0 (.chunk [3]), .advance 0 .exhausted, .advance 0 .flush, .advance 0 .close,
   .advance 1 (.chunk [9]), .advance 0 .replace, .openRead "a/b" 2, .advance 1 (.chunk [8, 7]),
   .read 0, .advance 1 .close, .advance 1 .unlink, .delete "a/b", .read 0, .read 0,
   .begin "a/b" 3 ['z'], .advance 2 (.chunk [4]), .advance 2 .cancel, .advance 2 .close,
   .advance 2 .unlink]

def twoWritesRun : List LocalLabel × LocalState :=
  System.script (LocalMove.take []) .empty twoWrites

theorem twoWrites_run : (ordinaryStorage []).Run .empty twoWritesRun.1 twoWritesRun.2 :=
  System.script_run_restrict (LocalMove.take_step []) (by decide)

/-! ## Calls -/

/-- A call that returned has put the whole stream, within its limit, into place exactly once and
describes it; one that raised, even a second error in its clean-up, has put nothing into place,
unless it was cancelled; and no call ever puts a part of its stream into place, or the stream
twice. -/
theorem write_all_or_nothing (hs : LocalStart s) (h : (ordinaryStorage root).Run s labels t)
    (hcall : t.writes[position]? = some call) :
    (∀ object, call.phase = .returned object →
      installedBy labels position = [(call.destination, call.stream)] ∧
        object.sizeBytes = call.stream.length ∧ object.sha256 = ⟨call.stream⟩ ∧
        call.stream.length ≤ call.maximumBytes) ∧
      (∀ error cleaned, call.phase = .raised error cleaned → error.uncancelled →
        installedBy labels position = []) ∧
      (installedBy labels position = [] ∨
        installedBy labels position = [(call.destination, call.stream)]) := by
  have haccounts := (run_outcomes hs h).accounts position call hcall
  have hsound := (ordinary_run_inv hs.inv h).sound call (List.mem_of_getElem? hcall)
  refine ⟨?_, ?_, haccounts.once⟩
  · intro object hphase
    obtain ⟨hobject, hsize⟩ := hsound.answer object hphase
    rw [hobject]
    exact ⟨haccounts.returned object hphase, rfl, rfl, hsize⟩
  · intro error cleaned hphase huncancelled
    exact (haccounts.failed error (by rw [hphase]; rfl) huncancelled).1

theorem write_all_or_nothing_two : installedBy twoWritesRun.1 1 = [] :=
  (write_all_or_nothing LocalState.empty_start twoWrites_run
    (rfl : twoWritesRun.2.writes[1]? = some _)).2.1 .tooLarge true rfl trivial

/-! ## Objects -/

/-- At every moment each key holds what a store that puts and removes whole objects would hold, and
an object that was not there before is the whole stream of one call within its limit: however the
calls interleave, fail or are cancelled. -/
theorem stored_objects_whole (hs : LocalStart s) (h : (ordinaryStorage root).Run s labels t)
    (hpath : OrdinaryPath path) :
    t.files.read? path = replay s.files.read? (labels.filterMap (·.effect)) path ∧
      ∀ content, t.files.read? path = some content → s.files.read? path = some content ∨
        ∃ call ∈ t.writes, call.destination = path ∧ call.stream = content ∧
          content.length ≤ call.maximumBytes := by
  have hreplay := objects_replay hs h hpath
  refine ⟨hreplay, ?_⟩
  intro content hcontent
  rcases replay_eq_some_cases (hreplay.symm.trans hcontent) with hput | hfirst
  · obtain ⟨label, hlabel, heffect⟩ := List.mem_filterMap.mp hput
    obtain ⟨position, rfl⟩ : ∃ position, label = .replaced position path content := by
      cases label with
      | replaced position target stream =>
          cases heffect
          exact ⟨position, rfl⟩
      | waited | refused | opened | progressed | deleted | readOpened | readAdvanced =>
          cases heffect
    have hinstalled : (path, content) ∈ installedBy labels position :=
      List.mem_filterMap.mpr ⟨_, hlabel, by simp [LocalLabel.installedBy]⟩
    have houtcomes := run_outcomes hs h
    have hlt : position < t.writes.length := by
      by_contra hge
      rw [houtcomes.unopened position (Nat.le_of_not_lt hge)] at hinstalled
      cases hinstalled
    have haccounts := houtcomes.accounts position _ (List.getElem?_eq_getElem hlt)
    have hbounded := haccounts.bounded (List.ne_nil_of_mem hinstalled)
    rcases haccounts.once with hnone | hsome
    · rw [hnone] at hinstalled
      cases hinstalled
    · rw [hsome, List.mem_singleton] at hinstalled
      cases hinstalled
      exact .inr ⟨_, List.getElem_mem hlt, rfl, rfl, hbounded⟩
  · exact .inl hfirst

theorem stored_objects_whole_two :
    replay (fun _ => none) (twoWritesRun.1.filterMap (·.effect)) [['a'], ['b']] = none :=
  (stored_objects_whole LocalState.empty_start twoWrites_run (by decide)).1.symm.trans (by decide)

/-! ## Readers -/

/-- What a call of `read` has yielded of the file it has opened. -/
structure LocalRead.Sound (read : LocalRead) (content : List UInt8) : Prop where
  size : 1 ≤ read.chunkSize
  offset : read.offset ≤ content.length
  yielded : read.yielded.flatten = content.take read.offset
  finished : read.finished → read.offset = content.length

theorem LocalRead.sound_advance {read : LocalRead}
    (hsound : read.Sound (files.contents read.inode)) :
    (read.advance files).Sound (files.contents read.inode) ∧
      (read.advance files).inode = read.inode := by
  obtain ⟨hsize, hoffset, hyielded, hfinished⟩ := hsound
  generalize hcontent : files.contents read.inode = content at *
  simp only [LocalRead.advance, hcontent]
  split
  · next hchunk =>
      have hend : content.length ≤ read.offset := by
        rcases List.take_eq_nil_iff.mp hchunk with hzero | hnil
        · omega
        · exact List.drop_eq_nil_iff.mp hnil
      exact ⟨⟨hsize, hoffset, hyielded, fun _ => Nat.le_antisymm hoffset hend⟩, rfl⟩
  · refine ⟨⟨hsize, ?_, ?_, ?_⟩, rfl⟩
    · simp only [List.length_take, List.length_drop]
      omega
    · rw [List.flatten_concat, hyielded, List.take_add, List.length_take]
      exact congrArg _ List.take_eq_take_min
    · intro hdone
      have hend := hfinished hdone
      simp only [List.length_take, List.length_drop]
      omega

/-- The readers, where the one at `position` has opened `inode` when it held `content`. -/
def Reading (position inode : Nat) (content : List UInt8) (s : LocalState) : Prop :=
  s.files.contents inode = content ∧
    ∃ read, s.reads[position]? = some read ∧ read.inode = inode ∧ read.Sound content

theorem reading_step {inode : Nat} {content : List UInt8} (hinv : LocalInv s)
    (h : Reading position inode content s) (hstep : LocalStep root s label t) :
    Reading position inode content t := by
  obtain ⟨hcontent, read, hread, rfl, hsound⟩ := h
  have hreader := hinv.readers read (List.mem_of_getElem? hread)
  cases hstep with
  | waited | refused | deleted => exact ⟨hcontent, read, hread, rfl, hsound⟩
  | opened free =>
      have hlt : read.inode < (s.files.makeDirs _ free).nextInode := hreader.1
      exact ⟨(FileSystem.contents_create hlt).trans hcontent, read, hread, rfl, hsound⟩
  | @advanced place call call' event files' hcall hadvance =>
      have hmem := List.mem_of_getElem? hcall
      refine ⟨?_, read, hread, rfl, hsound⟩
      rcases LocalWrite.step_files (hinv.sound call hmem) hadvance with
        ⟨-, -, hentry, rfl⟩ | ⟨-, rfl⟩ | ⟨-, bytes, rfl, hclosed⟩
      · exact hcontent
      · exact hcontent
      · show (s.files.append call.inode bytes).contents read.inode = content
        cases hvalue : call.closed with
        | true => rw [hclosed hvalue, FileSystem.append_nil, hcontent]
        | false =>
            rw [FileSystem.contents_append_of_ne (hreader.2 call hmem hvalue).symm, hcontent]
  | readOpened =>
      refine ⟨hcontent, read, ?_, rfl, hsound⟩
      exact (List.getElem?_append_left (List.getElem?_eq_some_iff.mp hread).1).trans hread
  | @readAdvanced place other hother _ =>
      refine ⟨hcontent, ?_⟩
      by_cases hne : place = position
      · subst hne
        cases hother.symm.trans hread
        obtain ⟨hadvanced, hinode⟩ := LocalRead.sound_advance (hcontent.symm ▸ hsound)
        have hlt := (List.getElem?_eq_some_iff.mp hread).1
        exact ⟨_, List.getElem?_set_self hlt, hinode, hcontent ▸ hadvanced⟩
      · exact ⟨read, (List.getElem?_set_ne hne).trans hread, rfl, hsound⟩

theorem readOpened_cases (h : LocalStep root s (.readOpened path) t) :
    ∃ chunkSize inode, 1 ≤ chunkSize ∧ s.files.entries path = some (.file inode) ∧
      t = { s with reads := s.reads ++ [{ chunkSize := chunkSize, inode := inode }] } := by
  generalize hlabel : LocalLabel.readOpened path = label at h
  cases h with
  | readOpened hsize _ hfile =>
      cases hlabel
      exact ⟨_, _, hsize, FileSystem.file?_eq_some.mp hfile, rfl⟩
  | @advanced _ _ _ event => cases event <;> cases hlabel
  | waited | refused | opened | deleted | readAdvanced => cases hlabel

/-- A read returns one object whole: what the key held when the file was opened, whatever is
written, deleted or left unfinished while the read goes on. -/
theorem read_snapshot {before after : List LocalLabel} (hs : LocalStart s)
    (h : (ordinaryStorage root).At s labels v before t (.readOpened path) u after) :
    ∃ content read, replay s.files.read? (before.filterMap (·.effect)) path = some content ∧
      v.reads[t.reads.length]? = some read ∧ read.yielded.flatten <+: content ∧
      (read.finished → read.yielded.flatten = content) := by
  obtain ⟨-, hbefore, ⟨hstep, hordinary⟩, hafter⟩ := h
  have hinv := ordinary_run_inv hs.inv hbefore
  have hafter_inv : LocalInv u := hstep.inv hinv hordinary
  obtain ⟨chunkSize, inode, hsize, hentry, rfl⟩ := readOpened_cases hstep
  have hopened : Reading t.reads.length inode (t.files.contents inode)
      { t with reads := t.reads ++ [{ chunkSize := chunkSize, inode := inode }] } :=
    ⟨rfl, { chunkSize := chunkSize, inode := inode }, by simp, rfl,
      ⟨hsize, Nat.zero_le _, rfl, fun hfinished => by cases hfinished⟩⟩
  obtain ⟨-, hcontent, read, hread, -, hsound⟩ :
      LocalInv v ∧ Reading t.reads.length inode (t.files.contents inode) v := by
    induction hafter with
    | nil => exact ⟨hafter_inv, hopened⟩
    | snoc _ hlast ih =>
        obtain ⟨hu, hreading⟩ := ih
        exact ⟨hlast.1.inv hu hlast.2, reading_step hu hreading hlast.1⟩
  refine ⟨t.files.contents inode, read, ?_, hread, ?_, ?_⟩
  · rw [← objects_replay hs hbefore (hordinary path rfl)]
    exact FileSystem.read?_of_file hentry
  · rw [hsound.yielded]
    exact List.take_prefix _ _
  · intro hfinished
    rw [hsound.yielded, hsound.finished hfinished, List.take_length]

theorem read_snapshot_two :
    let t := (System.script (LocalMove.take []) .empty (twoWrites.take 9)).2
    let u := (LocalMove.take [] t (.openRead "a/b" 2)).2
    let v := (System.script (LocalMove.take []) u (twoWrites.drop 10)).2
    ∃ read, v.reads[0]? = some read ∧ read.yielded.flatten <+: [1, 2, 3] := by
  intro t u v
  have hbefore : (ordinaryStorage []).Run .empty
      (System.script (LocalMove.take []) .empty (twoWrites.take 9)).1 t :=
    System.script_run_restrict (LocalMove.take_step []) (by decide)
  have hafter : (ordinaryStorage []).Run u
      (System.script (LocalMove.take []) u (twoWrites.drop 10)).1 v :=
    System.script_run_restrict (LocalMove.take_step []) (by decide)
  have hstep : (ordinaryStorage []).Step t (.readOpened [['a'], ['b']]) u :=
    ⟨LocalMove.take_step [] t (.openRead "a/b" 2), by decide⟩
  obtain ⟨content, read, hcontent, hread, hprefix, -⟩ :=
    read_snapshot LocalState.empty_start ⟨rfl, hbefore, hstep, hafter⟩
  have hvalue : content = [1, 2, 3] := Option.some.inj (hcontent.symm.trans (by decide))
  exact ⟨read, hread, hvalue ▸ hprefix⟩

/-- When every call has returned or has unlinked its temporary file, whatever it raised, no
temporary file is left of those that were not there before. -/
theorem no_temporary_left (hs : LocalStart s) (h : (ordinaryStorage root).Run s labels t)
    (hdone : ∀ call ∈ t.writes, call.phase.done) {hidden : Path} (hhidden : ¬ OrdinaryPath hidden)
    (hfree : s.files.file? hidden = none) : t.files.file? hidden = none := by
  have houtcomes := run_outcomes hs h
  cases hfile : t.files.file? hidden with
  | none => rfl
  | some inode =>
      have hentry := FileSystem.file?_eq_some.mp hfile
      rcases houtcomes.leftover hidden inode hhidden hentry with hfirst | ⟨call, hcall, rfl⟩
      · rw [FileSystem.file?_eq_some.mpr hfirst] at hfree
        cases hfree
      · rw [houtcomes.tidy call hcall (hdone call hcall)] at hentry
        cases hentry

theorem no_temporary_left_two :
    twoWritesRun.2.files.file? (temporaryPath [['a'], ['b']] ['y']) = none ∧
      twoWritesRun.2.files.file? (temporaryPath [['a'], ['b']] ['z']) = none := by
  have hdone : ∀ call ∈ twoWritesRun.2.writes, call.phase.done := by decide
  have hgone : ∀ random, twoWritesRun.2.files.file? (temporaryPath [['a'], ['b']] random) = none :=
    fun _ => no_temporary_left LocalState.empty_start twoWrites_run hdone
      temporaryPath_not_ordinary rfl
  exact ⟨hgone ['y'], hgone ['z']⟩

end ParserServe
