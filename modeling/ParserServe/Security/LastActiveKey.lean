import ParserServe.Foundation.RowLocks
import ParserServe.Foundation.Runs
import ParserServe.Persistence.ApiKeys

/-! # The last active API key

The calls of `ApiKeyRepository` that change a key, as the steps of their transactions under
READ COMMITTED.  A transaction locks the row of its own key, and counts the other active keys
in the rows as they are committed when it counts.  It does not lock the rows it counts, so
another transaction may take the key it has counted before it commits.
-/

namespace ParserServe

open Foundation

structure ApiKeyCall where
  apiKeyId : String
  change : ApiKeyChange
  now : Time

/-- How far a transaction has come. -/
inductive ApiKeyTxn
  | begun
  | locked (record : ApiKeyRecord)
  /-- Another active key was found, or none was needed. -/
  | allowed (record : ApiKeyRecord)
  | committed
  | rolledBack
  deriving DecidableEq

def ApiKeyTxn.ended : ApiKeyTxn → Bool
  | .committed | .rolledBack => true
  | _ => false

def ApiKeyTxn.held : ApiKeyTxn → List ApiKeyRecord
  | .begun | .committed | .rolledBack => []
  | .locked record | .allowed record => [record]

def apiKeyLocks : RowLocks String ApiKeyRecord ApiKeyTxn where
  key := (·.apiKeyId)
  held := ApiKeyTxn.held

/-- The table and the transactions. -/
abbrev KeyTable (n : Nat) := Sessions (Fin n) ApiKeyRecord ApiKeyTxn

inductive ApiKeyLabel (n : Nat)
  | selectRecord (i : Fin n)
  | countActive (i : Fin n)
  | commit (i : Fin n)
  /-- The call raises, finds no row or is cancelled, or the connection is lost. -/
  | rollback (i : Fin n)
  deriving DecidableEq

/-- The step of a label; `none` where the transaction waits for a lock or is elsewhere. -/
def KeyTable.advance {n : Nat} (calls : Fin n → ApiKeyCall) (state : KeyTable n) :
    ApiKeyLabel n → Option (KeyTable n)
  | .selectRecord i =>
      match state.txns i, state.rows.find? (·.apiKeyId = (calls i).apiKeyId) with
      | .begun, some record =>
          if apiKeyLocks.Free state i record.apiKeyId then some (state.move i (.locked record))
          else none
      | _, _ => none
  | .countActive i =>
      match state.txns i with
      | .locked record =>
          if (calls i).change.guarded record (calls i).now then
            match requireAnotherActiveKey state.rows (calls i).apiKeyId (calls i).now with
            | .error _ => none
            | .ok () => some (state.move i (.allowed record))
          else some (state.move i (.allowed record))
      | _ => none
  | .commit i =>
      match state.txns i with
      | .allowed record =>
          let rows := writeApiKey state.rows record.apiKeyId
            ((calls i).change.written record (calls i).now)
          -- the column `digest` is unique
          if (rows.map (·.digest)).Nodup then some (state.commit i rows .committed) else none
      | _ => none
  | .rollback i => if (state.txns i).ended then none else some (state.move i .rolledBack)

/-- The state before the first step. -/
structure KeyTable.Start {n : Nat} (state : KeyTable n) : Prop where
  apiKeyIds_nodup : (state.rows.map (·.apiKeyId)).Nodup
  digests_nodup : (state.rows.map (·.digest)).Nodup
  begun : ∀ i, state.txns i = .begun

/-- The calls that change keys, in any interleaving. -/
def keyChanges {n : Nat} (calls : Fin n → ApiKeyCall) : System (KeyTable n) (ApiKeyLabel n) :=
  System.ofStep KeyTable.Start (KeyTable.advance calls)

variable {n : Nat} {calls : Fin n → ApiKeyCall} {s t : KeyTable n} {i : Fin n}
  {label : ApiKeyLabel n} {labels : List (ApiKeyLabel n)} {txn : ApiKeyTxn}
  {record : ApiKeyRecord}

/-! ## What a step can do -/

/-- The step writes the row that the transaction has locked. -/
structure KeyCommit (calls : Fin n → ApiKeyCall) (i : Fin n) (record : ApiKeyRecord)
    (s t : KeyTable n) : Prop where
  allowed : s.txns i = .allowed record
  result : t = s.commit i (writeApiKey s.rows record.apiKeyId
    ((calls i).change.written record (calls i).now)) .committed

/-- A transaction goes on without writing. -/
structure KeyMove (i : Fin n) (txn : ApiKeyTxn) (s t : KeyTable n) : Prop where
  result : t = s.move i txn
  held : ∀ row ∈ txn.held, row ∈ (s.txns i).held ∨
    (row ∈ s.rows ∧ apiKeyLocks.Free s i row.apiKeyId)

theorem keyTable_advance_cases (h : s.advance calls label = some t) :
    (∃ i record, label = .commit i ∧ KeyCommit calls i record s t) ∨
      ∃ i txn, (∀ j, label ≠ .commit j) ∧ KeyMove i txn s t := by
  cases label with
  | selectRecord i =>
      rw [KeyTable.advance] at h
      split at h
      · next record hbegun hrow =>
          split at h
          · next hfree =>
              cases h
              refine .inr ⟨i, _, by simp, rfl, fun row hheld => ?_⟩
              rw [List.mem_singleton.mp hheld]
              exact .inr ⟨List.mem_of_find?_eq_some hrow, hfree⟩
          · cases h
      · cases h
  | countActive i =>
      rw [KeyTable.advance] at h
      split at h
      · next record hlocked =>
          have hmove : KeyMove i (.allowed record) s (s.move i (.allowed record)) :=
            ⟨rfl, fun row hrow => .inl (by rwa [hlocked])⟩
          split at h
          · split at h
            · cases h
            · cases h
              exact .inr ⟨i, _, by simp, hmove⟩
          · cases h
            exact .inr ⟨i, _, by simp, hmove⟩
      · cases h
  | commit i =>
      rw [KeyTable.advance] at h
      split at h
      · next record hallowed =>
          simp only at h
          split at h
          · cases h
            exact .inl ⟨i, record, rfl, hallowed, rfl⟩
          · cases h
      · cases h
  | rollback i =>
      rw [KeyTable.advance] at h
      split at h
      · cases h
      · cases h
        exact .inr ⟨i, .rolledBack, by simp, rfl, by simp [ApiKeyTxn.held]⟩

/-! ## Locks -/

theorem KeyTable.Start.sound (h : s.Start) : apiKeyLocks.Sound s :=
  RowLocks.sound_of_unlocked h.apiKeyIds_nodup fun i => by
    rw [h.begun i]
    rfl

theorem KeyCommit.mem_rows (hcommit : KeyCommit calls i record s t) (h : apiKeyLocks.Sound s) :
    record ∈ s.rows := by
  refine h.current i record ?_
  rw [hcommit.allowed]
  exact List.mem_singleton_self record

theorem KeyCommit.sound (hcommit : KeyCommit calls i record s t) (h : apiKeyLocks.Sound s) :
    apiKeyLocks.Sound t := by
  rw [hcommit.result]
  refine h.commit ?_ ?_ rfl
  · cases (calls i).change.written record (calls i).now with
    | none => exact (List.filter_sublist.map _).nodup h.nodup
    | some written =>
        have hkeys : (replaceKey (·.apiKeyId) written s.rows).map apiKeyLocks.key =
            s.rows.map apiKeyLocks.key := map_replaceKey _ _ _
        exact hkeys ▸ h.nodup
  · intro row hrow hkey
    rw [hcommit.allowed] at hkey
    exact (mem_writeApiKey_of_ne (by simpa [apiKeyLocks, ApiKeyTxn.held] using hkey)).mpr hrow

theorem keyChanges_sound (h : apiKeyLocks.Sound s) (hstep : (keyChanges calls).Step s label t) :
    apiKeyLocks.Sound t := by
  rcases keyTable_advance_cases hstep with ⟨i, record, -, hcommit⟩ | ⟨i, txn, -, hmove⟩
  · exact hcommit.sound h
  · rw [hmove.result]
    exact h.move hmove.held

/-! ## At each commit a usable key is left -/

/-- A commit leaves a key that is usable at the time of its call, where one was usable before:
keys that expired in the meantime are not counted against it. -/
def KeyTable.LeavesUsable (calls : Fin n → ApiKeyCall) (s : KeyTable n) :
    ApiKeyLabel n → KeyTable n → Prop
  | .commit i, t => (∃ row ∈ s.rows, row.Usable (calls i).now) →
      ∃ row ∈ t.rows, row.Usable (calls i).now
  | _, _ => True

/-- The call has not asked for another active key, or it would find one now. -/
def ApiKeyTxn.CountRepeats (call : ApiKeyCall) (rows : List ApiKeyRecord) : ApiKeyTxn → Prop
  | .allowed record => call.change.guarded record call.now →
      otherActiveKeys rows record.apiKeyId call.now ≠ []
  | _ => True

instance (call : ApiKeyCall) (rows : List ApiKeyRecord) :
    ∀ txn : ApiKeyTxn, Decidable (txn.CountRepeats call rows)
  | .allowed _ => inferInstanceAs (Decidable (_ → _))
  | .begun | .locked _ | .committed | .rolledBack => isTrue trivial

/-- A transaction that commits would again be allowed to. -/
def KeyTable.CountRepeats (calls : Fin n → ApiKeyCall) (s : KeyTable n) : ApiKeyLabel n → Prop
  | .commit i => (s.txns i).CountRepeats (calls i) s.rows
  | _ => True

instance (calls : Fin n → ApiKeyCall) (s : KeyTable n) :
    ∀ label, Decidable (s.CountRepeats calls label)
  | .commit i => inferInstanceAs (Decidable ((s.txns i).CountRepeats (calls i) s.rows))
  | .selectRecord _ | .countActive _ | .rollback _ => isTrue trivial

theorem KeyCommit.mem_of_ne (hcommit : KeyCommit calls i record s t) {row : ApiKeyRecord}
    (hne : row.apiKeyId ≠ record.apiKeyId) : row ∈ t.rows ↔ row ∈ s.rows := by
  rw [hcommit.result]
  exact mem_writeApiKey_of_ne hne

theorem KeyCommit.mem_own (hcommit : KeyCommit calls i record s t) (h : apiKeyLocks.Sound s)
    {row : ApiKeyRecord} (hkey : row.apiKeyId = record.apiKeyId) :
    row ∈ t.rows ↔ row ∈ (calls i).change.written record (calls i).now := by
  rw [hcommit.result]
  exact mem_writeApiKey_own (hcommit.mem_rows h) hkey

/-- A usable key after the commit is the one written or another one. -/
theorem KeyCommit.usable_iff (hcommit : KeyCommit calls i record s t) (h : apiKeyLocks.Sound s) :
    (∃ row ∈ t.rows, row.Usable (calls i).now) ↔
      (∃ written ∈ (calls i).change.written record (calls i).now,
        written.Usable (calls i).now) ∨
      otherActiveKeys s.rows record.apiKeyId (calls i).now ≠ [] := by
  constructor
  · rintro ⟨row, hrow, husable⟩
    by_cases hkey : row.apiKeyId = record.apiKeyId
    · exact .inl ⟨row, (hcommit.mem_own h hkey).mp hrow, husable⟩
    · exact .inr (List.ne_nil_of_mem
        (mem_otherActiveKeys.mpr ⟨(hcommit.mem_of_ne hkey).mp hrow, hkey, husable⟩))
  · rintro (⟨written, hwritten, husable⟩ | hother)
    · exact ⟨written, (hcommit.mem_own h (written_apiKeyId hwritten)).mpr hwritten, husable⟩
    · obtain ⟨row, hrow⟩ := List.exists_mem_of_ne_nil _ hother
      obtain ⟨hrow, hkey, husable⟩ := mem_otherActiveKeys.mp hrow
      exact ⟨row, (hcommit.mem_of_ne hkey).mpr hrow, husable⟩

theorem KeyCommit.countRepeats_iff (hcommit : KeyCommit calls i record s t)
    (h : apiKeyLocks.Sound s) :
    s.CountRepeats calls (.commit i) ↔ s.LeavesUsable calls (.commit i) t := by
  have hrow := hcommit.mem_rows h
  simp only [KeyTable.CountRepeats, ApiKeyTxn.CountRepeats, hcommit.allowed,
    KeyTable.LeavesUsable, hcommit.usable_iff h]
  constructor
  · rintro hrepeats ⟨row, hmem, husable⟩
    by_cases hkey : row.apiKeyId = record.apiKeyId
    · have hsame : row = record := List.inj_on_of_nodup_map h.nodup hmem hrow hkey
      subst hsame
      by_cases hguarded : (calls i).change.guarded row (calls i).now
      · exact .inr (hrepeats hguarded)
      · exact .inl ((written_usable_iff husable).mpr hguarded)
    · exact .inr (List.ne_nil_of_mem (mem_otherActiveKeys.mpr ⟨hmem, hkey, husable⟩))
  · intro hleaves hguarded
    have husable := guarded_usable hguarded
    rcases hleaves ⟨record, hrow, husable⟩ with hwritten | hother
    · exact absurd hguarded ((written_usable_iff husable).mp hwritten)
    · exact hother

/-- Each commit of a run leaves a usable key exactly when each call that has to find another
active key would still find one as it commits. -/
theorem usable_key_left_iff (hs : s.Start) :
    ((keyChanges calls).restrict (KeyTable.CountRepeats calls)).Run s labels t ↔
      ((keyChanges calls).within (KeyTable.LeavesUsable calls)).Run s labels t := by
  refine System.restrict_run_iff_within (I := apiKeyLocks.Sound)
    (fun _ _ _ h hstep => keyChanges_sound h hstep) ?_ hs.sound
  intro u label v h hstep
  rcases keyTable_advance_cases hstep with ⟨i, record, rfl, hcommit⟩ | ⟨i, txn, hne, hmove⟩
  · exact hcommit.countRepeats_iff h
  · cases label with
    | commit j => exact absurd rfl (hne j)
    | _ => exact iff_of_true trivial trivial

/-! ## Two keys -/

def sampleKey (apiKeyId apiKey : String) : ApiKeyRecord where
  apiKeyId := apiKeyId
  name := "operator"
  keyPrefix := apiKeyPrefix apiKey
  digest := apiKeyDigest apiKey
  createdAt := 0
  updatedAt := 0

/-- Two active keys that do not expire. -/
def twoKeys : KeyTable 2 where
  rows := [sampleKey "key_a" "parser_a", sampleKey "key_b" "parser_b"]
  txns := fun _ => .begun

/-- Each transaction deletes one of the keys. -/
def deleteBoth (i : Fin 2) : ApiKeyCall where
  apiKeyId := if i = 0 then "key_a" else "key_b"
  change := .delete
  now := 1

theorem twoKeys_start : twoKeys.Start where
  apiKeyIds_nodup := by decide
  digests_nodup := by decide
  begun := fun _ => rfl

/-- One deletion after the other: the second finds no other key and raises. -/
theorem usable_key_left_serial : ∃ labels t,
    ((keyChanges deleteBoth).within (KeyTable.LeavesUsable deleteBoth)).Run twoKeys labels t ∧
      t.txns 1 = .rolledBack ∧ t.rows.map (·.apiKeyId) = ["key_b"] := by
  have hrun : ∃ t ∈ [.selectRecord 0, .countActive 0, .commit 0, .selectRecord 1,
      .rollback 1].foldlM (fun s label => if KeyTable.CountRepeats deleteBoth s label then
        s.advance deleteBoth label else none) twoKeys,
      t.txns 1 = .rolledBack ∧ t.rows.map (·.apiKeyId) = ["key_b"] := by
    decide +kernel
  obtain ⟨t, ht, hend⟩ := hrun
  exact ⟨_, t, (usable_key_left_iff twoKeys_start).mp (System.ofStep_run_restrict ht), hend⟩

/-- Each deletion counts the key that the other one deletes, and no key is left. -/
theorem both_keys_deleted : twoKeys.Start ∧ (∀ row ∈ twoKeys.rows, ∀ now, row.Usable now) ∧
    ∃ labels t, (keyChanges deleteBoth).Run twoKeys labels t ∧
      (∀ i, t.txns i = .committed) ∧ t.rows = [] := by
  have hrun : ∃ t ∈ [.selectRecord 0, .selectRecord 1, .countActive 0, .countActive 1,
      .commit 0, .commit 1].foldlM (KeyTable.advance deleteBoth) twoKeys,
      (∀ i, t.txns i = .committed) ∧ t.rows = [] := by
    decide +kernel
  obtain ⟨t, ht, hend⟩ := hrun
  refine ⟨twoKeys_start, ?_, _, t, System.ofStep_run ht, hend⟩
  intro row hrow now
  simp only [twoKeys, List.mem_cons, List.not_mem_nil, or_false] at hrow
  rcases hrow with rfl | rfl <;>
    simp [ApiKeyRecord.Usable, ApiKeyRecord.isActive, sampleKey, unexpired]

end ParserServe
