import ParserServe.Persistence.Authentication

/-! # A key is good until it is replaced

In every interleaving of creations, updates, rotations, deletions and logins, the key that opens a
row is the one that was last given to it, and a key that was replaced or deleted is never accepted
again.
-/

namespace ParserServe

open Foundation

variable {n : Nat} {calls : Fin n → ApiKeyCall} {s t u : Keyring n} {i : Fin n}
  {label : KeyringLabel n} {labels : List (KeyringLabel n)} {record : ApiKeyRecord}
  {apiKey apiKeyId : String} {now began : Time} {kind : ApiKeyKind} {rows : List ApiKeyRecord}

/-! ## Rows and their keys -/

theorem keyOf_eq_some (hnd : (rows.map (·.apiKeyId)).Nodup) :
    keyOf rows apiKeyId = some apiKey ↔
      ∃ row ∈ rows, row.apiKeyId = apiKeyId ∧ row.digest = apiKeyDigest apiKey := by
  rw [keyOf, Option.map_eq_some_iff]
  constructor
  · rintro ⟨row, hrow, rfl⟩
    exact ⟨row, List.mem_of_find?_eq_some hrow, by simpa using List.find?_some hrow, rfl⟩
  · rintro ⟨row, hrow, rfl, hdigest⟩
    exact ⟨row, find?_key_eq_some hnd hrow, by rw [hdigest]; rfl⟩

theorem authenticate_eq_some (hdigests : (rows.map (·.digest)).Nodup) :
    authenticate rows apiKey now kind = some record ↔
      record ∈ rows ∧ record.digest = apiKeyDigest apiKey ∧ record.kind = kind ∧
        record.isActive now := by
  unfold authenticate
  split
  · next hnone =>
      refine ⟨fun h => (by cases h), ?_⟩
      rintro ⟨hrow, hdigest, hkind, -⟩
      have := List.find?_eq_none.mp hnone record hrow
      simp [hdigest, hkind] at this
  · next found hfound =>
      have hmem := List.mem_of_find?_eq_some hfound
      have hfits : found.digest = apiKeyDigest apiKey ∧ found.kind = kind := by
        simpa using List.find?_some hfound
      rw [Option.ite_none_right_eq_some]
      constructor
      · rintro ⟨hactive, hsame⟩
        cases hsame
        exact ⟨hmem, hfits.1, hfits.2, hactive⟩
      · rintro ⟨hrow, hdigest, -, hactive⟩
        obtain rfl : record = found :=
          List.inj_on_of_nodup_map hdigests hrow hmem (hdigest.trans hfits.1.symm)
        exact ⟨hactive, rfl⟩

theorem map_stampUse {β : Type*} {f : ApiKeyRecord → β}
    (hf : ∀ row : ApiKeyRecord, ∀ used updated,
      f { row with lastUsedAt := used, updatedAt := updated } = f row) :
    (stampUse rows apiKeyId now began).map f = rows.map f := by
  rw [stampUse, List.map_map]
  apply List.map_congr_left
  intro row _
  show f (if _ then _ else _) = f row
  split
  · exact hf row _ _
  · rfl

theorem keyOf_congr {other : List ApiKeyRecord}
    (h : rows.map (fun row => (row.apiKeyId, row.digest)) =
      other.map fun row => (row.apiKeyId, row.digest)) : keyOf rows = keyOf other := by
  funext key
  induction rows generalizing other with
  | nil =>
      cases other with
      | nil => rfl
      | cons => cases h
  | cons row rows ih =>
      cases other with
      | nil => cases h
      | cons row' other =>
          rw [List.map_cons, List.map_cons, List.cons.injEq, Prod.mk.injEq] at h
          obtain ⟨⟨hid, hdigest⟩, hrest⟩ := h
          have hih := ih hrest
          unfold keyOf at hih ⊢
          rw [List.find?_cons, List.find?_cons, hid]
          split
          · exact congrArg (fun digest => some digest.preimage) hdigest
          · exact hih

/-! ## What the table keeps true -/

/-- The row a transaction has read is the one its call names. -/
def Targeted (calls : Fin n → ApiKeyCall) (table : KeyTable n) : Prop :=
  ∀ i, ∀ row ∈ (table.txns i).held, row.apiKeyId = (calls i).apiKeyId

structure KeyringInv (calls : Fin n → ApiKeyCall) (s : Keyring n) : Prop where
  locks : apiKeyLocks.Sound s.table
  targeted : Targeted calls s.table
  digests : (s.rows.map (·.digest)).Nodup
  issued : ∀ row ∈ s.rows, row.digest.preimage ∈ s.issued
  rotations : ∀ i apiKey, (calls i).change = .rotate apiKey → apiKey ∈ s.issued
  committed : ∀ row ∈ s.rows, ∀ i apiKey, (calls i).change = .rotate apiKey →
    row.digest = apiKeyDigest apiKey → s.table.txns i = .committed
  distinct : ∀ i j apiKey, (calls i).change = .rotate apiKey →
    (calls j).change = .rotate apiKey → i = j

theorem KeyringStart.inv (h : KeyringStart calls s) : KeyringInv calls s where
  locks := h.table.sound
  targeted i row hrow := by
    rw [h.table.begun i] at hrow
    cases hrow
  digests := h.table.digests_nodup
  issued := h.rows
  rotations i apiKey hrotate := (h.rotations i apiKey hrotate).1
  committed row hrow i apiKey hrotate hdigest :=
    absurd hdigest ((h.rotations i apiKey hrotate).2 row hrow)
  distinct := h.distinct

/-- What a step of a transaction keeps, beside the locks. -/
theorem advance_keeps {table table' : KeyTable n} {label : ApiKeyLabel n}
    (h : table.advance calls label = some table') (htargeted : Targeted calls table) :
    Targeted calls table' ∧ (∀ j, table.txns j = .committed → table'.txns j = .committed) ∧
      ((table.rows.map (·.digest)).Nodup → (table'.rows.map (·.digest)).Nodup) := by
  have hmove : ∀ i txn, (∀ row ∈ ApiKeyTxn.held txn, row.apiKeyId = (calls i).apiKeyId) →
      table.txns i ≠ .committed → Targeted calls (table.move i txn) ∧
        ∀ j, table.txns j = .committed → (table.move i txn).txns j = .committed := by
    intro i txn hheld hnot
    constructor
    · intro j row hrow
      by_cases hj : j = i
      · subst hj
        simp only [Sessions.move, Function.update_self] at hrow
        exact hheld row hrow
      · simp only [Sessions.move, Function.update_of_ne hj] at hrow
        exact htargeted j row hrow
    · intro j hj
      have hne : j ≠ i := fun heq => hnot (heq ▸ hj)
      simpa only [Sessions.move, Function.update_of_ne hne] using hj
  cases label with
  | selectRecord i =>
      rw [KeyTable.advance] at h
      split at h
      · next record hbegun hrow =>
          obtain ⟨-, heq⟩ := Option.ite_none_right_eq_some.mp h
          cases heq
          obtain ⟨htarget, hcommitted⟩ := hmove i (.locked record) (fun row hheld => by
            rw [List.mem_singleton.mp hheld]
            simpa using List.find?_some hrow) (by simp [hbegun])
          exact ⟨htarget, hcommitted, id⟩
      · cases h
  | countActive i =>
      rw [KeyTable.advance] at h
      split at h
      · next record hlocked =>
          obtain ⟨htarget, hcommitted⟩ := hmove i (.allowed record) (fun row hheld => by
            apply htargeted i row
            rwa [hlocked]) (by simp [hlocked])
          have hresult : table' = table.move i (.allowed record) := by
            split at h
            · split at h <;> cases h
              rfl
            · cases h
              rfl
          exact hresult ▸ ⟨htarget, hcommitted, id⟩
      · cases h
  | commit i =>
      rw [KeyTable.advance] at h
      split at h
      · next record hallowed =>
          obtain ⟨hunique, heq⟩ := Option.ite_none_right_eq_some.mp h
          cases heq
          obtain ⟨htarget, hcommitted⟩ := hmove i .committed (by simp [ApiKeyTxn.held])
            (by simp [hallowed])
          exact ⟨htarget, hcommitted, fun _ => hunique⟩
      · cases h
  | rollback i =>
      rw [KeyTable.advance] at h
      split at h
      · cases h
      · next hended =>
          cases h
          obtain ⟨htarget, hcommitted⟩ := hmove i .rolledBack (by simp [ApiKeyTxn.held]) (by
            intro heq
            rw [heq] at hended
            exact hended rfl)
          exact ⟨htarget, hcommitted, id⟩

/-- A change keeps the digest, except that a rotation takes the digest of its new key. -/
theorem written_digest {change : ApiKeyChange} {written : ApiKeyRecord}
    (h : change.written record now = some written) :
    written.digest = record.digest ∨
      ∃ apiKey, change = .rotate apiKey ∧ written.digest = apiKeyDigest apiKey := by
  cases change with
  | update | setEnabled =>
      cases h
      exact .inl rfl
  | rotate apiKey =>
      cases h
      exact .inr ⟨apiKey, rfl, rfl⟩
  | delete => cases h

/-- A row after the commit was there before, or it carries the key the call has rotated to. -/
theorem KeyCommit.row_cases {table table' : KeyTable n}
    (hcommit : KeyCommit calls i record table table') (hlocks : apiKeyLocks.Sound table)
    {row : ApiKeyRecord} (hrow : row ∈ table'.rows) :
    (∃ old ∈ table.rows, row.digest = old.digest) ∨
      ∃ apiKey, (calls i).change = .rotate apiKey ∧ row.digest = apiKeyDigest apiKey := by
  by_cases hkey : row.apiKeyId = record.apiKeyId
  · rcases written_digest ((hcommit.mem_own hlocks hkey).mp hrow) with hsame | hrotated
    · exact .inl ⟨record, hcommit.mem_rows hlocks, hsame⟩
    · exact .inr hrotated
  · exact .inl ⟨row, (hcommit.mem_of_ne hkey).mp hrow, rfl⟩

theorem inv_changed {label : ApiKeyLabel n} {table : KeyTable n} (h : KeyringInv calls s)
    (hstep : s.table.advance calls label = some table) :
    KeyringInv calls { s with table := table } := by
  obtain ⟨htargeted, hcommitted, hdigests⟩ := advance_keeps hstep h.targeted
  have hlocks : apiKeyLocks.Sound table := keyChanges_sound h.locks hstep
  have hrows : ∀ row ∈ table.rows, (∃ old ∈ s.rows, row.digest = old.digest) ∨
      ∃ i apiKey, (calls i).change = .rotate apiKey ∧ row.digest = apiKeyDigest apiKey ∧
        table.txns i = .committed := by
    intro row hrow
    rcases keyTable_advance_cases hstep with ⟨i, record, rfl, hcommit⟩ | ⟨i, txn, -, hmove⟩
    · rcases hcommit.row_cases h.locks hrow with hold | ⟨apiKey, hrotate, hdigest⟩
      · exact .inl hold
      · refine .inr ⟨i, apiKey, hrotate, hdigest, ?_⟩
        rw [hcommit.result]
        exact Function.update_self ..
    · rw [hmove.result] at hrow
      exact .inl ⟨row, hrow, rfl⟩
  refine ⟨hlocks, htargeted, hdigests h.digests, ?_, h.rotations, ?_, h.distinct⟩
  · intro row hrow
    rcases hrows row hrow with ⟨old, hold, hdigest⟩ | ⟨j, key, hrotate, hdigest, -⟩
    · rw [hdigest]
      exact h.issued old hold
    · rw [hdigest]
      exact h.rotations j key hrotate
  · intro row hrow j key hrotate hdigest
    rcases hrows row hrow with ⟨old, hold, hsame⟩ | ⟨k, other, hrotate', hdigest', hdone⟩
    · exact hcommitted j (h.committed old hold j key hrotate (hsame.symm.trans hdigest))
    · obtain rfl : key = other := congrArg Digest.preimage (hdigest.symm.trans hdigest')
      rw [h.distinct j k key hrotate hrotate']
      exact hdone

theorem inv_created {name : String} {workerId : Option String} {expiresAt : Option Time}
    (h : KeyringInv calls s) (hid : apiKeyId ∉ s.rows.map (·.apiKeyId))
    (hfresh : apiKey ∉ s.issued) :
    KeyringInv calls
      { table := { s.table with
          rows := s.rows ++ [newApiKey apiKeyId name apiKey kind workerId expiresAt now] }
        issued := s.issued ++ [apiKey] } where
  locks :=
    { nodup := by
        show ((s.rows ++ [_]).map ApiKeyRecord.apiKeyId).Nodup
        rw [List.map_append, List.map_singleton, List.nodup_append]
        refine ⟨h.locks.nodup, List.nodup_singleton _, ?_⟩
        intro old hold new hnew heq
        rw [List.mem_singleton.mp hnew] at heq
        rw [heq] at hold
        exact hid hold
      current := fun i row hrow => List.mem_append_left _ (h.locks.current i row hrow)
      exclusive := h.locks.exclusive }
  targeted := h.targeted
  digests := by
    show ((s.rows ++ [_]).map ApiKeyRecord.digest).Nodup
    rw [List.map_append, List.map_singleton, List.nodup_append]
    refine ⟨h.digests, List.nodup_singleton _, ?_⟩
    intro old hold new hnew heq
    obtain ⟨row, hrow, rfl⟩ := List.mem_map.mp hold
    rw [List.mem_singleton.mp hnew] at heq
    have hissued := h.issued row hrow
    rw [heq] at hissued
    exact hfresh hissued
  issued := by
    intro row hrow
    rcases List.mem_append.mp hrow with hrow | hrow
    · exact List.mem_append_left _ (h.issued row hrow)
    · rw [List.mem_singleton.mp hrow]
      exact List.mem_append_right _ List.mem_cons_self
  rotations i key hrotate := List.mem_append_left _ (h.rotations i key hrotate)
  committed := by
    intro row hrow i key hrotate hdigest
    rcases List.mem_append.mp hrow with hrow | hrow
    · exact h.committed row hrow i key hrotate hdigest
    · rw [List.mem_singleton.mp hrow] at hdigest
      obtain rfl : apiKey = key := congrArg Digest.preimage hdigest
      exact absurd (h.rotations i apiKey hrotate) hfresh
  distinct := h.distinct

theorem mem_stampUse {row : ApiKeyRecord} (h : row ∈ stampUse rows apiKeyId now began) :
    ∃ old ∈ rows, row.apiKeyId = old.apiKeyId ∧ row.digest = old.digest := by
  obtain ⟨old, hold, rfl⟩ := List.mem_map.mp h
  exact ⟨old, hold, by split <;> exact ⟨rfl, rfl⟩⟩

theorem inv_stamped (h : KeyringInv calls s)
    (hfree : ∀ i, apiKeyId ∉ (s.table.txns i).held.map (·.apiKeyId)) :
    KeyringInv calls
      { s with table := { s.table with rows := stampUse s.rows apiKeyId now began } } where
  locks :=
    { nodup := by
        show ((stampUse s.rows apiKeyId now began).map (·.apiKeyId)).Nodup
        rw [map_stampUse fun _ _ _ => rfl]
        exact h.locks.nodup
      current := by
        intro i row hrow
        have hne : row.apiKeyId ≠ apiKeyId := fun heq =>
          hfree i (heq ▸ List.mem_map_of_mem hrow)
        exact List.mem_map.mpr ⟨row, h.locks.current i row hrow, if_neg fun hrow => hne hrow.1⟩
      exclusive := h.locks.exclusive }
  targeted := h.targeted
  digests := by
    show ((stampUse s.rows apiKeyId now began).map (·.digest)).Nodup
    rw [map_stampUse fun _ _ _ => rfl]
    exact h.digests
  issued := by
    intro row hrow
    obtain ⟨old, hold, -, hdigest⟩ := mem_stampUse hrow
    rw [hdigest]
    exact h.issued old hold
  rotations := h.rotations
  committed := by
    intro row hrow i key hrotate hdigest
    obtain ⟨old, hold, -, hsame⟩ := mem_stampUse hrow
    exact h.committed old hold i key hrotate (hsame.symm.trans hdigest)
  distinct := h.distinct

theorem keyring_inv_step (h : KeyringInv calls s) (hstep : KeyringStep calls s label t) :
    KeyringInv calls t := by
  cases hstep with
  | changed hadvance => exact inv_changed h hadvance
  | created hid hfresh => exact inv_created h hid hfresh
  | presented => exact h
  | stamped hfree => exact inv_stamped h hfree

/-! ## Which key a row has -/

theorem keyOf_commit {table table' : KeyTable n} (hlocks : apiKeyLocks.Sound table)
    (htargeted : Targeted calls table) (hcommit : KeyCommit calls i record table table') :
    keyOf table'.rows =
      replay (keyOf table.rows) (KeyringLabel.effect calls (.changed (.commit i))).toList := by
  have hrow := hcommit.mem_rows hlocks
  have hid : record.apiKeyId = (calls i).apiKeyId := by
    apply htargeted i record
    rw [hcommit.allowed]
    exact List.mem_singleton_self record
  have hfind : table.rows.find? (·.apiKeyId = record.apiKeyId) = some record :=
    find?_key_eq_some hlocks.nodup hrow
  have hreplaced : ∀ written : ApiKeyRecord, written.apiKeyId = record.apiKeyId →
      keyOf (replaceKey (·.apiKeyId) written table.rows) =
        Function.update (keyOf table.rows) record.apiKeyId (some written.digest.preimage) := by
    intro written hwritten
    funext key
    by_cases hkey : key = record.apiKeyId
    · subst hkey
      rw [Function.update_self, keyOf, find?_replaceKey_self hfind hwritten, Option.map_some]
    · rw [Function.update_of_ne hkey, keyOf, keyOf, find?_replaceKey_of_ne (hwritten ▸ hkey)]
  have hcurrent : keyOf table.rows record.apiKeyId = some record.digest.preimage := by
    rw [keyOf, hfind, Option.map_some]
  rw [hcommit.result, Sessions.commit_rows]
  cases hchange : (calls i).change with
  | rotate apiKey =>
      simp only [KeyringLabel.effect, hchange]
      rw [← hid]
      exact hreplaced (record.rotate apiKey (calls i).now) rfl
  | update request =>
      simp only [KeyringLabel.effect, hchange]
      exact (hreplaced (record.update request (calls i).now) rfl).trans
        (Function.update_eq_self_iff.mpr hcurrent.symm)
  | setEnabled enabled =>
      simp only [KeyringLabel.effect, hchange]
      exact (hreplaced (record.update (enabledRequest enabled) (calls i).now) rfl).trans
        (Function.update_eq_self_iff.mpr hcurrent.symm)
  | delete =>
      simp only [KeyringLabel.effect, hchange]
      show keyOf (table.rows.filter (·.apiKeyId ≠ record.apiKeyId)) =
        Function.update (keyOf table.rows) (calls i).apiKeyId none
      rw [← hid]
      funext key
      by_cases hkey : key = record.apiKeyId
      · subst hkey
        rw [Function.update_self, keyOf, Option.map_eq_none_iff, List.find?_eq_none]
        intro row hmem
        simpa using (List.mem_filter.mp hmem).2
      · rw [Function.update_of_ne hkey, keyOf, keyOf, List.find?_filter]
        congr 2
        funext row
        by_cases hrow : row.apiKeyId = key <;> simp [hrow, hkey]

theorem keyOf_step (h : KeyringInv calls s) (hstep : KeyringStep calls s label t) :
    keyOf t.rows = replay (keyOf s.rows) (label.effect calls).toList := by
  cases hstep with
  | @changed label table hadvance =>
      rcases keyTable_advance_cases hadvance with ⟨i, record, rfl, hcommit⟩ | ⟨i, txn, hne, hmove⟩
      · exact keyOf_commit h.locks h.targeted hcommit
      · have hnone : KeyringLabel.effect calls (.changed label) = none := by
          cases label with
          | commit j => exact absurd rfl (hne j)
          | selectRecord | countActive | rollback => rfl
        rw [hnone]
        show keyOf table.rows = keyOf s.rows
        rw [hmove.result]
        rfl
  | @created apiKeyId name apiKey kind workerId expiresAt now hid _ =>
      show keyOf (s.rows ++ [_]) = Function.update (keyOf s.rows) apiKeyId (some apiKey)
      funext key
      rw [keyOf, List.find?_append]
      by_cases hkey : key = apiKeyId
      · subst hkey
        have hnone : s.rows.find? (·.apiKeyId = key) = none := by
          rw [List.find?_eq_none]
          intro row hrow
          have hne : row.apiKeyId ≠ key := fun heq => hid (heq ▸ List.mem_map_of_mem hrow)
          simpa using hne
        rw [hnone, Function.update_self]
        simp [newApiKey, apiKeyDigest]
      · rw [Function.update_of_ne hkey]
        have hlast : [newApiKey apiKeyId name apiKey kind workerId expiresAt now].find?
            (·.apiKeyId = key) = none := by simp [newApiKey, Ne.symm hkey]
        rw [hlast, Option.or_none, keyOf]
  | presented => rfl
  | @stamped apiKeyId now began _ =>
      show keyOf (stampUse s.rows apiKeyId now began) = keyOf s.rows
      exact keyOf_congr (map_stampUse fun _ _ _ => rfl)

/-! ## Runs -/

theorem keyring_run_inv (h : KeyringInv calls s) (hrun : (keyring calls).Run s labels t) :
    KeyringInv calls t := by
  induction hrun with
  | nil => exact h
  | snoc _ hstep ih => exact keyring_inv_step ih hstep

theorem keyOf_run (h : KeyringInv calls s) (hrun : (keyring calls).Run s labels t) :
    keyOf t.rows = replay (keyOf s.rows) (labels.filterMap (·.effect calls)) := by
  induction hrun with
  | nil => rfl
  | @snoc u v labels label hrun hstep ih =>
      rw [keyOf_step (keyring_run_inv h hrun) hstep, ih, List.filterMap_append, replay, replay,
        replay, List.foldl_append]
      cases heffect : label.effect calls <;> simp [heffect]

/-- A presented key is accepted exactly when it is the key last given to a row that is still
there, of the kind asked for, enabled and not expired; and no two rows have the same key. -/
theorem presented_key_accepted_iff (hs : KeyringStart calls s)
    (h : (keyring calls).Run s labels t) :
    (authenticate t.rows apiKey now kind = some record ↔ record ∈ t.rows ∧
      replay (keyOf s.rows) (labels.filterMap (·.effect calls)) record.apiKeyId = some apiKey ∧
      record.kind = kind ∧ record.isActive now) ∧
      ∀ first second : String,
        replay (keyOf s.rows) (labels.filterMap (·.effect calls)) first = some apiKey →
        replay (keyOf s.rows) (labels.filterMap (·.effect calls)) second = some apiKey →
        first = second := by
  have hinv := keyring_run_inv hs.inv h
  have hids : (t.rows.map (·.apiKeyId)).Nodup := hinv.locks.nodup
  rw [← keyOf_run hs.inv h, authenticate_eq_some hinv.digests]
  constructor
  · constructor
    · rintro ⟨hrow, hdigest, hkind, hactive⟩
      exact ⟨hrow, (keyOf_eq_some hids).mpr ⟨record, hrow, rfl, hdigest⟩, hkind, hactive⟩
    · rintro ⟨hrow, hkey, hkind, hactive⟩
      obtain ⟨row, hmem, hid, hdigest⟩ := (keyOf_eq_some hids).mp hkey
      obtain rfl : row = record := List.inj_on_of_nodup_map hids hmem hrow hid
      exact ⟨hrow, hdigest, hkind, hactive⟩
  · intro first second hfirst hsecond
    obtain ⟨row, hrow, rfl, hdigest⟩ := (keyOf_eq_some hids).mp hfirst
    obtain ⟨other, hother, rfl, hdigest'⟩ := (keyOf_eq_some hids).mp hsecond
    rw [List.inj_on_of_nodup_map hinv.digests hrow hother (hdigest.trans hdigest'.symm)]

/-! ## Superseded keys -/

/-- No row has the key, and no row will: it was generated, and no rotation to it is to come. -/
structure Superseded (calls : Fin n → ApiKeyCall) (apiKey : String) (s : Keyring n) : Prop where
  absent : ∀ row ∈ s.rows, row.digest ≠ apiKeyDigest apiKey
  issued : apiKey ∈ s.issued
  ended : ∀ i, (calls i).change = .rotate apiKey → s.table.txns i = .committed

theorem superseded_step (h : KeyringInv calls s) (hgone : Superseded calls apiKey s)
    (hstep : KeyringStep calls s label t) : Superseded calls apiKey t := by
  cases hstep with
  | @changed label table hadvance =>
      obtain ⟨-, hcommitted, -⟩ := advance_keeps hadvance h.targeted
      refine ⟨?_, hgone.issued, fun i hrotate => hcommitted i (hgone.ended i hrotate)⟩
      intro row hrow hdigest
      rcases keyTable_advance_cases hadvance with ⟨i, record, -, hcommit⟩ | ⟨i, txn, -, hmove⟩
      · rcases hcommit.row_cases h.locks hrow with ⟨old, hold, hsame⟩ | ⟨key, hrotate, hsame⟩
        · exact hgone.absent old hold (hsame.symm.trans hdigest)
        · obtain rfl : apiKey = key := congrArg Digest.preimage (hdigest.symm.trans hsame)
          have hended := hgone.ended i hrotate
          rw [hcommit.allowed] at hended
          cases hended
      · have hsame : row ∈ s.rows := by
          rw [hmove.result] at hrow
          exact hrow
        exact hgone.absent row hsame hdigest
  | @created apiKeyId name fresh kind workerId expiresAt now _ hfresh =>
      refine ⟨?_, List.mem_append_left _ hgone.issued, hgone.ended⟩
      intro row hrow hdigest
      rcases List.mem_append.mp hrow with hrow | hrow
      · exact hgone.absent row hrow hdigest
      · rw [List.mem_singleton.mp hrow] at hdigest
        have hsame : fresh = apiKey := congrArg Digest.preimage hdigest
        exact hfresh (hsame ▸ hgone.issued)
  | presented => exact hgone
  | stamped =>
      refine ⟨?_, hgone.issued, hgone.ended⟩
      intro row hrow hdigest
      obtain ⟨old, hold, -, hsame⟩ := mem_stampUse hrow
      exact hgone.absent old hold (hsame.symm.trans hdigest)

theorem effect_key {effect : StoreEffect String String}
    (h : KeyringLabel.effect calls (.changed (.commit i)) = some effect) :
    effect.key = (calls i).apiKeyId := by
  simp only [KeyringLabel.effect] at h
  split at h <;> cases h <;> rfl

/-- A change that takes a row's key away leaves the row with a key it has rotated to. -/
theorem written_effect {effect : StoreEffect String String} {written : ApiKeyRecord}
    (h : (calls i).change.written record now = some written)
    (heffect : KeyringLabel.effect calls (.changed (.commit i)) = some effect) :
    ∃ apiKey, (calls i).change = .rotate apiKey ∧ written.digest = apiKeyDigest apiKey := by
  simp only [KeyringLabel.effect] at heffect
  cases hchange : (calls i).change with
  | rotate apiKey =>
      rw [hchange] at h
      cases h
      exact ⟨apiKey, rfl, rfl⟩
  | delete =>
      rw [hchange] at h
      cases h
  | update | setEnabled =>
      rw [hchange] at heffect
      cases heffect

/-- The row has another key, or it is gone. -/
theorem superseded_of_effect {effect : StoreEffect String String} (h : KeyringInv calls s)
    (hkey : keyOf s.rows effect.key = some apiKey) (hstep : KeyringStep calls s label t)
    (heffect : label.effect calls = some effect) : Superseded calls apiKey t := by
  obtain ⟨row, hrow, hid, hdigest⟩ := (keyOf_eq_some h.locks.nodup).mp hkey
  have hissued : apiKey ∈ s.issued := by
    have := h.issued row hrow
    rwa [hdigest] at this
  cases hstep with
  | @changed label table hadvance =>
      obtain ⟨-, hcommitted, -⟩ := advance_keeps hadvance h.targeted
      have hended : ∀ i, (calls i).change = .rotate apiKey → table.txns i = .committed :=
        fun i hrotate => hcommitted i (h.committed row hrow i apiKey hrotate hdigest)
      refine ⟨?_, hissued, hended⟩
      intro other hother hsame
      rcases keyTable_advance_cases hadvance with ⟨i, record, rfl, hcommit⟩ | ⟨i, txn, hne, hmove⟩
      · have htarget : effect.key = record.apiKeyId := by
          rw [h.targeted i record (by rw [hcommit.allowed]; exact List.mem_singleton_self _)]
          exact effect_key heffect
        by_cases hown : other.apiKeyId = record.apiKeyId
        · rcases written_effect ((hcommit.mem_own h.locks hown).mp hother) heffect with
            ⟨key, hrotate, hdigest'⟩
          obtain rfl : apiKey = key := congrArg Digest.preimage (hsame.symm.trans hdigest')
          have hdone := h.committed row hrow i apiKey hrotate hdigest
          rw [hcommit.allowed] at hdone
          cases hdone
        · have hold := (hcommit.mem_of_ne hown).mp hother
          obtain rfl : other = row := List.inj_on_of_nodup_map h.digests hold hrow
            (hsame.trans hdigest.symm)
          exact hown (hid.trans htarget)
      · cases label with
        | commit j => exact absurd rfl (hne j)
        | selectRecord | countActive | rollback => cases heffect
  | created hid' _ =>
      cases heffect
      have hmem := List.mem_map_of_mem (f := ApiKeyRecord.apiKeyId) hrow
      rw [hid] at hmem
      exact absurd hmem hid'
  | presented | stamped => cases heffect

theorem superseded_run (h : KeyringInv calls s) (hgone : Superseded calls apiKey s)
    (hrun : (keyring calls).Run s labels t) : Superseded calls apiKey t := by
  induction hrun with
  | nil => exact hgone
  | snoc hrun hstep ih => exact superseded_step (keyring_run_inv h hrun) ih hstep

/-- Once the row of a key was rotated or deleted, the key is refused at all times, as either kind,
whatever else happens. -/
theorem superseded_key_refused {before after : List (KeyringLabel n)} {v : Keyring n}
    {effect : StoreEffect String String} (hs : KeyringStart calls s)
    (h : (keyring calls).At s labels v before t label u after)
    (hkey : replay (keyOf s.rows) (before.filterMap (·.effect calls)) effect.key = some apiKey)
    (heffect : label.effect calls = some effect) (now : Time) (kind : ApiKeyKind) :
    authenticate v.rows apiKey now kind = none := by
  obtain ⟨-, hbefore, hstep, hafter⟩ := h
  have hinv := keyring_run_inv hs.inv hbefore
  rw [← keyOf_run hs.inv hbefore] at hkey
  have hgone := superseded_of_effect hinv hkey hstep heffect
  have hinv_after := keyring_inv_step hinv hstep
  have hlast := superseded_run hinv_after hgone hafter
  cases hanswer : authenticate v.rows apiKey now kind with
  | none => rfl
  | some record =>
      have hdigests := (keyring_run_inv hinv_after hafter).digests
      obtain ⟨hrow, hdigest, -⟩ := (authenticate_eq_some hdigests).mp hanswer
      exact absurd hdigest (hlast.absent record hrow)

/-! ## One key, rotated -/

def oneKey : Keyring 1 where
  table := { rows := [sampleKey "key_a" "parser_a"], txns := fun _ => .begun }
  issued := ["parser_a", "parser_b"]

def rotateOnce (_ : Fin 1) : ApiKeyCall where
  apiKeyId := "key_a"
  change := .rotate "parser_b"
  now := 1

theorem oneKey_start : KeyringStart rotateOnce oneKey where
  table := ⟨by decide, by decide, fun _ => rfl⟩
  rows := by decide
  rotations := by
    intro i apiKey hrotate
    cases hrotate
    decide
  distinct := fun i j _ _ _ => Subsingleton.elim i j

/-! The table while the row is locked, and after the commit. -/

def oneKeyLocked : Keyring 1 where
  table := oneKey.table.move 0 (.locked (sampleKey "key_a" "parser_a"))
  issued := oneKey.issued

def oneKeyAllowed : Keyring 1 where
  table := oneKeyLocked.table.move 0 (.allowed (sampleKey "key_a" "parser_a"))
  issued := oneKey.issued

def oneKeyRotated : Keyring 1 where
  table := oneKeyAllowed.table.commit 0
    [(sampleKey "key_a" "parser_a").rotate "parser_b" 1] .committed
  issued := oneKey.issued

theorem oneKey_allowed : (keyring rotateOnce).Run oneKey
    [.changed (.selectRecord 0), .changed (.countActive 0)] oneKeyAllowed := by
  have hselect : (keyring rotateOnce).Step oneKey (.changed (.selectRecord 0)) oneKeyLocked :=
    .changed rfl
  have hcount : (keyring rotateOnce).Step oneKeyLocked (.changed (.countActive 0)) oneKeyAllowed :=
    .changed rfl
  exact (System.Run.single hselect).snoc hcount

theorem oneKey_rotated :
    KeyringStep rotateOnce oneKeyAllowed (.changed (.commit 0)) oneKeyRotated := .changed rfl

theorem presented_key_accepted_rotated :
    (authenticate oneKeyRotated.rows "parser_b" 5 .ordinary).isSome := by
  have hrun := oneKey_allowed.snoc oneKey_rotated
  have haccepted : authenticate oneKeyRotated.rows "parser_b" 5 .ordinary =
      some ((sampleKey "key_a" "parser_a").rotate "parser_b" 1) :=
    (presented_key_accepted_iff oneKey_start hrun).1.mpr (by decide)
  rw [haccepted]
  rfl

theorem superseded_key_refused_rotated :
    authenticate oneKeyRotated.rows "parser_a" 5 .ordinary = none :=
  superseded_key_refused oneKey_start ⟨rfl, oneKey_allowed, oneKey_rotated, .nil _⟩
    (by decide) rfl 5 .ordinary

end ParserServe
