import ParserServe.Foundation.Attempt
import ParserServe.Foundation.Keyed
import ParserServe.Schema.Catalog

/-! # API keys

The rows of `persistence/api_keys.py` and the changes `ApiKeyRepository` makes to a row it has
locked.  A generated key is a value the caller is given, and the row keeps its digest.
-/

namespace ParserServe

open Foundation

inductive ApiKeyKind
  | ordinary | worker
  deriving DecidableEq, Repr

structure ApiKeyRecord where
  apiKeyId : String
  name : String
  kind : ApiKeyKind := .ordinary
  workerId : Option String := none
  keyPrefix : String
  digest : Digest String
  enabled : Bool := true
  expiresAt : Option Time := none
  lastUsedAt : Option Time := none
  createdAt : Time
  updatedAt : Time
  deriving DecidableEq

structure UpdateApiKeyRequest where
  name : Option String := none
  enabled : Option Bool := none
  expiresAt : Option Time := none
  changes : name ≠ none ∨ enabled ≠ none ∨ expiresAt ≠ none

def apiKeyDigest (apiKey : String) : Digest String := ⟨apiKey⟩

def apiKeyPrefix (apiKey : String) : String := .ofList (apiKey.toList.take 15)

/-- `expires_at is None or expires_at > now`. -/
def unexpired (expiresAt : Option Time) (now : Time) : Prop := ∀ t ∈ expiresAt, now < t

instance (expiresAt : Option Time) (now : Time) : Decidable (unexpired expiresAt now) :=
  inferInstanceAs (Decidable (∀ t ∈ expiresAt, _))

/-- `_is_active`. -/
def ApiKeyRecord.isActive (record : ApiKeyRecord) (now : Time) : Bool :=
  record.enabled && unexpired record.expiresAt now

/-- An ordinary key that is active: one that opens the management interface. -/
def ApiKeyRecord.Usable (now : Time) (record : ApiKeyRecord) : Prop :=
  record.kind = .ordinary ∧ record.isActive now

instance (now : Time) (record : ApiKeyRecord) : Decidable (record.Usable now) :=
  inferInstanceAs (Decidable (_ ∧ _))

/-! ## Changes of a row -/

/-- `remains_active` of `update`. -/
def UpdateApiKeyRequest.remainsActive (update : UpdateApiKeyRequest) (record : ApiKeyRecord)
    (now : Time) : Bool :=
  let effectiveEnabled := update.enabled.getD record.enabled
  let effectiveExpiry := update.expiresAt.or record.expiresAt
  effectiveEnabled && unexpired effectiveExpiry now

def ApiKeyRecord.update (record : ApiKeyRecord) (update : UpdateApiKeyRequest) (now : Time) :
    ApiKeyRecord :=
  { record with
    name := update.name.getD record.name
    enabled := update.enabled.getD record.enabled
    expiresAt := update.expiresAt.or record.expiresAt
    updatedAt := now }

def ApiKeyRecord.rotate (record : ApiKeyRecord) (apiKey : String) (now : Time) : ApiKeyRecord :=
  { record with
    keyPrefix := apiKeyPrefix apiKey
    digest := apiKeyDigest apiKey
    updatedAt := now }

/-- A call of `update`, `set_enabled`, `rotate` (with the key it generates) or `delete`. -/
inductive ApiKeyChange
  | update (request : UpdateApiKeyRequest)
  | setEnabled (enabled : Bool)
  | rotate (apiKey : String)
  | delete

/-- The request that `set_enabled` hands to `update`. -/
def enabledRequest (enabled : Bool) : UpdateApiKeyRequest where
  enabled := some enabled
  changes := .inr (.inl (Option.some_ne_none enabled))

/-- The condition under which the call asks for another active key. -/
def ApiKeyChange.guarded (change : ApiKeyChange) (record : ApiKeyRecord) (now : Time) : Bool :=
  match change with
  | .update request => record.Usable now && !request.remainsActive record now
  | .setEnabled enabled =>
      record.Usable now && !(enabledRequest enabled).remainsActive record now
  | .rotate _ => false
  | .delete => record.Usable now

/-- The row as the call writes it, `none` where it deletes the row. -/
def ApiKeyChange.written (change : ApiKeyChange) (record : ApiKeyRecord) (now : Time) :
    Option ApiKeyRecord :=
  match change with
  | .update request => some (record.update request now)
  | .setEnabled enabled => some (record.update (enabledRequest enabled) now)
  | .rotate apiKey => some (record.rotate apiKey now)
  | .delete => none

/-- The table with the row `apiKeyId` written or deleted. -/
def writeApiKey (rows : List ApiKeyRecord) (apiKeyId : String) :
    Option ApiKeyRecord → List ApiKeyRecord
  | some record => replaceKey (·.apiKeyId) record rows
  | none => rows.filter (·.apiKeyId ≠ apiKeyId)

/-- The rows that `_require_another_active_key` counts. -/
def otherActiveKeys (rows : List ApiKeyRecord) (excludingApiKeyId : String) (now : Time) :
    List ApiKeyRecord :=
  rows.filter fun record => record.apiKeyId ≠ excludingApiKeyId ∧ record.Usable now

/-- `_require_another_active_key`. -/
def requireAnotherActiveKey (rows : List ApiKeyRecord) (excludingApiKeyId : String)
    (now : Time) : Except String Unit :=
  ensure ((otherActiveKeys rows excludingApiKeyId now).length ≠ 0) "LastActiveApiKeyError"

/-! ## What a change does to a usable key -/

variable {change : ApiKeyChange} {record written : ApiKeyRecord} {apiKeyId : String} {now : Time}
  {rows : List ApiKeyRecord}

theorem written_apiKeyId (h : change.written record now = some written) :
    written.apiKeyId = record.apiKeyId := by
  cases change with
  | update | setEnabled | rotate =>
      cases h
      rfl
  | delete => cases h

theorem update_usable {request : UpdateApiKeyRequest} :
    (record.update request now).Usable now ↔
      record.kind = .ordinary ∧ request.remainsActive record now := Iff.rfl

/-- A usable key stays usable unless the call has asked for another one. -/
theorem written_usable_iff (husable : record.Usable now) :
    (∃ written ∈ change.written record now, written.Usable now) ↔
      ¬ change.guarded record now := by
  cases change with
  | update request =>
      simp [ApiKeyChange.written, ApiKeyChange.guarded, update_usable, husable, husable.1]
  | setEnabled enabled =>
      simp [ApiKeyChange.written, ApiKeyChange.guarded, update_usable, husable, husable.1]
  | rotate apiKey =>
      have hkept : (record.rotate apiKey now).Usable now := husable
      simp [ApiKeyChange.written, ApiKeyChange.guarded, hkept]
  | delete => simp [ApiKeyChange.written, ApiKeyChange.guarded, husable]

theorem guarded_usable (h : change.guarded record now) : record.Usable now := by
  cases change <;> simp_all [ApiKeyChange.guarded]

theorem mem_otherActiveKeys : record ∈ otherActiveKeys rows apiKeyId now ↔
    record ∈ rows ∧ record.apiKeyId ≠ apiKeyId ∧ record.Usable now := by
  simp [otherActiveKeys]

/-- The rows of other keys stay as they are. -/
theorem mem_writeApiKey_of_ne {row : ApiKeyRecord} (hne : row.apiKeyId ≠ record.apiKeyId) :
    row ∈ writeApiKey rows record.apiKeyId (change.written record now) ↔ row ∈ rows := by
  cases hwritten : change.written record now with
  | none => simp [writeApiKey, hne]
  | some written =>
      have hkey := written_apiKeyId hwritten
      refine ⟨fun hrow => ?_, fun hrow => mem_replaceKey_of_ne hrow (hkey ▸ hne)⟩
      rcases mem_replaceKey_cases hrow with rfl | ⟨hrow, -⟩
      · exact absurd hkey hne
      · exact hrow

/-- The row of the key itself is the one written. -/
theorem mem_writeApiKey_own (hrecord : record ∈ rows) {row : ApiKeyRecord}
    (hkey : row.apiKeyId = record.apiKeyId) :
    row ∈ writeApiKey rows record.apiKeyId (change.written record now) ↔
      row ∈ change.written record now := by
  cases hwritten : change.written record now with
  | none => simp [writeApiKey, hkey]
  | some written =>
      have hown := written_apiKeyId hwritten
      rw [Option.mem_some_iff]
      constructor
      · intro hrow
        rcases mem_replaceKey_cases hrow with hrow | ⟨-, hne⟩
        · exact hrow.symm
        · exact absurd (hkey.trans hown.symm) hne
      · rintro rfl
        exact mem_replaceKey_self hrecord hown.symm

end ParserServe
