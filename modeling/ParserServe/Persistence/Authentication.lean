import ParserServe.Foundation.Replay
import ParserServe.Security.LastActiveKey

/-! # Keys over time

`ApiKeyRepository.create` and `authenticate` beside the transactions that change keys.  A key that
`generate_api_key` makes has not been made before, and a digest has one preimage.
-/

namespace ParserServe

open Foundation

/-- `ApiKeyRepository.authenticate`, up to the stamp on the row it finds. -/
def authenticate (rows : List ApiKeyRecord) (apiKey : String) (now : Time) (kind : ApiKeyKind) :
    Option ApiKeyRecord :=
  match rows.find? fun record => record.digest = apiKeyDigest apiKey ∧ record.kind = kind with
  | none => none
  | some record => if record.isActive now then some record else none

/-- The row that `create` inserts. -/
def newApiKey (apiKeyId name apiKey : String) (kind : ApiKeyKind) (workerId : Option String)
    (expiresAt : Option Time) (now : Time) : ApiKeyRecord where
  apiKeyId := apiKeyId
  name := name
  kind := kind
  workerId := workerId
  keyPrefix := apiKeyPrefix apiKey
  digest := apiKeyDigest apiKey
  expiresAt := expiresAt
  createdAt := now
  updatedAt := now

/-- `record.last_used_at = now`; an `UPDATE` that changes the row also sets `updated_at` to the time
`began` at which its transaction began. -/
def stampUse (rows : List ApiKeyRecord) (apiKeyId : String) (now began : Time) :
    List ApiKeyRecord :=
  rows.map fun row =>
    if row.apiKeyId = apiKeyId ∧ row.lastUsedAt ≠ some now then
      { row with lastUsedAt := some now, updatedAt := began }
    else row

/-- The table of keys with every key that was ever generated. -/
structure Keyring (n : Nat) where
  table : KeyTable n
  issued : List String

def Keyring.rows {n : Nat} (s : Keyring n) : List ApiKeyRecord := s.table.rows

inductive KeyringLabel (n : Nat)
  | changed (label : ApiKeyLabel n)
  | created (apiKeyId apiKey : String)
  | presented (apiKey : String) (now : Time) (kind : ApiKeyKind) (answer : Option ApiKeyRecord)
  | stamped (apiKeyId : String) (now : Time)

/-- A caller presents a key at any time; the stamp waits for a lock on the row, and an insert for
nothing. -/
inductive KeyringStep {n : Nat} (calls : Fin n → ApiKeyCall) :
    Keyring n → KeyringLabel n → Keyring n → Prop
  | changed {s : Keyring n} {label : ApiKeyLabel n} {table : KeyTable n} :
      s.table.advance calls label = some table →
        KeyringStep calls s (.changed label) { s with table := table }
  | created {s : Keyring n} {apiKeyId name apiKey : String} {kind : ApiKeyKind}
      {workerId : Option String} {expiresAt : Option Time} {now : Time} :
      apiKeyId ∉ s.rows.map (·.apiKeyId) → apiKey ∉ s.issued →
        KeyringStep calls s (.created apiKeyId apiKey)
          { table := { s.table with
              rows := s.rows ++ [newApiKey apiKeyId name apiKey kind workerId expiresAt now] }
            issued := s.issued ++ [apiKey] }
  | presented {s : Keyring n} {apiKey : String} {now : Time} {kind : ApiKeyKind} :
      KeyringStep calls s (.presented apiKey now kind (authenticate s.rows apiKey now kind)) s
  | stamped {s : Keyring n} {apiKeyId : String} {now began : Time} :
      (∀ i, apiKeyId ∉ (s.table.txns i).held.map (·.apiKeyId)) →
        KeyringStep calls s (.stamped apiKeyId now)
          { s with table := { s.table with rows := stampUse s.rows apiKeyId now began } }

/-- Every key in the table, and every key that a call will rotate to, was generated; no two
generated keys are the same. -/
structure KeyringStart {n : Nat} (calls : Fin n → ApiKeyCall) (s : Keyring n) : Prop where
  table : s.table.Start
  rows : ∀ row ∈ s.rows, row.digest.preimage ∈ s.issued
  rotations : ∀ i apiKey, (calls i).change = .rotate apiKey →
    apiKey ∈ s.issued ∧ ∀ row ∈ s.rows, row.digest ≠ apiKeyDigest apiKey
  distinct : ∀ i j apiKey, (calls i).change = .rotate apiKey →
    (calls j).change = .rotate apiKey → i = j

def keyring {n : Nat} (calls : Fin n → ApiKeyCall) : System (Keyring n) (KeyringLabel n) where
  Initial := KeyringStart calls
  Step := KeyringStep calls

/-- Which key a step gives to a row, or takes from it. -/
def KeyringLabel.effect {n : Nat} (calls : Fin n → ApiKeyCall) :
    KeyringLabel n → Option (StoreEffect String String)
  | .created apiKeyId apiKey => some (.put apiKeyId apiKey)
  | .changed (.commit i) =>
      match (calls i).change with
      | .rotate apiKey => some (.put (calls i).apiKeyId apiKey)
      | .delete => some (.remove (calls i).apiKeyId)
      | .update _ | .setEnabled _ => none
  | _ => none

/-- The key whose digest stands in the row `apiKeyId`. -/
def keyOf (rows : List ApiKeyRecord) (apiKeyId : String) : Option String :=
  (rows.find? (·.apiKeyId = apiKeyId)).map (·.digest.preimage)

end ParserServe
