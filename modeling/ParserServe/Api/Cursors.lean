import ParserServe.Backends.Office
import ParserServe.Foundation.Base64
import ParserServe.Foundation.Datetime
import ParserServe.Foundation.Json
import ParserServe.Persistence.Events

/-! # Page cursors

The cursors of the artifact, worker and task lists: a JSON array of the ordering, the sort value
and the identifier of the last item, in Base64.  What pydantic reads as an aware datetime is a
parameter; that it reads the text of `isoformat` is the one thing asked of it.
-/

namespace ParserServe

open Foundation

def SortDirection.value : SortDirection → Text
  | asc => "asc".toList
  | desc => "desc".toList

/-- The value of the sort column. -/
inductive SortValue
  | datetime (value : UtcDatetime)
  | int (value : Int)
  | str (value : Text)
  deriving DecidableEq

/-- `value.isoformat() if isinstance(value, datetime) else value`. -/
def SortValue.serialized : SortValue → JsonScalar
  | datetime value => .str value.isoformat
  | int value => .int value
  | str value => .str value

/-! ## The codec -/

/-- `base64.urlsafe_b64encode(json.dumps(payload).encode()).decode().rstrip("=")`. -/
def encodePayload (payload : List JsonScalar) : Text :=
  stripPadding (urlsafeB64encode (encodeUtf8 (dumps payload)))

/-- `json.loads(base64.urlsafe_b64decode(cursor + padding).decode("utf-8"))`. -/
def decodePayload (cursor : Text) : Option (List JsonScalar) := do
  let bytes ← urlsafeB64decode (cursor ++ base64Padding cursor.length)
  let text ← decodeUtf8 bytes
  loads text

@[simp] theorem decodePayload_encodePayload (payload : List JsonScalar) :
    decodePayload (encodePayload payload) = some payload := by
  unfold decodePayload encodePayload
  rw [urlsafeB64decode_stripped]
  simp only [Option.bind_eq_bind, Option.bind_some, decodeUtf8_encodeUtf8, loads_dumps]

theorem length_encodePayload (payload : List JsonScalar) :
    (encodePayload payload).length = (4 * (dumps payload).length + 2) / 3 := by
  rw [encodePayload, stripPadding_encode, length_base64Digits,
    length_encodeUtf8_ascii (dumps_ascii payload)]

/-- A cursor that `PageInfo` and the `cursor` parameter of a request take. -/
def CursorAccepted (cursor : Text) : Prop := 1 ≤ cursor.length ∧ cursor.length ≤ 1024

instance : DecidablePred CursorAccepted := fun _ => inferInstanceAs (Decidable (_ ∧ _))

theorem cursorAccepted_encodePayload {payload : List JsonScalar} :
    CursorAccepted (encodePayload payload) ↔ (dumps payload).length ≤ 768 := by
  have hpos : 1 ≤ (dumps payload).length := Nat.succ_pos _
  rw [CursorAccepted, length_encodePayload]
  omega

/-! ## Identifiers -/

/-- The class `[a-zA-Z0-9_-]`. -/
def isIdentifierChar (c : Char) : Bool :=
  (97 ≤ c.toNat && c.toNat ≤ 122) || (65 ≤ c.toNat && c.toNat ≤ 90) ||
    (48 ≤ c.toNat && c.toNat ≤ 57) || c = '_' || c = '-'

/-- The pattern `^prefix_[a-zA-Z0-9_-]{8,64}$`. -/
def isIdentifier (kind : String) (text : Text) : Bool :=
  let body := text.drop (kind.length + 1)
  (kind ++ "_").toList.isPrefixOf text && decide (8 ≤ body.length) && decide (body.length ≤ 64) &&
    body.all isIdentifierChar

/-- The adapter of an identifier type: only text that matches the pattern. -/
def validateIdentifier (kind : String) : JsonScalar → Option Text
  | .str text => if isIdentifier kind text then some text else none
  | _ => none

theorem isPlain_of_isIdentifierChar {c : Char} (h : isIdentifierChar c) : isPlain c := by
  have hrange : 32 ≤ c.toNat ∧ c.toNat ≤ 126 ∧ c.toNat ≠ 34 ∧ c.toNat ≠ 92 := by
    simp only [isIdentifierChar, Bool.or_eq_true, decide_eq_true_eq] at h
    rcases h with (h | rfl) | rfl
    · simp only [Bool.and_eq_true, decide_eq_true_eq] at h
      omega
    · decide
    · decide
  simp only [isPlain, Bool.and_eq_true, decide_eq_true_eq]
  refine ⟨⟨⟨hrange.1, hrange.2.1⟩, ?_⟩, ?_⟩
  · rintro rfl
    exact hrange.2.2.1 rfl
  · rintro rfl
    exact hrange.2.2.2 rfl

/-- An identifier stands in JSON text as it is. -/
theorem escapeText_of_isIdentifier {kind : String} (hkind : kind.toList.all isPlain)
    {text : Text} (h : isIdentifier kind text) : escapeText text = text := by
  simp only [isIdentifier, Bool.and_eq_true, List.isPrefixOf_iff_prefix, List.all_eq_true] at h
  obtain ⟨⟨⟨⟨body, rfl⟩, _⟩, _⟩, hbody⟩ := h
  have hlength : (kind ++ "_").toList.length = kind.length + 1 := by
    rw [String.length_toList, String.length_append]
    rfl
  rw [List.drop_left' hlength] at hbody
  refine escapeText_of_isPlain (List.all_eq_true.mpr fun c hc => ?_)
  rcases List.mem_append.mp hc with hc | hc
  · rw [String.toList_append] at hc
    rcases List.mem_append.mp hc with hc | hc
    · exact List.all_eq_true.mp hkind c hc
    · have hline : c = '_' := by simpa using hc
      rw [hline]
      decide
  · exact isPlain_of_isIdentifierChar (hbody c hc)

theorem length_le_of_isIdentifier {kind : String} {text : Text} (h : isIdentifier kind text) :
    text.length ≤ kind.length + 65 := by
  simp only [isIdentifier, Bool.and_eq_true, decide_eq_true_eq, List.length_drop] at h
  omega

theorem validateIdentifier_str {kind : String} {text : Text} (h : isIdentifier kind text) :
    validateIdentifier kind (.str text) = some text :=
  if_pos h

section

variable (validateDatetime : JsonScalar → Option UtcDatetime)

/-! ## Bound cursors -/

def encodeBoundCursor (resource sortBy : Text) (direction : SortDirection) (value : SortValue)
    (itemId : Text) : Text :=
  encodePayload [.str resource, .str sortBy, .str direction.value, value.serialized, .str itemId]

/-- `_decode_bound_cursor` of a cursor that is given: the raw value and identifier. -/
def decodeBoundCursor (cursor resource sortBy : Text) (direction : SortDirection) :
    Except String (JsonScalar × JsonScalar) :=
  match decodePayload cursor with
  | some [a, b, c, value, itemId] =>
      if [a, b, c] = [.str resource, .str sortBy, .str direction.value] then .ok (value, itemId)
      else .error ("The " ++ String.ofList resource ++
        " cursor is invalid for the requested ordering")
  | _ => .error ("The " ++ String.ofList resource ++
      " cursor is invalid for the requested ordering")

theorem decodeBoundCursor_encode (resource sortBy : Text) (direction : SortDirection)
    (value : SortValue) (itemId : Text) :
    decodeBoundCursor (encodeBoundCursor resource sortBy direction value itemId) resource sortBy
      direction = .ok (value.serialized, .str itemId) := by
  rw [decodeBoundCursor, encodeBoundCursor, decodePayload_encodePayload]
  exact if_pos rfl

/-! ## Artifacts -/

inductive ArtifactSortField
  | createdAt | filename | sizeBytes
  deriving DecidableEq, Repr

def ArtifactSortField.value : ArtifactSortField → Text
  | createdAt => "created_at".toList
  | filename => "filename".toList
  | sizeBytes => "size_bytes".toList

/-- `_filename` of an upload. -/
def uploadFilename (filename : Option Text) : Except String Text :=
  let candidate :=
    (((filename.getD []).map fun c => if c = '\\' then '/' else c).splitOn '/').getLast?.getD []
  if candidate = [] ∨ candidate = ['.'] ∨ candidate = ['.', '.'] ∨ 512 < candidate.length ∨
      candidate.any fun c => decide (c.toNat < 32 ∨ c.toNat = 127) then
    .error "The uploaded filename is invalid"
  else .ok candidate

/-- The columns of an artifact that its cursor is made of. -/
structure ListedArtifact where
  artifactId : Text
  filename : Text
  sizeBytes : Nat
  createdAt : UtcDatetime
  id_valid : isIdentifier "artifact" artifactId
  uploaded : ∃ upload, uploadFilename upload = .ok filename

def ListedArtifact.sortValue (artifact : ListedArtifact) : ArtifactSortField → SortValue
  | .createdAt => .datetime artifact.createdAt
  | .filename => .str artifact.filename
  | .sizeBytes => .int artifact.sizeBytes

def encodeArtifactCursor (artifact : ListedArtifact) (sortBy : ArtifactSortField)
    (direction : SortDirection) : Text :=
  encodeBoundCursor "artifact".toList sortBy.value direction (artifact.sortValue sortBy)
    artifact.artifactId

/-- The value of a cursor by the sort field. -/
def decodeArtifactValue (sortBy : ArtifactSortField) (raw : JsonScalar) : Option SortValue :=
  match sortBy, raw with
  | .createdAt, raw => (validateDatetime raw).map .datetime
  | .sizeBytes, .int value => some (.int value)
  | .filename, .str value => some (.str value)
  | _, _ => none

/-- `_decode_artifact_cursor`; a null value stands for no cursor. -/
def decodeArtifactCursor (cursor : Option Text) (sortBy : ArtifactSortField)
    (direction : SortDirection) : Except String (Option (SortValue × Text)) :=
  match cursor with
  | none => .ok none
  | some cursor => do
      let (rawValue, rawId) ←
        decodeBoundCursor cursor "artifact".toList sortBy.value direction
      if rawValue = .null then .ok none
      else
        match decodeArtifactValue validateDatetime sortBy rawValue,
            validateIdentifier "artifact" rawId with
        | some value, some artifactId => .ok (some (value, artifactId))
        | _, _ => .error "The artifact cursor is invalid for the requested ordering"

/-! ## Workers -/

inductive WorkerSortField
  | createdAt | updatedAt | name
  deriving DecidableEq, Repr

def WorkerSortField.value : WorkerSortField → Text
  | createdAt => "created_at".toList
  | updatedAt => "updated_at".toList
  | name => "name".toList

/-- The columns of a worker that its cursor is made of. -/
structure ListedWorker where
  workerId : Text
  name : Text
  createdAt : UtcDatetime
  updatedAt : UtcDatetime
  id_valid : isIdentifier "worker" workerId
  name_fits : 1 ≤ name.length ∧ name.length ≤ 128

def ListedWorker.sortValue (worker : ListedWorker) : WorkerSortField → SortValue
  | .createdAt => .datetime worker.createdAt
  | .updatedAt => .datetime worker.updatedAt
  | .name => .str worker.name

def encodeWorkerCursor (worker : ListedWorker) (sortBy : WorkerSortField)
    (direction : SortDirection) : Text :=
  encodePayload [.str sortBy.value, .str direction.value, (worker.sortValue sortBy).serialized,
    .str worker.workerId]

def decodeWorkerValue (sortBy : WorkerSortField) (raw : JsonScalar) : Option SortValue :=
  match sortBy, raw with
  | .name, .str value => some (.str value)
  | .name, _ => none
  | _, raw => (validateDatetime raw).map .datetime

/-- `_decode_cursor` of the worker list. -/
def decodeWorkerCursor (cursor : Option Text) (sortBy : WorkerSortField)
    (direction : SortDirection) : Except String (Option (SortValue × Text)) :=
  match cursor with
  | none => .ok none
  | some cursor =>
      match decodePayload cursor with
      | some [a, b, rawValue, rawId] =>
          if [a, b] = [.str sortBy.value, .str direction.value] then
            match decodeWorkerValue validateDatetime sortBy rawValue,
                validateIdentifier "worker" rawId with
            | some value, some workerId => .ok (some (value, workerId))
            | _, _ => .error "The Worker list cursor is invalid"
          else .error "The Worker list cursor is invalid"
      | _ => .error "The Worker list cursor is invalid"

/-! ## String-keyed cursors -/

/-- The cursor of an artifact in the order of filenames can be given out, given back and read. -/
structure ArtifactCursorUsable (artifact : ListedArtifact) (direction : SortDirection) : Prop where
  accepted : CursorAccepted (encodeArtifactCursor artifact .filename direction)
  decodes : decodeArtifactCursor validateDatetime
    (some (encodeArtifactCursor artifact .filename direction)) .filename direction =
      .ok (some (.str artifact.filename, artifact.artifactId))

structure WorkerCursorUsable (worker : ListedWorker) (direction : SortDirection) : Prop where
  accepted : CursorAccepted (encodeWorkerCursor worker .name direction)
  decodes : decodeWorkerCursor validateDatetime
    (some (encodeWorkerCursor worker .name direction)) .name direction =
      .ok (some (.str worker.name, worker.workerId))

theorem artifactCursor_decodes (artifact : ListedArtifact) (direction : SortDirection) :
    decodeArtifactCursor validateDatetime
      (some (encodeArtifactCursor artifact .filename direction)) .filename direction =
        .ok (some (.str artifact.filename, artifact.artifactId)) := by
  have hbound : decodeBoundCursor (encodeArtifactCursor artifact .filename direction)
      "artifact".toList ArtifactSortField.filename.value direction =
        .ok (.str artifact.filename, .str artifact.artifactId) :=
    decodeBoundCursor_encode _ _ _ _ _
  simp only [decodeArtifactCursor]
  rw [hbound]
  simp [bind, Except.bind, decodeArtifactValue, validateIdentifier_str artifact.id_valid]

theorem workerCursor_decodes (worker : ListedWorker) (direction : SortDirection) :
    decodeWorkerCursor validateDatetime
      (some (encodeWorkerCursor worker .name direction)) .name direction =
        .ok (some (.str worker.name, worker.workerId)) := by
  have hpayload : decodePayload (encodeWorkerCursor worker .name direction) =
      some [.str WorkerSortField.name.value, .str direction.value, .str worker.name,
        .str worker.workerId] :=
    decodePayload_encodePayload _
  simp [decodeWorkerCursor, hpayload, decodeWorkerValue, validateIdentifier_str worker.id_valid]

/-- For every artifact and worker: the cursor by its name is usable exactly when the name as
JSON text, where a character beyond ASCII takes six or twelve characters, and the identifier
leave room for the rest of the cursor. -/
theorem string_cursors_usable_iff :
    (∀ artifact direction, ArtifactCursorUsable validateDatetime artifact direction ↔
        (escapeText artifact.filename).length + artifact.artifactId.length +
          direction.value.length ≤ 736) ∧
      ∀ worker direction, WorkerCursorUsable validateDatetime worker direction ↔
        (escapeText worker.name).length + worker.workerId.length +
          direction.value.length ≤ 751 := by
  have hdirection : ∀ direction : SortDirection,
      escapeText direction.value = direction.value := by
    intro direction
    cases direction <;> exact escapeText_of_isPlain (by decide)
  constructor
  · intro artifact direction
    have hid := escapeText_of_isIdentifier (by decide) artifact.id_valid
    have hresource : escapeText "artifact".toList = "artifact".toList :=
      escapeText_of_isPlain (by decide)
    have hfield : escapeText ArtifactSortField.filename.value = "filename".toList :=
      escapeText_of_isPlain (by decide)
    have haccepted : CursorAccepted (encodeArtifactCursor artifact .filename direction) ↔
        (escapeText artifact.filename).length + artifact.artifactId.length +
          direction.value.length ≤ 736 := by
      rw [encodeArtifactCursor, encodeBoundCursor, cursorAccepted_encodePayload,
        length_dumps (by simp)]
      simp only [List.map_cons, List.map_nil, List.sum_cons, List.sum_nil, List.length_cons,
        List.length_nil, length_write_str, ListedArtifact.sortValue, SortValue.serialized,
        hdirection, hid, hresource, hfield]
      have h1 : "artifact".toList.length = 8 := rfl
      have h2 : "filename".toList.length = 8 := rfl
      omega
    rw [← haccepted]
    exact ⟨fun h => h.accepted, fun h => ⟨h, artifactCursor_decodes validateDatetime _ _⟩⟩
  · intro worker direction
    have hid := escapeText_of_isIdentifier (by decide) worker.id_valid
    have hfield : escapeText WorkerSortField.name.value = "name".toList :=
      escapeText_of_isPlain (by decide)
    have haccepted : CursorAccepted (encodeWorkerCursor worker .name direction) ↔
        (escapeText worker.name).length + worker.workerId.length +
          direction.value.length ≤ 751 := by
      rw [encodeWorkerCursor, cursorAccepted_encodePayload, length_dumps (by simp)]
      simp only [List.map_cons, List.map_nil, List.sum_cons, List.sum_nil, List.length_cons,
        List.length_nil, length_write_str, ListedWorker.sortValue, SortValue.serialized,
        hdirection, hid, hfield]
      have h1 : "name".toList.length = 4 := rfl
      omega
    rw [← haccepted]
    exact ⟨fun h => h.accepted, fun h => ⟨h, workerCursor_decodes validateDatetime _ _⟩⟩

end

/-- An artifact with 116 ideographs for its filename. -/
def ideographArtifact : ListedArtifact where
  artifactId := "artifact_0123456789abcdef0123456789abcdef".toList
  filename := List.replicate 116 '文'
  sizeBytes := 1
  createdAt := { year := 2026, month := 7, day := 24, hour := 12, minute := 0, second := 0,
                 microsecond := 0 }
  id_valid := by decide +kernel
  uploaded := ⟨some (List.replicate 116 '文'), by decide +kernel⟩

/-- Its cursor is too long to be given out. -/
theorem ideograph_cursor_unusable :
    ¬ ∃ validateDatetime, ∀ artifact direction,
      ArtifactCursorUsable validateDatetime artifact direction := by
  rintro ⟨validateDatetime, h⟩
  have haccepted := (h ideographArtifact .asc).accepted
  rw [encodeArtifactCursor, encodeBoundCursor, cursorAccepted_encodePayload] at haccepted
  exact absurd haccepted (by decide +kernel)

end ParserServe
