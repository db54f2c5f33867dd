import ParserServe.Foundation.Lower
import ParserServe.Schema.Remote
import ParserServe.Worker.Agent
import ParserServe.Worker.UrlSource

/-! # The remote backend

`RemoteHttpBackend` of `backends/remote.py`: a lease is executed by a server behind HTTP.  The
network is a parameter and may answer anything.
-/

namespace ParserServe

open Foundation

inductive RemoteAuthentication
  | none
  | bearer (token : String)
  | xApiKey (token : String)
  deriving DecidableEq

structure RemoteBackendConfig where
  name : String
  version : String := "1.0"
  authentication : RemoteAuthentication := .none
  maximumResponseBytes : Nat := 64 * 1024 * 1024
  maximumArtifacts : Nat := 100
  maximumArtifactBytes : Nat := 32 * 1024 * 1024

/-- What a lease is executed on: a text, or a file in the work directory. -/
inductive WorkSource
  | text (text : String)
  | file (name : String) (content : Bytes)

/-- A request as it is sent. -/
structure RemotePost where
  authorization : Option String := none
  apiKey : Option String := none
  body : Bytes

/-- An answer as the client reads it: `contentLength` is what `int` makes of the header, and after
the chunks the body ends or the transfer breaks off. -/
structure RemoteAnswer where
  statusCode : Nat
  contentLength : Option (Option Int) := none
  contentType : String := ""
  chunks : List Bytes := []
  failure : Option TransportError := none

abbrev RemoteTransport := RemotePost → Except TransportError RemoteAnswer

structure RemoteOutput where
  result : RemoteResult
  attachments : List RemoteArtifactPayload
  deriving DecidableEq

def remoteError (message : String) (retryable : Bool := false) : WorkError :=
  .backendExecution message retryable

/-! ## The request -/

/-- `_request`. -/
def RemoteBackendConfig.request (config : RemoteBackendConfig) (lease : LeasedStage)
    (guessType : String → Option Mime) : WorkSource → RemoteParseRequest
  | .text text =>
      { taskId := lease.taskId
        stageId := lease.stageId
        backendName := config.name
        backendVersion := config.version
        runtime := lease.runtime
        deviceId := some lease.deviceId
        source := lease.sourceMetadata
        sourceText := some text
        sourceFile := none
        parameters := lease.parameters
        timeoutSeconds := lease.timeoutSeconds
        payload_valid := rfl }
  | .file name content =>
      { taskId := lease.taskId
        stageId := lease.stageId
        backendName := config.name
        backendVersion := config.version
        runtime := lease.runtime
        deviceId := some lease.deviceId
        source := lease.sourceMetadata
        sourceText := none
        sourceFile := some
          { filename := name
            mimeType := (guessType name).getD lease.sourceMetadata.mimeType
            sizeBytes := content.length
            sha256 := ⟨content⟩ }
        parameters := lease.parameters
        timeoutSeconds := lease.timeoutSeconds
        payload_valid := rfl }

def WorkSource.file? : WorkSource → Option Bytes
  | .text _ => none
  | .file _ content => some content

/-- The headers and the form that `_send` posts. -/
def RemoteBackendConfig.post (config : RemoteBackendConfig) (wire : RemoteWire)
    (request : RemoteParseRequest) (source : WorkSource) : RemotePost where
  authorization := match config.authentication with
    | .bearer token => some ("Bearer " ++ token)
    | _ => none
  apiKey := match config.authentication with
    | .xApiKey token => some token
    | _ => none
  body := wire.writeForm (wire.writeRequest request) source.file?

/-! ## The answer -/

/-- `_RETRYABLE_STATUS_CODES`. -/
def retryableStatusCodes : List Nat := [408, 425, 429, 500, 502, 503, 504]

def TransportError.remoteError : TransportError → WorkError
  | .timeout => ParserServe.remoteError "remote Backend request timed out" true
  | .other => ParserServe.remoteError "remote Backend request failed" true

def responseSizeError : WorkError :=
  remoteError "remote Backend response exceeds the configured size limit"

/-- The loop over the chunks. -/
def RemoteBackendConfig.collect (config : RemoteBackendConfig) (failure : Option TransportError) :
    Bytes → List Bytes → Except WorkError Bytes
  | body, [] =>
      match failure with
      | none => .ok body
      | some error => .error error.remoteError
  | body, chunk :: chunks => do
      ensure ((body ++ chunk).length ≤ config.maximumResponseBytes) responseSizeError
      config.collect failure (body ++ chunk) chunks

/-- `_read_response`. -/
def RemoteBackendConfig.readResponse (config : RemoteBackendConfig) (answer : RemoteAnswer) :
    Except WorkError Bytes :=
  match answer.contentLength with
  | none => config.collect answer.failure [] answer.chunks
  | some none => .error (remoteError "remote Backend returned an invalid Content-Length")
  | some (some declared) => do
      ensure (declared ≤ config.maximumResponseBytes) responseSizeError
      config.collect answer.failure [] answer.chunks

/-- The header `Content-Type` without parameters, stripped and in small letters; no sigma is in
the types it is compared with, so where one ends a word makes no difference. -/
def RemoteAnswer.mediaType (answer : RemoteAnswer) : List Char :=
  lower (fun _ _ => false) (strip (answer.contentType.toList.takeWhile (· ≠ ';')))

def jsonTypes : List (List Char) :=
  ["application/json", "application/problem+json"].map String.toList

/-- The end of `_send`, once the body is read. -/
def RemoteAnswer.interpret (answer : RemoteAnswer) (wire : RemoteWire) (body : Bytes) :
    Except WorkError RemoteParseResponse :=
  let retryable := decide (answer.statusCode ∈ retryableStatusCodes)
  if answer.mediaType ∉ jsonTypes then
    .error (remoteError "remote Backend returned a non-JSON response" retryable)
  else match wire.readResponse body with
    | none => .error
        (remoteError "remote Backend response does not match protocol version 1.0" retryable)
    | some parsed =>
        if 200 ≤ answer.statusCode ∧ answer.statusCode < 300 then .ok parsed
        else match parsed with
          | .failed error => .error (remoteError error.message (retryable || error.retryable))
          | .succeeded _ _ => .error
              (remoteError ("remote Backend returned HTTP " ++ toString answer.statusCode)
                retryable)

/-- `_send`. -/
def RemoteBackendConfig.send (config : RemoteBackendConfig) (wire : RemoteWire)
    (transport : RemoteTransport) (post : RemotePost) : Except WorkError RemoteParseResponse :=
  match transport post with
  | .error error => .error error.remoteError
  | .ok answer => do
      let body ← config.readResponse answer
      answer.interpret wire body

/-! ## The result -/

def ResultBlock.referencesArtifact : ResultBlock → Bool
  | .image _ | .keyframe _ => true
  | .other _ => false

/-- `_validate_result`. -/
def validateResult (lease : LeasedStage) (result : RemoteResult) : Except WorkError Unit := do
  ensure (result.taskId = lease.taskId)
    (remoteError "remote Backend result belongs to a different task")
  ensure (result.source = lease.sourceMetadata)
    (remoteError "remote Backend changed the immutable source metadata")
  ensure (result.artifacts = [])
    (remoteError "remote Backend result must not contain server-owned Artifact records")
  ensure (∀ block ∈ result.blocks, block.referencesArtifact = false)
    (remoteError "remote Backend result cannot reference unassigned Artifact IDs")

/-- `PurePath(filename).name == filename`, and the name is not empty. -/
def plainFilename (filename : String) : Bool :=
  filename ≠ "" && filename ≠ "." && !filename.toList.contains '/'

/-- The loop over the artifacts. -/
def RemoteBackendConfig.attach (config : RemoteBackendConfig) :
    Nat → List RemoteArtifactPayload → Except WorkError Unit
  | _, [] => .ok ()
  | total, artifact :: artifacts => do
      ensure (artifact.content.length ≤ config.maximumArtifactBytes)
        (remoteError "remote Backend artifact exceeds the configured size limit")
      ensure (total + artifact.content.length ≤ config.maximumResponseBytes)
        (remoteError "remote Backend artifacts exceed the configured total size limit")
      ensure (plainFilename artifact.filename) (.other "ValueError")
      config.attach (total + artifact.content.length) artifacts

/-- `execute`, once a response of the protocol has been read. -/
def RemoteBackendConfig.finish (config : RemoteBackendConfig) (lease : LeasedStage) :
    RemoteParseResponse → Except WorkError RemoteOutput
  | .failed error => .error (remoteError error.message error.retryable)
  | .succeeded result artifacts => do
      validateResult lease result
      ensure (artifacts.length ≤ config.maximumArtifacts)
        (remoteError "remote Backend returned too many artifacts")
      config.attach 0 artifacts
      return { result := result, attachments := artifacts }

/-- `execute`. -/
def RemoteBackendConfig.execute (config : RemoteBackendConfig) (wire : RemoteWire)
    (transport : RemoteTransport) (guessType : String → Option Mime) (lease : LeasedStage)
    (source : WorkSource) : Except WorkError RemoteOutput := do
  let request := config.request lease guessType source
  let response ← config.send wire transport (config.post wire request source)
  config.finish lease response

end ParserServe
