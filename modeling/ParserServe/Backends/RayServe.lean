import ParserServe.Foundation.Attempt
import ParserServe.Schema.Remote

/-! # The model server

`ray_serve/gateway.py`: the ingress that reads a request of the remote protocol and the gateway
that checks it before the model runs.
-/

namespace ParserServe

open Foundation

/-- What becomes of a call of the model, with the answer as `TypeAdapter` reads it. -/
inductive HandlerOutcome
  | returned (response : RemoteParseResponse)
  | timedOut
  | invalid
  | raised
  deriving DecidableEq

/-- `_failure`. -/
def gatewayFailure (code : ErrorCode) (message : String) (retryable : Bool := false) :
    RemoteParseResponse :=
  .failed { code := code, message := message, retryable := retryable }

structure RemoteProtocolGateway where
  handler : RemoteParseRequest → Option Bytes → HandlerOutcome
  maximumFileBytes : Nat
  maximum_pos : 1 ≤ maximumFileBytes

/-- `_validate_file`. -/
def RemoteProtocolGateway.validateFile (self : RemoteProtocolGateway)
    (request : RemoteParseRequest) (fileContent : Option Bytes) :
    Except RemoteParseResponse Unit :=
  match request.sourceFile, fileContent with
  | none, none => .ok ()
  | none, some _ =>
      .error (gatewayFailure .validationError "text requests cannot include a file")
  | some _, none =>
      .error (gatewayFailure .validationError "file request is missing multipart content")
  | some metadata, some content => do
      ensure (content.length ≤ self.maximumFileBytes)
        (gatewayFailure .fileTooLarge "source file exceeds the Ray Serve gateway limit")
      ensure (content.length = metadata.sizeBytes)
        (gatewayFailure .validationError "source file size does not match its metadata")
      ensure ((⟨content⟩ : Digest Bytes) = metadata.sha256)
        (gatewayFailure .validationError "source file digest does not match its metadata")

/-- What the gateway makes of the model's answer. -/
def gatewayAnswer (request : RemoteParseRequest) : HandlerOutcome → RemoteParseResponse
  | .timedOut => gatewayFailure .timeout "model execution timed out" true
  | .invalid => gatewayFailure .internalError "model returned an invalid protocol response"
  | .raised => gatewayFailure .internalError "model execution failed"
  | .returned (.failed error) => .failed error
  | .returned (.succeeded result artifacts) =>
      if result.taskId ≠ request.taskId then
        gatewayFailure .internalError "model result belongs to a different task"
      else if result.source ≠ request.source then
        gatewayFailure .internalError "model changed immutable source metadata"
      else .succeeded result artifacts

/-- What the model is called with, or why it is not called. -/
def RemoteProtocolGateway.openRequest (self : RemoteProtocolGateway) (wire : RemoteWire)
    (requestJson : Bytes) (fileContent : Option Bytes) :
    Except RemoteParseResponse RemoteParseRequest :=
  match wire.readRequest requestJson with
  | none => .error
      (gatewayFailure .validationError "request does not match Remote Backend protocol 1.0")
  | some request => do
      self.validateFile request fileContent
      return request

/-- `parse`. -/
def RemoteProtocolGateway.parse (self : RemoteProtocolGateway) (wire : RemoteWire)
    (requestJson : Bytes) (fileContent : Option Bytes) : RemoteParseResponse :=
  match self.openRequest wire requestJson fileContent with
  | .error response => response
  | .ok request => gatewayAnswer request (self.handler request fileContent)

/-! ## The ingress -/

/-- A request as it arrives: `contentLength` is what `int` makes of the header, and the body may
break off after the chunks. -/
structure IngressRequest where
  authorization : Option String := none
  contentLength : Option (Option Int) := none
  chunks : List Bytes := []
  broken : Bool := false

structure RemoteIngress where
  expectedToken : Option String
  gateway : RemoteProtocolGateway

inductive IngressError
  | fileTooLarge
  | other
  deriving DecidableEq

/-- The loop of `_read_request_body`. -/
def spoolBody (maximumBytes : Nat) (broken : Bool) : Bytes → List Bytes → Except IngressError Bytes
  | body, [] => if broken then .error .other else .ok body
  | body, chunk :: chunks => do
      ensure (body.length + chunk.length ≤ maximumBytes) .fileTooLarge
      spoolBody maximumBytes broken (body ++ chunk) chunks

/-- `_read_request_body`. -/
def readRequestBody (request : IngressRequest) (maximumBytes : Nat) : Except IngressError Bytes :=
  match request.contentLength with
  | none => spoolBody maximumBytes request.broken [] request.chunks
  | some none => .error .other
  | some (some declared) => do
      ensure (0 ≤ declared) .other
      ensure (declared ≤ maximumBytes) .fileTooLarge
      spoolBody maximumBytes request.broken [] request.chunks

def RemoteIngress.maximumRequestBytes (self : RemoteIngress) : Nat :=
  self.gateway.maximumFileBytes + maximumMultipartMetadataBytes + multipartFramingAllowanceBytes

/-- The form of a request: the text of its message, and the file as `_read_upload` returns it. -/
def RemoteIngress.form (self : RemoteIngress) (wire : RemoteWire) (request : IngressRequest) :
    Except IngressError (Bytes × Option Bytes) := do
  let body ← readRequestBody request self.maximumRequestBytes
  match wire.readForm body with
  | none | some (none, _) => .error .other
  | some (some requestJson, upload) => do
      ensure (∀ content ∈ upload, content.length ≤ self.gateway.maximumFileBytes) .fileTooLarge
      return (requestJson, upload)

/-- The token that a request carries. -/
def suppliedToken (authorization : Option String) : String :=
  let header := (authorization.getD "").toList
  if "Bearer ".toList <+: header then String.ofList (header.drop 7) else ""

def isAscii (text : String) : Bool :=
  text.toList.all (·.toNat < 128)

/-- `hmac.compare_digest` of two texts. -/
def compareDigest (supplied expected : String) : Except String Bool :=
  if isAscii supplied ∧ isAscii expected then .ok (supplied = expected) else .error "TypeError"

/-- The request has the token that is asked for, if there is one. -/
def RemoteIngress.admits (self : RemoteIngress) (request : IngressRequest) : Except String Bool :=
  match self.expectedToken with
  | none => .ok true
  | some expected => compareDigest (suppliedToken request.authorization) expected

def RemoteParseResponse.retryable : RemoteParseResponse → Bool
  | .failed error => error.retryable
  | .succeeded _ _ => false

def RemoteParseResponse.statusCode (response : RemoteParseResponse) : Nat :=
  if response.retryable then 503 else 200

/-- The answer to a request that is admitted. -/
def RemoteIngress.respond (self : RemoteIngress) (wire : RemoteWire) (request : IngressRequest) :
    RemoteParseResponse :=
  match self.form wire request with
  | .error .fileTooLarge =>
      gatewayFailure .fileTooLarge "source file exceeds the Ray Serve gateway limit"
  | .error .other => gatewayFailure .validationError "multipart request is invalid"
  | .ok (requestJson, fileContent) => self.gateway.parse wire requestJson fileContent

/-- `__call__`: the status code and the answer, or the exception that leaves it. -/
def RemoteIngress.call (self : RemoteIngress) (wire : RemoteWire) (request : IngressRequest) :
    Except String (Nat × RemoteParseResponse) := do
  if ← self.admits request then
    let response := self.respond wire request
    return (response.statusCode, response)
  else
    return (401, gatewayFailure .authenticationFailed "authentication failed")

end ParserServe
