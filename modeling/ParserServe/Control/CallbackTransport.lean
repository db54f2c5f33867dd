import ParserServe.Control.Callbacks
import ParserServe.Worker.UrlSource

/-! # Sending a callback

`HttpCallbackTransport.deliver` of `control/callbacks.py`, and what `CallbackDispatcher.run_once`
makes of its result before it reports.  DNS and the target are parameters: a target answers in any
way, and a request takes any time.
-/

namespace ParserServe

open Foundation

/-! ## The target URL -/

def Network.callbackAddresses (network : Network) (turn : Nat) (url : HttpUrl) :
    Except String (List String) :=
  match network.ipAddress url.host with
  | some literal => .ok [literal.text]
  | none =>
      match network.resolver turn url.host url.effectivePort with
      | none => .error "callback hostname could not be resolved"
      | some addresses => .ok addresses

def Network.requireGlobal (network : Network) : List String → Except String Unit
  | [] => .ok ()
  | address :: rest =>
      match network.ipAddress address with
      | none => .error "callback hostname resolved to an invalid address"
      | some parsed => do
          ensure parsed.isGlobal ("callback target address is not public: " ++ parsed.text)
          network.requireGlobal rest

/-- `validate_callback_url`; the scheme of an `HttpUrl` is one of the two, and it has a host. -/
def validateCallbackUrl (network : Network) (turn : Nat) (url : HttpUrl) :
    Except String Unit := do
  ensure (url.username = none ∧ url.password = none)
    "callback URL must not include credentials"
  ensure (¬ isLocalhost url.host) "localhost callback targets are forbidden"
  let addresses ← network.callbackAddresses turn url
  ensure (addresses ≠ []) "callback hostname has no addresses"
  network.requireGlobal addresses

/-! ## The request -/

/-- A response as the client reads it: after the chunks the body ends or the transfer breaks
off. -/
structure TargetResponse where
  statusCode : Nat
  chunks : List Bytes := []
  failure : Option TransportError := none

structure CallbackHttpResult where
  delivered : Bool
  statusCode : Option Nat
  durationMs : Nat
  responseSummary : Option String
  error : Option ErrorDetail

structure HttpCallbackTransport where
  timeoutSeconds : ℚ
  maximumResponseBytes : Nat
  network : Network

/-- The loop over the chunks, which stops at the first one after the limit is reached. -/
def HttpCallbackTransport.collect (self : HttpCallbackTransport)
    (failure : Option TransportError) : Bytes → List Bytes → Except TransportError Bytes
  | collected, [] =>
      match failure with
      | none => .ok collected
      | some error => .error error
  | collected, chunk :: chunks =>
      let remaining := self.maximumResponseBytes - collected.length
      if remaining = 0 then .ok collected
      else self.collect failure (collected ++ chunk.take remaining) chunks

/-- `_failure`. -/
def callbackFailure (durationMs : Nat) (code : ErrorCode) (message : String) (retryable : Bool) :
    CallbackHttpResult where
  delivered := false
  statusCode := none
  durationMs := durationMs
  responseSummary := some message
  error := some { code := code, message := message, retryable := retryable }

/-- The handlers of `deliver` for errors of the HTTP client. -/
def TransportError.callbackFailure (durationMs : Nat) : TransportError → CallbackHttpResult
  | .timeout =>
      ParserServe.callbackFailure durationMs .timeout "Callback request timed out" true
  | .other =>
      ParserServe.callbackFailure durationMs .dependencyUnavailable "Callback request failed" true

/-- `HttpCallbackTransport.deliver`; `answer` is what the client gets for the request. -/
def HttpCallbackTransport.deliver (self : HttpCallbackTransport) (turn : Nat) (url : HttpUrl)
    (answer : Except TransportError TargetResponse) (durationMs : Nat) : CallbackHttpResult :=
  match validateCallbackUrl self.network turn url with
  | .error message => callbackFailure durationMs .validationError message false
  | .ok () =>
      match answer with
      | .error error => error.callbackFailure durationMs
      | .ok response =>
          match self.collect response.failure [] response.chunks with
          | .error error => error.callbackFailure durationMs
          | .ok collected =>
              let summary := decodeUtf8Replace collected
              let delivered := decide (200 ≤ response.statusCode ∧ response.statusCode < 300)
              { delivered := delivered
                statusCode := some response.statusCode
                durationMs := durationMs
                responseSummary := if summary = [] then none else some (String.ofList summary)
                error :=
                  if delivered then none
                  else some
                    { code := .dependencyUnavailable
                      message := "Callback target returned HTTP " ++ toString response.statusCode
                      retryable := true } }

/-! ## The report -/

/-- The result of a delivery whose task has no callback configuration any more. -/
def missingConfiguration : CallbackHttpResult where
  delivered := false
  statusCode := none
  durationMs := 0
  responseSummary := some "Callback configuration no longer exists"
  error := some { code := .notFound, message := "Callback configuration no longer exists" }

def HttpCallbackTransport.send (self : HttpCallbackTransport) (config : Option CallbackConfig)
    (turn : Nat) (url : HttpUrl) (answer : Except TransportError TargetResponse)
    (durationMs : Nat) : CallbackHttpResult :=
  match config with
  | none => missingConfiguration
  | some _ => self.deliver turn url answer durationMs

/-- `result_error`. -/
def CallbackHttpResult.resultError (result : CallbackHttpResult) : Option ErrorDetail :=
  match result.error with
  | some error => some error
  | none =>
      if result.delivered then none
      else some { code := .dependencyUnavailable, message := "Callback delivery failed" }

/-- The arguments of `record_result`. -/
def CallbackHttpResult.report (result : CallbackHttpResult) : CallbackResult where
  delivered := result.delivered
  retryable := result.resultError.any (·.retryable)
  responseStatusCode := result.statusCode
  responseSummary := result.responseSummary
  durationMs := result.durationMs
  error := result.resultError

end ParserServe
