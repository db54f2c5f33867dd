import ParserServe.Security.Content
import ParserServe.Worker.Agent

/-! # URL sources

`worker/url_fetcher.py`, with the two places that name the file of a URL source: the branch of
`_source_metadata` for URLs at creation, and that of `WorkerAgent._resolve_source` on the worker.
DNS, the addresses and the servers are parameters: a server answers each request of a fetch in
any way.
-/

namespace ParserServe

open Foundation

inductive HttpScheme
  | http | https
  deriving DecidableEq

/-- A valid `HttpUrl` with its text and the parts that `urlsplit` finds in it. -/
structure HttpUrl where
  text : String
  scheme : HttpScheme
  username : Option String := none
  password : Option String := none
  host : String
  port : Option Nat := none
  path : String := "/"
  deriving DecidableEq

/-! ## Names -/

/-- `_source_metadata` of a URL; `none` when the name is blank and the metadata invalid. -/
def urlSourceMetadata (url : HttpUrl) : Option SourceMetadata :=
  let name := pureName (unquote url.path)
  (nonEmptyStr (if name = "" then "index.html" else name)).map fun filename =>
    { filename := some filename
      mimeType := ⟨"text", "html"⟩
      mediaCategory := .web
      attributes := "\x7b\"source_url\": \"" ++ url.text ++ "\"\x7d" }

/-- The name of the destination in `_resolve_source`. -/
def urlDestinationName (metadata : SourceMetadata) : String :=
  let filename := metadata.filename.getD "index.html"
  let name := pureName (String.ofList (filename.toList.map fun c => if c = '\\' then '/' else c))
  if name = "" ∨ name = "." ∨ name = ".." then "index.html" else name

/-! ## Addresses -/

/-- `ipaddress.ip_address` of a text. -/
structure IpAddress where
  text : String
  isGlobal : Bool

/-- What `ipaddress` reads in a text, where `none` is a `ValueError`, and what the resolver
answers for a host and a port in each turn, where `none` is an `OSError`. -/
structure Network where
  ipAddress : String → Option IpAddress
  resolver : Nat → String → Nat → Option (List String)

inductive FetchError
  | backend (message : String) (retryable : Bool)
  | invalidUrl
  | fileSystem
  | invalidLimits
  | assertion
  deriving DecidableEq

def HttpUrl.effectivePort (url : HttpUrl) : Nat :=
  match url.port with
  | none | some 0 => if url.scheme = .https then 443 else 80
  | some port => port

/-- `host.casefold().rstrip(".") == "localhost"`. -/
def isLocalhost (host : String) : Bool :=
  ((casefold host.toList).reverse.dropWhile (· = '.')).reverse = "localhost".toList

def Network.addresses (network : Network) (turn : Nat) (url : HttpUrl) :
    Except FetchError (List String) :=
  match network.ipAddress url.host with
  | some address => .ok [address.text]
  | none =>
      match network.resolver turn url.host url.effectivePort with
      | none => .error (.backend "URL Source hostname could not be resolved" true)
      | some addresses => .ok addresses

def Network.requirePublic (network : Network) : List String → Except FetchError Unit
  | [] => .ok ()
  | address :: rest =>
      match network.ipAddress address with
      | none => .error (.backend "URL Source resolved to an invalid address" false)
      | some parsed => do
          ensure parsed.isGlobal
            (.backend ("URL Source resolved to a non-public address: " ++ parsed.text) false)
          network.requirePublic rest

/-- `validate_source_url`; the scheme of an `HttpUrl` is one of the two. -/
def validateSourceUrl (network : Network) (turn : Nat) (url : HttpUrl) :
    Except FetchError Unit := do
  ensure (url.username = none ∧ url.password = none)
    (.backend "URL Source must not contain credentials" false)
  ensure (¬ isLocalhost url.host) (.backend "URL Source hostname is forbidden" false)
  let addresses ← network.addresses turn url
  ensure (addresses ≠ []) (.backend "URL Source hostname has no addresses" false)
  network.requirePublic addresses

/-! ## Responses -/

inductive TransportError
  | timeout
  | other
  deriving DecidableEq

/-- The handlers of `fetch_url_source` for errors of the HTTP client. -/
def TransportError.fetchError : TransportError → FetchError
  | .timeout => .backend "URL Source download timed out" true
  | .other => .backend "URL Source download failed" true

/-- A response as the client reads it: `location` is what `urljoin` and `HttpUrl` make of the
header, and `contentLength` what `int` makes of it; the inner `none` is a `ValueError`.  After the
chunks the body ends or the transfer breaks off. -/
structure UrlResponse where
  statusCode : Nat
  location : Option (Option HttpUrl) := none
  contentType : String := ""
  contentLength : Option (Option Int) := none
  chunks : List Bytes := []
  failure : Option TransportError := none

def redirectCodes : List Nat := [301, 302, 303, 307, 308]

def allowedContentTypes : List String := ["application/xhtml+xml", "text/html", "text/plain"]

/-- The header `Content-Type` without parameters, stripped and folded. -/
def UrlResponse.mediaType (response : UrlResponse) : String :=
  String.ofList (casefold (mimeEssence response.contentType.toList))

structure UrlFetcher where
  maximumBytes : Nat
  timeoutSeconds : ℚ
  maximumRedirects : Nat
  network : Network
  server : Nat → HttpUrl → Except TransportError UrlResponse
  /-- Whether the file system can create a file with this name. -/
  opens : String → Bool

/-- The result, the destination file after the call, and the requests sent. -/
structure FetchOutcome where
  result : Except FetchError Unit
  file : Option Bytes
  requests : List HttpUrl

def sizeError : FetchError := .backend "URL Source exceeds the download size limit" false

/-- The loop over the chunks. -/
def UrlFetcher.receive (self : UrlFetcher) (failure : Option TransportError) :
    Bytes → List Bytes → Except FetchError Bytes
  | written, [] =>
      match failure with
      | none => .ok written
      | some error => .error error.fetchError
  | written, chunk :: chunks => do
      ensure (written.length + chunk.length ≤ self.maximumBytes) sizeError
      self.receive failure (written ++ chunk) chunks

def sampleBytes : Nat := 64 * 1024

/-- The body goes to the destination, which is removed when the transfer or the inspection
fails. -/
def UrlFetcher.store (self : UrlFetcher) (name : String) (response : UrlResponse) :
    Except FetchError Unit × Option Bytes :=
  if self.opens name then
    match self.receive response.failure [] response.chunks with
    | .error error => (.error error, none)
    | .ok body =>
        match inspectContent name response.mediaType (body.take sampleBytes) with
        | .error message => (.error (.backend message false), none)
        | .ok _ => (.ok (), some body)
  else (.error .fileSystem, none)

/-- The checks before the body is read. -/
def UrlFetcher.accept (self : UrlFetcher) (response : UrlResponse) : Except FetchError Unit := do
  ensure (200 ≤ response.statusCode ∧ response.statusCode < 300)
    (.backend ("URL Source returned HTTP " ++ toString response.statusCode)
      (500 ≤ response.statusCode))
  ensure (response.mediaType ∈ allowedContentTypes)
    (.backend ("URL Source content type is not supported: " ++
      if response.mediaType = "" then "missing" else response.mediaType) false)
  match response.contentLength with
  | none => .ok ()
  | some none => .error (.backend "URL Source Content-Length is invalid" false)
  | some (some declared) => ensure (declared ≤ self.maximumBytes) sizeError

/-- The turns of the loop, of which `turns` are left. -/
def UrlFetcher.loop (self : UrlFetcher) (name : String) :
    Nat → Nat → HttpUrl → List HttpUrl → FetchOutcome
  | 0, _, _, requests => ⟨.error .assertion, none, requests⟩
  | turns + 1, redirectCount, current, requests =>
      match validateSourceUrl self.network redirectCount current with
      | .error error => ⟨.error error, none, requests⟩
      | .ok () =>
          let requests := requests ++ [current]
          match self.server redirectCount current with
          | .error error => ⟨.error error.fetchError, none, requests⟩
          | .ok response =>
              if response.statusCode ∈ redirectCodes then
                match response.location with
                | none =>
                    ⟨.error (.backend "URL Source redirect has no Location" false), none, requests⟩
                | some location =>
                    if self.maximumRedirects ≤ redirectCount then
                      ⟨.error (.backend "URL Source exceeded the redirect limit" false), none,
                        requests⟩
                    else match location with
                      | none => ⟨.error .invalidUrl, none, requests⟩
                      | some redirected =>
                          if current.scheme = .https ∧ redirected.scheme = .http then
                            ⟨.error (.backend "URL Source cannot redirect from HTTPS to HTTP"
                              false), none, requests⟩
                          else self.loop name turns (redirectCount + 1) redirected requests
              else
                match self.accept response with
                | .error error => ⟨.error error, none, requests⟩
                | .ok () =>
                    let (result, file) := self.store name response
                    ⟨result, file, requests⟩

/-- `fetch_url_source` to a destination with this name that does not exist yet. -/
def UrlFetcher.fetch (self : UrlFetcher) (url : HttpUrl) (name : String) : FetchOutcome :=
  if self.maximumBytes < 1 ∨ self.timeoutSeconds ≤ 0 then ⟨.error .invalidLimits, none, []⟩
  else self.loop name (self.maximumRedirects + 1) 0 url []

/-- `_resolve_source` of a URL source. -/
def UrlFetcher.resolveSource (self : UrlFetcher) (url : HttpUrl) (metadata : SourceMetadata) :
    FetchOutcome :=
  self.fetch url (urlDestinationName metadata)

end ParserServe
