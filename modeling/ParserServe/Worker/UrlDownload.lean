import ParserServe.Worker.UrlFetch

/-! # Downloading step by step

`fetch_url_source` with each effect in its place: the validation and the request of every turn
are logged, the destination is created, written chunk by chunk and removed, closing a response
that was not read to its end may fail, and an exception may have no handler.  Whatever the server
answers, the limits hold and a failed download leaves no file.  Where all errors are those of the
client, this is `UrlFetcher.fetch`.
-/

namespace ParserServe

open Foundation

/-! ## Effects -/

/-- The events carry the turn of the loop, for which the resolver is asked. -/
inductive FetchEvent
  | validated (turn : Nat) (url : HttpUrl)
  | requested (turn : Nat) (url : HttpUrl)
  deriving DecidableEq

/-- The destination file and what happened so far. -/
structure FetchState where
  file : Option Bytes
  events : List FetchEvent := []

def FetchState.log (state : FetchState) (event : FetchEvent) : FetchState :=
  { state with events := state.events ++ [event] }

/-- `destination.open("wb")`. -/
def FetchState.create (state : FetchState) : FetchState := { state with file := some [] }

def FetchState.write (state : FetchState) (chunk : Bytes) : FetchState :=
  { state with file := state.file.map (· ++ chunk) }

/-- `destination.unlink(missing_ok=True)`. -/
def FetchState.unlink (state : FetchState) : FetchState := { state with file := none }

/-- An error of the client, or an exception that `fetch_url_source` has no handler for. -/
inductive TransferError
  | client (error : TransportError)
  | other

inductive DownloadError
  | fetch (error : FetchError)
  | unhandled

def TransferError.raised : TransferError → DownloadError
  | .client error => .fetch error.fetchError
  | .other => .unhandled

/-- A response whose transfer may also be interrupted by an exception without a handler;
`closing` is raised when it is closed before its end. -/
structure StreamedResponse extends UrlResponse where
  interrupted : Bool := false
  closing : Option TransferError := none

/-- What is raised after the chunks. -/
def StreamedResponse.ending (response : StreamedResponse) : Option TransferError :=
  if response.interrupted then some .other else response.failure.map .client

/-- The error that leaves the block of a response that was not read to its end. -/
def StreamedResponse.leaving (response : StreamedResponse) (error : DownloadError) :
    DownloadError :=
  match response.closing with
  | none => error
  | some closing => closing.raised

/-! ## The download -/

structure UrlDownloader where
  maximumBytes : Nat
  timeoutSeconds : ℚ
  maximumRedirects : Nat
  network : Network
  server : Nat → HttpUrl → Except TransferError StreamedResponse
  /-- Whether the resolver raises an exception other than `OSError`. -/
  resolverRaises : Nat → String → Nat → Bool
  opens : String → Bool

/-- The fetcher that meets only errors of the client. -/
def UrlDownloader.fetcher (self : UrlDownloader) : UrlFetcher where
  maximumBytes := self.maximumBytes
  timeoutSeconds := self.timeoutSeconds
  maximumRedirects := self.maximumRedirects
  network := self.network
  server := fun turn url =>
    match self.server turn url with
    | .ok response => .ok response.toUrlResponse
    | .error (.client error) => .error error
    | .error .other => .error .other
  opens := self.opens

/-- The loop over the chunks, after `size` bytes. -/
def UrlDownloader.receive (self : UrlDownloader) (ending : Option TransferError) :
    Nat → List Bytes → FetchState → Except DownloadError Unit × FetchState
  | _, [], state =>
      match ending with
      | none => (.ok (), state)
      | some error => (.error error.raised, state)
  | size, chunk :: chunks, state =>
      if self.maximumBytes < size + chunk.length then (.error (.fetch sizeError), state)
      else self.receive ending (size + chunk.length) chunks (state.write chunk)

/-- The part from the opening of the destination on. -/
def UrlDownloader.save (self : UrlDownloader) (name : String) (response : StreamedResponse)
    (state : FetchState) : Except DownloadError Unit × FetchState :=
  if self.opens name then
    match self.receive response.ending 0 response.chunks state.create with
    | (.error error, state) => (.error (response.leaving error), state.unlink)
    | (.ok (), state) =>
        let sample := (state.file.getD []).take sampleBytes
        match inspectContent name response.mediaType sample with
        | .error message => (.error (.fetch (.backend message false)), state.unlink)
        | .ok _ => (.ok (), state)
  else (.error (response.leaving (.fetch .fileSystem)), state)

/-- `validate_source_url` comes to the call of the resolver. -/
def Network.Resolves (network : Network) (url : HttpUrl) : Prop :=
  (url.username = none ∧ url.password = none) ∧ ¬ isLocalhost url.host ∧
    network.ipAddress url.host = none

instance (network : Network) (url : HttpUrl) : Decidable (network.Resolves url) := by
  unfold Network.Resolves
  infer_instance

def UrlDownloader.validate (self : UrlDownloader) (turn : Nat) (url : HttpUrl) :
    Except DownloadError Unit :=
  if self.network.Resolves url ∧ self.resolverRaises turn url.host url.effectivePort then
    .error .unhandled
  else (validateSourceUrl self.network turn url).mapError .fetch

/-- The branch for redirects. -/
def UrlDownloader.redirect (self : UrlDownloader) (redirectCount : Nat) (current : HttpUrl)
    (response : UrlResponse) : Except FetchError HttpUrl :=
  match response.location with
  | none => .error (.backend "URL Source redirect has no Location" false)
  | some location =>
      if self.maximumRedirects ≤ redirectCount then
        .error (.backend "URL Source exceeded the redirect limit" false)
      else match location with
        | none => .error .invalidUrl
        | some redirected =>
            if current.scheme = .https ∧ redirected.scheme = .http then
              .error (.backend "URL Source cannot redirect from HTTPS to HTTP" false)
            else .ok redirected

/-- The turns of the loop, of which `turns` are left. -/
def UrlDownloader.loop (self : UrlDownloader) (name : String) :
    Nat → Nat → HttpUrl → FetchState → Except DownloadError Unit × FetchState
  | 0, _, _, state => (.error (.fetch .assertion), state)
  | turns + 1, redirectCount, current, state =>
      match self.validate redirectCount current with
      | .error error => (.error error, state)
      | .ok () =>
          let state := (state.log (.validated redirectCount current)).log
            (.requested redirectCount current)
          match self.server redirectCount current with
          | .error error => (.error error.raised, state)
          | .ok response =>
              if response.statusCode ∈ redirectCodes then
                match self.redirect redirectCount current response.toUrlResponse with
                | .error error => (.error (response.leaving (.fetch error)), state)
                | .ok redirected =>
                    match response.closing with
                    | some closing => (.error closing.raised, state)
                    | none => self.loop name turns (redirectCount + 1) redirected state
              else
                match self.fetcher.accept response.toUrlResponse with
                | .error error => (.error (response.leaving (.fetch error)), state)
                | .ok () => self.save name response state

/-- `fetch_url_source`; `file` is what the destination holds before the call. -/
def UrlDownloader.download (self : UrlDownloader) (file : Option Bytes) (url : HttpUrl)
    (name : String) : Except DownloadError Unit × FetchState :=
  if self.maximumBytes < 1 ∨ self.timeoutSeconds ≤ 0 then
    (.error (.fetch .invalidLimits), { file := file })
  else self.loop name (self.maximumRedirects + 1) 0 url { file := file }

variable {self : UrlDownloader} {name : String} {response : StreamedResponse}
  {state : FetchState}

/-! ## Receiving -/

/-- The file grows by the chunks, and a transfer within the limit ends with all of them. -/
theorem receive_ok {ending : Option TransferError} {chunks : List Bytes} {size : Nat}
    {written : Bytes} {state' : FetchState} (hfile : state.file = some written)
    (hsize : size = written.length) (hle : size ≤ self.maximumBytes)
    (h : self.receive ending size chunks state = (.ok (), state')) :
    ending = none ∧ state'.file = some (written ++ chunks.flatten) ∧
      (written ++ chunks.flatten).length ≤ self.maximumBytes := by
  induction chunks generalizing size written state with
  | nil =>
      unfold UrlDownloader.receive at h
      cases ending with
      | none =>
          cases h
          simp [hfile, ← hsize, hle]
      | some _ => cases h
  | cons chunk chunks ih =>
      rw [UrlDownloader.receive] at h
      split at h
      · cases h
      · next hfits =>
          have hwritten : (state.write chunk).file = some (written ++ chunk) := by
            rw [FetchState.write, hfile]
            rfl
          obtain ⟨hending, hstate, hbound⟩ := ih hwritten
            (by rw [List.length_append, hsize]) (by omega) h
          rw [List.append_assoc, ← List.flatten_cons] at hstate hbound
          exact ⟨hending, hstate, hbound⟩

theorem receive_events {ending : Option TransferError} {chunks : List Bytes} {size : Nat} :
    (self.receive ending size chunks state).2.events = state.events := by
  induction chunks generalizing size state with
  | nil =>
      unfold UrlDownloader.receive
      cases ending <;> rfl
  | cons chunk chunks ih =>
      rw [UrlDownloader.receive]
      split
      · rfl
      · exact ih

/-! ## Errors -/

theorem raised_ne_assertion (error : TransferError) : error.raised ≠ .fetch .assertion := by
  cases error with
  | client error => cases error <;> simp [TransferError.raised, TransportError.fetchError]
  | other => simp [TransferError.raised]

theorem leaving_ne_assertion {error : DownloadError} (h : error ≠ .fetch .assertion) :
    response.leaving error ≠ .fetch .assertion := by
  unfold StreamedResponse.leaving
  split
  · exact h
  · exact raised_ne_assertion _

theorem requirePublic_error {network : Network} {addresses : List String} {error : FetchError}
    (h : network.requirePublic addresses = .error error) : error ≠ .assertion := by
  induction addresses with
  | nil => cases h
  | cons address rest ih =>
      rw [Network.requirePublic] at h
      split at h
      · cases h
        simp
      · rcases bind_eq_error.mp h with hraised | ⟨_, _, hrest⟩
        · simp [(ensure_eq_error.mp hraised).2.symm]
        · exact ih hrest

theorem addresses_error {network : Network} {turn : Nat} {url : HttpUrl} {error : FetchError}
    (h : network.addresses turn url = .error error) : error ≠ .assertion := by
  unfold Network.addresses at h
  split at h
  · cases h
  · split at h
    · cases h
      simp
    · cases h

theorem validateSourceUrl_error {network : Network} {turn : Nat} {url : HttpUrl}
    {error : FetchError} (h : validateSourceUrl network turn url = .error error) :
    error ≠ .assertion := by
  simp only [validateSourceUrl, bind_eq_error, ensure_eq_error] at h
  rcases h with ⟨_, rfl⟩ | ⟨_, _, ⟨_, rfl⟩ | ⟨_, _, haddresses | ⟨_, _, ⟨_, rfl⟩ | hpublic⟩⟩⟩
  · simp
  · simp
  · exact addresses_error haddresses
  · simp
  · obtain ⟨_, _, hpublic⟩ := hpublic
    exact requirePublic_error hpublic

theorem validate_error {turn : Nat} {url : HttpUrl} {error : DownloadError}
    (h : self.validate turn url = .error error) : error ≠ .fetch .assertion := by
  unfold UrlDownloader.validate at h
  split at h
  · cases h
    simp
  · cases hvalid : validateSourceUrl self.network turn url with
    | ok _ =>
        rw [hvalid] at h
        cases h
    | error raised =>
        rw [hvalid] at h
        cases h
        simpa using validateSourceUrl_error hvalid

theorem redirect_error {redirectCount : Nat} {current : HttpUrl} {response : UrlResponse}
    {error : FetchError} (h : self.redirect redirectCount current response = .error error) :
    error ≠ .assertion := by
  unfold UrlDownloader.redirect at h
  repeat' split at h
  all_goals cases h
  all_goals simp

theorem accept_error {fetcher : UrlFetcher} {response : UrlResponse} {error : FetchError}
    (h : fetcher.accept response = .error error) : error ≠ .assertion := by
  simp only [UrlFetcher.accept, bind_eq_error, ensure_eq_error] at h
  rcases h with ⟨_, rfl⟩ | ⟨_, _, ⟨_, rfl⟩ | ⟨_, _, hlength⟩⟩
  · simp
  · simp
  · split at hlength
    · cases hlength
    · cases hlength
      simp
    · rw [← (ensure_eq_error.mp hlength).2]
      simp [sizeError]

theorem receive_error {ending : Option TransferError} {chunks : List Bytes} {size : Nat}
    {error : DownloadError} {state' : FetchState}
    (h : self.receive ending size chunks state = (.error error, state')) :
    error ≠ .fetch .assertion := by
  induction chunks generalizing size state with
  | nil =>
      unfold UrlDownloader.receive at h
      cases ending with
      | none => cases h
      | some ending =>
          cases h
          exact raised_ne_assertion ending
  | cons chunk chunks ih =>
      rw [UrlDownloader.receive] at h
      split at h
      · cases h
        simp [sizeError]
      · exact ih h

/-! ## One turn -/

/-- How a download ends after its last request: a success leaves the body of that request in the
file, an error leaves no file and is not the assertion. -/
structure UrlDownloader.Ends (downloader : UrlDownloader) (last : Option (Nat × HttpUrl))
    (outcome : Except DownloadError Unit × FetchState) : Prop where
  success : outcome.1 = .ok () → ∃ turn url response, last = some (turn, url) ∧
    downloader.server turn url = .ok response ∧ response.ending = none ∧
      outcome.2.file = some response.chunks.flatten ∧
        response.chunks.flatten.length ≤ downloader.maximumBytes
  failure : ∀ error, outcome.1 = .error error →
    outcome.2.file = none ∧ error ≠ .fetch .assertion

theorem UrlDownloader.Ends.of_error {last : Option (Nat × HttpUrl)} {error : DownloadError}
    (hfile : state.file = none) (herror : error ≠ .fetch .assertion) :
    self.Ends last (.error error, state) where
  success h := by cases h
  failure _ h := by
    cases h
    exact ⟨hfile, herror⟩

theorem save_events : (self.save name response state).2.events = state.events := by
  have hreceived : (self.receive response.ending 0 response.chunks state.create).2.events =
      state.events := receive_events
  unfold UrlDownloader.save
  split
  · generalize hreceive : self.receive response.ending 0 response.chunks state.create = received
    rw [hreceive] at hreceived
    obtain ⟨_ | _, received⟩ := received
    · exact hreceived
    · dsimp only
      split
      · exact hreceived
      · exact hreceived
  · rfl

theorem save_ends {turn : Nat} {url : HttpUrl} (hserver : self.server turn url = .ok response)
    (hfile : state.file = none) : self.Ends (some (turn, url)) (self.save name response state) := by
  unfold UrlDownloader.save
  split
  · generalize hreceive : self.receive response.ending 0 response.chunks state.create = received
    obtain ⟨error | _, received⟩ := received
    · exact .of_error rfl (leaving_ne_assertion (receive_error hreceive))
    · dsimp only
      split
      · exact .of_error rfl (by simp)
      · refine ⟨fun _ => ?_, fun _ h => by cases h⟩
        have hcreated : state.create.file = some [] := rfl
        obtain ⟨hending, hwritten, hbound⟩ := receive_ok hcreated rfl (Nat.zero_le _) hreceive
        exact ⟨turn, url, response, rfl, hserver, hending, hwritten, hbound⟩
  · exact .of_error hfile (leaving_ne_assertion (by simp))

/-! ## Runs of the loop -/

/-- The events of the turns with these URLs. -/
def turnEvents (turns : List (Nat × HttpUrl)) : List FetchEvent :=
  turns.flatMap fun (turn, url) => [.validated turn url, .requested turn url]

/-- A request to `next` after one to `url` does not leave HTTPS. -/
def NoDowngrade (url next : HttpUrl) : Prop := url.scheme = .https → next.scheme = .https

theorem redirect_ok {redirectCount : Nat} {current redirected : HttpUrl} {response : UrlResponse}
    (h : self.redirect redirectCount current response = .ok redirected) :
    redirectCount < self.maximumRedirects ∧ NoDowngrade current redirected := by
  unfold UrlDownloader.redirect at h
  split at h
  · cases h
  · split at h
    · cases h
    · next hcount =>
        split at h
        · cases h
        · split at h
          · cases h
          · next hscheme =>
              cases h
              refine ⟨not_le.mp hcount, fun hcurrent => ?_⟩
              cases hnext : redirected.scheme with
              | https => rfl
              | http => exact absurd ⟨hcurrent, hnext⟩ hscheme

/-- What a run of the loop did: the URLs that it visited from `current` on, in consecutive turns,
each of them validated and then requested. -/
structure UrlDownloader.Visits (downloader : UrlDownloader) (turns redirectCount : Nat)
    (current : HttpUrl) (state : FetchState) (visits : List (Nat × HttpUrl))
    (outcome : Except DownloadError Unit × FetchState) : Prop where
  events : outcome.2.events = state.events ++ turnEvents visits
  length_le : visits.length ≤ turns
  numbers : visits.map (·.1) = List.range' redirectCount visits.length
  valid : ∀ visit ∈ visits, downloader.validate visit.1 visit.2 = .ok ()
  schemes : (visits.map (·.2)).Pairwise NoDowngrade
  after : ∀ visit ∈ visits, NoDowngrade current visit.2
  ends : downloader.Ends visits.getLast? outcome

variable {turns redirectCount : Nat} {current : HttpUrl}
  {outcome : Except DownloadError Unit × FetchState}

theorem UrlDownloader.Visits.stop (hevents : outcome.2.events = state.events)
    (hends : self.Ends none outcome) :
    self.Visits turns redirectCount current state [] outcome where
  events := by simp [turnEvents, hevents]
  length_le := Nat.zero_le _
  numbers := rfl
  valid := by simp
  schemes := .nil
  after := by simp
  ends := hends

/-- Without a request there is no success. -/
theorem UrlDownloader.Ends.of_none {last : Option (Nat × HttpUrl)} (h : self.Ends none outcome) :
    self.Ends last outcome where
  success hok := by
    obtain ⟨_, _, _, hnone, _⟩ := h.success hok
    cases hnone
  failure := h.failure

/-- The state in which the request of a turn is answered. -/
def FetchState.turn (state : FetchState) (turn : Nat) (url : HttpUrl) : FetchState :=
  (state.log (.validated turn url)).log (.requested turn url)

/-- A turn goes before the turns after it. -/
theorem UrlDownloader.Visits.cons {redirected : HttpUrl} {visits : List (Nat × HttpUrl)}
    (hvalid : self.validate redirectCount current = .ok ())
    (hscheme : NoDowngrade current redirected)
    (h : self.Visits turns (redirectCount + 1) redirected (state.turn redirectCount current) visits
      outcome) :
    self.Visits (turns + 1) redirectCount current state ((redirectCount, current) :: visits)
      outcome where
  events := by
    rw [h.events]
    simp [FetchState.turn, FetchState.log, turnEvents]
  length_le := by
    have hlength := h.length_le
    rw [List.length_cons]
    omega
  numbers := by rw [List.map_cons, h.numbers, List.length_cons, List.range'_succ]
  valid := List.forall_mem_cons.mpr ⟨hvalid, h.valid⟩
  schemes := by
    rw [List.map_cons, List.pairwise_cons]
    refine ⟨fun url hurl hcurrent => ?_, h.schemes⟩
    obtain ⟨visit, hvisit, rfl⟩ := List.mem_map.mp hurl
    exact h.after visit hvisit (hscheme hcurrent)
  after := by
    refine List.forall_mem_cons.mpr ⟨id, fun visit hvisit hcurrent => ?_⟩
    exact h.after visit hvisit (hscheme hcurrent)
  ends := by
    cases visits with
    | nil => exact h.ends.of_none
    | cons visit visits => exact h.ends

/-- A turn that ends the download. -/
theorem UrlDownloader.Visits.last
    (hvalid : self.validate redirectCount current = .ok ())
    (hevents : outcome.2.events = (state.turn redirectCount current).events)
    (hends : self.Ends (some (redirectCount, current)) outcome) :
    self.Visits (turns + 1) redirectCount current state [(redirectCount, current)] outcome where
  events := by
    rw [hevents]
    simp [FetchState.turn, FetchState.log, turnEvents]
  length_le := Nat.le_add_left 1 turns
  numbers := rfl
  valid := List.forall_mem_singleton.mpr hvalid
  schemes := List.pairwise_singleton _ _
  after := List.forall_mem_singleton.mpr id
  ends := hends

/-- The loop has as many turns left as the redirect limit allows, so a redirect is followed only
when another turn is left. -/
theorem loop_visits (hfile : state.file = none) (hpos : 0 < turns)
    (hturns : turns + redirectCount = self.maximumRedirects + 1) :
    ∃ visits, self.Visits turns redirectCount current state visits
      (self.loop name turns redirectCount current state) := by
  induction turns generalizing redirectCount current state with
  | zero => exact absurd hpos (Nat.lt_irrefl 0)
  | succ turns ih =>
      rw [UrlDownloader.loop]
      cases hvalid : self.validate redirectCount current with
      | error error => exact ⟨[], .stop rfl (.of_error hfile (validate_error hvalid))⟩
      | ok _ =>
          have hfile' : (state.turn redirectCount current).file = none := hfile
          have hstop : ∀ error, error ≠ .fetch .assertion →
              ∃ visits, self.Visits (turns + 1) redirectCount current state visits
                (.error error, state.turn redirectCount current) :=
            fun error herror => ⟨_, .last hvalid rfl (.of_error hfile' herror)⟩
          cases hserver : self.server redirectCount current with
          | error error => exact hstop _ (raised_ne_assertion error)
          | ok response =>
              by_cases hcode : response.statusCode ∈ redirectCodes
              · simp only [if_pos hcode]
                cases hredirect : self.redirect redirectCount current response.toUrlResponse with
                | error error =>
                    refine hstop _ (leaving_ne_assertion ?_)
                    simpa using redirect_error hredirect
                | ok redirected =>
                    cases hclosing : response.closing with
                    | some closing => exact hstop _ (raised_ne_assertion closing)
                    | none =>
                        obtain ⟨hcount, hscheme⟩ := redirect_ok hredirect
                        obtain ⟨visits, hvisits⟩ : ∃ visits, self.Visits turns (redirectCount + 1)
                            redirected (state.turn redirectCount current) visits
                            (self.loop name turns (redirectCount + 1) redirected
                              (state.turn redirectCount current)) :=
                          ih hfile' (by omega) (by omega)
                        exact ⟨_, hvisits.cons hvalid hscheme⟩
              · simp only [if_neg hcode]
                cases haccept : self.fetcher.accept response.toUrlResponse with
                | error error =>
                    refine hstop _ (leaving_ne_assertion ?_)
                    simpa using accept_error haccept
                | ok _ => exact ⟨_, .last hvalid save_events (save_ends hserver hfile')⟩

/-! ## Limits -/

theorem validate_ok {turn : Nat} {url : HttpUrl} (h : self.validate turn url = .ok ()) :
    validateSourceUrl self.network turn url = .ok () := by
  unfold UrlDownloader.validate at h
  split at h
  · cases h
  · cases hvalid : validateSourceUrl self.network turn url with
    | ok _ => rfl
    | error raised =>
        rw [hvalid] at h
        cases h

theorem requirePublic_ok {network : Network} {addresses : List String}
    (h : network.requirePublic addresses = .ok ()) : ∀ address ∈ addresses,
      ∃ parsed, network.ipAddress address = some parsed ∧ parsed.isGlobal := by
  induction addresses with
  | nil => simp
  | cons address rest ih =>
      rw [Network.requirePublic] at h
      split at h
      · cases h
      · next parsed hparsed =>
          obtain ⟨_, hglobal, hrest⟩ := bind_eq_ok.mp h
          exact List.forall_mem_cons.mpr ⟨⟨parsed, hparsed, ensure_eq_ok.mp hglobal⟩, ih hrest⟩

/-- A URL that passed has only public addresses. -/
theorem public_of_validate {turn : Nat} {url : HttpUrl} (h : self.validate turn url = .ok ()) :
    self.network.Public turn url := by
  have hvalid := validate_ok h
  simp only [validateSourceUrl, bind_eq_ok, ensure_eq_ok, exists_const] at hvalid
  obtain ⟨-, hlocal, addresses, haddresses, hne, hpublic⟩ := hvalid
  exact ⟨hlocal, addresses, haddresses, hne, requirePublic_ok hpublic⟩

/-- The URLs requested. -/
def FetchState.requests (state : FetchState) : List HttpUrl :=
  state.events.filterMap fun
    | .validated _ _ => none
    | .requested _ url => some url

theorem turnEvents_requests {visits : List (Nat × HttpUrl)} (h : state.events = turnEvents visits) :
    state.requests = visits.map (·.2) := by
  rw [FetchState.requests, h]
  clear h
  induction visits with
  | nil => rfl
  | cons visit visits ih =>
      rw [List.map_cons, ← ih]
      rfl

/-- A request comes right after the check of its URL. -/
theorem turnEvents_split {visits : List (Nat × HttpUrl)} {before after : List FetchEvent}
    {turn : Nat} {url : HttpUrl}
    (h : turnEvents visits = before ++ .requested turn url :: after) :
    (turn, url) ∈ visits ∧ ∃ earlier, before = earlier ++ [.validated turn url] := by
  induction visits generalizing before with
  | nil => simp [turnEvents] at h
  | cons visit visits ih =>
      have hcons : turnEvents (visit :: visits) =
          .validated visit.1 visit.2 :: .requested visit.1 visit.2 :: turnEvents visits := rfl
      rw [hcons] at h
      cases before with
      | nil => cases h
      | cons first before =>
          obtain ⟨hfirst, hrest⟩ := List.cons.inj h
          rw [← hfirst]
          cases before with
          | nil =>
              cases hrest
              exact ⟨List.mem_cons_self, [], rfl⟩
          | cons second before =>
              obtain ⟨hmem, earlier, rfl⟩ := ih (List.cons.inj hrest).2
              exact ⟨List.mem_cons_of_mem _ hmem, _ :: second :: earlier, rfl⟩

theorem turnEvents_getLast {visits : List (Nat × HttpUrl)} {turn : Nat} {url : HttpUrl}
    (h : visits.getLast? = some (turn, url)) :
    (turnEvents visits).getLast? = some (.requested turn url) := by
  obtain ⟨earlier, rfl⟩ := List.getLast?_eq_some_iff.mp h
  simp [turnEvents]

/-- What a download guarantees: the number of its requests is limited, each of them follows the
check of its URL, and none leaves HTTPS; a success has the body of the last response in the file,
within the limit, and after an error, which is not the assertion, there is no file. -/
structure UrlDownloader.Respects (downloader : UrlDownloader)
    (outcome : Except DownloadError Unit × FetchState) : Prop where
  requests : outcome.2.requests.length ≤ downloader.maximumRedirects + 1
  checked : ∀ before turn url after,
    outcome.2.events = before ++ .requested turn url :: after →
      (∃ earlier, before = earlier ++ [.validated turn url]) ∧
        downloader.validate turn url = .ok () ∧ downloader.network.Public turn url
  schemes : outcome.2.requests.Pairwise NoDowngrade
  success : outcome.1 = .ok () → ∃ turn url response,
    outcome.2.events.getLast? = some (.requested turn url) ∧
      downloader.server turn url = .ok response ∧ response.ending = none ∧
        outcome.2.file = some response.chunks.flatten ∧
          response.chunks.flatten.length ≤ downloader.maximumBytes
  failure : ∀ error, outcome.1 = .error error → outcome.2.file = none
  assertion : outcome.1 ≠ .error (.fetch .assertion)

/-- The visits of a whole run keep all limits. -/
theorem UrlDownloader.Visits.respects {visits : List (Nat × HttpUrl)}
    (h : self.Visits (self.maximumRedirects + 1) 0 current state visits outcome)
    (hstate : state.events = []) : self.Respects outcome := by
  have hevents : outcome.2.events = turnEvents visits := by
    rw [h.events, hstate, List.nil_append]
  have hrequests := turnEvents_requests hevents
  constructor
  · rw [hrequests, List.length_map]
    exact h.length_le
  · intro before turn url after hsplit
    obtain ⟨hmem, hbefore⟩ := turnEvents_split (hevents.symm.trans hsplit)
    have hvalid := h.valid _ hmem
    exact ⟨hbefore, hvalid, public_of_validate hvalid⟩
  · rw [hrequests]
    exact h.schemes
  · intro hok
    obtain ⟨turn, url, response, hlast, hbody⟩ := h.ends.success hok
    refine ⟨turn, url, response, ?_, hbody⟩
    rw [hevents]
    exact turnEvents_getLast hlast
  · exact fun error herror => (h.ends.failure error herror).1
  · exact fun hassertion => (h.ends.failure _ hassertion).2 rfl

/-- A download to a destination that does not exist respects its limits, whatever the resolver and
the servers answer. -/
theorem download_respects_limits (self : UrlDownloader) (url : HttpUrl) (name : String) :
    self.Respects (self.download none url name) := by
  unfold UrlDownloader.download
  split
  · have hends : self.Ends none (.error (.fetch .invalidLimits), { file := none }) :=
      .of_error rfl (by simp)
    have hstop : self.Visits (self.maximumRedirects + 1) 0 url { file := none } []
        (.error (.fetch .invalidLimits), { file := none }) := .stop rfl hends
    exact hstop.respects rfl
  · have hfile : ({ file := none } : FetchState).file = none := rfl
    obtain ⟨visits, hvisits⟩ : ∃ visits, self.Visits (self.maximumRedirects + 1) 0 url
        { file := none } visits
        (self.loop name (self.maximumRedirects + 1) 0 url { file := none }) :=
      loop_visits hfile (Nat.succ_pos _) rfl
    exact hvisits.respects rfl

/-! ## Refinement -/

/-- Every exception on the way is an error of the client or an `OSError` of the resolver, and
responses are closed without one. -/
structure UrlDownloader.ClientErrors (downloader : UrlDownloader) : Prop where
  server : ∀ turn url, downloader.server turn url ≠ .error .other
  responses : ∀ turn url response, downloader.server turn url = .ok response →
    response.interrupted = false ∧ response.closing = none
  resolver : ∀ turn host port, downloader.resolverRaises turn host port = false

/-- The outcome of a fetch is what the download shows of it. -/
structure FetchOutcome.Shown (fetched : FetchOutcome)
    (outcome : Except DownloadError Unit × FetchState) : Prop where
  result : outcome.1 = fetched.result.mapError .fetch
  file : outcome.2.file = fetched.file
  requests : outcome.2.requests = fetched.requests

theorem receive_shown {failure : Option TransportError} {chunks : List Bytes} {written : Bytes}
    (hfile : state.file = some written) : ∃ state',
      self.receive (failure.map .client) written.length chunks state =
        (((self.fetcher.receive failure written chunks).map fun _ => ()).mapError .fetch, state') ∧
      ∀ body, self.fetcher.receive failure written chunks = .ok body →
        state'.file = some body := by
  induction chunks generalizing written state with
  | nil =>
      refine ⟨state, ?_⟩
      cases failure with
      | none =>
          refine ⟨rfl, fun body hbody => ?_⟩
          cases hbody
          exact hfile
      | some error => exact ⟨rfl, fun body hbody => by cases hbody⟩
  | cons chunk chunks ih =>
      rw [UrlDownloader.receive, UrlFetcher.receive]
      by_cases hfits : written.length + chunk.length ≤ self.maximumBytes
      · have hwritten : (state.write chunk).file = some (written ++ chunk) := by
          rw [FetchState.write, hfile]
          rfl
        have hensure :
            ensure (written.length + chunk.length ≤ self.fetcher.maximumBytes) sizeError =
              .ok () := ensure_of_true hfits
        have hrest := ih hwritten
        rw [List.length_append] at hrest
        rw [if_neg (not_lt.mpr hfits), hensure]
        exact hrest
      · have hensure :
            ensure (written.length + chunk.length ≤ self.fetcher.maximumBytes) sizeError =
              .error sizeError := ensure_eq_error.mpr ⟨hfits, rfl⟩
        rw [if_pos (not_le.mp hfits), hensure]
        exact ⟨state, rfl, fun body hbody => by cases hbody⟩

theorem save_shown (hfile : state.file = none) (hinterrupted : response.interrupted = false)
    (hclosing : response.closing = none) :
    (self.save name response state).1 =
        (self.fetcher.store name response.toUrlResponse).1.mapError .fetch ∧
      (self.save name response state).2.file =
        (self.fetcher.store name response.toUrlResponse).2 := by
  have hending : response.ending = response.failure.map .client := by
    rw [StreamedResponse.ending, hinterrupted]
    rfl
  have hleaving : ∀ error, response.leaving error = error := fun error => by
    rw [StreamedResponse.leaving, hclosing]
  have hcreated : state.create.file = some [] := rfl
  obtain ⟨state', hreceive, hbody⟩ : ∃ state',
      self.receive (response.failure.map .client) 0 response.chunks state.create =
        (((self.fetcher.receive response.failure [] response.chunks).map fun _ => ()).mapError
          .fetch, state') ∧
      ∀ body, self.fetcher.receive response.failure [] response.chunks = .ok body →
        state'.file = some body := receive_shown hcreated
  unfold UrlDownloader.save UrlFetcher.store
  by_cases hopens : self.opens name
  · have hopens' : self.fetcher.opens name := hopens
    rw [if_pos hopens, if_pos hopens', hending, hreceive]
    cases hstore : self.fetcher.receive response.failure [] response.chunks with
    | error error =>
        dsimp only [Except.map, Except.mapError]
        exact ⟨congrArg _ (hleaving _), rfl⟩
    | ok body =>
        have hwritten := hbody body hstore
        dsimp only [Except.map, Except.mapError]
        rw [hwritten, Option.getD_some]
        cases inspectContent name response.mediaType (body.take sampleBytes) with
        | error message => exact ⟨rfl, rfl⟩
        | ok _ => exact ⟨rfl, hwritten⟩
  · have hopens' : ¬ self.fetcher.opens name := hopens
    rw [if_neg hopens, if_neg hopens', hleaving]
    exact ⟨rfl, hfile⟩

theorem UrlDownloader.ClientErrors.validate_eq {turn : Nat} {url : HttpUrl}
    (h : self.ClientErrors) :
    self.validate turn url = (validateSourceUrl self.network turn url).mapError .fetch := by
  rw [UrlDownloader.validate, if_neg]
  rintro ⟨-, hraises⟩
  rw [h.resolver] at hraises
  cases hraises

theorem turn_requests :
    (state.turn redirectCount current).requests = state.requests ++ [current] := by
  simp [FetchState.requests, FetchState.turn, FetchState.log]

theorem requests_of_events {other : FetchState} (h : state.events = other.events) :
    state.requests = other.requests := by
  rw [FetchState.requests, FetchState.requests, h]

theorem loop_shown (h : self.ClientErrors) (hfile : state.file = none) :
    (self.fetcher.loop name turns redirectCount current state.requests).Shown
      (self.loop name turns redirectCount current state) := by
  induction turns generalizing redirectCount current state with
  | zero => exact ⟨rfl, hfile, rfl⟩
  | succ turns ih =>
      have hnetwork : self.fetcher.network = self.network := rfl
      have hfile' : (state.turn redirectCount current).file = none := hfile
      have hrequests : (state.turn redirectCount current).requests = state.requests ++ [current] :=
        turn_requests
      rw [UrlDownloader.loop, UrlFetcher.loop, h.validate_eq, hnetwork, ← hrequests]
      cases validateSourceUrl self.network redirectCount current with
      | error error => exact ⟨rfl, hfile, rfl⟩
      | ok _ =>
          have hfetched : self.fetcher.server redirectCount current =
            match self.server redirectCount current with
            | .ok response => .ok response.toUrlResponse
            | .error (.client error) => .error error
            | .error .other => .error .other := rfl
          rw [hfetched]
          cases hserver : self.server redirectCount current with
          | error error =>
              cases error with
              | client error => exact ⟨rfl, hfile', rfl⟩
              | other => exact absurd hserver (h.server redirectCount current)
          | ok response =>
              obtain ⟨hinterrupted, hclosing⟩ := h.responses redirectCount current response hserver
              have hleaving : ∀ error, response.leaving error = error := fun error => by
                rw [StreamedResponse.leaving, hclosing]
              dsimp only [Except.mapError]
              by_cases hcode : response.statusCode ∈ redirectCodes
              · have hlimit : self.fetcher.maximumRedirects = self.maximumRedirects := rfl
                rw [if_pos hcode, if_pos hcode, UrlDownloader.redirect, hlimit, hclosing]
                cases response.location with
                | none => exact ⟨congrArg _ (hleaving _), hfile', rfl⟩
                | some location =>
                    by_cases hcount : self.maximumRedirects ≤ redirectCount
                    · simp only [if_pos hcount]
                      exact ⟨congrArg _ (hleaving _), hfile', rfl⟩
                    · simp only [if_neg hcount]
                      cases location with
                      | none => exact ⟨congrArg _ (hleaving _), hfile', rfl⟩
                      | some redirected =>
                          by_cases hscheme : current.scheme = .https ∧ redirected.scheme = .http
                          · simp only [if_pos hscheme]
                            exact ⟨congrArg _ (hleaving _), hfile', rfl⟩
                          · simp only [if_neg hscheme]
                            exact ih hfile'
              · rw [if_neg hcode, if_neg hcode]
                cases self.fetcher.accept response.toUrlResponse with
                | error error => exact ⟨congrArg _ (hleaving _), hfile', rfl⟩
                | ok _ =>
                    obtain ⟨hresult, hsaved⟩ := save_shown hfile' hinterrupted hclosing
                    exact ⟨hresult, hsaved, requests_of_events save_events⟩

/-- Without other exceptions than those of the client, the download is the fetch. -/
theorem download_shows_fetch (h : self.ClientErrors) (url : HttpUrl) (name : String) :
    (self.fetcher.fetch url name).Shown (self.download none url name) := by
  have hbytes : self.fetcher.maximumBytes = self.maximumBytes := rfl
  have hseconds : self.fetcher.timeoutSeconds = self.timeoutSeconds := rfl
  rw [UrlFetcher.fetch, UrlDownloader.download, hbytes, hseconds]
  split
  · exact ⟨rfl, rfl, rfl⟩
  · have hfile : ({ file := none } : FetchState).file = none := rfl
    exact loop_shown h hfile

end ParserServe
