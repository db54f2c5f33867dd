import ParserServe.Foundation.Text
import ParserServe.Schema.Worker

/-! # The remote protocol

The messages of `schema/remote.py`, between the remote backend of a worker and the model server
behind it, and what carries them: JSON bodies by pydantic and multipart forms.
-/

namespace ParserServe

open Foundation

structure RemoteSourceFile where
  filename : String
  mimeType : Mime
  sizeBytes : Nat
  sha256 : Digest Bytes
  deriving DecidableEq

structure RemoteParseRequest where
  taskId : String
  stageId : String
  backendName : String
  backendVersion : String
  runtime : DeviceRuntime
  deviceId : Option String
  source : SourceMetadata
  sourceText : Option String
  sourceFile : Option RemoteSourceFile
  parameters : JsonText
  timeoutSeconds : Nat
  payload_valid : sourceText.isNone = sourceFile.isSome
  deriving DecidableEq

/-- A block of a result; what the kinds other than the two hold is handed through. -/
inductive ResultBlock
  | image (content : JsonText)
  | keyframe (content : JsonText)
  | other (content : JsonText)
  deriving DecidableEq

/-- `ParseResult`; `rest` is its metadata, its warnings and its time. -/
structure RemoteResult where
  taskId : String
  source : SourceMetadata
  blocks : List ResultBlock := []
  artifacts : List JsonText := []
  rest : JsonText := "{}"
  deriving DecidableEq

structure RemoteArtifactPayload where
  type : ArtifactType
  filename : String
  mimeType : Mime
  content : Bytes
  metadata : JsonText := "{}"
  deriving DecidableEq

inductive RemoteParseResponse
  | succeeded (result : RemoteResult) (artifacts : List RemoteArtifactPayload)
  | failed (error : ErrorDetail)
  deriving DecidableEq

/-! ## On the wire -/

/-- How messages are written and read.  `readForm` gives the field `request`, if it is text, and
the file of a form, and is `none` where the form cannot be parsed. -/
structure RemoteWire where
  writeRequest : RemoteParseRequest → Bytes
  readRequest : Bytes → Option RemoteParseRequest
  writeResponse : RemoteParseResponse → Bytes
  readResponse : Bytes → Option RemoteParseResponse
  writeForm : Bytes → Option Bytes → Bytes
  readForm : Bytes → Option (Option Bytes × Option Bytes)

/-- `_MAXIMUM_MULTIPART_METADATA_BYTES`. -/
def maximumMultipartMetadataBytes : Nat := 1024 * 1024

/-- `_MULTIPART_FRAMING_ALLOWANCE_BYTES`. -/
def multipartFramingAllowanceBytes : Nat := 64 * 1024

end ParserServe
