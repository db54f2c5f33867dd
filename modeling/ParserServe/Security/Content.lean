import Mathlib.Data.List.Infix
import ParserServe.Foundation.Paths
import ParserServe.Foundation.Attempt
import ParserServe.Schema.Catalog

/-! # Content inspection

`security/content.py`: a file is accepted when its first bytes, its extension and its declared
type agree.  The text of a `ContentValidationError` is the error of `inspectContent`.
-/

namespace ParserServe

open Foundation

inductive ContentContainer
  | plain | zip | ole | riff | isoBmff | matroska
  deriving DecidableEq, Repr

structure ContentInspection where
  detectedMimeType : String
  mediaCategory : MediaCategory
  container : ContentContainer := .plain
  signature : String
  textual : Bool := false
  deriving DecidableEq

/-! ## Tables -/

def documentExtensions : List String :=
  [".doc", ".docx", ".epub", ".pdf", ".ppt", ".pptx", ".xls", ".xlsx"]

def imageExtensions : List String :=
  [".avif", ".bmp", ".gif", ".heic", ".heif", ".jpeg", ".jpg", ".png", ".tif", ".tiff", ".webp"]

def audioExtensions : List String :=
  [".aac", ".flac", ".m4a", ".mp3", ".ogg", ".opus", ".wav"]

def videoExtensions : List String :=
  [".avi", ".m4v", ".mkv", ".mov", ".mp4", ".mpeg", ".mpg", ".webm"]

def webExtensions : List String :=
  [".htm", ".html", ".xhtml"]

def textExtensions : List String :=
  [".csv", ".json", ".log", ".md", ".rst", ".text", ".tsv", ".txt", ".xml", ".yaml", ".yml"]

/-- `_CATEGORY_EXTENSIONS`. -/
def categoryExtensions : List (MediaCategory × List String) :=
  [(.document, documentExtensions), (.image, imageExtensions), (.audio, audioExtensions),
   (.video, videoExtensions), (.web, webExtensions), (.text, textExtensions)]

/-- `_MIME_ALIASES`. -/
def mimeAliases : List (String × List String) :=
  [("application/pdf", ["application/pdf", "application/octet-stream"]),
   ("application/x-ole-storage",
     ["application/msword", "application/vnd.ms-excel", "application/vnd.ms-powerpoint",
      "application/octet-stream"]),
   ("application/zip",
     ["application/epub+zip", "application/zip", "application/octet-stream",
      "application/vnd.openxmlformats-officedocument.presentationml.presentation",
      "application/vnd.openxmlformats-officedocument.spreadsheetml.sheet",
      "application/vnd.openxmlformats-officedocument.wordprocessingml.document"]),
   ("image/jpeg", ["image/jpeg", "image/jpg", "application/octet-stream"]),
   ("image/png", ["image/png", "application/octet-stream"]),
   ("image/gif", ["image/gif", "application/octet-stream"]),
   ("image/tiff", ["image/tiff", "application/octet-stream"]),
   ("image/bmp", ["image/bmp", "application/octet-stream"]),
   ("image/webp", ["image/webp", "application/octet-stream"]),
   ("image/avif", ["image/avif", "application/octet-stream"]),
   ("image/heic", ["image/heic", "image/heif", "application/octet-stream"]),
   ("audio/wav", ["audio/wav", "audio/x-wav", "application/octet-stream"]),
   ("audio/flac", ["audio/flac", "audio/x-flac", "application/octet-stream"]),
   ("audio/aac", ["audio/aac", "audio/x-aac", "application/octet-stream"]),
   ("audio/mpeg", ["audio/mpeg", "audio/mp3", "application/octet-stream"]),
   ("audio/mp4", ["audio/mp4", "audio/x-m4a", "application/octet-stream"]),
   ("audio/ogg", ["audio/ogg", "audio/opus", "application/ogg", "application/octet-stream"]),
   ("video/x-msvideo", ["video/x-msvideo", "video/avi", "application/octet-stream"]),
   ("video/mp4", ["audio/mp4", "video/mp4", "video/quicktime", "application/octet-stream"]),
   ("video/x-matroska",
     ["audio/webm", "video/webm", "video/x-matroska", "application/octet-stream"]),
   ("video/mpeg", ["video/mpeg", "application/octet-stream"])]

/-- `_EXTENSION_MIME`. -/
def extensionMime : List (String × String) :=
  [(".doc", "application/msword"),
   (".xls", "application/vnd.ms-excel"),
   (".ppt", "application/vnd.ms-powerpoint"),
   (".docx", "application/vnd.openxmlformats-officedocument.wordprocessingml.document"),
   (".xlsx", "application/vnd.openxmlformats-officedocument.spreadsheetml.sheet"),
   (".pptx", "application/vnd.openxmlformats-officedocument.presentationml.presentation"),
   (".epub", "application/epub+zip")]

/-! ## Signatures -/

def startsWith (sample pattern : Bytes) : Bool := pattern.isPrefixOf sample

def imageInspection (mimeType signature : String) (container : ContentContainer := .plain) :
    ContentInspection where
  detectedMimeType := mimeType
  mediaCategory := .image
  container := container
  signature := signature

def audioInspection (mimeType signature : String) (container : ContentContainer := .plain) :
    ContentInspection where
  detectedMimeType := mimeType
  mediaCategory := .audio
  container := container
  signature := signature

def videoInspection (mimeType signature : String) (container : ContentContainer := .plain) :
    ContentInspection where
  detectedMimeType := mimeType
  mediaCategory := .video
  container := container
  signature := signature

/-- The second byte after `0xff`, masked. -/
def maskedSync (sample : Bytes) (mask value : UInt8) : Bool :=
  match sample with
  | first :: second :: _ => first == 0xff && second &&& mask == value
  | _ => false

/-- The tests of `_binary_inspection` in their order. -/
def binarySignatures (sample : Bytes) : List (Bool × ContentInspection) :=
  let form := (sample.drop 8).take 4
  let riff := startsWith sample (asciiBytes "RIFF") && decide (12 ≤ sample.length)
  let ftyp := decide (12 ≤ sample.length) && (sample.drop 4).take 4 == asciiBytes "ftyp"
  [(startsWith sample (asciiBytes "%PDF-"),
      { detectedMimeType := "application/pdf", mediaCategory := .document, signature := "pdf" }),
    (startsWith sample [0xd0, 0xcf, 0x11, 0xe0, 0xa1, 0xb1, 0x1a, 0xe1],
      { detectedMimeType := "application/x-ole-storage", mediaCategory := .document
        container := .ole, signature := "ole-compound-document" }),
    (startsWith sample [0x50, 0x4b, 0x03, 0x04] || startsWith sample [0x50, 0x4b, 0x05, 0x06] ||
        startsWith sample [0x50, 0x4b, 0x07, 0x08],
      { detectedMimeType := "application/zip", mediaCategory := .document
        container := .zip, signature := "zip-container" }),
    (startsWith sample [0xff, 0xd8, 0xff], imageInspection "image/jpeg" "jpeg"),
    (startsWith sample [0x89, 0x50, 0x4e, 0x47, 0x0d, 0x0a, 0x1a, 0x0a],
      imageInspection "image/png" "png"),
    (startsWith sample (asciiBytes "GIF87a") || startsWith sample (asciiBytes "GIF89a"),
      imageInspection "image/gif" "gif"),
    (startsWith sample [0x49, 0x49, 0x2a, 0x00] || startsWith sample [0x4d, 0x4d, 0x00, 0x2a],
      imageInspection "image/tiff" "tiff"),
    (startsWith sample (asciiBytes "BM"), imageInspection "image/bmp" "bmp"),
    (riff && form == asciiBytes "WEBP", imageInspection "image/webp" "webp" .riff),
    (riff && form == asciiBytes "WAVE", audioInspection "audio/wav" "wav" .riff),
    (riff && form == asciiBytes "AVI ", videoInspection "video/x-msvideo" "avi" .riff),
    (startsWith sample (asciiBytes "fLaC"), audioInspection "audio/flac" "flac"),
    (startsWith sample (asciiBytes "OggS"), audioInspection "audio/ogg" "ogg"),
    (maskedSync sample 0xf6 0xf0, audioInspection "audio/aac" "aac-adts"),
    (startsWith sample (asciiBytes "ID3") || maskedSync sample 0xe0 0xe0,
      audioInspection "audio/mpeg" "mpeg-audio"),
    (startsWith sample [0x1a, 0x45, 0xdf, 0xa3],
      videoInspection "video/x-matroska" "matroska" .matroska),
    (ftyp && [asciiBytes "avif", asciiBytes "avis"].contains form,
      imageInspection "image/avif" "avif" .isoBmff),
    (ftyp && [asciiBytes "heic", asciiBytes "heix", asciiBytes "hevc", asciiBytes "hevx",
        asciiBytes "mif1", asciiBytes "msf1"].contains form,
      imageInspection "image/heic" "heif" .isoBmff),
    (ftyp, videoInspection "video/mp4" "iso-bmff" .isoBmff),
    (startsWith sample [0x00, 0x00, 0x01, 0xb3], videoInspection "video/mpeg" "mpeg-video")]

/-- `_binary_inspection`. -/
def binaryInspection (sample : Bytes) : Option ContentInspection :=
  ((binarySignatures sample).find? (·.1)).map (·.2)

/-! ## Text -/

def webMarkers : List String := ["<!doctype html", "<html", "<head", "<body", "<?xml"]

/-- The text of a sample; `none` when it has a NUL byte or is not well formed. -/
def sampleText (sample : Bytes) : Option (List Char) :=
  if startsWith sample [0xff, 0xfe] || startsWith sample [0xfe, 0xff] then decodeUtf16 sample
  else if sample.contains 0 then none
  else decodeUtf8Sig sample

/-- One of the markers is in the first 8192 characters of the folded text. -/
def hasWebMarker (text : List Char) : Bool :=
  webMarkers.any fun marker => decide (marker.toList <:+: (casefold (lstrip text)).take 8192)

/-- `_text_inspection`. -/
def textInspection (sample : Bytes) (declaredMimeType suffix : String) :
    Except String (Option ContentInspection) :=
  match sampleText sample with
  | none => .ok none
  | some text =>
      if suffix ∈ webExtensions ∨ declaredMimeType = "text/html" ∨
          declaredMimeType = "application/xhtml+xml" then do
        ensure (hasWebMarker text)
          "declared web content does not contain an HTML or XHTML signature"
        .ok (some
          { detectedMimeType :=
              if declaredMimeType = "application/xhtml+xml" then "application/xhtml+xml"
              else "text/html"
            mediaCategory := .web
            signature := "html-text"
            textual := true })
      else
        .ok (some
          { detectedMimeType :=
              if declaredMimeType.toList.take 5 = "text/".toList ∨
                  declaredMimeType ∈ ["application/json", "application/xml", "application/yaml"]
              then declaredMimeType else "text/plain"
            mediaCategory := .text
            signature := "unicode-text"
            textual := true })

/-! ## Inspection -/

def casefoldString (text : String) : String := String.ofList (casefold text.toList)

/-- A media type without its parameters: the part before the first semicolon, stripped. -/
def mimeEssence (text : List Char) : List Char := strip (text.takeWhile (· ≠ ';'))

/-- `inspect_content`. -/
def inspectContent (filename declaredMimeType : String) (sample : Bytes) :
    Except String ContentInspection := do
  ensure (sample ≠ []) "content is empty"
  let suffix := casefoldString (pureSuffix filename)
  let normalizedMime := String.ofList (mimeEssence (casefold declaredMimeType.toList))
  let inspection ←
    match binaryInspection sample with
    | some inspection => .ok inspection
    | none => do
        match ← textInspection sample normalizedMime suffix with
        | some inspection => .ok inspection
        | none => .error "content signature is not recognized"
  let inspection :=
    if inspection.detectedMimeType = "video/mp4" ∧ suffix = ".m4a" then
      { inspection with detectedMimeType := "audio/mp4", mediaCategory := .audio }
    else inspection
  match categoryExtensions.find? fun (_, extensions) => suffix ∈ extensions with
  | none => .error "filename extension is not supported"
  | some (expectedCategory, _) => do
      ensure (inspection.mediaCategory = expectedCategory)
        "content signature does not match the filename extension"
      if inspection.textual then
        ensure (normalizedMime.toList.take 5 = "text/".toList ∨ normalizedMime ∈
            ["application/json", "application/octet-stream", "application/xhtml+xml",
              "application/xml", "application/yaml"])
          "text content does not match the declared MIME type"
      else
        ensure (normalizedMime ∈ (mimeAliases.lookup inspection.detectedMimeType).getD [])
          "content signature does not match the declared MIME type"
      match extensionMime.lookup suffix with
      | some effectiveMime => .ok { inspection with detectedMimeType := effectiveMime }
      | none => .ok inspection

end ParserServe
