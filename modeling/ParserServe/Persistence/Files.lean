import ParserServe.Foundation.Lower
import ParserServe.Foundation.Paths
import ParserServe.Security.Content

/-! # Files

`persistence/files.py`: the media category of a file by its name and its type.
-/

namespace ParserServe

open Foundation

namespace Files

def documentExtensions : List String :=
  [".doc", ".docx", ".epub", ".odg", ".odp", ".ods", ".odt", ".pdf", ".ppt", ".pptx", ".rtf",
   ".xls", ".xlsx"]

def imageExtensions : List String :=
  [".avif", ".bmp", ".gif", ".heic", ".heif", ".jpeg", ".jpg", ".png", ".tif", ".tiff", ".webp"]

def audioExtensions : List String :=
  [".aac", ".flac", ".m4a", ".mp3", ".ogg", ".opus", ".wav", ".wma"]

def videoExtensions : List String :=
  [".avi", ".flv", ".m4v", ".mkv", ".mov", ".mp4", ".mpeg", ".mpg", ".ts", ".webm", ".wmv"]

def webExtensions : List String :=
  [".htm", ".html", ".mhtml", ".xhtml"]

def textExtensions : List String :=
  [".csv", ".json", ".log", ".md", ".rst", ".text", ".txt", ".xml", ".yaml", ".yml"]

/-- The types that `media_category_for` takes for documents. -/
def documentMimes : List String :=
  ["application/epub+zip", "application/msword", "application/pdf", "application/rtf",
   "application/vnd.ms-excel", "application/vnd.ms-powerpoint",
   "application/vnd.oasis.opendocument.presentation",
   "application/vnd.oasis.opendocument.spreadsheet",
   "application/vnd.oasis.opendocument.text",
   "application/vnd.openxmlformats-officedocument.presentationml.presentation",
   "application/vnd.openxmlformats-officedocument.spreadsheetml.sheet",
   "application/vnd.openxmlformats-officedocument.wordprocessingml.document"]

end Files

/-- `text.startswith(start)`. -/
def beginsWith (start text : String) : Prop := start.toList <+: text.toList

instance (start text : String) : Decidable (beginsWith start text) :=
  inferInstanceAs (Decidable (start.toList <+: text.toList))

/-- `mime_type.lower().split(";", 1)[0].strip()`. -/
def loweredMime (ends : List Char → List Char → Bool) (mimeType : String) : String :=
  String.ofList (mimeEssence (lower ends mimeType.toList))

/-- `PurePath(filename.lower()).suffix`. -/
def loweredSuffix (ends : List Char → List Char → Bool) (filename : String) : String :=
  pureSuffix (String.ofList (lower ends filename.toList))

/-- `media_category_for`; `none` is an `UnsupportedFileTypeError`.  As in `lower`, `ends` tells
which capital sigmas end a word. -/
def mediaCategoryFor (ends : List Char → List Char → Bool) (filename mimeType : String) :
    Option MediaCategory :=
  let normalizedMime := loweredMime ends mimeType
  let suffix := loweredSuffix ends filename
  if normalizedMime = "text/html" ∨ suffix ∈ Files.webExtensions then some .web
  else if beginsWith "image/" normalizedMime ∨ suffix ∈ Files.imageExtensions then some .image
  else if beginsWith "audio/" normalizedMime ∨ suffix ∈ Files.audioExtensions then some .audio
  else if beginsWith "video/" normalizedMime ∨ suffix ∈ Files.videoExtensions then some .video
  else if suffix ∈ Files.documentExtensions ∨ normalizedMime ∈ Files.documentMimes then
    some .document
  else if beginsWith "text/" normalizedMime ∨ suffix ∈ Files.textExtensions then some .text
  else none

example : mediaCategoryFor (fun _ _ => true) "Scan.PDF" "application/octet-stream" =
    some .document := by
  decide +kernel

end ParserServe
