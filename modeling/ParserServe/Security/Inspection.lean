import ParserServe.Foundation.Folding
import ParserServe.Security.Content

/-! # What an accepted file is

`inspect_content` in one view: the file name counts through its folded extension only, and the
declared type through its normal form.
-/

namespace ParserServe

open Foundation

def foldedSuffix (filename : String) : String := casefoldString (pureSuffix filename)

def normalizedMime (declaredMimeType : String) : String :=
  String.ofList (mimeEssence (casefold declaredMimeType.toList))

/-! ## Normal forms -/

theorem mem_of_mem_mimeEssence {text : List Char} {c : Char} (h : c ∈ mimeEssence text) :
    c ∈ text ∧ c ≠ ';' := by
  have htake := mem_of_mem_strip h
  exact ⟨(List.takeWhile_sublist _).subset htake, by simpa using List.mem_takeWhile_imp htake⟩

theorem mimeEssence_mimeEssence (text : List Char) :
    mimeEssence (mimeEssence text) = mimeEssence text := by
  have htake : (mimeEssence text).takeWhile (· ≠ ';') = mimeEssence text :=
    List.takeWhile_eq_self_iff.mpr fun c hc => by simpa using (mem_of_mem_mimeEssence hc).2
  rw [mimeEssence, htake, mimeEssence, strip_strip]

/-- The normal form of a type is its own. -/
theorem normalizedMime_normalizedMime (declaredMimeType : String) :
    normalizedMime (normalizedMime declaredMimeType) = normalizedMime declaredMimeType := by
  have hfold : casefold (mimeEssence (casefold declaredMimeType.toList)) =
      mimeEssence (casefold declaredMimeType.toList) :=
    casefold_eq_self fun c hc => casefoldChar_of_mem_casefold (mem_of_mem_mimeEssence hc).1
  simp only [normalizedMime, String.toList_ofList, hfold, mimeEssence_mimeEssence]

/-- Small ASCII letters and signs, without semicolons and white space. -/
def isPlainMime (mime : String) : Bool :=
  mime.toList.all fun c =>
    decide (c.toNat < 128 ∧ ¬ (65 ≤ c.toNat ∧ c.toNat ≤ 90)) && c ≠ ';' && !isSpace c

theorem normalizedMime_of_plain {mime : String} (h : isPlainMime mime) :
    normalizedMime mime = mime := by
  simp only [isPlainMime, List.all_eq_true, Bool.and_eq_true, Bool.not_eq_true'] at h
  have hfold : casefold mime.toList = mime.toList :=
    casefold_lower (List.all_eq_true.mpr fun c hc => (h c hc).1.1)
  have htake : mime.toList.takeWhile (· ≠ ';') = mime.toList :=
    List.takeWhile_eq_self_iff.mpr fun c hc => (h c hc).1.2
  have hstrip : strip mime.toList = mime.toList := by
    have hdrop : mime.toList.dropWhile isSpace = mime.toList :=
      List.dropWhile_eq_self_iff.mpr fun hpos => by simp [(h _ (List.getElem_mem hpos)).2]
    rw [strip_eq_rdropWhile, hdrop, List.rdropWhile_eq_self_iff]
    exact fun hne => by simp [(h _ (List.getLast_mem hne)).2]
  rw [normalizedMime, hfold, mimeEssence, htake, hstrip, String.ofList_toList]

/-! ## The view -/

/-- What the bytes alone, or with the type and the extension, are taken for. -/
def Recognizes (sample : Bytes) (mime suffix : String) (found : ContentInspection) : Prop :=
  binaryInspection sample = some found ∨
    binaryInspection sample = none ∧ textInspection sample mime suffix = .ok (some found)

/-- An MP4 container with the extension of audio is audio. -/
def ContentInspection.named (found : ContentInspection) (suffix : String) : ContentInspection :=
  if found.detectedMimeType = "video/mp4" ∧ suffix = ".m4a" then
    { found with detectedMimeType := "audio/mp4", mediaCategory := .audio }
  else found

def extensionCategory (suffix : String) : Option MediaCategory :=
  (categoryExtensions.find? fun (_, extensions) => suffix ∈ extensions).map (·.1)

theorem extensionCategory_of_mem : ∀ entry ∈ categoryExtensions, ∀ suffix ∈ entry.2,
    extensionCategory suffix = some entry.1 := by
  decide +kernel

/-- The lists of extensions have nothing in common. -/
theorem extensionCategory_eq_some {suffix : String} {category : MediaCategory} :
    extensionCategory suffix = some category ↔
      ∃ extensions, (category, extensions) ∈ categoryExtensions ∧ suffix ∈ extensions := by
  constructor
  · intro h
    obtain ⟨⟨_, extensions⟩, hfind, rfl⟩ := Option.map_eq_some_iff.mp h
    exact ⟨extensions, List.mem_of_find?_eq_some hfind, by simpa using List.find?_some hfind⟩
  · rintro ⟨extensions, hmem, hsuffix⟩
    exact extensionCategory_of_mem _ hmem suffix hsuffix

/-- The declared types under which text passes. -/
def DeclaredText (mime : String) : Prop :=
  mime.toList.take 5 = "text/".toList ∨ mime ∈
    ["application/json", "application/octet-stream", "application/xhtml+xml",
      "application/xml", "application/yaml"]

instance : DecidablePred DeclaredText := fun _ => inferInstanceAs (Decidable (_ ∨ _))

/-- The declared types under which other content of a detected type passes. -/
def aliases (detectedMimeType : String) : List String :=
  (mimeAliases.lookup detectedMimeType).getD []

/-- The declared types that go with an inspection. -/
def ContentInspection.DeclaredAs (inspection : ContentInspection) (mime : String) : Prop :=
  if inspection.textual then DeclaredText mime else mime ∈ aliases inspection.detectedMimeType

/-- A document with parts has the type of its extension. -/
def ContentInspection.effective (inspection : ContentInspection) (suffix : String) :
    ContentInspection :=
  match extensionMime.lookup suffix with
  | some effectiveMime => { inspection with detectedMimeType := effectiveMime }
  | none => inspection

theorem effective_mediaCategory (inspection : ContentInspection) (suffix : String) :
    (inspection.effective suffix).mediaCategory = inspection.mediaCategory := by
  unfold ContentInspection.effective
  cases extensionMime.lookup suffix <;> rfl

/-- `binary or _text_inspection(...)`, without the case that nothing is recognized. -/
def recognized (sample : Bytes) (mime suffix : String) : Except String ContentInspection :=
  match binaryInspection sample with
  | some inspection => .ok inspection
  | none => do
      match ← textInspection sample mime suffix with
      | some inspection => .ok inspection
      | none => .error "content signature is not recognized"

/-- What `inspect_content` checks of an inspection. -/
def ContentInspection.check (inspection : ContentInspection) (mime suffix : String) :
    Except String ContentInspection :=
  match categoryExtensions.find? fun (_, extensions) => suffix ∈ extensions with
  | none => .error "filename extension is not supported"
  | some (expectedCategory, _) => do
      ensure (inspection.mediaCategory = expectedCategory)
        "content signature does not match the filename extension"
      if inspection.textual then
        ensure (DeclaredText mime) "text content does not match the declared MIME type"
      else
        ensure (mime ∈ aliases inspection.detectedMimeType)
          "content signature does not match the declared MIME type"
      match extensionMime.lookup suffix with
      | some effectiveMime => .ok { inspection with detectedMimeType := effectiveMime }
      | none => .ok inspection

theorem inspectContent_def (filename declaredMimeType : String) (sample : Bytes) :
    inspectContent filename declaredMimeType sample = (do
      ensure (sample ≠ []) "content is empty"
      let found ← recognized sample (normalizedMime declaredMimeType) (foldedSuffix filename)
      ContentInspection.check (found.named (foldedSuffix filename))
        (normalizedMime declaredMimeType) (foldedSuffix filename)) := by
  unfold inspectContent recognized
  generalize hsuffix : casefoldString (pureSuffix filename) = suffix
  generalize hmime : String.ofList (mimeEssence (casefold declaredMimeType.toList)) = mime
  rw [foldedSuffix, normalizedMime, hsuffix, hmime]
  cases binaryInspection sample with
  | some inspection => rfl
  | none =>
      cases htext : textInspection sample mime suffix with
      | error message => simp only [htext]; rfl
      | ok found? => cases found? <;> simp only [htext] <;> rfl

theorem recognized_eq_ok {sample : Bytes} {mime suffix : String} {found : ContentInspection} :
    recognized sample mime suffix = .ok found ↔ Recognizes sample mime suffix found := by
  unfold recognized Recognizes
  cases hbinary : binaryInspection sample with
  | some inspection => simp
  | none =>
      simp only [bind_eq_ok, reduceCtorEq, true_and, false_or]
      constructor
      · rintro ⟨found?, htext, hfound⟩
        cases found? with
        | none => cases hfound
        | some inspection => exact Except.ok.inj hfound ▸ htext
      · exact fun htext => ⟨_, htext, rfl⟩

theorem ContentInspection.check_eq_ok {inspection result : ContentInspection}
    {mime suffix : String} :
    inspection.check mime suffix = .ok result ↔
      extensionCategory suffix = some inspection.mediaCategory ∧ inspection.DeclaredAs mime ∧
        result = inspection.effective suffix := by
  unfold check extensionCategory DeclaredAs effective
  cases hfind : categoryExtensions.find? fun (_, extensions) => suffix ∈ extensions with
  | none => simp
  | some entry =>
      cases inspection.textual <;> cases extensionMime.lookup suffix <;>
        simp [bind_eq_ok, eq_comm (a := result), eq_comm (a := entry.1)]

theorem inspectContent_eq_ok {filename declaredMimeType : String} {sample : Bytes}
    {inspection : ContentInspection} :
    inspectContent filename declaredMimeType sample = .ok inspection ↔
      sample ≠ [] ∧ ∃ found, Recognizes sample (normalizedMime declaredMimeType)
          (foldedSuffix filename) found ∧
        extensionCategory (foldedSuffix filename) =
          some (found.named (foldedSuffix filename)).mediaCategory ∧
        (found.named (foldedSuffix filename)).DeclaredAs (normalizedMime declaredMimeType) ∧
        inspection = (found.named (foldedSuffix filename)).effective (foldedSuffix filename) := by
  simp only [inspectContent_def, bind_eq_ok, ensure_eq_ok, recognized_eq_ok,
    ContentInspection.check_eq_ok, exists_const]

end ParserServe
