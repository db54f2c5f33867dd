import ParserServe.Foundation.CaseVariants
import ParserServe.Persistence.Files
import ParserServe.Security.TextSamples

/-! # Types of stored objects

An object in storage has a category at the creation of its task, by its name and its guessed type.
The worker inspects its bytes under the same name and type.  The two know different extensions and
types.
-/

namespace ParserServe

open Foundation

variable {ends : List Char → List Char → Bool} {filename mimeType mime suffix : String}
  {category : MediaCategory}

/-! ## Lower case and folding -/

theorem folded_suffix (ends : List Char → List Char → Bool) (filename : String) :
    foldedSuffix filename = casefoldString (loweredSuffix ends filename) := by
  have hvariants := (variants_lower ends filename.toList).pureSuffix.casefold_eq
  rw [String.ofList_toList] at hvariants
  rw [foldedSuffix, casefoldString, casefoldString, loweredSuffix, hvariants]

theorem folded_mime (ends : List Char → List Char → Bool) (mimeType : String) :
    normalizedMime mimeType = casefoldString (loweredMime ends mimeType) := by
  have hlower : casefold (mimeEssence (lower ends mimeType.toList)) =
      casefold (mimeEssence mimeType.toList) :=
    (variants_lower ends mimeType.toList).essence.casefold_eq
  have hfold : casefold (mimeEssence (casefold mimeType.toList)) =
      casefold (mimeEssence mimeType.toList) :=
    (variants_casefold mimeType.toList).essence.casefold_eq
  have hself : casefold (mimeEssence (casefold mimeType.toList)) =
      mimeEssence (casefold mimeType.toList) :=
    casefold_eq_self fun _ hc => casefoldChar_of_mem_casefold (mem_of_mem_mimeEssence hc).1
  rw [normalizedMime, casefoldString, loweredMime, String.toList_ofList, hlower, ← hfold, hself]

theorem small_of_plain {text : String} (h : isPlainMime text) :
    text.toList.all fun c => decide (c.toNat < 128 ∧ ¬ (65 ≤ c.toNat ∧ c.toNat ≤ 90)) := by
  refine List.all_eq_true.mpr fun c hc => ?_
  have hplain := List.all_eq_true.mp h c hc
  simp only [Bool.and_eq_true] at hplain
  exact hplain.1.1

theorem casefoldString_of_plain {text : String} (h : isPlainMime text) :
    casefoldString text = text := by
  rw [casefoldString, casefold_lower (small_of_plain h), String.ofList_toList]

theorem loweredSuffix_of_plain (h : isPlainMime filename) :
    loweredSuffix ends filename = pureSuffix filename := by
  rw [loweredSuffix, lower_small (small_of_plain h), String.ofList_toList]

theorem loweredMime_of_plain (h : isPlainMime mimeType) : loweredMime ends mimeType = mimeType := by
  have hnormal := normalizedMime_of_plain h
  rw [normalizedMime, casefold_lower (small_of_plain h)] at hnormal
  rw [loweredMime, lower_small (small_of_plain h), hnormal]

/-- Small letters that no other than their capital letters fold to. -/
def plainLetters (text : String) : Bool :=
  text.toList.all fun c => decide (c.toNat < 128 ∧ c.toNat ∉ [102, 107, 115])

/-- A lowered suffix that folds to plain letters is one of plain letters. -/
theorem loweredSuffix_eq (h : plainLetters (foldedSuffix filename)) :
    loweredSuffix ends filename = foldedSuffix filename := by
  rw [folded_suffix ends, casefoldString] at h ⊢
  have hself : casefold (loweredSuffix ends filename).toList =
      (loweredSuffix ends filename).toList := by
    refine casefold_eq_self fun c hc => casefoldChar_of_ascii ?_ fun d hd => ?_
    · rcases mem_of_mem_pureSuffix hc with hpath | rfl
      · rw [String.toList_ofList] at hpath
        exact lower_not_capital hpath
      · decide
    · refine of_decide_eq_true (List.all_eq_true.mp h d ?_)
      rw [String.toList_ofList]
      exact List.mem_flatMap.mpr ⟨c, hc, hd⟩
  rw [hself, String.ofList_toList]

/-! ## What the worker accepts -/

/-- The declared types under which some content of a category is accepted. -/
def Fits (category : MediaCategory) (suffix mime : String) : Prop :=
  match category with
  | .web => DeclaredText mime
  | .text => DeclaredText mime ∧ mime ≠ "text/html" ∧ mime ≠ "application/xhtml+xml"
  | category => ∃ found ∈ binaryFindings, (found.named suffix).mediaCategory = category ∧
      mime ∈ aliases (found.named suffix).detectedMimeType

/-- Content for each of the signatures. -/
def signatureSamples : List Bytes :=
  let ftyp := fun brand => [0, 0, 0, 0] ++ asciiBytes "ftyp" ++ asciiBytes brand
  let riff := fun form => asciiBytes "RIFF" ++ [0, 0, 0, 0] ++ asciiBytes form
  [asciiBytes "%PDF-", [0xd0, 0xcf, 0x11, 0xe0, 0xa1, 0xb1, 0x1a, 0xe1], [0x50, 0x4b, 0x03, 0x04],
   [0xff, 0xd8, 0xff], [0x89, 0x50, 0x4e, 0x47, 0x0d, 0x0a, 0x1a, 0x0a], asciiBytes "GIF89a",
   [0x49, 0x49, 0x2a, 0x00], asciiBytes "BM", riff "WEBP", riff "WAVE", riff "AVI ",
   asciiBytes "fLaC", asciiBytes "OggS", [0xff, 0xf1], asciiBytes "ID3", [0x1a, 0x45, 0xdf, 0xa3],
   ftyp "avif", ftyp "heic", ftyp "isom", [0x00, 0x00, 0x01, 0xb3]]

theorem signatureSamples_found :
    signatureSamples.map binaryInspection = binaryFindings.map some := by
  decide +kernel

/-- Everything that a signature stands for can be found. -/
theorem binaryFindings_reached {found : ContentInspection} (h : found ∈ binaryFindings) :
    ∃ sample, sample ≠ [] ∧ binaryInspection sample = some found := by
  have hmem : some found ∈ signatureSamples.map binaryInspection := by
    rw [signatureSamples_found]
    exact List.mem_map_of_mem h
  obtain ⟨sample, -, hsample⟩ := List.mem_map.mp hmem
  refine ⟨sample, ?_, hsample⟩
  rintro rfl
  cases hsample

theorem named_category_of_binary {found : ContentInspection} (h : found ∈ binaryFindings)
    (suffix : String) : (found.named suffix).mediaCategory ≠ .web ∧
      (found.named suffix).mediaCategory ≠ .text := by
  have hfindings : ∀ found ∈ binaryFindings, found.mediaCategory ≠ .web ∧
      found.mediaCategory ≠ .text := by
    decide
  unfold ContentInspection.named
  split
  · exact ⟨MediaCategory.noConfusion, MediaCategory.noConfusion⟩
  · exact hfindings found h

theorem named_textual (found : ContentInspection) (suffix : String) :
    (found.named suffix).textual = found.textual := by
  unfold ContentInspection.named
  split <;> rfl

theorem fits_of_binary (hweb : category ≠ .web) (htext : category ≠ .text) :
    Fits category suffix mime ↔ ∃ found ∈ binaryFindings,
      (found.named suffix).mediaCategory = category ∧
        mime ∈ aliases (found.named suffix).detectedMimeType := by
  cases category with
  | web => exact absurd rfl hweb
  | text => exact absurd rfl htext
  | _ => exact Iff.rfl

/-- The text is inspected as a web page. -/
def InspectedAsWeb (suffix mime : String) : Prop :=
  suffix ∈ webExtensions ∨ mime = "text/html" ∨ mime = "application/xhtml+xml"

instance (suffix mime : String) : Decidable (InspectedAsWeb suffix mime) :=
  inferInstanceAs (Decidable (_ ∨ _ ∨ _))

theorem text_category {sample : Bytes} {found : ContentInspection}
    (h : textInspection sample mime suffix = .ok (some found)) :
    found.mediaCategory = if InspectedAsWeb suffix mime then .web else .text := by
  unfold textInspection at h
  cases htext : sampleText sample with
  | none => simp [htext] at h
  | some text =>
      simp only [htext] at h
      split at h
      · next hweb =>
          simp only [bind_eq_ok, ensure_eq_ok, Except.ok.injEq, Option.some.injEq] at h
          obtain ⟨_, _, rfl⟩ := h
          exact (if_pos hweb).symm
      · next hweb =>
          cases h
          exact (if_neg hweb).symm

theorem text_found {sample : Bytes} {text : List Char} (hsample : sampleText sample = some text)
    (hmarker : InspectedAsWeb suffix mime → hasWebMarker text) :
    ∃ found, textInspection sample mime suffix = .ok (some found) := by
  unfold textInspection
  rw [hsample]
  simp only
  split
  · next hweb => exact ⟨_, bind_eq_ok.mpr ⟨(), ensure_of_true (hmarker hweb), rfl⟩⟩
  · exact ⟨_, rfl⟩

theorem extensionCategory_web : extensionCategory suffix = some .web ↔ suffix ∈ webExtensions := by
  rw [extensionCategory_eq_some]
  simp [categoryExtensions]

/-- A text is accepted as what it is inspected as. -/
theorem accepts_text {sample : Bytes} {text : List Char} (hne : sample ≠ [])
    (hbinary : binaryInspection sample = none) (hsample : sampleText sample = some text)
    (hmarker : InspectedAsWeb (foldedSuffix filename) (normalizedMime mimeType) →
      hasWebMarker text)
    (hcategory : extensionCategory (foldedSuffix filename) = some
      (if InspectedAsWeb (foldedSuffix filename) (normalizedMime mimeType) then .web else .text))
    (hdeclared : DeclaredText (normalizedMime mimeType)) :
    ∃ inspection, inspectContent filename mimeType sample = .ok inspection ∧
      extensionCategory (foldedSuffix filename) = some inspection.mediaCategory := by
  obtain ⟨found, hfound⟩ := text_found hsample hmarker
  obtain ⟨htextual, -, hnamed⟩ := named_of_text hfound
  have hexpected := text_category hfound
  refine ⟨found.effective (foldedSuffix filename), inspectContent_eq_ok.mpr
    ⟨hne, found, .inr ⟨hbinary, hfound⟩, ?_, ?_, ?_⟩, ?_⟩
  · rw [hnamed, hexpected, hcategory]
  · rw [hnamed, ContentInspection.DeclaredAs, if_pos htextual]
    exact hdeclared
  · rw [hnamed]
  · rw [effective_mediaCategory, hexpected, hcategory]

theorem accepted_fits {content : Bytes} {inspection : ContentInspection}
    (h : inspectContent filename mimeType content = .ok inspection) :
    extensionCategory (foldedSuffix filename) = some inspection.mediaCategory ∧
      Fits inspection.mediaCategory (foldedSuffix filename) (normalizedMime mimeType) := by
  obtain ⟨-, found, hfound, hcategory, hdeclared, hinspection⟩ := inspectContent_eq_ok.mp h
  rw [hinspection, effective_mediaCategory]
  refine ⟨hcategory, ?_⟩
  clear hinspection
  generalize foldedSuffix filename = suffix at *
  generalize normalizedMime mimeType = mime at *
  rcases hfound with hbinary | ⟨-, hfound⟩
  · have hmem := mem_binaryFindings hbinary
    have hnot := named_category_of_binary hmem suffix
    refine (fits_of_binary hnot.1 hnot.2).mpr ⟨found, hmem, rfl, ?_⟩
    rw [ContentInspection.DeclaredAs, named_textual, binaryFindings_textual found hmem]
      at hdeclared
    exact hdeclared
  · obtain ⟨htextual, -, hnamed⟩ := named_of_text hfound
    rw [hnamed] at hdeclared ⊢
    rw [ContentInspection.DeclaredAs, if_pos htextual] at hdeclared
    rw [text_category hfound]
    by_cases hweb : InspectedAsWeb suffix mime
    · rw [if_pos hweb]
      exact hdeclared
    · rw [if_neg hweb]
      exact ⟨hdeclared, fun hhtml => hweb (.inr (.inl hhtml)),
        fun hxhtml => hweb (.inr (.inr hxhtml))⟩

theorem fits_accepted (hcategory : extensionCategory (foldedSuffix filename) = some category)
    (hfits : Fits category (foldedSuffix filename) (normalizedMime mimeType)) :
    ∃ content inspection, content ≠ [] ∧
      inspectContent filename mimeType content = .ok inspection ∧
        extensionCategory (foldedSuffix filename) = some inspection.mediaCategory := by
  by_cases hweb : category = .web
  · subst hweb
    have hinspected : InspectedAsWeb (foldedSuffix filename) (normalizedMime mimeType) :=
      .inl (extensionCategory_web.mp hcategory)
    have hsample : sampleText (asciiBytes "<html") = some "<html".toList := by decide +kernel
    have hmarker : hasWebMarker "<html".toList := by decide +kernel
    have hdeclared : DeclaredText (normalizedMime mimeType) := hfits
    have hexpected : extensionCategory (foldedSuffix filename) = some
        (if InspectedAsWeb (foldedSuffix filename) (normalizedMime mimeType) then .web
          else .text) := by
      rw [if_pos hinspected, hcategory]
    obtain ⟨inspection, haccepted⟩ := accepts_text (by decide) (by decide +kernel) hsample
      (fun _ => hmarker) hexpected hdeclared
    exact ⟨_, inspection, by decide, haccepted⟩
  · by_cases htext : category = .text
    · subst htext
      have hnot : ¬ InspectedAsWeb (foldedSuffix filename) (normalizedMime mimeType) := by
        rintro (hsuffix | hhtml | hxhtml)
        · cases hcategory.symm.trans (extensionCategory_web.mpr hsuffix)
        · exact hfits.2.1 hhtml
        · exact hfits.2.2 hxhtml
      have hsample : sampleText (asciiBytes "text") = some "text".toList := by decide +kernel
      have hexpected : extensionCategory (foldedSuffix filename) = some
          (if InspectedAsWeb (foldedSuffix filename) (normalizedMime mimeType) then .web
            else .text) := by
        rw [if_neg hnot, hcategory]
      obtain ⟨inspection, haccepted⟩ := accepts_text (by decide) (by decide +kernel) hsample
        (fun hinspected => absurd hinspected hnot) hexpected hfits.1
      exact ⟨_, inspection, by decide, haccepted⟩
    · obtain ⟨found, hmem, hnamed, hdeclared⟩ := (fits_of_binary hweb htext).mp hfits
      obtain ⟨sample, hne, hbinary⟩ := binaryFindings_reached hmem
      refine ⟨sample, _, hne, inspectContent_eq_ok.mpr
        ⟨hne, found, .inl hbinary, ?_, ?_, rfl⟩, ?_⟩
      · rw [hcategory, hnamed]
      · rw [ContentInspection.DeclaredAs, named_textual, binaryFindings_textual found hmem]
        exact hdeclared
      · rw [effective_mediaCategory, hcategory, hnamed]

/-- Some content is accepted as of a category exactly when the extension is one of the category
and the declared type fits. -/
theorem accepted_category_iff :
    (∃ content inspection, content ≠ [] ∧
        inspectContent filename mimeType content = .ok inspection ∧
        inspection.mediaCategory = category) ↔
      extensionCategory (foldedSuffix filename) = some category ∧
        Fits category (foldedSuffix filename) (normalizedMime mimeType) := by
  constructor
  · rintro ⟨content, inspection, -, haccepted, rfl⟩
    exact accepted_fits haccepted
  · rintro ⟨hcategory, hfits⟩
    obtain ⟨content, inspection, hne, haccepted, hexpected⟩ := fits_accepted hcategory hfits
    exact ⟨content, inspection, hne, haccepted,
      Option.some.inj (hexpected.symm.trans hcategory)⟩

/-! ## What the creation suggests -/

/-- The extensions of a category at the creation. -/
def Files.extensions : MediaCategory → List String
  | .document => Files.documentExtensions
  | .image => Files.imageExtensions
  | .audio => Files.audioExtensions
  | .video => Files.videoExtensions
  | .web => Files.webExtensions
  | .text => Files.textExtensions

/-- The types of a category at the creation. -/
def MimeSuggests (category : MediaCategory) (mime : String) : Prop :=
  match category with
  | .document => mime ∈ Files.documentMimes
  | .image => beginsWith "image/" mime
  | .audio => beginsWith "audio/" mime
  | .video => beginsWith "video/" mime
  | .web => mime = "text/html"
  | .text => beginsWith "text/" mime

instance (category : MediaCategory) (mime : String) : Decidable (MimeSuggests category mime) :=
  match category with
  | .document => inferInstanceAs (Decidable (mime ∈ Files.documentMimes))
  | .image => inferInstanceAs (Decidable (beginsWith "image/" mime))
  | .audio => inferInstanceAs (Decidable (beginsWith "audio/" mime))
  | .video => inferInstanceAs (Decidable (beginsWith "video/" mime))
  | .web => inferInstanceAs (Decidable (mime = "text/html"))
  | .text => inferInstanceAs (Decidable (beginsWith "text/" mime))

theorem suggested (h : mediaCategoryFor ends filename mimeType = some category) :
    MimeSuggests category (loweredMime ends mimeType) ∨
      loweredSuffix ends filename ∈ Files.extensions category := by
  unfold mediaCategoryFor at h
  simp only at h
  split at h
  · cases h
    assumption
  split at h
  · cases h
    assumption
  split at h
  · cases h
    assumption
  split at h
  · cases h
    assumption
  split at h
  · cases h
    exact Or.symm ‹_›
  split at h
  · cases h
    assumption
  · cases h

theorem suggested_web (h : loweredSuffix ends filename ∈ Files.webExtensions) :
    mediaCategoryFor ends filename mimeType = some .web :=
  if_pos (.inr h)

theorem suggested_video (h : mediaCategoryFor ends filename mimeType = some .video) :
    ¬ beginsWith "audio/" (loweredMime ends mimeType) := by
  intro haudio
  unfold mediaCategoryFor at h
  simp only [haudio, true_or, if_true] at h
  split at h
  · cases h
  split at h <;> cases h

/-- Where both sides know an extension, they agree. -/
theorem extension_agrees (hsuffix : loweredSuffix ends filename ∈ Files.extensions category)
    {expected : MediaCategory}
    (hexpected : extensionCategory (foldedSuffix filename) = some expected) :
    expected = category := by
  have htables : ∀ category, ∀ suffix ∈ Files.extensions category, isPlainMime suffix ∧
      ∀ expected ∈ extensionCategory suffix, expected = category := by
    intro category
    cases category <;> decide +kernel
  obtain ⟨hplain, hagrees⟩ := htables category _ hsuffix
  rw [folded_suffix ends, casefoldString_of_plain hplain] at hexpected
  exact hagrees expected hexpected

theorem beginsWith_casefold {start text : String} (hstart : isPlainMime start)
    (h : beginsWith start text) : beginsWith start (casefoldString text) := by
  obtain ⟨rest, hrest⟩ := h
  have hfold : casefold start.toList = start.toList := by
    have hstring := casefoldString_of_plain hstart
    rw [casefoldString] at hstring
    rw [← String.toList_ofList (l := casefold start.toList), hstring]
  refine ⟨casefold rest, ?_⟩
  rw [casefoldString, String.toList_ofList, ← hrest, casefold_append, hfold]

theorem MimeSuggests.folded (h : MimeSuggests category mime) :
    MimeSuggests category (casefoldString mime) := by
  have hmimes : ∀ mime ∈ Files.documentMimes, isPlainMime mime := by
    decide +kernel
  cases category with
  | document =>
      show casefoldString mime ∈ Files.documentMimes
      rw [casefoldString_of_plain (hmimes mime h)]
      exact h
  | web =>
      have hhtml : mime = "text/html" := h
      rw [hhtml]
      exact casefoldString_of_plain (by decide +kernel)
  | image => exact beginsWith_casefold (by decide) h
  | audio => exact beginsWith_casefold (by decide) h
  | video => exact beginsWith_casefold (by decide) h
  | text => exact beginsWith_casefold (by decide) h

/-! ## Agreement -/

def categories : List MediaCategory := [.document, .image, .audio, .video, .web, .text]

theorem mem_categories (category : MediaCategory) : category ∈ categories := by
  cases category <;> decide

/-- The only types that suggest another category than that of the signatures they go with are
those of sound in a container of videos. -/
theorem signature_agrees {found : ContentInspection} (hfound : found ∈ binaryFindings)
    (hmime : mime ∈ aliases (found.named suffix).detectedMimeType)
    (hsuggests : MimeSuggests category mime) :
    (found.named suffix).mediaCategory = category ∨
      (found.named suffix).mediaCategory = .video ∧ category = .audio := by
  have hfindings : ∀ category ∈ categories, ∀ found ∈ binaryFindings,
      ∀ mime ∈ aliases found.detectedMimeType, MimeSuggests category mime →
        found.mediaCategory = category ∨ found.mediaCategory = .video ∧ category = .audio := by
    decide +kernel
  have hm4a : ∀ category ∈ categories, ∀ mime ∈ aliases "audio/mp4",
      MimeSuggests category mime → .audio = category := by
    decide +kernel
  unfold ContentInspection.named at hmime ⊢
  split
  · next hvideo =>
      rw [if_pos hvideo] at hmime
      exact .inl (hm4a category (mem_categories category) mime hmime hsuggests)
  · next hvideo =>
      rw [if_neg hvideo] at hmime
      exact hfindings category (mem_categories category) found hfound mime hmime hsuggests

/-- A type of text suggests text or web pages. -/
theorem text_agrees (hdeclared : DeclaredText mime) (hsuggests : MimeSuggests category mime) :
    category = .text ∨ category = .web ∧ mime = "text/html" := by
  have hothers : ∀ category ∈ categories, ∀ mime ∈ ["application/json",
      "application/octet-stream", "application/xhtml+xml", "application/xml", "application/yaml"],
      ¬ MimeSuggests category mime := by
    decide +kernel
  have hdocuments : ∀ mime ∈ Files.documentMimes, mime.toList.take 5 ≠ "text/".toList := by
    decide
  have hstart : ∀ start, 5 ≤ start.toList.length → beginsWith start mime →
      mime.toList.take 5 = start.toList.take 5 := by
    rintro start hlength ⟨rest, hrest⟩
    rw [← hrest, List.take_append_of_le_length hlength]
  rcases hdeclared with htext | hmem
  · cases category with
    | document => exact absurd htext (hdocuments mime hsuggests)
    | image => exact absurd (htext.symm.trans (hstart _ (by decide) hsuggests)) (by decide)
    | audio => exact absurd (htext.symm.trans (hstart _ (by decide) hsuggests)) (by decide)
    | video => exact absurd (htext.symm.trans (hstart _ (by decide) hsuggests)) (by decide)
    | web => exact .inr ⟨rfl, hsuggests⟩
    | text => exact .inl rfl
  · exact absurd hsuggests (hothers category (mem_categories category) mime hmem)

/-- Where a category fits, it is the suggested one, unless the suggestion is sound for a video. -/
theorem suggestion_agrees {expected : MediaCategory} (hfits : Fits expected suffix mime)
    (hsuggests : MimeSuggests category mime) :
    expected = category ∨ expected = .web ∨ expected = .video ∧ category = .audio := by
  by_cases hweb : expected = .web
  · exact .inr (.inl hweb)
  · by_cases htext : expected = .text
    · subst htext
      rcases text_agrees hfits.1 hsuggests with rfl | ⟨-, hhtml⟩
      · exact .inl rfl
      · exact absurd hhtml hfits.2.1
    · obtain ⟨found, hmem, rfl, hmime⟩ := (fits_of_binary hweb htext).mp hfits
      exact (signature_agrees hmem hmime hsuggests).imp_right .inr

theorem webExtensions_plain (h : foldedSuffix filename ∈ webExtensions) :
    loweredSuffix ends filename ∈ Files.webExtensions := by
  have hplain : ∀ suffix ∈ webExtensions, plainLetters suffix ∧ suffix ∈ Files.webExtensions := by
    decide
  rw [loweredSuffix_eq (hplain _ h).1]
  exact (hplain _ h).2

/-- An object that is accepted at creation can pass the inspection of the worker exactly when the
worker knows its extension and some content of the extension's category goes with its type, unless
that is a video and the type one of sound. -/
theorem creation_agrees_iff (ends : List Char → List Char → Bool) {filename mimeType : String}
    {category : MediaCategory} (h : mediaCategoryFor ends filename mimeType = some category) :
    (∃ content inspection, content ≠ [] ∧
        inspectContent filename mimeType content = .ok inspection ∧
        inspection.mediaCategory = category) ↔
      ∃ expected, extensionCategory (foldedSuffix filename) = some expected ∧
        Fits expected (foldedSuffix filename) (normalizedMime mimeType) ∧
        ¬ (expected = .video ∧ beginsWith "audio/" (loweredMime ends mimeType)) := by
  rw [accepted_category_iff]
  constructor
  · rintro ⟨hcategory, hfits⟩
    refine ⟨category, hcategory, hfits, ?_⟩
    rintro ⟨rfl, haudio⟩
    exact suggested_video h haudio
  · rintro ⟨expected, hcategory, hfits, hvideo⟩
    suffices heq : expected = category by
      rw [← heq]
      exact ⟨hcategory, hfits⟩
    rcases suggested h with hmime | hsuffix
    · have hfolded := hmime.folded
      rw [← folded_mime ends mimeType] at hfolded
      rcases suggestion_agrees hfits hfolded with heq | rfl | ⟨rfl, rfl⟩
      · exact heq
      · have hweb : loweredSuffix ends filename ∈ Files.webExtensions :=
          webExtensions_plain (extensionCategory_web.mp hcategory)
        exact Option.some.inj ((suggested_web hweb).symm.trans h)
      · exact absurd ⟨rfl, hmime⟩ hvideo
    · exact extension_agrees hsuffix hcategory

/-- A picture in PNG format can be stored. -/
theorem creation_agrees_photo : ∃ content inspection, content ≠ [] ∧
    inspectContent "photo.png" "image/png" content = .ok inspection ∧
    inspection.mediaCategory = .image := by
  have hname : isPlainMime "photo.png" := by decide
  have hmime : isPlainMime "image/png" := by decide
  have hsuffix : pureSuffix "photo.png" = ".png" := by decide +kernel
  have hfolded : foldedSuffix "photo.png" = ".png" := by
    rw [foldedSuffix, hsuffix]
    exact casefoldString_of_plain (by decide)
  have hcreated : mediaCategoryFor (fun _ _ => true) "photo.png" "image/png" = some .image := by
    rw [mediaCategoryFor, loweredMime_of_plain hmime, loweredSuffix_of_plain hname, hsuffix]
    decide
  have hagrees := creation_agrees_iff (fun _ _ => true) hcreated
  rw [hfolded, normalizedMime_of_plain hmime] at hagrees
  refine hagrees.mpr ⟨.image, by decide, ?_, fun hvideo => MediaCategory.noConfusion hvideo.1⟩
  exact ⟨imageInspection "image/png" "png", by decide, by decide, by decide⟩

/-- An OpenDocument text is accepted at creation, and its extension is unknown to the worker. -/
theorem odt_accepted_then_refused : ¬ ∀ ends filename mimeType category,
    mediaCategoryFor ends filename mimeType = some category → ∃ content inspection,
      content ≠ [] ∧ inspectContent filename mimeType content = .ok inspection ∧
        inspection.mediaCategory = category := by
  intro h
  have hname : isPlainMime "report.odt" := by decide
  have hmime : isPlainMime "application/vnd.oasis.opendocument.text" := by decide
  have hsuffix : pureSuffix "report.odt" = ".odt" := by decide +kernel
  have hcreated : mediaCategoryFor (fun _ _ => true) "report.odt"
      "application/vnd.oasis.opendocument.text" = some .document := by
    rw [mediaCategoryFor, loweredMime_of_plain hmime, loweredSuffix_of_plain hname, hsuffix]
    decide
  obtain ⟨content, inspection, -, haccepted, -⟩ := h _ _ _ _ hcreated
  have hknown := (accepted_fits haccepted).1
  rw [foldedSuffix, hsuffix, casefoldString_of_plain (by decide)] at hknown
  have hunknown : extensionCategory ".odt" = none := by decide
  cases hunknown.symm.trans hknown

end ParserServe
