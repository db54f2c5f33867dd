import ParserServe.Security.Inspection

/-! # Inspecting a file again

`upload_file` stores the type that `inspect_content` detected, and the worker inspects the file
again with that type.  The type of an extension need not be one of the types of the container that
the file was found to be.
-/

namespace ParserServe

open Foundation

instance (inspection : ContentInspection) (mime : String) :
    Decidable (inspection.DeclaredAs mime) :=
  inferInstanceAs (Decidable (if inspection.textual then DeclaredText mime
    else mime ∈ aliases inspection.detectedMimeType))

/-! ## Signatures -/

/-- All that `_binary_inspection` can find. -/
def binaryFindings : List ContentInspection := (binarySignatures []).map (·.2)

theorem mem_binaryFindings {sample : Bytes} {found : ContentInspection}
    (h : binaryInspection sample = some found) : found ∈ binaryFindings := by
  obtain ⟨entry, hfind, rfl⟩ := Option.map_eq_some_iff.mp h
  have hmem := List.mem_map_of_mem (f := Prod.snd) (List.mem_of_find?_eq_some hfind)
  exact hmem

theorem binaryFindings_textual : ∀ found ∈ binaryFindings, found.textual = false := by
  decide

theorem binaryFindings_plain : ∀ found ∈ binaryFindings, isPlainMime found.detectedMimeType := by
  decide +kernel

/-- Outside documents a detected type is one of its own aliases. -/
theorem binaryFindings_again : ∀ found ∈ binaryFindings, found.mediaCategory ≠ .document →
    found.detectedMimeType ∈ aliases found.detectedMimeType := by
  decide +kernel

theorem extensionMime_document : ∀ entry ∈ extensionMime,
    extensionCategory entry.1 = some .document ∧ isPlainMime entry.2 := by
  decide +kernel

/-- The container is the one that the extension stands for. -/
def ContainerFits (suffix : String) (container : Option ContentContainer) : Prop :=
  (suffix ∈ [".doc", ".ppt", ".xls"] → container = some .ole) ∧
    (suffix ∈ [".docx", ".epub", ".pptx", ".xlsx"] → container = some .zip) ∧
      (suffix = ".pdf" → container ≠ some .ole)

instance (suffix : String) (container : Option ContentContainer) :
    Decidable (ContainerFits suffix container) :=
  inferInstanceAs (Decidable ((_ → _) ∧ (_ → _) ∧ (_ → _)))

theorem documents_again_iff : ∀ found ∈ binaryFindings, found.mediaCategory = .document →
    ∀ suffix ∈ documentExtensions,
      (found.DeclaredAs (found.effective suffix).detectedMimeType ↔
        ContainerFits suffix (some found.container)) := by
  decide +kernel

/-! ## Text -/

/-- The detected type of a text is in normal form and has the same result. -/
theorem textInspection_again {sample : Bytes} {mime suffix : String} {found : ContentInspection}
    (h : textInspection sample mime suffix = .ok (some found))
    (hnormal : normalizedMime mime = mime) (hdeclared : DeclaredText mime) :
    normalizedMime found.detectedMimeType = found.detectedMimeType ∧
      DeclaredText found.detectedMimeType ∧
      textInspection sample found.detectedMimeType suffix = .ok (some found) := by
  unfold textInspection at h ⊢
  cases htext : sampleText sample with
  | none => simp [htext] at h
  | some text =>
      simp only [htext] at h ⊢
      split at h
      · simp only [bind_eq_ok, ensure_eq_ok, Except.ok.injEq, Option.some.injEq] at h
        obtain ⟨_, hmarker, rfl⟩ := h
        by_cases hxhtml : mime = "application/xhtml+xml"
        · simp only [if_pos hxhtml]
          refine ⟨normalizedMime_of_plain (by decide +kernel), by decide, ?_⟩
          simp [bind_eq_ok, hmarker]
        · simp only [if_neg hxhtml]
          refine ⟨normalizedMime_of_plain (by decide +kernel), by decide, ?_⟩
          simp [bind_eq_ok, hmarker]
      · next hweb =>
          cases h
          by_cases hmime : mime.toList.take 5 = "text/".toList ∨
              mime ∈ ["application/json", "application/xml", "application/yaml"]
          · simp only [if_pos hmime]
            exact ⟨hnormal, hdeclared, by rw [if_neg hweb]⟩
          · simp only [if_neg hmime]
            have hplain : ¬ (suffix ∈ webExtensions ∨ "text/plain" = "text/html" ∨
                "text/plain" = "application/xhtml+xml") := by
              simpa using fun hmem => hweb (.inl hmem)
            refine ⟨normalizedMime_of_plain (by decide +kernel), by decide, ?_⟩
            rw [if_neg hplain, if_pos (.inl (by decide))]

/-- Text is never taken for a container that its extension could make audio. -/
theorem named_of_text {sample : Bytes} {mime suffix : String} {found : ContentInspection}
    (h : textInspection sample mime suffix = .ok (some found)) :
    found.textual ∧ found.mediaCategory ≠ .document ∧ found.named suffix = found := by
  have hnamed : ∀ other : ContentInspection, other.detectedMimeType ≠ "video/mp4" →
      other.named suffix = other := fun other hne => if_neg fun hvideo => hne hvideo.1
  unfold textInspection at h
  cases htext : sampleText sample with
  | none => simp [htext] at h
  | some text =>
      simp only [htext] at h
      split at h
      · simp only [bind_eq_ok, ensure_eq_ok, Except.ok.injEq, Option.some.injEq] at h
        obtain ⟨_, _, rfl⟩ := h
        refine ⟨rfl, by simp, hnamed _ ?_⟩
        simp only
        split <;> decide
      · cases h
        refine ⟨rfl, by simp, hnamed _ ?_⟩
        simp only
        split
        · next hmime =>
            rintro rfl
            exact absurd hmime (by decide)
        · decide

/-! ## The second inspection -/

/-- A second inspection of the same bytes finds the same when they have a signature. -/
theorem binary_again_iff {filename : String} {sample : Bytes} {found : ContentInspection}
    (hne : sample ≠ []) (hbinary : binaryInspection sample = some found)
    (hcategory : extensionCategory (foldedSuffix filename) =
      some (found.named (foldedSuffix filename)).mediaCategory) (declaredMimeType : String) :
    inspectContent filename declaredMimeType sample =
        .ok ((found.named (foldedSuffix filename)).effective (foldedSuffix filename)) ↔
      (found.named (foldedSuffix filename)).DeclaredAs (normalizedMime declaredMimeType) := by
  rw [inspectContent_eq_ok]
  constructor
  · rintro ⟨_, other, hother, _, hdeclared, _⟩
    rcases hother with hother | ⟨hother, _⟩
    · exact Option.some.inj (hbinary.symm.trans hother) ▸ hdeclared
    · rw [hbinary] at hother
      cases hother
  · exact fun hdeclared => ⟨hne, found, .inl hbinary, hcategory, hdeclared, rfl⟩

theorem effective_of_ne_document {suffix : String} {category : MediaCategory}
    (hcategory : extensionCategory suffix = some category) (hne : category ≠ .document)
    (inspection : ContentInspection) : inspection.effective suffix = inspection := by
  unfold ContentInspection.effective
  cases hlookup : extensionMime.lookup suffix with
  | none => rfl
  | some mime =>
      obtain ⟨before, after, hsplit, -⟩ := List.lookup_eq_some_iff.mp hlookup
      have hdocument := (extensionMime_document (suffix, mime) (by simp [hsplit])).1
      exact absurd (Option.some.inj (hcategory.symm.trans hdocument)) hne

theorem containerFits_of_ne_document {suffix : String} {category : MediaCategory}
    (hcategory : extensionCategory suffix = some category) (hne : category ≠ .document)
    (container : Option ContentContainer) : ContainerFits suffix container := by
  have hdocument : suffix ∉ documentExtensions := fun hmem => by
    have hother := extensionCategory_eq_some.mpr ⟨_, List.mem_cons_self, hmem⟩
    exact hne (Option.some.inj (hcategory.symm.trans hother))
  simp only [documentExtensions, List.mem_cons, not_or] at hdocument
  simp [ContainerFits, hdocument]

theorem named_again {found : ContentInspection} {suffix : String} (hfound : found ∈ binaryFindings)
    (hne : (found.named suffix).mediaCategory ≠ .document) :
    (found.named suffix).DeclaredAs (normalizedMime (found.named suffix).detectedMimeType) := by
  unfold ContentInspection.DeclaredAs ContentInspection.named at *
  split at hne
  · next hm4a =>
      have hplain : isPlainMime "audio/mp4" := by decide +kernel
      rw [if_pos hm4a, normalizedMime_of_plain hplain, binaryFindings_textual found hfound]
      show "audio/mp4" ∈ aliases "audio/mp4"
      decide
  · next hm4a =>
      rw [if_neg hm4a, normalizedMime_of_plain (binaryFindings_plain found hfound),
        binaryFindings_textual found hfound]
      exact binaryFindings_again found hfound hne

theorem effective_plain {found : ContentInspection} {suffix : String}
    (hfound : found ∈ binaryFindings) :
    normalizedMime (found.effective suffix).detectedMimeType =
      (found.effective suffix).detectedMimeType := by
  unfold ContentInspection.effective
  cases hlookup : extensionMime.lookup suffix with
  | none => exact normalizedMime_of_plain (binaryFindings_plain found hfound)
  | some mime =>
      obtain ⟨before, after, hsplit, -⟩ := List.lookup_eq_some_iff.mp hlookup
      exact normalizedMime_of_plain (extensionMime_document (suffix, mime) (by simp [hsplit])).2

/-! ## A document of another kind -/

def pdfSample : Bytes := asciiBytes "%PDF-1.7"

def pdfFound : ContentInspection where
  detectedMimeType := "application/pdf"
  mediaCategory := .document
  signature := "pdf"

/-- What is found of a PDF file with the extension of another format. -/
def pdfAsDocx : ContentInspection :=
  { pdfFound with
    detectedMimeType :=
      "application/vnd.openxmlformats-officedocument.wordprocessingml.document" }

theorem pdfFound_effective : pdfFound.effective ".pdf" = pdfFound ∧
    pdfFound.effective ".docx" = pdfAsDocx := by
  decide

theorem pdfSample_accepted_iff {filename declaredMimeType suffix : String}
    (hsuffix : foldedSuffix filename = suffix)
    (hcategory : extensionCategory suffix = some .document) :
    inspectContent filename declaredMimeType pdfSample = .ok (pdfFound.effective suffix) ↔
      normalizedMime declaredMimeType ∈ aliases "application/pdf" := by
  have hbinary : binaryInspection pdfSample = some pdfFound := by decide
  have hnamed : pdfFound.named (foldedSuffix filename) = pdfFound :=
    if_neg fun hm4a => absurd hm4a.1 (by decide)
  have hagain := binary_again_iff (by decide) hbinary
    (by rw [hnamed, hsuffix, hcategory]; rfl) declaredMimeType
  rw [hnamed, hsuffix] at hagain
  exact hagain

theorem pdfSample_accepted {filename suffix : String} (hsuffix : foldedSuffix filename = suffix)
    (hcategory : extensionCategory suffix = some .document) :
    inspectContent filename "application/octet-stream" pdfSample =
      .ok (pdfFound.effective suffix) := by
  have hplain : isPlainMime "application/octet-stream" := by decide +kernel
  rw [pdfSample_accepted_iff hsuffix hcategory, normalizedMime_of_plain hplain]
  decide

theorem suffix_docx : foldedSuffix "report.docx" = ".docx" := by
  decide +kernel

theorem suffix_pdf : foldedSuffix "report.pdf" = ".pdf" := by
  decide +kernel

/-- An accepted file is accepted again with the type that was detected exactly when its container
is the one that its extension stands for. -/
theorem inspect_again_iff {filename declaredMimeType : String} {sample : Bytes}
    {inspection : ContentInspection}
    (h : inspectContent filename declaredMimeType sample = .ok inspection) :
    inspectContent filename inspection.detectedMimeType sample = .ok inspection ↔
      ContainerFits (foldedSuffix filename)
        ((binaryInspection sample).map (·.container)) := by
  have hview := inspectContent_eq_ok.mp h
  obtain ⟨hne, found, hfound, hcategory, hdeclared, hresult⟩ := hview
  rcases hfound with hbinary | ⟨hbinary, htext⟩
  · have hmem := mem_binaryFindings hbinary
    rw [hresult, binary_again_iff hne hbinary hcategory, hbinary]
    by_cases hdocument : (found.named (foldedSuffix filename)).mediaCategory = .document
    · have hnamed : found.named (foldedSuffix filename) = found := by
        refine if_neg fun hm4a => ?_
        rw [ContentInspection.named, if_pos hm4a] at hdocument
        cases hdocument
      rw [hdocument] at hcategory
      rw [hnamed] at hdocument ⊢
      obtain ⟨extensions, hentry, hsuffix⟩ := extensionCategory_eq_some.mp hcategory
      have hextensions : extensions = documentExtensions := by
        simpa [categoryExtensions] using hentry
      rw [effective_plain hmem]
      exact documents_again_iff found hmem hdocument _ (hextensions ▸ hsuffix)
    · rw [effective_of_ne_document hcategory hdocument]
      exact iff_of_true (named_again hmem hdocument)
        (containerFits_of_ne_document hcategory hdocument _)
  · obtain ⟨htextual, hdocument, hnamed⟩ := named_of_text htext
    rw [hnamed] at hcategory hdeclared hresult
    have hdeclaredText : DeclaredText (normalizedMime declaredMimeType) := by
      rwa [ContentInspection.DeclaredAs, if_pos htextual] at hdeclared
    obtain ⟨hnormal, hagain, htext'⟩ :=
      textInspection_again htext (normalizedMime_normalizedMime _) hdeclaredText
    rw [effective_of_ne_document hcategory hdocument] at hresult
    refine iff_of_true (inspectContent_eq_ok.mpr ?_)
      (containerFits_of_ne_document hcategory hdocument _)
    rw [hresult, hnormal]
    refine ⟨hne, found, .inr ⟨hbinary, htext'⟩, hnamed.symm ▸ hcategory, ?_, ?_⟩
    · rwa [hnamed, ContentInspection.DeclaredAs, if_pos htextual]
    · rw [hnamed, effective_of_ne_document hcategory hdocument]

theorem inspect_again_docx :
    inspectContent "report.pdf" pdfFound.detectedMimeType pdfSample = .ok pdfFound ∧
      ¬ inspectContent "report.docx" pdfAsDocx.detectedMimeType pdfSample = .ok pdfAsDocx := by
  obtain ⟨hpdf, hdocx⟩ := pdfFound_effective
  have hagain := inspect_again_iff (pdfSample_accepted suffix_pdf (by decide))
  have hrefused := inspect_again_iff (pdfSample_accepted suffix_docx (by decide))
  rw [suffix_pdf, hpdf] at hagain
  rw [suffix_docx, hdocx] at hrefused
  exact ⟨hagain.mpr (by decide), fun h => absurd (hrefused.mp h) (by decide)⟩

/-- A PDF file named `report.docx` is accepted as octets and refused as what it was stored as. -/
theorem accepted_upload_refused : ¬ ∀ filename declaredMimeType sample inspection,
    inspectContent filename declaredMimeType sample = .ok inspection →
      inspectContent filename inspection.detectedMimeType sample = .ok inspection := by
  intro h
  have hdocument : extensionCategory ".docx" = some .document := by decide
  have hagain := (pdfSample_accepted_iff suffix_docx hdocument).mp
    (h _ _ _ _ (pdfSample_accepted suffix_docx hdocument))
  have hplain : isPlainMime pdfAsDocx.detectedMimeType := by decide +kernel
  rw [pdfFound_effective.2, normalizedMime_of_plain hplain] at hagain
  exact absurd hagain (by decide)

end ParserServe
