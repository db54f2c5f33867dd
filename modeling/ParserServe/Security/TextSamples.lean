import ParserServe.Foundation.Encodings
import ParserServe.Security.Reinspection

/-! # Samples of text files

`inspect_content` sees the first 64 KiB of a file.  A text file is refused when they have the
signature of a binary format or end inside a character.
-/

namespace ParserServe

open Foundation

/-- The contents of text files. -/
inductive EncodedText : Bytes → Prop
  | utf8 (mark : Bool) {text : List Char} : Char.ofNat 0 ∉ text →
      EncodedText ((if mark then byteOrderMark else []) ++ encodeUtf8 text)
  | utf16 (bigEndian : Bool) (text : List Char) :
      EncodedText (utf16Mark bigEndian ++ encodeUtf16 bigEndian text)

/-- The first `n` bytes of UTF-8, or of UTF-16 in big-endian order, end inside a character. -/
def CutInside (content : Bytes) (n : Nat) : Prop :=
  if startsWith content [0xfe, 0xff] then ∃ byte ∈ content[n - 2]?, isHighByte byte
  else ∃ byte ∈ content[n]?, isContinuation byte

/-! ## Plain text -/

def plainInspection : ContentInspection where
  detectedMimeType := "text/plain"
  mediaCategory := .text
  signature := "unicode-text"
  textual := true

theorem normalizedMime_plain : normalizedMime "text/plain" = "text/plain" :=
  normalizedMime_of_plain (by decide +kernel)

theorem textInspection_plain {suffix : String} (hsuffix : suffix ∉ webExtensions)
    (sample : Bytes) : textInspection sample "text/plain" suffix =
      .ok ((sampleText sample).map fun _ => plainInspection) := by
  have hweb : ¬ (suffix ∈ webExtensions ∨ "text/plain" = "text/html" ∨
      "text/plain" = "application/xhtml+xml") := by
    simpa using hsuffix
  unfold textInspection
  cases sampleText sample with
  | none => rfl
  | some text =>
      simp only
      rw [if_neg hweb, if_pos (.inl (by decide))]
      rfl

theorem binaryFindings_not_text : ∀ found ∈ binaryFindings, found.mediaCategory ≠ .text := by
  decide

theorem named_not_text {found : ContentInspection} (h : found ∈ binaryFindings)
    (suffix : String) : (found.named suffix).mediaCategory ≠ .text := by
  unfold ContentInspection.named
  split
  · exact MediaCategory.noConfusion
  · exact binaryFindings_not_text found h

theorem extensionCategory_text {suffix : String} (h : suffix ∈ textExtensions) :
    extensionCategory suffix = some .text :=
  extensionCategory_eq_some.mpr ⟨_, by simp [categoryExtensions], h⟩

theorem web_of_text {suffix : String} (h : suffix ∈ textExtensions) : suffix ∉ webExtensions := by
  intro hweb
  have hcategory : extensionCategory suffix = some .web :=
    extensionCategory_eq_some.mpr ⟨_, by simp [categoryExtensions], hweb⟩
  rw [extensionCategory_text h] at hcategory
  cases hcategory

/-- A sample declared as plain text under a text extension is accepted as text exactly when it has
no binary signature and can be decoded. -/
theorem inspect_plain_iff {filename : String} {sample : Bytes}
    (hsuffix : foldedSuffix filename ∈ textExtensions) :
    (∃ inspection, inspectContent filename "text/plain" sample = .ok inspection ∧
        inspection.mediaCategory = .text) ↔
      sample ≠ [] ∧ binaryInspection sample = none ∧ (sampleText sample).isSome := by
  have hcategory := extensionCategory_text hsuffix
  have htext := textInspection_plain (web_of_text hsuffix) sample
  have hnamed : plainInspection.named (foldedSuffix filename) = plainInspection :=
    if_neg fun hvideo => absurd hvideo.1 (by decide)
  simp only [inspectContent_eq_ok, normalizedMime_plain]
  constructor
  · rintro ⟨_, ⟨hne, found, hfound, hexpected, -, -⟩, -⟩
    rw [hcategory] at hexpected
    rcases hfound with hbinary | ⟨hbinary, hfound⟩
    · exact absurd (Option.some.inj hexpected).symm (named_not_text (mem_binaryFindings hbinary) _)
    · rw [htext] at hfound
      cases hsample : sampleText sample with
      | none => simp [hsample] at hfound
      | some text => exact ⟨hne, hbinary, rfl⟩
  · rintro ⟨hne, hbinary, hsample⟩
    obtain ⟨text, hsample⟩ := Option.isSome_iff_exists.mp hsample
    rw [hsample] at htext
    refine ⟨_, ⟨hne, plainInspection, .inr ⟨hbinary, htext⟩, ?_, ?_, rfl⟩, ?_⟩
    · rw [hnamed, hcategory]
      rfl
    · rw [hnamed]
      exact .inl (by decide)
    · rw [hnamed, effective_of_ne_document hcategory MediaCategory.noConfusion]
      rfl

/-! ## Cut samples -/

theorem startsWith_false {bytes : Bytes} {byte : UInt8} (h : byte ∉ bytes) (pattern : Bytes) :
    startsWith bytes (byte :: pattern) = false := by
  rw [Bool.eq_false_iff]
  intro hstarts
  exact h ((List.isPrefixOf_iff_prefix.mp hstarts).subset List.mem_cons_self)

theorem sampleText_utf8 {text : List Char} (htext : Char.ofNat 0 ∉ text) (n : Nat) :
    (sampleText ((encodeUtf8 text).take n)).isSome ↔ ¬ CutInside (encodeUtf8 text) n := by
  have hlarge : ∀ byte : UInt8, 0xf4 < byte.toNat → byte ∉ encodeUtf8 text :=
    fun byte hbyte hmem => absurd (encodeUtf8_range hmem).1 (by omega)
  have hsample : ∀ byte : UInt8, byte ∉ encodeUtf8 text → byte ∉ (encodeUtf8 text).take n :=
    fun byte hbyte hmem => hbyte (List.mem_of_mem_take hmem)
  have hff := startsWith_false (hsample 0xff (hlarge 0xff (by decide))) [0xfe]
  have hfe := startsWith_false (hsample 0xfe (hlarge 0xfe (by decide))) [0xff]
  have hmark := startsWith_false (hlarge 0xfe (by decide)) [0xff]
  have hzero : ((encodeUtf8 text).take n).contains 0 = false := by
    rw [Bool.eq_false_iff, Ne, List.contains_iff_mem]
    exact hsample 0 fun hmem => htext ((encodeUtf8_range hmem).2 rfl)
  rw [sampleText, hff, hfe, hzero, CutInside, hmark]
  simp only [Bool.or_self, Bool.false_eq_true, if_false, decodeUtf8Sig_isSome,
    decodeUtf8_take_isSome]
  simp

theorem sampleText_utf16 (text : List Char) (k : Nat) :
    (sampleText ((utf16Mark true ++ encodeUtf16 true text).take (2 * k + 4))).isSome ↔
      ¬ CutInside (utf16Mark true ++ encodeUtf16 true text) (2 * k + 4) := by
  have hmark : startsWith ((utf16Mark true ++ encodeUtf16 true text).take (2 * k + 4))
      [0xfe, 0xff] := by
    rfl
  have hwhole : startsWith (utf16Mark true ++ encodeUtf16 true text) [0xfe, 0xff] := by
    rfl
  have htwo : 2 * k + 4 - 2 = 2 * k + 2 := by omega
  rw [sampleText, hmark, Bool.or_true, if_pos rfl, decodeUtf16_take_isSome, CutInside,
    if_pos hwhole, htwo]
  simp

/-- A sample in little-endian order begins like an MPEG frame. -/
theorem binaryInspection_of_mark {sample : Bytes} (hmark : startsWith sample [0xff, 0xfe]) :
    binaryInspection sample ≠ none := by
  have hsync : maskedSync sample 0xe0 0xe0 := by
    obtain ⟨rest, rfl⟩ := List.isPrefixOf_iff_prefix.mp hmark
    rfl
  have hmem : (startsWith sample (asciiBytes "ID3") || maskedSync sample 0xe0 0xe0,
      audioInspection "audio/mpeg" "mpeg-audio") ∈ binarySignatures sample :=
    List.mem_of_getElem? (i := 14) rfl
  intro hnone
  have hentry := List.find?_eq_none.mp (Option.map_eq_none_iff.mp hnone) _ hmem
  simp [hsync] at hentry

theorem binaryInspection_utf16 (text : List Char) (n : Nat) :
    binaryInspection ((utf16Mark false ++ encodeUtf16 false text).take (n + 2)) ≠ none :=
  binaryInspection_of_mark rfl

/-- The first 64 KiB of a text file are accepted as text exactly when they have no binary
signature and do not end inside a character. -/
theorem text_sample_iff {filename : String} {content : Bytes} (hcontent : EncodedText content)
    (hne : content ≠ []) (hsuffix : foldedSuffix filename ∈ textExtensions) :
    (∃ inspection,
        inspectContent filename "text/plain" (content.take (64 * 1024)) = .ok inspection ∧
          inspection.mediaCategory = .text) ↔
      binaryInspection (content.take (64 * 1024)) = none ∧ ¬ CutInside content (64 * 1024) := by
  have hsample : content.take (64 * 1024) ≠ [] := by
    simpa using hne
  rw [inspect_plain_iff hsuffix, and_iff_right hsample]
  refine and_congr_right fun hbinary => ?_
  cases hcontent with
  | @utf8 mark text htext =>
      cases mark with
      | false => exact sampleText_utf8 htext (64 * 1024)
      | true =>
          have hmarked : byteOrderMark ++ encodeUtf8 text =
              encodeUtf8 (Char.ofNat 0xfeff :: text) := by
            rw [← encodeUtf8_mark]
            simp [encodeUtf8]
          have hnul : Char.ofNat 0 ∉ Char.ofNat 0xfeff :: text :=
            fun hmem => (List.mem_cons.mp hmem).elim (fun heq => absurd heq (by decide)) htext
          rw [if_pos rfl, hmarked]
          exact sampleText_utf8 hnul (64 * 1024)
  | utf16 bigEndian text =>
      cases bigEndian with
      | false => exact absurd hbinary (binaryInspection_utf16 text (64 * 1024 - 2))
      | true => exact sampleText_utf16 text 32766

def utf8Text (text : String) : Bytes := encodeUtf8 text.toList

theorem utf8Text_encoded {text : String} (h : Char.ofNat 0 ∉ text.toList) :
    EncodedText (utf8Text text) :=
  .utf8 false h

theorem suffix_txt : foldedSuffix "notes.txt" ∈ textExtensions := by
  decide +kernel

theorem text_sample_notes : ∃ inspection,
    inspectContent "notes.txt" "text/plain" ((utf8Text "Notes").take (64 * 1024)) =
      .ok inspection ∧ inspection.mediaCategory = .text := by
  refine (text_sample_iff (utf8Text_encoded (by decide)) (by decide) suffix_txt).mpr ?_
  refine ⟨by decide +kernel, ?_⟩
  have hwhole : (utf8Text "Notes")[64 * 1024]? = none := by decide +kernel
  have hmark : startsWith (utf8Text "Notes") [0xfe, 0xff] = false := by decide +kernel
  simp [CutInside, hwhole, hmark]

/-- A text that begins with the letters of a bitmap is refused. -/
theorem text_refused_as_bitmap : ¬ ∀ filename content, EncodedText content → content ≠ [] →
    foldedSuffix filename ∈ textExtensions → ∃ inspection,
      inspectContent filename "text/plain" (content.take (64 * 1024)) = .ok inspection ∧
        inspection.mediaCategory = .text := by
  intro h
  have haccepted := h "notes.txt" (utf8Text "BMW") (utf8Text_encoded (by decide)) (by decide)
    suffix_txt
  have hnone := ((inspect_plain_iff suffix_txt).mp haccepted).2.1
  exact absurd hnone (by decide +kernel)

end ParserServe
