import Mathlib.Data.List.Chain
import Mathlib.Data.List.Infix
import Mathlib.Order.Nat
import ParserServe.Backends.Worksheet
import ParserServe.Foundation.Paths

/-! # The guarded archive

`_SafeOfficeArchive`: the limits on a ZIP archive and the check that stands between its XML
members and the parser.  `xml_declarations_iff` says when that check keeps document type and
entity declarations from the parser.
-/

namespace ParserServe

open Foundation

/-! ## Opening -/

/-- An exception of a library call: of a kind that `xml` names, or one that passes through it, such
as `zlib.error` for a damaged stream. -/
inductive LibraryError
  | named
  | other (kind : String)
  deriving DecidableEq

/-- An entry of the archive, with what reading it gives. -/
structure ZipInfo where
  filename : String
  fileSize : Nat
  compressSize : Nat
  encrypted : Bool := false
  content : Except LibraryError Bytes

/-- The name leads out of the archive or cannot be told to stay in it, or the entry is
encrypted. -/
def ZipInfo.isUnsafe (info : ZipInfo) : Bool :=
  info.filename.toList.head? = some '/' || info.filename.toList.contains '\\' ||
    (segments info.filename.toList).contains ['.', '.'] || info.encrypted

/-- The loop over `infolist()`, where `total` bytes have been counted before. -/
def checkEntries (maximumUncompressedBytes : Nat) : Nat → List ZipInfo → Except String Unit
  | _, [] => .ok ()
  | total, info :: rest =>
      if info.isUnsafe then .error "Office archive contains an unsafe entry"
      else if maximumUncompressedBytes < total + info.fileSize then
        .error "Office archive exceeds the uncompressed size limit"
      else if 1000000 < info.fileSize ∧ 0 < info.compressSize ∧
          1000 * info.compressSize < info.fileSize then
        .error "Office archive contains a suspicious compression ratio"
      else checkEntries maximumUncompressedBytes (total + info.fileSize) rest

structure SafeOfficeArchive where
  infos : List ZipInfo
  maximumEntries : Nat
  maximumUncompressedBytes : Nat
  maximumXmlBytes : Nat
  entries_le : infos.length ≤ maximumEntries
  checked : checkEntries maximumUncompressedBytes 0 infos = .ok ()

/-- `_SafeOfficeArchive(path, …)`; no entries where the file is no ZIP archive. -/
def openOfficeArchive (infos : Option (List ZipInfo))
    (maximumEntries maximumUncompressedBytes maximumXmlBytes : Nat) :
    Except String SafeOfficeArchive :=
  match infos with
  | none => .error "Office file is not a valid ZIP archive"
  | some infos =>
      if hentries : infos.length ≤ maximumEntries then
        match hchecked : checkEntries maximumUncompressedBytes 0 infos with
        | .error e => .error e
        | .ok () =>
            .ok ⟨infos, maximumEntries, maximumUncompressedBytes, maximumXmlBytes, hentries,
              hchecked⟩
      else
        .error ("Office archive has " ++ toString infos.length ++ " entries; limit is " ++
          toString maximumEntries)

theorem checkEntries_total {maximum total : Nat} {infos : List ZipInfo} (htotal : total ≤ maximum)
    (h : checkEntries maximum total infos = .ok ()) :
    total + (infos.map (·.fileSize)).sum ≤ maximum := by
  induction infos generalizing total with
  | nil => simpa using htotal
  | cons info infos ih =>
      rw [checkEntries] at h
      split at h
      · cases h
      split at h
      · cases h
      · next hsize =>
          split at h
          · cases h
          · have := ih (Nat.le_of_not_lt hsize) h
            rw [List.map_cons, List.sum_cons]
            omega

/-- An open archive unpacks to no more than its limit. -/
theorem SafeOfficeArchive.total_le (archive : SafeOfficeArchive) :
    (archive.infos.map (·.fileSize)).sum ≤ archive.maximumUncompressedBytes := by
  have := checkEntries_total (Nat.zero_le _) archive.checked
  omega

/-! ## Reading XML -/

/-- `archive.getinfo(name)`: of entries with one name the last. -/
def SafeOfficeArchive.getinfo (archive : SafeOfficeArchive) (name : String) : Option ZipInfo :=
  archive.infos.reverse.find? (·.filename = name)

def declarationWords : List Bytes := [asciiBytes "<!doctype", asciiBytes "<!entity"]

/-- The check of `payload[:4096].lower()`. -/
def declaresEarly (payload : Bytes) : Bool :=
  declarationWords.any fun word => decide (word <:+: (payload.take 4096).map asciiLower)

/-- `xml` up to the parser: the bytes it hands over, none where an optional member is missing. -/
def SafeOfficeArchive.handedOver (archive : SafeOfficeArchive) (name : String)
    (required : Bool) : Except String (Option Bytes) :=
  match archive.getinfo name with
  | none =>
      if required then .error ("Office archive is missing required member " ++ name)
      else .ok none
  | some info =>
      if archive.maximumXmlBytes < info.fileSize then
        .error ("Office XML member " ++ name ++ " exceeds the limit")
      else
        match info.content with
        | .error .named => .error ("Office member " ++ name ++ " could not be read")
        | .error (.other kind) => .error kind
        | .ok payload =>
            if declaresEarly payload then .error "Office XML declarations are not allowed"
            else .ok (some payload)

/-- `xml`, where `fromstring` is the parser. -/
def SafeOfficeArchive.xml (fromstring : Bytes → Except LibraryError Element)
    (archive : SafeOfficeArchive) (name : String) (required : Bool) :
    Except String (Option Element) := do
  match ← archive.handedOver name required with
  | none => .ok none
  | some payload =>
      match fromstring payload with
      | .error .named => .error ("Office member " ++ name ++ " is invalid XML")
      | .error (.other kind) => .error kind
      | .ok root => .ok (some root)

/-! ## Encodings -/

/-- Units of two bytes; a last single byte is none. -/
def pairUnits (bigEndian : Bool) : Bytes → List Nat
  | a :: b :: rest =>
      (if bigEndian then a.toNat * 256 + b.toNat else b.toNat * 256 + a.toNat) ::
        pairUnits bigEndian rest
  | _ => []

/-- UTF-16 is told by a byte order mark or by a zero among the first two bytes. -/
def isWide : Bytes → Bool
  | 0xfe :: 0xff :: _ | 0xff :: 0xfe :: _ | 0 :: _ :: _ | _ :: 0 :: _ => true
  | _ => false

def wideUnits : Bytes → List Nat
  | 0xfe :: 0xff :: rest => pairUnits true rest
  | 0xff :: 0xfe :: rest => pairUnits false rest
  | 0 :: rest => pairUnits true (0 :: rest)
  | payload => pairUnits false payload

/-- Any other encoding agrees with ASCII on the characters of markup. -/
def narrowUnits : Bytes → List Nat
  | 0xef :: 0xbb :: 0xbf :: rest => rest.map (·.toNat)
  | payload => payload.map (·.toNat)

/-- The code units of an XML document after its byte order mark. -/
def codeUnits (payload : Bytes) : List Nat :=
  if isWide payload then wideUnits payload else narrowUnits payload

/-! ## Declarations -/

def units (text : String) : List Nat :=
  text.toList.map (·.toNat)

def isSpaceUnit (unit : Nat) : Bool :=
  unit ∈ [0x20, 0x9, 0xd, 0xa]

/-- What may stand before a document type declaration: white space, comments and processing
instructions, whose form the XML declaration has too. -/
inductive Misc : List Nat → Prop
  | space {unit : Nat} : isSpaceUnit unit → Misc [unit]
  | comment {body : List Nat} : ¬ units "--" <:+: body ++ units "-" →
      Misc (units "<!--" ++ body ++ units "-->")
  | instruction {body : List Nat} : ¬ units "?>" <:+: body ++ units "?" →
      Misc (units "<?" ++ body ++ units "?>")

/-- A document type declaration opens in the prolog of the content.  Entity declarations stand in a
document type declaration only, and what comments, instructions and character data contain
declares nothing. -/
def Declares (payload : Bytes) : Prop :=
  ∃ (prolog : List (List Nat)) (unit : Nat) (rest : List Nat), (∀ part ∈ prolog, Misc part) ∧
    isSpaceUnit unit ∧
    codeUnits payload = prolog.flatten ++ units "<!DOCTYPE" ++ unit :: rest

/-! ## Openings -/

/-- One of the words, in ASCII letters of either case, ends after `position` bytes. -/
def OpeningEnds (payload : Bytes) (position : Nat) : Prop :=
  position ≤ payload.length ∧
    ∃ word ∈ declarationWords, word <:+ (payload.map asciiLower).take position

/-- A word stands in the first bytes exactly when an opening ends there. -/
theorem exists_infix_take_iff (payload : Bytes) (limit : Nat) :
    (∃ word ∈ declarationWords, word <:+: (payload.take limit).map asciiLower) ↔
      ∃ position ≤ limit, OpeningEnds payload position := by
  rw [List.map_take]
  constructor
  · rintro ⟨word, hword, before, after, h⟩
    have hlength := congrArg List.length h
    simp only [List.length_append, List.length_take, List.length_map] at hlength
    refine ⟨(before ++ word).length, ?_, ?_, word, hword, before, ?_⟩
    · rw [List.length_append]
      omega
    · rw [List.length_append]
      omega
    · have hprefix : before ++ word <+: payload.map asciiLower :=
        (List.prefix_append _ after).trans (h ▸ List.take_prefix _ _)
      exact List.prefix_iff_eq_take.mp hprefix
  · rintro ⟨position, hposition, _, word, hword, hends⟩
    refine ⟨word, hword, hends.isInfix.trans ?_⟩
    exact (List.take_prefix_take_left hposition).isInfix

theorem declaresEarly_iff (payload : Bytes) :
    declaresEarly payload ↔ ∃ position ≤ 4096, OpeningEnds payload position := by
  simp only [declaresEarly, List.any_eq_true, decide_eq_true_eq]
  exact exists_infix_take_iff payload 4096

theorem narrowUnits_suffix (payload : Bytes) :
    narrowUnits payload <:+ payload.map (·.toNat) := by
  unfold narrowUnits
  split
  · exact ⟨[0xef, 0xbb, 0xbf], rfl⟩
  · exact List.suffix_rfl

/-- In 8-bit content a declaration opens with a word that the check knows. -/
theorem exists_openingEnds {payload : Bytes} (hnarrow : isWide payload = false)
    (h : Declares payload) : ∃ position, OpeningEnds payload position := by
  obtain ⟨prolog, unit, rest, -, -, hunits⟩ := h
  rw [codeUnits, hnarrow, if_neg Bool.false_ne_true] at hunits
  have hopening : units "<!DOCTYPE" <:+: narrowUnits payload :=
    ⟨prolog.flatten, unit :: rest, hunits.symm⟩
  obtain ⟨bytes, hbytes, hsame⟩ :=
    List.infix_map_iff.mp (hopening.trans (narrowUnits_suffix payload).isInfix)
  have hword : units "<!DOCTYPE" = (asciiBytes "<!DOCTYPE").map (·.toNat) := by decide +kernel
  have hlower : (asciiBytes "<!DOCTYPE").map asciiLower = asciiBytes "<!doctype" := by
    decide +kernel
  have hseen := hbytes.map asciiLower
  rw [List.map_injective_iff.mpr (fun _ _ => UInt8.toNat_inj.mp) (hsame.symm.trans hword),
    hlower] at hseen
  have hsome : ∃ word ∈ declarationWords,
      word <:+: (payload.take payload.length).map asciiLower :=
    ⟨_, List.mem_cons_self, by rwa [List.take_length]⟩
  obtain ⟨position, _, hends⟩ := (exists_infix_take_iff payload payload.length).mp hsome
  exact ⟨position, hends⟩

/-- In 8-bit content with a declaration the check sees an opening when the first one ends early. -/
theorem exists_openingEnds_iff_first {payload : Bytes} (hnarrow : isWide payload = false)
    (h : Declares payload) :
    (∃ position ≤ 4096, OpeningEnds payload position) ↔
      ∀ position, IsLeast {position | OpeningEnds payload position} position →
        position ≤ 4096 := by
  constructor
  · rintro ⟨early, hearly, hends⟩ position hfirst
    exact (hfirst.2 hends).trans hearly
  · intro hall
    classical
    have hfirst := Nat.isLeast_find (exists_openingEnds hnarrow h)
    exact ⟨_, hall _ hfirst, hfirst.1⟩

theorem eq_of_asciiLower {a c : UInt8} (hc : c.toNat < 65) (h : asciiLower a = c) : a = c := by
  unfold asciiLower at h
  split at h
  · next hcapital =>
      rw [UInt8.le_iff_toNat_le, UInt8.le_iff_toNat_le] at hcapital
      have hnat := congrArg UInt8.toNat h
      rw [UInt8.toNat_add] at hnat
      have h65 : (65 : UInt8).toNat = 65 := rfl
      have h90 : (90 : UInt8).toNat = 90 := rfl
      have h32 : (32 : UInt8).toNat = 32 := rfl
      omega
  · exact h

/-- Content where no `<` stands directly before a `!` has no opening. -/
theorem not_openingEnds_of_isChain {payload : Bytes} {position : Nat}
    (h : payload.IsChain fun a b => ¬ (a = 0x3c ∧ b = 0x21)) : ¬ OpeningEnds payload position := by
  rintro ⟨_, word, hword, hends⟩
  obtain ⟨part, hpart, hlower⟩ :=
    List.infix_map_iff.mp (hends.isInfix.trans (List.take_prefix _ _).isInfix)
  have hstart : ∃ tail, word = 0x3c :: 0x21 :: tail := by
    rcases List.mem_cons.mp hword with rfl | hword
    · exact ⟨_, rfl⟩
    · rw [List.mem_singleton.mp hword]
      exact ⟨_, rfl⟩
  obtain ⟨tail, rfl⟩ := hstart
  obtain ⟨a, others, rfl, ha, hothers⟩ := List.map_eq_cons_iff.mp hlower.symm
  obtain ⟨b, rest, rfl, hb, _⟩ := List.map_eq_cons_iff.mp hothers
  have hfirst : a = 0x3c := eq_of_asciiLower (by decide) ha
  have hsecond : b = 0x21 := eq_of_asciiLower (by decide) hb
  have hchain := List.IsChain.infix h hpart
  exact (List.isChain_cons_cons.mp hchain).1 ⟨hfirst, hsecond⟩

/-- The text of Latin-1 characters in UTF-16 with a byte order mark. -/
def latinWide (bigEndian : Bool) (text : Bytes) : Bytes :=
  if bigEndian then [0xfe, 0xff] ++ text.flatMap fun b => [0, b]
  else [0xff, 0xfe] ++ text.flatMap fun b => [b, 0]

theorem not_openingEnds_latinWide (bigEndian : Bool) (text : Bytes) (position : Nat) :
    ¬ OpeningEnds (latinWide bigEndian text) position := by
  have hlittle : ∀ (text : Bytes) (before : UInt8), before ≠ 0x3c →
      (before :: text.flatMap fun b => [b, 0]).IsChain fun a b => ¬ (a = 0x3c ∧ b = 0x21) := by
    intro text
    induction text with
    | nil => intro before _; exact List.isChain_singleton _
    | cons b text ih =>
        intro before hbefore
        refine List.isChain_cons_cons.mpr ⟨fun h => hbefore h.1, ?_⟩
        exact List.isChain_cons_cons.mpr ⟨fun h => absurd h.2 (by decide), ih 0 (by decide)⟩
  have hbig : ∀ (text : Bytes) (before : UInt8),
      (before :: text.flatMap fun b => [0, b]).IsChain fun a b => ¬ (a = 0x3c ∧ b = 0x21) := by
    intro text
    induction text with
    | nil => intro before; exact List.isChain_singleton _
    | cons b text ih =>
        intro before
        refine List.isChain_cons_cons.mpr ⟨fun h => absurd h.2 (by decide), ?_⟩
        exact List.isChain_cons_cons.mpr ⟨fun h => absurd h.1 (by decide), ih b⟩
  cases bigEndian with
  | true =>
      refine not_openingEnds_of_isChain (List.isChain_cons_cons.mpr ⟨?_, hbig text 0xff⟩)
      exact fun h => absurd h.1 (by decide)
  | false =>
      refine not_openingEnds_of_isChain (List.isChain_cons_cons.mpr ⟨?_, hlittle text 0xfe ?_⟩)
      · exact fun h => absurd h.1 (by decide)
      · decide

/-! ## The check -/

/-- The member is there, within the limit, and can be read. -/
def SafeOfficeArchive.Reads (archive : SafeOfficeArchive) (name : String) (payload : Bytes) :
    Prop :=
  ∃ info, archive.getinfo name = some info ∧ info.fileSize ≤ archive.maximumXmlBytes ∧
    info.content = .ok payload

theorem handedOver_eq_ok {archive : SafeOfficeArchive} {name : String} {required : Bool}
    {payload : Bytes} : archive.handedOver name required = .ok (some payload) ↔
      archive.Reads name payload ∧ ¬ ∃ position ≤ 4096, OpeningEnds payload position := by
  rw [← declaresEarly_iff, SafeOfficeArchive.handedOver, SafeOfficeArchive.Reads]
  cases archive.getinfo name with
  | none => cases required <;> simp
  | some info =>
      simp only [Option.some.injEq, exists_eq_left']
      by_cases hsize : archive.maximumXmlBytes < info.fileSize
      · simp [hsize, Nat.not_le_of_lt hsize]
      · cases info.content with
        | error raised => cases raised <;> simp [hsize]
        | ok content =>
            by_cases hearly : declaresEarly content
            · simp only [hsize, hearly, if_true, if_false, reduceCtorEq, Except.ok.injEq,
                false_iff, not_and, not_not]
              rintro ⟨_, rfl⟩
              exact hearly
            · simp only [hsize, hearly, if_false, Bool.false_eq_true, Except.ok.injEq,
                Option.some.injEq, Nat.le_of_not_lt hsize, true_and]
              constructor
              · rintro rfl
                exact ⟨rfl, hearly⟩
              · exact And.left

/-- For every member of every archive: no declaration gets past the check exactly when, in 8-bit
content with a declaration, the first opening ends within 4096 bytes, and in UTF-16 content with one
the first 4096 bytes happen to spell an opening.  Those of Latin-1 text in UTF-16 never do. -/
theorem xml_declarations_iff (archive : SafeOfficeArchive) (name : String) (required : Bool) :
    ((∀ payload, archive.handedOver name required = .ok (some payload) → ¬ Declares payload) ↔
      ∀ payload, archive.Reads name payload → Declares payload →
        if isWide payload then ∃ position ≤ 4096, OpeningEnds payload position
        else ∀ position, IsLeast {position | OpeningEnds payload position} position →
          position ≤ 4096) ∧
    ∀ bigEndian text, archive.Reads name (latinWide bigEndian text) →
      archive.handedOver name required = .ok (some (latinWide bigEndian text)) := by
  refine ⟨forall_congr' fun payload => ?_, fun bigEndian text hreads => ?_⟩
  · have hshown : Declares payload → ((∃ position ≤ 4096, OpeningEnds payload position) ↔
        if isWide payload then ∃ position ≤ 4096, OpeningEnds payload position
        else ∀ position, IsLeast {position | OpeningEnds payload position} position →
          position ≤ 4096) := by
      intro hdeclares
      split
      · exact Iff.rfl
      · next hnarrow =>
          exact exists_openingEnds_iff_first (Bool.eq_false_iff.mpr hnarrow) hdeclares
    rw [handedOver_eq_ok]
    constructor
    · intro h hreads hdeclares
      refine (hshown hdeclares).mp (by_contra fun hnone => ?_)
      exact h ⟨hreads, hnone⟩ hdeclares
    · rintro h ⟨hreads, hnone⟩ hdeclares
      exact hnone ((hshown hdeclares).mpr (h hreads hdeclares))
  · refine handedOver_eq_ok.mpr ⟨hreads, ?_⟩
    rintro ⟨position, _, hends⟩
    exact not_openingEnds_latinWide bigEndian text position hends

/-- Entry of an archive whose only member is UTF-16 text with a document type declaration. -/
def wideMember : ZipInfo where
  filename := "[Content_Types].xml"
  fileSize := 34
  compressSize := 30
  content := .ok (latinWide false (asciiBytes "<!DOCTYPE a><a/>"))

def wideArchive : SafeOfficeArchive where
  infos := [wideMember]
  maximumEntries := 10000
  maximumUncompressedBytes := 268435456
  maximumXmlBytes := 33554432
  entries_le := by decide
  checked := by decide +kernel

/-- The declaration reaches the parser. -/
theorem wide_declaration_handed_over :
    ¬ ∀ payload, wideArchive.handedOver "[Content_Types].xml" true = .ok (some payload) →
      ¬ Declares payload := by
  intro h
  refine h (latinWide false (asciiBytes "<!DOCTYPE a><a/>")) (by decide +kernel) ?_
  exact ⟨[], 0x20, units "a><a/>", nofun, by decide, by decide +kernel⟩

/-! ## Worksheets of an archive -/

def relationshipTag : String :=
  "\x7bhttp://schemas.openxmlformats.org/package/2006/relationships\x7dRelationship"

def relationshipIdKey : String :=
  "\x7bhttp://schemas.openxmlformats.org/officeDocument/2006/relationships\x7did"

/-- The member a relationship's target names. -/
def sheetTarget (target : Text) : Except String Text :=
  let target := target.dropWhile (· = '/')
  if "worksheets/".toList.isPrefixOf target then .ok ("xl/".toList ++ target)
  else if "xl/".toList.isPrefixOf target then .ok target
  else .error "XLSX worksheet target is unsafe"

section

variable (xml : String → Bool → Except String (Option Element))

/-- A member that `xml` was told to require. -/
def requiredXml (name : String) : Except String Element := do
  match ← xml name true with
  | none => .error "AssertionError"
  | some root => .ok root

/-- `_sheet_targets`. -/
def sheetTargets : Except String (List (Text × Text)) := do
  let workbook ← requiredXml xml "xl/workbook.xml"
  let relationships ← requiredXml xml "xl/_rels/workbook.xml.rels"
  let targets := (relationships.findall relationshipTag).map fun relation =>
    (relation.get "Id", relation.get "Target")
  match workbook.find (sheetTag "sheets") with
  | none => .ok []
  | some sheets =>
      (sheets.findall (sheetTag "sheet")).mapM fun sheet => do
        let target ← sheetTarget ((targets.reverse.lookup (sheet.get relationshipIdKey)).getD [])
        .ok ((sheet.get? "name").getD "Sheet".toList, target)

/-- A table of the result: the rows of one worksheet. -/
structure SheetTable where
  sheetName : Text
  rows : List (List Text)

/-- `_xlsx`: the tables in the order of the sheets, and the number of sheets. -/
def xlsx : Except String (List SheetTable × Nat) := do
  let shared ← (xml "xl/sharedStrings.xml" false).map sharedStrings
  let sheets ← sheetTargets xml
  let tables ← sheets.mapM fun (sheetName, target) => do
    let root ← requiredXml xml (String.ofList target)
    let rows ← sheetRows shared root
    .ok (if rows = [] then [] else [SheetTable.mk sheetName rows])
  .ok (tables.flatten, sheets.length)

/-- Every table of the result holds the rows of a worksheet, and at least one. -/
theorem xlsx_table {tables : List SheetTable} {count : Nat} (h : xlsx xml = .ok (tables, count)) :
    ∀ table ∈ tables, table.rows ≠ [] ∧
      ∃ shared root, sheetRows shared root = .ok table.rows := by
  intro table htable
  simp only [xlsx, bind_eq_ok, Except.ok.injEq] at h
  obtain ⟨shared, _, sheets, _, lists, hlists, heq⟩ := h
  cases heq
  obtain ⟨list, hlist, hmem⟩ := List.mem_flatten.mp htable
  obtain ⟨sheet, _, hsheet⟩ := exists_of_mem_mapM hlists hlist
  simp only [bind_eq_ok, Except.ok.injEq] at hsheet
  obtain ⟨root, _, rows, hrows, rfl⟩ := hsheet
  by_cases hempty : rows = []
  · rw [if_pos hempty] at hmem
    cases hmem
  · rw [if_neg hempty, List.mem_singleton] at hmem
    subst hmem
    exact ⟨hempty, shared, root, hrows⟩

end

end ParserServe
