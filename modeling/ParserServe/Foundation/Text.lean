import Mathlib.Data.List.Basic

/-! # Text

Python's text functions on lists of characters: white space, full Unicode case folding, and the
decoders of UTF-8 and UTF-16.  A decoder reads one byte at a time; an output `none` stands for
an ill-formed sequence, so that the strict decoder and the one that replaces errors differ only
in what they make of it.
-/

namespace ParserServe.Foundation

abbrev Bytes := List UInt8

/-- The bytes of an ASCII literal. -/
def asciiBytes (text : String) : Bytes := text.toList.map fun c => UInt8.ofNat c.toNat

/-! ## White space -/

/-- `str.isspace`. -/
def isSpace (c : Char) : Bool :=
  (9 ≤ c.toNat && c.toNat ≤ 13) || (28 ≤ c.toNat && c.toNat ≤ 32) ||
    (0x2000 ≤ c.toNat && c.toNat ≤ 0x200a) ||
    [0x85, 0xa0, 0x1680, 0x2028, 0x2029, 0x202f, 0x205f, 0x3000].contains c.toNat

/-- `str.lstrip`. -/
def lstrip (text : List Char) : List Char := text.dropWhile isSpace

/-- `str.strip`. -/
def strip (text : List Char) : List Char := (lstrip (lstrip text).reverse).reverse

/-! ## Case folding -/

/-- Code points from the first to the second, in the given steps, fold one to one to those from
the last one on. -/
def caseFoldRanges : List (Nat × Nat × Nat × Nat) :=
  [(65, 90, 1, 97), (181, 181, 1, 956), (192, 214, 1, 224), (216, 222, 1, 248),
   (256, 302, 2, 257), (306, 310, 2, 307), (313, 327, 2, 314), (330, 374, 2, 331),
   (376, 376, 1, 255), (377, 381, 2, 378), (383, 383, 1, 115), (385, 385, 1, 595),
   (386, 388, 2, 387), (390, 390, 1, 596), (391, 391, 1, 392), (393, 394, 1, 598),
   (395, 395, 1, 396), (398, 398, 1, 477), (399, 399, 1, 601), (400, 400, 1, 603),
   (401, 401, 1, 402), (403, 403, 1, 608), (404, 404, 1, 611), (406, 406, 1, 617),
   (407, 407, 1, 616), (408, 408, 1, 409), (412, 412, 1, 623), (413, 413, 1, 626),
   (415, 415, 1, 629), (416, 420, 2, 417), (422, 422, 1, 640), (423, 423, 1, 424),
   (425, 425, 1, 643), (428, 428, 1, 429), (430, 430, 1, 648), (431, 431, 1, 432),
   (433, 434, 1, 650), (435, 437, 2, 436), (439, 439, 1, 658), (440, 440, 1, 441),
   (444, 444, 1, 445), (452, 452, 1, 454), (453, 453, 1, 454), (455, 455, 1, 457),
   (456, 456, 1, 457), (458, 458, 1, 460), (459, 475, 2, 460), (478, 494, 2, 479),
   (497, 497, 1, 499), (498, 500, 2, 499), (502, 502, 1, 405), (503, 503, 1, 447),
   (504, 542, 2, 505), (544, 544, 1, 414), (546, 562, 2, 547), (570, 570, 1, 11365),
   (571, 571, 1, 572), (573, 573, 1, 410), (574, 574, 1, 11366), (577, 577, 1, 578),
   (579, 579, 1, 384), (580, 580, 1, 649), (581, 581, 1, 652), (582, 590, 2, 583),
   (837, 837, 1, 953), (880, 882, 2, 881), (886, 886, 1, 887), (895, 895, 1, 1011),
   (902, 902, 1, 940), (904, 906, 1, 941), (908, 908, 1, 972), (910, 911, 1, 973),
   (913, 929, 1, 945), (931, 939, 1, 963), (962, 962, 1, 963), (975, 975, 1, 983),
   (976, 976, 1, 946), (977, 977, 1, 952), (981, 981, 1, 966), (982, 982, 1, 960),
   (984, 1006, 2, 985), (1008, 1008, 1, 954), (1009, 1009, 1, 961), (1012, 1012, 1, 952),
   (1013, 1013, 1, 949), (1015, 1015, 1, 1016), (1017, 1017, 1, 1010), (1018, 1018, 1, 1019),
   (1021, 1023, 1, 891), (1024, 1039, 1, 1104), (1040, 1071, 1, 1072), (1120, 1152, 2, 1121),
   (1162, 1214, 2, 1163), (1216, 1216, 1, 1231), (1217, 1229, 2, 1218), (1232, 1326, 2, 1233),
   (1329, 1366, 1, 1377), (4256, 4293, 1, 11520), (4295, 4295, 1, 11559), (4301, 4301, 1, 11565),
   (5112, 5117, 1, 5104), (7296, 7296, 1, 1074), (7297, 7297, 1, 1076), (7298, 7298, 1, 1086),
   (7299, 7300, 1, 1089), (7301, 7301, 1, 1090), (7302, 7302, 1, 1098), (7303, 7303, 1, 1123),
   (7304, 7304, 1, 42571), (7312, 7354, 1, 4304), (7357, 7359, 1, 4349), (7680, 7828, 2, 7681),
   (7835, 7835, 1, 7777), (7840, 7934, 2, 7841), (7944, 7951, 1, 7936), (7960, 7965, 1, 7952),
   (7976, 7983, 1, 7968), (7992, 7999, 1, 7984), (8008, 8013, 1, 8000), (8025, 8031, 2, 8017),
   (8040, 8047, 1, 8032), (8120, 8121, 1, 8112), (8122, 8123, 1, 8048), (8126, 8126, 1, 953),
   (8136, 8139, 1, 8050), (8152, 8153, 1, 8144), (8154, 8155, 1, 8054), (8168, 8169, 1, 8160),
   (8170, 8171, 1, 8058), (8172, 8172, 1, 8165), (8184, 8185, 1, 8056), (8186, 8187, 1, 8060),
   (8486, 8486, 1, 969), (8490, 8490, 1, 107), (8491, 8491, 1, 229), (8498, 8498, 1, 8526),
   (8544, 8559, 1, 8560), (8579, 8579, 1, 8580), (9398, 9423, 1, 9424), (11264, 11311, 1, 11312),
   (11360, 11360, 1, 11361), (11362, 11362, 1, 619), (11363, 11363, 1, 7549),
   (11364, 11364, 1, 637), (11367, 11371, 2, 11368), (11373, 11373, 1, 593),
   (11374, 11374, 1, 625), (11375, 11375, 1, 592), (11376, 11376, 1, 594),
   (11378, 11378, 1, 11379), (11381, 11381, 1, 11382), (11390, 11391, 1, 575),
   (11392, 11490, 2, 11393), (11499, 11501, 2, 11500), (11506, 11506, 1, 11507),
   (42560, 42604, 2, 42561), (42624, 42650, 2, 42625), (42786, 42798, 2, 42787),
   (42802, 42862, 2, 42803), (42873, 42875, 2, 42874), (42877, 42877, 1, 7545),
   (42878, 42886, 2, 42879), (42891, 42891, 1, 42892), (42893, 42893, 1, 613),
   (42896, 42898, 2, 42897), (42902, 42920, 2, 42903), (42922, 42922, 1, 614),
   (42923, 42923, 1, 604), (42924, 42924, 1, 609), (42925, 42925, 1, 620),
   (42926, 42926, 1, 618), (42928, 42928, 1, 670), (42929, 42929, 1, 647),
   (42930, 42930, 1, 669), (42931, 42931, 1, 43859), (42932, 42946, 2, 42933),
   (42948, 42948, 1, 42900), (42949, 42949, 1, 642), (42950, 42950, 1, 7566),
   (42951, 42953, 2, 42952), (42960, 42960, 1, 42961), (42966, 42968, 2, 42967),
   (42997, 42997, 1, 42998), (43888, 43967, 1, 5024), (65313, 65338, 1, 65345),
   (66560, 66599, 1, 66600), (66736, 66771, 1, 66776), (66928, 66938, 1, 66967),
   (66940, 66954, 1, 66979), (66956, 66962, 1, 66995), (66964, 66965, 1, 67003),
   (68736, 68786, 1, 68800), (71840, 71871, 1, 71872), (93760, 93791, 1, 93792),
   (125184, 125217, 1, 125218)]

/-- Code points that fold to several. -/
def caseFoldFull : List (Nat × List Nat) :=
  [(223, [115, 115]), (304, [105, 775]), (329, [700, 110]), (496, [106, 780]),
   (912, [953, 776, 769]), (944, [965, 776, 769]), (1415, [1381, 1410]), (7830, [104, 817]),
   (7831, [116, 776]), (7832, [119, 778]), (7833, [121, 778]), (7834, [97, 702]),
   (7838, [115, 115]), (8016, [965, 787]), (8018, [965, 787, 768]), (8020, [965, 787, 769]),
   (8022, [965, 787, 834]), (8064, [7936, 953]), (8065, [7937, 953]), (8066, [7938, 953]),
   (8067, [7939, 953]), (8068, [7940, 953]), (8069, [7941, 953]), (8070, [7942, 953]),
   (8071, [7943, 953]), (8072, [7936, 953]), (8073, [7937, 953]), (8074, [7938, 953]),
   (8075, [7939, 953]), (8076, [7940, 953]), (8077, [7941, 953]), (8078, [7942, 953]),
   (8079, [7943, 953]), (8080, [7968, 953]), (8081, [7969, 953]), (8082, [7970, 953]),
   (8083, [7971, 953]), (8084, [7972, 953]), (8085, [7973, 953]), (8086, [7974, 953]),
   (8087, [7975, 953]), (8088, [7968, 953]), (8089, [7969, 953]), (8090, [7970, 953]),
   (8091, [7971, 953]), (8092, [7972, 953]), (8093, [7973, 953]), (8094, [7974, 953]),
   (8095, [7975, 953]), (8096, [8032, 953]), (8097, [8033, 953]), (8098, [8034, 953]),
   (8099, [8035, 953]), (8100, [8036, 953]), (8101, [8037, 953]), (8102, [8038, 953]),
   (8103, [8039, 953]), (8104, [8032, 953]), (8105, [8033, 953]), (8106, [8034, 953]),
   (8107, [8035, 953]), (8108, [8036, 953]), (8109, [8037, 953]), (8110, [8038, 953]),
   (8111, [8039, 953]), (8114, [8048, 953]), (8115, [945, 953]), (8116, [940, 953]),
   (8118, [945, 834]), (8119, [945, 834, 953]), (8124, [945, 953]), (8130, [8052, 953]),
   (8131, [951, 953]), (8132, [942, 953]), (8134, [951, 834]), (8135, [951, 834, 953]),
   (8140, [951, 953]), (8146, [953, 776, 768]), (8147, [953, 776, 769]), (8150, [953, 834]),
   (8151, [953, 776, 834]), (8162, [965, 776, 768]), (8163, [965, 776, 769]), (8164, [961, 787]),
   (8166, [965, 834]), (8167, [965, 776, 834]), (8178, [8060, 953]), (8179, [969, 953]),
   (8180, [974, 953]), (8182, [969, 834]), (8183, [969, 834, 953]), (8188, [969, 953]),
   (64256, [102, 102]), (64257, [102, 105]), (64258, [102, 108]), (64259, [102, 102, 105]),
   (64260, [102, 102, 108]), (64261, [115, 116]), (64262, [115, 116]), (64275, [1396, 1398]),
   (64276, [1396, 1381]), (64277, [1396, 1387]), (64278, [1406, 1398]), (64279, [1396, 1389])]

def casefoldPoint (n : Nat) : List Nat :=
  match caseFoldFull.find? (·.1 = n) with
  | some (_, points) => points
  | none =>
      match caseFoldRanges.find? fun (low, high, step, _) =>
        low ≤ n ∧ n ≤ high ∧ (n - low) % step = 0 with
      | some (low, _, _, target) => [target + (n - low)]
      | none => [n]

def casefoldChar (c : Char) : List Char := (casefoldPoint c.toNat).map Char.ofNat

/-- `str.casefold`. -/
def casefold (text : List Char) : List Char := text.flatMap casefoldChar

theorem casefold_append (a b : List Char) : casefold (a ++ b) = casefold a ++ casefold b :=
  List.flatMap_append

/-- The lower case of an ASCII byte. -/
def asciiLower (byte : UInt8) : UInt8 := if 65 ≤ byte ∧ byte ≤ 90 then byte + 32 else byte

def byteChar (byte : UInt8) : Char := Char.ofNat byte.toNat

theorem casefoldChar_ascii : ∀ n < 128,
    casefoldChar (byteChar (UInt8.ofNat n)) = [byteChar (asciiLower (UInt8.ofNat n))] := by
  decide +kernel

theorem casefoldChar_lower : ∀ n < 128, ¬ (65 ≤ n ∧ n ≤ 90) →
    casefoldChar (Char.ofNat n) = [Char.ofNat n] := by
  intro n hn hlower
  have hfold := casefoldChar_ascii n hn
  have hsize : n < UInt8.size := by
    rw [UInt8.size]
    omega
  have hsame : asciiLower (UInt8.ofNat n) = UInt8.ofNat n := by
    refine if_neg fun hcapital => hlower ?_
    simp only [UInt8.le_iff_toNat_le, UInt8.toNat_ofNat_of_lt' hsize] at hcapital
    exact hcapital
  rwa [hsame, byteChar, UInt8.toNat_ofNat_of_lt' hsize] at hfold

/-- On ASCII text case folding is the lower case. -/
theorem casefold_ascii {bytes : Bytes} (h : ∀ byte ∈ bytes, byte.toNat < 128) :
    casefold (bytes.map byteChar) = (bytes.map asciiLower).map byteChar := by
  induction bytes with
  | nil => rfl
  | cons byte bytes ih =>
      have hbyte := casefoldChar_ascii byte.toNat (h byte List.mem_cons_self)
      rw [UInt8.ofNat_toNat] at hbyte
      rw [List.map_cons, casefold, List.flatMap_cons, hbyte, ← casefold,
        ih fun other hother => h other (List.mem_cons_of_mem _ hother)]
      rfl

/-- ASCII text without capital letters is its own case folding. -/
theorem casefold_lower {text : List Char}
    (h : text.all fun c => decide (c.toNat < 128 ∧ ¬ (65 ≤ c.toNat ∧ c.toNat ≤ 90))) :
    casefold text = text := by
  induction text with
  | nil => rfl
  | cons c text ih =>
      rw [List.all_cons, Bool.and_eq_true, decide_eq_true_eq] at h
      obtain ⟨⟨hascii, hlower⟩, hrest⟩ := h
      have hfold := casefoldChar_lower c.toNat hascii hlower
      rw [Char.ofNat_toNat] at hfold
      rw [casefold, List.flatMap_cons, hfold, ← casefold, ih hrest]
      rfl

/-! ## UTF-8 -/

/-- Between two characters, or inside one: the number of bytes to come, the range of the next of
them and the bits read so far. -/
inductive Utf8State
  | start
  | inside (remaining low high bits : Nat)
  deriving DecidableEq

/-- The first byte of a character. -/
def utf8First (byte : Nat) : List (Option Char) × Utf8State :=
  if byte < 0x80 then ([some (Char.ofNat byte)], .start)
  else if 0xc2 ≤ byte ∧ byte ≤ 0xdf then ([], .inside 1 0x80 0xbf (byte - 0xc0))
  else if 0xe0 ≤ byte ∧ byte ≤ 0xef then
    ([], .inside 2 (if byte = 0xe0 then 0xa0 else 0x80) (if byte = 0xed then 0x9f else 0xbf)
      (byte - 0xe0))
  else if 0xf0 ≤ byte ∧ byte ≤ 0xf4 then
    ([], .inside 3 (if byte = 0xf0 then 0x90 else 0x80) (if byte = 0xf4 then 0x8f else 0xbf)
      (byte - 0xf0))
  else ([none], .start)

def utf8Step : Utf8State → Nat → List (Option Char) × Utf8State
  | .start, byte => utf8First byte
  | .inside remaining low high bits, byte =>
      if low ≤ byte ∧ byte ≤ high then
        if remaining = 1 then ([some (Char.ofNat (bits * 64 + (byte - 0x80)))], .start)
        else ([], .inside (remaining - 1) 0x80 0xbf (bits * 64 + (byte - 0x80)))
      else
        let (output, state) := utf8First byte
        (none :: output, state)

/-- What the decoder makes of the rest of the bytes; a character cut off at the end is one
error. -/
def utf8Run : Utf8State → Bytes → List (Option Char)
  | .start, [] => []
  | .inside .., [] => [none]
  | state, byte :: bytes =>
      (utf8Step state byte.toNat).1 ++ utf8Run (utf8Step state byte.toNat).2 bytes

/-- `bytes.decode("utf-8")`; `none` is a `UnicodeDecodeError`. -/
def decodeUtf8 (bytes : Bytes) : Option (List Char) := (utf8Run .start bytes).mapM id

/-- `bytes.decode("utf-8", errors="replace")`. -/
def decodeUtf8Replace (bytes : Bytes) : List Char :=
  (utf8Run .start bytes).map (·.getD (Char.ofNat 0xfffd))

/-- ASCII bytes are decoded one by one. -/
theorem decodeUtf8_append {bytes rest : Bytes} {text : List Char}
    (hascii : ∀ byte ∈ bytes, byte.toNat < 128) (h : decodeUtf8 (bytes ++ rest) = some text) :
    ∃ tail, text = bytes.map byteChar ++ tail := by
  induction bytes generalizing text with
  | nil => exact ⟨text, rfl⟩
  | cons byte bytes ih =>
      have hstep : utf8Step .start byte.toNat = ([some (byteChar byte)], .start) := by
        have hbyte := hascii byte List.mem_cons_self
        simp [utf8Step, utf8First, hbyte, byteChar]
      rw [List.cons_append, decodeUtf8, utf8Run, hstep, List.singleton_append, List.mapM_cons] at h
      simp only [id_eq, Option.bind_eq_bind, Option.bind_some] at h
      obtain ⟨decoded, hdecoded, heq⟩ := Option.bind_eq_some_iff.mp h
      cases heq
      obtain ⟨tail, rfl⟩ :=
        ih (fun other hother => hascii other (List.mem_cons_of_mem _ hother)) hdecoded
      exact ⟨tail, rfl⟩

def byteOrderMark : Bytes := [0xef, 0xbb, 0xbf]

/-- The bytes after a leading byte order mark. -/
def skipMark (bytes : Bytes) : Bytes :=
  if byteOrderMark.isPrefixOf bytes then bytes.drop 3 else bytes

/-- `bytes.decode("utf-8-sig")`. -/
def decodeUtf8Sig (bytes : Bytes) : Option (List Char) := decodeUtf8 (skipMark bytes)

/-! ## UTF-16 -/

/-- The code units of the bytes in the given order; a last single byte is an error. -/
def utf16Units (bigEndian : Bool) : Bytes → Option (List Nat)
  | [] => some []
  | [_] => none
  | a :: b :: bytes =>
      (utf16Units bigEndian bytes).map fun units =>
        (if bigEndian then a.toNat * 256 + b.toNat else b.toNat * 256 + a.toNat) :: units

def utf16Chars : List Nat → Option (List Char)
  | [] => some []
  | unit :: units =>
      if unit < 0xd800 ∨ 0xdfff < unit then (utf16Chars units).map (Char.ofNat unit :: ·)
      else match units with
        | [] => none
        | low :: rest =>
            if unit < 0xdc00 ∧ 0xdc00 ≤ low ∧ low ≤ 0xdfff then
              (utf16Chars rest).map
                (Char.ofNat (0x10000 + (unit - 0xd800) * 0x400 + (low - 0xdc00)) :: ·)
            else none

/-- `bytes.decode("utf-16")` of bytes that start with a byte order mark. -/
def decodeUtf16 (bytes : Bytes) : Option (List Char) :=
  (utf16Units (bytes.take 2 = [0xfe, 0xff]) (bytes.drop 2)).bind utf16Chars

end ParserServe.Foundation
