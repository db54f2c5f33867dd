import ParserServe.Foundation.Text

/-! # Encoded text, cut off

The encoders of UTF-8 and UTF-16, and what the decoders make of the first bytes of an encoded
text: they fail exactly when the cut goes through a character.
-/

namespace ParserServe.Foundation

/-! ## UTF-8 -/

/-- `text.encode("utf-8")`. -/
def encodeUtf8 (text : List Char) : Bytes := text.flatMap String.utf8EncodeChar

theorem encodeUtf8_append (first second : List Char) :
    encodeUtf8 (first ++ second) = encodeUtf8 first ++ encodeUtf8 second := List.flatMap_append

theorem utf8ByteSize_ofList (text : List Char) :
    (String.ofList text).utf8ByteSize = (encodeUtf8 text).length := by
  induction text with
  | nil => rfl
  | cons c text ih =>
      rw [← List.singleton_append, String.ofList_append, String.utf8ByteSize_append, ih]
      simp [encodeUtf8]

theorem length_encodeUtf8_flatten (n : Nat) (text : List Char) :
    (encodeUtf8 (List.replicate n text).flatten).length = n * (encodeUtf8 text).length := by
  induction n with
  | zero => simp [encodeUtf8]
  | succ n ih =>
      rw [List.replicate_succ, List.flatten_cons, encodeUtf8_append, List.length_append, ih,
        Nat.succ_mul, Nat.add_comm]

theorem length_encodeUtf8_between (first middle last : List Char) (n : Nat) :
    (encodeUtf8 (first ++ (List.replicate n middle).flatten ++ last)).length =
      (encodeUtf8 first).length + n * (encodeUtf8 middle).length + (encodeUtf8 last).length := by
  rw [encodeUtf8_append, encodeUtf8_append, List.length_append, List.length_append,
    length_encodeUtf8_flatten]

/-- The byte is inside a character. -/
def isContinuation (byte : UInt8) : Bool := 0x80 ≤ byte.toNat && byte.toNat ≤ 0xbf

theorem continuation_range {byte : UInt8} (h : isContinuation byte) :
    0x80 ≤ byte.toNat ∧ byte.toNat ≤ 0xbf := by
  simpa [isContinuation] using h

theorem utf8Run_first {byte : UInt8} {bytes : Bytes} {state : Utf8State}
    (h : utf8First byte.toNat = ([], state)) :
    utf8Run .start (byte :: bytes) = utf8Run state bytes := by
  simp [utf8Run, utf8Step, h]

theorem utf8Run_more {remaining low high bits : Nat} {byte : UInt8} {bytes : Bytes}
    (hrange : low ≤ byte.toNat ∧ byte.toNat ≤ high) (hmore : remaining ≠ 1) :
    utf8Run (.inside remaining low high bits) (byte :: bytes) =
      utf8Run (.inside (remaining - 1) 0x80 0xbf (bits * 64 + (byte.toNat - 0x80))) bytes := by
  simp [utf8Run, utf8Step, hrange, hmore]

theorem utf8Run_last {low high bits : Nat} {byte : UInt8} {bytes : Bytes}
    (hrange : low ≤ byte.toNat ∧ byte.toNat ≤ high) :
    utf8Run (.inside 1 low high bits) (byte :: bytes) =
      some (Char.ofNat (bits * 64 + (byte.toNat - 0x80))) :: utf8Run .start bytes := by
  simp [utf8Run, utf8Step, hrange]

/-- The bytes complete the character that the decoder has begun to read. -/
inductive Completes (c : Char) : Utf8State → Bytes → Prop
  | last {low high bits : Nat} {byte : UInt8} : isContinuation byte →
      low ≤ byte.toNat ∧ byte.toNat ≤ high → c.toNat = bits * 64 + (byte.toNat - 0x80) →
      Completes c (.inside 1 low high bits) [byte]
  | more {remaining low high bits : Nat} {byte : UInt8} {bytes : Bytes} : isContinuation byte →
      low ≤ byte.toNat ∧ byte.toNat ≤ high → remaining ≠ 0 →
      Completes c (.inside remaining 0x80 0xbf (bits * 64 + (byte.toNat - 0x80))) bytes →
      Completes c (.inside (remaining + 1) low high bits) (byte :: bytes)

theorem Completes.run {c : Char} {state : Utf8State} {bytes : Bytes}
    (h : Completes c state bytes) (rest : Bytes) :
    utf8Run state (bytes ++ rest) = some c :: utf8Run .start rest := by
  induction h with
  | last _ hrange hvalue =>
      rw [List.singleton_append, utf8Run_last hrange, ← hvalue, Char.ofNat_toNat]
  | more _ hrange hmore _ ih =>
      rw [List.cons_append, utf8Run_more hrange (by omega), Nat.add_sub_cancel, ih]

/-- A cut before the last byte is an error. -/
theorem Completes.none_mem_take {c : Char} {state : Utf8State} {bytes : Bytes}
    (h : Completes c state bytes) {n : Nat} (hn : n < bytes.length) :
    none ∈ utf8Run state (bytes.take n) := by
  induction h generalizing n with
  | last =>
      have hzero : n = 0 := by simpa using hn
      simp [hzero, utf8Run]
  | more _ hrange hmore _ ih =>
      cases n with
      | zero => simp [utf8Run]
      | succ n =>
          rw [List.take_succ_cons, utf8Run_more hrange (by omega), Nat.add_sub_cancel]
          exact ih (by simpa using hn)

theorem Completes.isContinuation {c : Char} {state : Utf8State} {bytes : Bytes}
    (h : Completes c state bytes) : ∀ byte ∈ bytes, Foundation.isContinuation byte := by
  induction h with
  | last hbyte => simpa using hbyte
  | more hbyte _ _ _ ih => exact List.forall_mem_cons.mpr ⟨hbyte, ih⟩

/-- A character is one ASCII byte, or a first byte with those that complete it. -/
inductive EncodedChar (c : Char) : Bytes → Prop
  | ascii {byte : UInt8} : byte.toNat < 0x80 → byte.toNat = c.toNat → EncodedChar c [byte]
  | long {first : UInt8} {bytes : Bytes} {state : Utf8State} : ¬ isContinuation first →
      utf8First first.toNat = ([], state) → Completes c state bytes →
      EncodedChar c (first :: bytes)

theorem toNat_ofNat_byte {n : Nat} (h : n < 256) : (UInt8.ofNat n).toNat = n := by
  rw [UInt8.toNat_ofNat', Nat.mod_eq_of_lt h]

theorem isContinuation_ofNat {n : Nat} (h : 0x80 ≤ n ∧ n ≤ 0xbf) :
    isContinuation (UInt8.ofNat n) := by
  rw [isContinuation, toNat_ofNat_byte (by omega)]
  simp [h.1, h.2]

theorem not_isContinuation_ofNat {n : Nat} (h : 0xc0 ≤ n ∧ n < 256) :
    ¬ isContinuation (UInt8.ofNat n) := by
  rw [isContinuation, toNat_ofNat_byte h.2]
  simp only [Bool.and_eq_true, decide_eq_true_eq]
  omega

theorem utf8EncodeChar_spec (c : Char) : EncodedChar c (String.utf8EncodeChar c) := by
  have hvalid : c.toNat < 0xd800 ∨ 0xdfff < c.toNat ∧ c.toNat < 0x110000 := c.valid
  unfold String.utf8EncodeChar
  rw [show c.val.toNat = c.toNat from rfl]
  generalize hv : c.toNat = v at hvalid
  simp only
  split
  · have ha : (UInt8.ofNat v).toNat = v := toNat_ofNat_byte (by omega)
    exact .ascii (by omega) (by omega)
  · have hd := toNat_ofNat_byte (n := v % 64 + 128) (by omega)
    have hlast := isContinuation_ofNat (n := v % 64 + 128) (by omega)
    split
    · have ha := toNat_ofNat_byte (n := v / 64 % 32 + 192) (by omega)
      have hfirst : utf8First (v / 64 % 32 + 192) =
          ([], .inside 1 0x80 0xbf (v / 64 % 32 + 192 - 0xc0)) := by
        rw [utf8First, if_neg (by omega), if_pos (by omega)]
      exact .long (not_isContinuation_ofNat (by omega)) (ha.symm ▸ hfirst)
        (.last hlast (by omega) (by omega))
    · have hb := toNat_ofNat_byte (n := v / 64 % 64 + 128) (by omega)
      have hmore := isContinuation_ofNat (n := v / 64 % 64 + 128) (by omega)
      split
      · have ha := toNat_ofNat_byte (n := v / 4096 % 16 + 224) (by omega)
        have hfirst : utf8First (v / 4096 % 16 + 224) =
            ([], .inside 2 (if v / 4096 % 16 + 224 = 0xe0 then 0xa0 else 0x80)
              (if v / 4096 % 16 + 224 = 0xed then 0x9f else 0xbf)
              (v / 4096 % 16 + 224 - 0xe0)) := by
          rw [utf8First, if_neg (by omega), if_neg (by omega), if_pos (by omega)]
        refine .long (not_isContinuation_ofNat (by omega)) (ha.symm ▸ hfirst)
          (.more hmore ?_ (by omega) (.last hlast (by omega) (by omega)))
        constructor <;> split <;> omega
      · have hc := toNat_ofNat_byte (n := v / 4096 % 64 + 128) (by omega)
        have hsecond := isContinuation_ofNat (n := v / 4096 % 64 + 128) (by omega)
        have ha := toNat_ofNat_byte (n := v / 262144 % 8 + 240) (by omega)
        have hfirst : utf8First (v / 262144 % 8 + 240) =
            ([], .inside 3 (if v / 262144 % 8 + 240 = 0xf0 then 0x90 else 0x80)
              (if v / 262144 % 8 + 240 = 0xf4 then 0x8f else 0xbf)
              (v / 262144 % 8 + 240 - 0xf0)) := by
          rw [utf8First, if_neg (by omega), if_neg (by omega), if_neg (by omega),
            if_pos (by omega)]
        refine .long (not_isContinuation_ofNat (by omega)) (ha.symm ▸ hfirst)
          (.more hsecond ?_ (by omega)
            (.more hmore (by omega) (by omega) (.last hlast (by omega) (by omega))))
        constructor <;> split <;> omega

theorem EncodedChar.utf8Run_append {c : Char} {bytes : Bytes} (h : EncodedChar c bytes)
    (rest : Bytes) : utf8Run .start (bytes ++ rest) = some c :: utf8Run .start rest := by
  cases h with
  | @ascii byte hascii hvalue =>
      have hfirst : utf8First byte.toNat = ([some c], .start) := by
        rw [utf8First, if_pos hascii, hvalue, Char.ofNat_toNat]
      simp [utf8Run, utf8Step, hfirst]
  | long _ hfirst hrest => rw [List.cons_append, utf8Run_first hfirst, hrest.run]

theorem EncodedChar.ne_nil {c : Char} {bytes : Bytes} (h : EncodedChar c bytes) :
    bytes ≠ [] := by
  cases h <;> simp

/-- The first byte of a character is no continuation, and the others are. -/
theorem EncodedChar.isContinuation_iff {c : Char} {bytes : Bytes} (h : EncodedChar c bytes)
    {n : Nat} (hn : n < bytes.length) : isContinuation bytes[n] ↔ n ≠ 0 := by
  cases h with
  | @ascii byte hascii =>
      have hzero : n = 0 := by simpa using hn
      subst hzero
      simp only [List.getElem_cons_zero, isContinuation, Bool.and_eq_true, decide_eq_true_eq]
      omega
  | long hfirst _ hrest =>
      cases n with
      | zero => simpa using hfirst
      | succ n =>
          rw [List.getElem_cons_succ]
          exact iff_of_true (hrest.isContinuation _ (List.getElem_mem _)) (Nat.succ_ne_zero n)

/-- Inside a character the rest of the bytes is an error. -/
theorem EncodedChar.none_mem_take {c : Char} {bytes : Bytes} (h : EncodedChar c bytes) {n : Nat}
    (hpos : n ≠ 0) (hn : n < bytes.length) : none ∈ utf8Run .start (bytes.take n) := by
  obtain ⟨n, rfl⟩ := Nat.exists_eq_succ_of_ne_zero hpos
  cases h with
  | ascii => simp at hn
  | long _ hfirst hrest =>
      rw [List.take_succ_cons, utf8Run_first hfirst]
      exact hrest.none_mem_take (by simpa using hn)

theorem utf8First_range {byte : Nat} {state : Utf8State} (h : utf8First byte = ([], state)) :
    0x80 ≤ byte ∧ byte ≤ 0xf4 := by
  unfold utf8First at h
  split at h
  · cases h
  · split at h
    · omega
    · split at h
      · omega
      · split at h
        · omega
        · cases h

/-- No byte has five leading ones, and a zero is a character of its own. -/
theorem EncodedChar.byte_range {c : Char} {bytes : Bytes} (h : EncodedChar c bytes)
    {byte : UInt8} (hbyte : byte ∈ bytes) :
    byte.toNat ≤ 0xf4 ∧ (byte.toNat = 0 → c.toNat = 0) := by
  cases h with
  | ascii hascii hvalue =>
      rw [List.mem_singleton.mp hbyte]
      omega
  | long _ hfirst hrest =>
      rcases List.mem_cons.mp hbyte with rfl | hbyte
      · have hrange := utf8First_range hfirst
        omega
      · have hrange := continuation_range (hrest.isContinuation byte hbyte)
        omega

/-! ## Whole texts in UTF-8 -/

theorem mapM_id_isSome {α : Type} (outputs : List (Option α)) :
    (outputs.mapM id).isSome ↔ none ∉ outputs := by
  induction outputs with
  | nil => simp
  | cons output outputs ih => cases output <;> cases h : outputs.mapM id <;> simp_all

theorem decodeUtf8_isSome (bytes : Bytes) :
    (decodeUtf8 bytes).isSome ↔ none ∉ utf8Run .start bytes :=
  mapM_id_isSome _

theorem encodeUtf8_range {text : List Char} {byte : UInt8} (h : byte ∈ encodeUtf8 text) :
    byte.toNat ≤ 0xf4 ∧ (byte.toNat = 0 → Char.ofNat 0 ∈ text) := by
  obtain ⟨c, hc, hbyte⟩ := List.mem_flatMap.mp h
  obtain ⟨hrange, hzero⟩ := (utf8EncodeChar_spec c).byte_range hbyte
  refine ⟨hrange, fun h => ?_⟩
  rw [← hzero h, Char.ofNat_toNat]
  exact hc

theorem utf8Run_encodeUtf8 (text : List Char) (rest : Bytes) :
    utf8Run .start (encodeUtf8 text ++ rest) = text.map some ++ utf8Run .start rest := by
  induction text with
  | nil => rfl
  | cons c text ih =>
      rw [encodeUtf8, List.flatMap_cons, List.append_assoc,
        (utf8EncodeChar_spec c).utf8Run_append, ← encodeUtf8, ih]
      rfl

/-- The first bytes of a text are text exactly when the next byte begins a character. -/
theorem decodeUtf8_take_isSome (text : List Char) (n : Nat) :
    (decodeUtf8 ((encodeUtf8 text).take n)).isSome ↔
      ∀ byte ∈ (encodeUtf8 text)[n]?, ¬ isContinuation byte := by
  rw [decodeUtf8_isSome]
  induction text generalizing n with
  | nil => simp [encodeUtf8, utf8Run]
  | cons c text ih =>
      have hchar := utf8EncodeChar_spec c
      rw [encodeUtf8, List.flatMap_cons, ← encodeUtf8]
      generalize String.utf8EncodeChar c = bytes at hchar
      by_cases hn : n < bytes.length
      · rw [List.take_append_of_le_length (Nat.le_of_lt hn), List.getElem?_append_left hn,
          List.getElem?_eq_getElem hn]
        simp only [Option.mem_some_iff, forall_eq', hchar.isContinuation_iff hn, not_not]
        constructor
        · intro hnone
          by_contra hpos
          exact hnone (hchar.none_mem_take hpos hn)
        · rintro rfl
          simp [utf8Run]
      · have hle : bytes.length ≤ n := Nat.le_of_not_lt hn
        rw [List.take_append, List.take_of_length_le hle, hchar.utf8Run_append,
          List.getElem?_append_right hle]
        simpa using ih (n - bytes.length)

/-- A byte order mark is the character U+FEFF. -/
theorem encodeUtf8_mark : encodeUtf8 [Char.ofNat 0xfeff] = byteOrderMark := by
  decide +kernel

/-- Skipping a mark does not decide whether the bytes are text. -/
theorem decodeUtf8Sig_isSome (bytes : Bytes) :
    (decodeUtf8Sig bytes).isSome ↔ (decodeUtf8 bytes).isSome := by
  unfold decodeUtf8Sig skipMark
  split
  · next hmark =>
      obtain ⟨rest, rfl⟩ := List.isPrefixOf_iff_prefix.mp hmark
      have hdrop : (byteOrderMark ++ rest).drop 3 = rest := rfl
      rw [hdrop, decodeUtf8_isSome, decodeUtf8_isSome, ← encodeUtf8_mark,
        utf8Run_encodeUtf8]
      simp
  · rfl

/-! ## UTF-16 -/

/-- The code units of a character. -/
def utf16EncodeChar (c : Char) : List Nat :=
  if c.toNat < 0x10000 then [c.toNat]
  else [0xd800 + (c.toNat - 0x10000) / 0x400, 0xdc00 + (c.toNat - 0x10000) % 0x400]

def utf16EncodeUnit (bigEndian : Bool) (unit : Nat) : Bytes :=
  let high := UInt8.ofNat (unit / 256)
  let low := UInt8.ofNat (unit % 256)
  if bigEndian then [high, low] else [low, high]

/-- `text.encode("utf-16-be")` and `text.encode("utf-16-le")`. -/
def encodeUtf16 (bigEndian : Bool) (text : List Char) : Bytes :=
  (text.flatMap utf16EncodeChar).flatMap (utf16EncodeUnit bigEndian)

def utf16Mark (bigEndian : Bool) : Bytes := if bigEndian then [0xfe, 0xff] else [0xff, 0xfe]

/-- The first half of a surrogate pair. -/
def isHighSurrogate (unit : Nat) : Bool := 0xd800 ≤ unit && unit ≤ 0xdbff

theorem utf16EncodeChar_lt (c : Char) : ∀ unit ∈ utf16EncodeChar c, unit < 0x10000 := by
  have hvalid : c.toNat < 0xd800 ∨ 0xdfff < c.toNat ∧ c.toNat < 0x110000 := c.valid
  unfold utf16EncodeChar
  split
  · simpa using by omega
  · simp only [List.forall_mem_cons, List.not_mem_nil, false_implies, implies_true, and_true]
    omega

theorem utf16Units_take (units : List Nat) (hunits : ∀ unit ∈ units, unit < 0x10000) (k : Nat) :
    utf16Units true ((units.flatMap (utf16EncodeUnit true)).take (2 * k)) =
      some (units.take k) := by
  induction units generalizing k with
  | nil => simp [utf16Units]
  | cons unit units ih =>
      cases k with
      | zero => simp [utf16Units]
      | succ k =>
          obtain ⟨hunit, hunits⟩ := List.forall_mem_cons.mp hunits
          have hhigh : (UInt8.ofNat (unit / 256)).toNat = unit / 256 :=
            toNat_ofNat_byte (by omega)
          have hlow : (UInt8.ofNat (unit % 256)).toNat = unit % 256 :=
            toNat_ofNat_byte (by omega)
          have hvalue : unit / 256 * 256 + unit % 256 = unit := Nat.div_add_mod' unit 256
          have htwo : 2 * (k + 1) = 2 * k + 1 + 1 := by omega
          simp [utf16EncodeUnit, htwo, utf16Units, hhigh, hlow, hvalue, ih hunits k]

theorem utf16Chars_single {unit : Nat} (h : unit < 0xd800 ∨ 0xdfff < unit) (units : List Nat) :
    utf16Chars (unit :: units) = (utf16Chars units).map (Char.ofNat unit :: ·) := by
  rw [utf16Chars.eq_def]
  exact if_pos h

theorem utf16Chars_pair {high low : Nat} (hhigh : isHighSurrogate high)
    (hlow : 0xdc00 ≤ low ∧ low ≤ 0xdfff) (units : List Nat) :
    (utf16Chars (high :: low :: units)).isSome = (utf16Chars units).isSome := by
  simp only [isHighSurrogate, Bool.and_eq_true, decide_eq_true_eq] at hhigh
  rw [utf16Chars.eq_def]
  simp only
  rw [if_neg (by omega), if_pos (by omega), Option.isSome_map]

theorem utf16Chars_high {high : Nat} (hhigh : isHighSurrogate high) : utf16Chars [high] = none := by
  simp only [isHighSurrogate, Bool.and_eq_true, decide_eq_true_eq] at hhigh
  rw [utf16Chars.eq_def]
  exact if_neg (by omega)

/-- The first units of a text are text exactly when the last of them does not begin a pair. -/
theorem utf16Chars_take_isSome (text : List Char) (k : Nat) :
    (utf16Chars ((text.flatMap utf16EncodeChar).take (k + 1))).isSome ↔
      ∀ unit ∈ (text.flatMap utf16EncodeChar)[k]?, ¬ isHighSurrogate unit := by
  induction text generalizing k with
  | nil => simp [utf16Chars]
  | cons c text ih =>
      have hvalid : c.toNat < 0xd800 ∨ 0xdfff < c.toNat ∧ c.toNat < 0x110000 := c.valid
      rw [List.flatMap_cons]
      by_cases hsmall : c.toNat < 0x10000
      · have hunit : c.toNat < 0xd800 ∨ 0xdfff < c.toNat := by omega
        rw [utf16EncodeChar, if_pos hsmall, List.singleton_append, List.take_succ_cons,
          utf16Chars_single hunit, Option.isSome_map]
        cases k with
        | zero =>
            have hlow : ¬ isHighSurrogate c.toNat := by
              simp only [isHighSurrogate, Bool.and_eq_true, decide_eq_true_eq]
              omega
            simpa [utf16Chars] using hlow
        | succ k => simpa using ih k
      · have hhigh : isHighSurrogate (0xd800 + (c.toNat - 0x10000) / 0x400) := by
          simp only [isHighSurrogate, Bool.and_eq_true, decide_eq_true_eq]
          omega
        rw [utf16EncodeChar, if_neg hsmall, List.cons_append, List.take_succ_cons]
        cases k with
        | zero => simpa [utf16Chars_high hhigh] using hhigh
        | succ k =>
            rw [List.singleton_append, List.take_succ_cons, utf16Chars_pair hhigh (by omega)]
            cases k with
            | zero =>
                have hlow : ¬ isHighSurrogate (0xdc00 + (c.toNat - 0x10000) % 0x400) := by
                  simp only [isHighSurrogate, Bool.and_eq_true, decide_eq_true_eq]
                  omega
                simpa [utf16Chars] using hlow
            | succ k => simpa using ih k

theorem getElem?_utf16Units (units : List Nat) (k : Nat) :
    (units.flatMap (utf16EncodeUnit true))[2 * k]? =
      units[k]?.map fun unit => UInt8.ofNat (unit / 256) := by
  induction units generalizing k with
  | nil => simp
  | cons unit units ih =>
      cases k with
      | zero => simp [utf16EncodeUnit]
      | succ k =>
          have htwo : 2 * (k + 1) = 2 * k + 1 + 1 := by omega
          simpa [utf16EncodeUnit, htwo] using ih k

/-- The byte is the first of the first half of a surrogate pair. -/
def isHighByte (byte : UInt8) : Bool := 0xd8 ≤ byte.toNat && byte.toNat ≤ 0xdb

theorem isHighByte_iff {unit : Nat} (h : unit < 0x10000) :
    isHighByte (UInt8.ofNat (unit / 256)) = isHighSurrogate unit := by
  rw [isHighByte, isHighSurrogate, toNat_ofNat_byte (by omega), Bool.eq_iff_iff]
  simp only [Bool.and_eq_true, decide_eq_true_eq]
  omega

theorem mem_utf16Units {text : List Char} {unit : Nat}
    (h : unit ∈ text.flatMap utf16EncodeChar) : unit < 0x10000 := by
  obtain ⟨c, _, hunit⟩ := List.mem_flatMap.mp h
  exact utf16EncodeChar_lt c unit hunit

/-- The first bytes of a big-endian text with its mark, an even number of them, are text exactly
when they do not end inside a pair. -/
theorem decodeUtf16_take_isSome (text : List Char) (k : Nat) :
    (decodeUtf16 ((utf16Mark true ++ encodeUtf16 true text).take (2 * k + 4))).isSome ↔
      ∀ byte ∈ (utf16Mark true ++ encodeUtf16 true text)[2 * k + 2]?, ¬ isHighByte byte := by
  have hunits : ∀ unit ∈ text.flatMap utf16EncodeChar, unit < 0x10000 :=
    fun _ hunit => mem_utf16Units hunit
  have hbytes : (utf16Mark true ++ encodeUtf16 true text).take (2 * k + 4) =
      0xfe :: 0xff :: (encodeUtf16 true text).take (2 * (k + 1)) :=
    rfl
  have hbyte : (utf16Mark true ++ encodeUtf16 true text)[2 * k + 2]? =
      (encodeUtf16 true text)[2 * k]? :=
    rfl
  have hmark : decodeUtf16 (0xfe :: 0xff :: (encodeUtf16 true text).take (2 * (k + 1))) =
      (utf16Units true ((encodeUtf16 true text).take (2 * (k + 1)))).bind utf16Chars :=
    rfl
  rw [hbytes, hbyte, hmark, encodeUtf16, utf16Units_take _ hunits, getElem?_utf16Units,
    Option.bind_some, utf16Chars_take_isSome]
  constructor
  · intro h byte hbyte
    obtain ⟨unit, hunit, rfl⟩ := Option.map_eq_some_iff.mp hbyte
    rw [isHighByte_iff (hunits unit (List.mem_of_getElem? hunit))]
    exact h unit hunit
  · intro h unit hunit
    rw [← isHighByte_iff (hunits unit (List.mem_of_getElem? hunit))]
    exact h _ (Option.map_eq_some_iff.mpr ⟨unit, hunit, rfl⟩)

end ParserServe.Foundation
