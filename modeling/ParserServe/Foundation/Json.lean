import Mathlib.Algebra.Order.Ring.Nat
import ParserServe.Foundation.Encodings
import ParserServe.Foundation.Paths

/-! # Flat JSON arrays

`json.dumps` with compact separators and `json.loads`, for arrays of strings, integers, truth
values and nulls.  The reader makes nothing of other values: floating-point numbers, nested
arrays and objects are none to it.
-/

namespace ParserServe.Foundation

inductive JsonScalar
  | str (text : List Char)
  | int (value : Int)
  | bool (value : Bool)
  | null
  deriving DecidableEq

/-! ## Writing -/

def hexDigit (n : Nat) : Char :=
  if n < 10 then Char.ofNat (n + 48) else Char.ofNat (n + 87)

/-- `\uXXXX`. -/
def unicodeEscape (unit : Nat) : List Char :=
  ['\\', 'u', hexDigit (unit / 4096 % 16), hexDigit (unit / 256 % 16), hexDigit (unit / 16 % 16),
    hexDigit (unit % 16)]

/-- The characters with an escape of their own. -/
def shortEscapes : List (Char × Char) :=
  [('"', '"'), ('\\', '\\'), ('\n', 'n'), ('\r', 'r'), ('\t', 't'), (Char.ofNat 12, 'f'),
    (Char.ofNat 8, 'b')]

/-- A character of a string, where all that is not printable ASCII is escaped. -/
def escapeChar (c : Char) : List Char :=
  match shortEscapes.find? fun escape => decide (escape.1 = c) with
  | some (_, letter) => ['\\', letter]
  | none =>
      if 32 ≤ c.toNat ∧ c.toNat ≤ 126 then [c] else (utf16EncodeChar c).flatMap unicodeEscape

def escapeText (text : List Char) : List Char := text.flatMap escapeChar

def decimal (value : Int) : List Char :=
  if value < 0 then '-' :: Nat.toDigits 10 value.natAbs else Nat.toDigits 10 value.natAbs

def JsonScalar.write : JsonScalar → List Char
  | .str text => '"' :: escapeText text ++ ['"']
  | .int value => decimal value
  | .bool true => "true".toList
  | .bool false => "false".toList
  | .null => "null".toList

/-- `json.dumps(items, separators=(",", ":"))`. -/
def dumps (items : List JsonScalar) : List Char :=
  '[' :: [','].intercalate (items.map JsonScalar.write) ++ [']']

/-! ## Reading -/

def isBlank (c : Char) : Bool := c = ' ' || c = '\t' || c = '\n' || c = '\r'

def skipBlanks (text : List Char) : List Char := text.dropWhile isBlank

/-- The character that a letter after a backslash stands for. -/
def unescape (letter : Char) : Option Char :=
  if letter = '/' then some '/'
  else (shortEscapes.find? fun escape => decide (escape.2 = letter)).map (·.1)

/-- The code units of a string up to its closing quote. -/
def readUnits : List Char → Option (List Nat × List Char)
  | [] => none
  | '"' :: rest => some ([], rest)
  | '\\' :: 'u' :: a :: b :: c :: d :: rest => do
      let high := (← hexValue a) * 16 + (← hexValue b)
      let low := (← hexValue c) * 16 + (← hexValue d)
      let (units, rest) ← readUnits rest
      some ((high * 256 + low) :: units, rest)
  | '\\' :: letter :: rest => do
      let c ← unescape letter
      let (units, rest) ← readUnits rest
      some (c.toNat :: units, rest)
  | c :: rest => do
      let (units, rest) ← if c.toNat < 32 then none else readUnits rest
      some (c.toNat :: units, rest)

/-- The digits of a number that has no fraction and no exponent. -/
def readDigits (text : List Char) : Option (Nat × List Char) :=
  let digits := text.takeWhile Char.isDigit
  let rest := text.dropWhile Char.isDigit
  if digits = [] ∨ (digits.head? = some '0' ∧ digits ≠ ['0']) ∨
      rest.head? ∈ [some '.', some 'e', some 'E'] then none
  else some (Nat.ofDigitChars 10 digits 0, rest)

def readScalar (text : List Char) : Option (JsonScalar × List Char) :=
  match text with
  | '"' :: rest => do
      let (units, rest) ← readUnits rest
      let text ← utf16Chars units
      some (.str text, rest)
  | '-' :: rest => (readDigits rest).map fun (n, rest) => (.int (-(n : Int)), rest)
  | text =>
      if "true".toList.isPrefixOf text then some (.bool true, text.drop 4)
      else if "false".toList.isPrefixOf text then some (.bool false, text.drop 5)
      else if "null".toList.isPrefixOf text then some (.null, text.drop 4)
      else (readDigits text).map fun (n, rest) => (.int (n : Int), rest)

/-- The values up to the closing bracket; the text is longer than they are many. -/
def readItems : Nat → List Char → Option (List JsonScalar × List Char)
  | 0, _ => none
  | fuel + 1, text => do
      let (item, rest) ← readScalar (skipBlanks text)
      match skipBlanks rest with
      | ',' :: rest => do
          let (items, rest) ← readItems fuel rest
          some (item :: items, rest)
      | ']' :: rest => some ([item], rest)
      | _ => none

/-- `json.loads(text)` of an array of scalars. -/
def loads (text : List Char) : Option (List JsonScalar) :=
  match skipBlanks text with
  | '[' :: body =>
      match skipBlanks body with
      | ']' :: rest => if skipBlanks rest = [] then some [] else none
      | _ => do
          let (items, rest) ← readItems body.length body
          if skipBlanks rest = [] then some items else none
  | _ => none

/-! ## Round trip -/

theorem hexValue_hexDigit : ∀ n < 16, hexValue (hexDigit n) = some n := by
  decide

theorem readUnits_unicodeEscape {unit : Nat} (h : unit < 0x10000) (rest : List Char) :
    readUnits (unicodeEscape unit ++ rest) =
      (readUnits rest).map fun (units, rest) => (unit :: units, rest) := by
  have hvalue : (unit / 4096 % 16 * 16 + unit / 256 % 16) * 256 +
      (unit / 16 % 16 * 16 + unit % 16) = unit := by omega
  rw [unicodeEscape]
  simp only [List.cons_append, List.nil_append]
  rw [readUnits]
  simp only [hexValue_hexDigit _ (Nat.mod_lt _ (by decide : 0 < 16)), Option.bind_eq_bind,
    Option.bind_some, hvalue]
  cases readUnits rest with
  | none => rfl
  | some read => rfl

theorem readUnits_unicodeEscapes {units : List Nat} (h : ∀ unit ∈ units, unit < 0x10000)
    (rest : List Char) :
    readUnits (units.flatMap unicodeEscape ++ rest) =
      (readUnits rest).map fun (others, rest) => (units ++ others, rest) := by
  induction units with
  | nil =>
      rw [List.flatMap_nil, List.nil_append]
      cases readUnits rest <;> rfl
  | cons unit units ih =>
      obtain ⟨hunit, hunits⟩ := List.forall_mem_cons.mp h
      rw [List.flatMap_cons, List.append_assoc, readUnits_unicodeEscape hunit, ih hunits,
        Option.map_map]
      rfl

theorem shortEscapes_spec : ∀ escape ∈ shortEscapes, unescape escape.2 = some escape.1 ∧
    escape.2 ≠ 'u' ∧ utf16EncodeChar escape.1 = [escape.1.toNat] := by
  decide

theorem readUnits_escapeChar (c : Char) (rest : List Char) :
    readUnits (escapeChar c ++ rest) =
      (readUnits rest).map fun (units, rest) => (utf16EncodeChar c ++ units, rest) := by
  unfold escapeChar
  cases hshort : shortEscapes.find? fun escape => decide (escape.1 = c) with
  | some escape =>
      obtain ⟨hread, hletter, hunit⟩ := shortEscapes_spec _ (List.mem_of_find?_eq_some hshort)
      have hc : escape.1 = c := by simpa using List.find?_some hshort
      simp only [List.cons_append, List.nil_append]
      rw [readUnits, hread, ← hc, hunit]
      · cases readUnits rest <;> rfl
      · rintro _ _ _ _ _ heq
        exact absurd heq hletter
  | none =>
      have hother : ∀ escape ∈ shortEscapes, escape.1 ≠ c := by
        simpa using List.find?_eq_none.mp hshort
      dsimp only
      split
      · next hprintable =>
          have hsmall : c.toNat < 0x10000 := by omega
          rw [List.singleton_append, readUnits, if_neg (by omega), utf16EncodeChar, if_pos hsmall]
          · cases readUnits rest <;> rfl
          · rintro rfl
            exact hother ('"', '"') (by decide) rfl
          · rintro _ _ _ _ _ rfl
            exact absurd rfl (hother ('\\', '\\') (by decide))
          · rintro _ _ rfl
            exact absurd rfl (hother ('\\', '\\') (by decide))
      · exact readUnits_unicodeEscapes (utf16EncodeChar_lt c) rest

theorem readUnits_escapeText (text rest : List Char) :
    readUnits (escapeText text ++ '"' :: rest) = some (text.flatMap utf16EncodeChar, rest) := by
  induction text with
  | nil => rfl
  | cons c text ih =>
      rw [escapeText, List.flatMap_cons, List.append_assoc, readUnits_escapeChar, ← escapeText,
        ih]
      rfl

theorem utf16Chars_encodeChar (c : Char) (units : List Nat) :
    utf16Chars (utf16EncodeChar c ++ units) = (utf16Chars units).map (c :: ·) := by
  have hvalid : c.toNat < 0xd800 ∨ 0xdfff < c.toNat ∧ c.toNat < 0x110000 := c.valid
  unfold utf16EncodeChar
  split
  · rw [List.singleton_append, utf16Chars_single (by omega), Char.ofNat_toNat]
  · have hvalue : 0x10000 + (0xd800 + (c.toNat - 0x10000) / 0x400 - 0xd800) * 0x400 +
        (0xdc00 + (c.toNat - 0x10000) % 0x400 - 0xdc00) = c.toNat := by omega
    simp only [List.cons_append, List.nil_append]
    rw [utf16Chars.eq_def]
    simp only
    rw [if_neg (by omega), if_pos (by omega), hvalue, Char.ofNat_toNat]

theorem utf16Chars_encode (text : List Char) :
    utf16Chars (text.flatMap utf16EncodeChar) = some text := by
  induction text with
  | nil => rfl
  | cons c text ih => rw [List.flatMap_cons, utf16Chars_encodeChar, ih, Option.map_some]

/-- The text goes on with what stands between the values of an array. -/
def AfterValue (text : List Char) : Prop := ∃ rest, text = ',' :: rest ∨ text = ']' :: rest

theorem digitChar_ne_zero : ∀ n < 10, n ≠ 0 → n.digitChar ≠ '0' := by
  decide

/-- Decimal digits do not start with a zero. -/
theorem toDigits_head (n : Nat) :
    Nat.toDigits 10 n = ['0'] ∨ (Nat.toDigits 10 n).head? ≠ some '0' := by
  induction n using Nat.strongRecOn with
  | ind n ih =>
      by_cases hn : n < 10
      · rw [Nat.toDigits_of_lt_base hn]
        by_cases hzero : n = 0
        · subst hzero
          exact .inl rfl
        · exact .inr fun h => digitChar_ne_zero n hn hzero (Option.some.inj h)
      · right
        rw [Nat.toDigits_of_base_le (by decide) (by omega),
          List.head?_append_of_ne_nil _ Nat.toDigits_ne_nil]
        refine (ih (n / 10) (by omega)).resolve_left fun h => ?_
        have hvalue := Nat.ofDigitChars_ten_toDigits (n := n / 10)
        rw [h] at hvalue
        have : Nat.ofDigitChars 10 ['0'] 0 = 0 := rfl
        omega

theorem readDigits_toDigits (n : Nat) {rest : List Char} (h : AfterValue rest) :
    readDigits (Nat.toDigits 10 n ++ rest) = some (n, rest) := by
  have hdigits : ∀ c ∈ Nat.toDigits 10 n, c.isDigit := fun c hc =>
    Nat.isDigit_of_mem_toDigits (by decide) (by decide) hc
  have hstop : rest.takeWhile Char.isDigit = [] ∧ rest.dropWhile Char.isDigit = rest ∧
      rest.head? ∉ [some '.', some 'e', some 'E'] := by
    obtain ⟨rest, rfl | rfl⟩ := h <;> simp
  unfold readDigits
  rw [List.takeWhile_append_of_pos hdigits, List.dropWhile_append_of_pos hdigits, hstop.1,
    hstop.2.1, List.append_nil]
  dsimp only
  rw [if_neg, Nat.ofDigitChars_ten_toDigits]
  rintro (hnil | ⟨hhead, hother⟩ | hfloat)
  · exact Nat.toDigits_ne_nil hnil
  · exact (toDigits_head n).elim hother fun hne => hne hhead
  · exact hstop.2.2 hfloat

/-- A value starts with a quote, a digit, a sign or a letter. -/
theorem toDigits_cons (n : Nat) : ∃ c tail, Nat.toDigits 10 n = c :: tail ∧ c.isDigit := by
  cases h : Nat.toDigits 10 n with
  | nil => exact absurd h Nat.toDigits_ne_nil
  | cons c tail =>
      exact ⟨c, tail, rfl, Nat.isDigit_of_mem_toDigits (n := n) (b := 10) (by decide) (by decide)
        (by rw [h]; exact List.mem_cons_self)⟩

theorem readScalar_digit {c : Char} (hdigit : c.isDigit) (tail : List Char) :
    readScalar (c :: tail) =
      (readDigits (c :: tail)).map fun (n, rest) => (.int (n : Int), rest) := by
  have hother : ∀ other : Char, other.isDigit = false → c ≠ other := by
    rintro other hother rfl
    rw [hother] at hdigit
    cases hdigit
  have ht : c ≠ 't' := hother 't' (by decide)
  have hf : c ≠ 'f' := hother 'f' (by decide)
  have hn : c ≠ 'n' := hother 'n' (by decide)
  rw [readScalar]
  · simp [ht.symm, hf.symm, hn.symm]
  · rintro rest heq
    exact hother '"' (by decide) (List.cons.inj heq).1
  · rintro rest heq
    exact hother '-' (by decide) (List.cons.inj heq).1

theorem readScalar_write (item : JsonScalar) {rest : List Char} (h : AfterValue rest) :
    readScalar (item.write ++ rest) = some (item, rest) := by
  cases item with
  | str text =>
      simp only [JsonScalar.write, List.cons_append, List.append_assoc, List.nil_append,
        readScalar, readUnits_escapeText, utf16Chars_encode, Option.bind_eq_bind, Option.bind_some]
  | int value =>
      have hwrite : (JsonScalar.int value).write = decimal value := rfl
      rw [hwrite, decimal]
      split
      · next hneg =>
          simp only [List.cons_append, readScalar, readDigits_toDigits _ h, Option.map_some]
          congr 3
          omega
      · next hpos =>
          obtain ⟨c, tail, hcons, hdigit⟩ := toDigits_cons value.natAbs
          have hread := readDigits_toDigits value.natAbs h
          have hvalue : ((value.natAbs : Nat) : Int) = value := by omega
          rw [hcons, List.cons_append] at hread
          rw [hcons, List.cons_append, readScalar_digit hdigit, hread]
          simp only [Option.map_some, hvalue]
  | bool value => cases value <;> simp [JsonScalar.write, readScalar]
  | null => simp [JsonScalar.write, readScalar]

/-- A written value starts with neither a blank nor a closing bracket. -/
theorem write_cons (item : JsonScalar) :
    ∃ c tail, item.write = c :: tail ∧ isBlank c = false ∧ c ≠ ']' := by
  cases item with
  | str text => exact ⟨'"', _, rfl, by decide, by decide⟩
  | int value =>
      have hwrite : (JsonScalar.int value).write = decimal value := rfl
      rw [hwrite, decimal]
      split
      · exact ⟨'-', _, rfl, by decide, by decide⟩
      · obtain ⟨c, tail, hcons, hdigit⟩ := toDigits_cons value.natAbs
        refine ⟨c, tail, hcons, ?_, ?_⟩
        · cases hblank : isBlank c with
          | false => rfl
          | true =>
              simp only [isBlank, Bool.or_eq_true, decide_eq_true_eq] at hblank
              rcases hblank with ((rfl | rfl) | rfl) | rfl <;> exact absurd hdigit (by decide)
        · rintro rfl
          exact absurd hdigit (by decide)
  | bool value => cases value <;> exact ⟨_, _, rfl, by decide, by decide⟩
  | null => exact ⟨_, _, rfl, by decide, by decide⟩

theorem skipBlanks_write (item : JsonScalar) (rest : List Char) :
    skipBlanks (item.write ++ rest) = item.write ++ rest := by
  obtain ⟨c, tail, hcons, hblank, _⟩ := write_cons item
  rw [hcons, List.cons_append, skipBlanks, List.dropWhile_cons, hblank]
  rfl

/-- The values of an array, up to and with its closing bracket. -/
def writeItems : List JsonScalar → List Char
  | [] => [']']
  | [item] => item.write ++ [']']
  | item :: next :: items => item.write ++ ',' :: writeItems (next :: items)

theorem dumps_eq (items : List JsonScalar) : dumps items = '[' :: writeItems items := by
  unfold dumps
  rw [List.cons_append]
  congr 1
  induction items using writeItems.induct with
  | case1 => rfl
  | case2 item => simp [writeItems]
  | case3 item next items ih =>
      rw [writeItems, ← ih, List.map_cons, List.map_cons, List.intercalate_cons_cons]
      simp

theorem readItems_writeItems {items : List JsonScalar} (hne : items ≠ []) {fuel : Nat}
    (hfuel : items.length ≤ fuel) : readItems fuel (writeItems items) = some (items, []) := by
  induction items using writeItems.induct generalizing fuel with
  | case1 => exact absurd rfl hne
  | case2 item =>
      obtain ⟨fuel, rfl⟩ : ∃ n, fuel = n + 1 := ⟨fuel - 1, by simp at hfuel; omega⟩
      rw [readItems, writeItems, skipBlanks_write, readScalar_write item ⟨[], .inr rfl⟩]
      rfl
  | case3 item next items ih =>
      obtain ⟨fuel, rfl⟩ : ∃ n, fuel = n + 1 := ⟨fuel - 1, by simp at hfuel; omega⟩
      have hrest : readItems fuel (writeItems (next :: items)) = some (next :: items, []) :=
        ih (by simp) (by simp at hfuel ⊢; omega)
      rw [readItems, writeItems, skipBlanks_write, readScalar_write item ⟨_, .inl rfl⟩]
      have hcomma : skipBlanks (',' :: writeItems (next :: items)) =
          ',' :: writeItems (next :: items) := rfl
      simp only [Option.bind_eq_bind, Option.bind_some, hcomma, hrest]

theorem length_le_writeItems (items : List JsonScalar) :
    items.length ≤ (writeItems items).length := by
  induction items using writeItems.induct with
  | case1 => simp
  | case2 item => simp [writeItems]
  | case3 item next items ih =>
      simp only [writeItems, List.length_append, List.length_cons] at ih ⊢
      omega

theorem writeItems_cons (item : JsonScalar) (items : List JsonScalar) :
    ∃ c tail, writeItems (item :: items) = c :: tail ∧ isBlank c = false ∧ c ≠ ']' := by
  obtain ⟨c, tail, hcons, hstart⟩ := write_cons item
  cases items with
  | nil => exact ⟨c, tail ++ [']'], by rw [writeItems, hcons]; rfl, hstart⟩
  | cons next items =>
      exact ⟨c, tail ++ ',' :: writeItems (next :: items), by rw [writeItems, hcons]; rfl, hstart⟩

/-- Reading gives back what was written. -/
theorem loads_dumps (items : List JsonScalar) : loads (dumps items) = some items := by
  rw [dumps_eq, loads]
  have hopen : skipBlanks ('[' :: writeItems items) = '[' :: writeItems items := rfl
  rw [hopen]
  cases items with
  | nil => rfl
  | cons item items =>
      have hread : readItems (writeItems (item :: items)).length (writeItems (item :: items)) =
          some (item :: items, []) :=
        readItems_writeItems (by simp) (length_le_writeItems _)
      obtain ⟨c, tail, hcons, hblank, hclose⟩ := writeItems_cons item items
      rw [hcons] at hread ⊢
      have hstart : skipBlanks (c :: tail) = c :: tail := by
        rw [skipBlanks, List.dropWhile_cons, hblank]
        rfl
      simp only [hstart, hread]
      split
      · next heq => exact absurd (List.cons.inj heq).1 hclose
      · rfl

/-! ## Length -/

/-- A character that a string holds as it is. -/
def isPlain (c : Char) : Bool := 32 ≤ c.toNat && c.toNat ≤ 126 && c ≠ '"' && c ≠ '\\'

theorem escapeChar_of_isPlain {c : Char} (h : isPlain c) : escapeChar c = [c] := by
  simp only [isPlain, Bool.and_eq_true, decide_eq_true_eq] at h
  have hnone : (shortEscapes.find? fun escape => decide (escape.1 = c)) = none := by
    have hcodes : ∀ escape ∈ shortEscapes, escape.1.toNat < 32 ∨ escape.1 = '"' ∨
        escape.1 = '\\' := by
      decide
    refine List.find?_eq_none.mpr fun escape hescape => ?_
    rw [decide_eq_true_eq]
    rintro rfl
    rcases hcodes escape hescape with hsmall | hquote | hslash
    · omega
    · exact h.1.2 hquote
    · exact h.2 hslash
  rw [escapeChar, hnone]
  exact if_pos h.1.1

theorem escapeText_of_isPlain {text : List Char} (h : text.all isPlain) :
    escapeText text = text := by
  induction text with
  | nil => rfl
  | cons c text ih =>
      rw [List.all_cons, Bool.and_eq_true] at h
      obtain ⟨hc, htext⟩ := h
      rw [escapeText, List.flatMap_cons, escapeChar_of_isPlain hc, ← escapeText, ih htext]
      rfl

theorem length_escapeChar_le (c : Char) : (escapeChar c).length ≤ 12 := by
  unfold escapeChar
  split
  · simp
  · split
    · simp
    · unfold utf16EncodeChar
      split <;> simp [unicodeEscape]

theorem length_escapeText_le (text : List Char) :
    (escapeText text).length ≤ 12 * text.length := by
  induction text with
  | nil => exact Nat.zero_le _
  | cons c text ih =>
      have hc := length_escapeChar_le c
      rw [escapeText, List.flatMap_cons, List.length_append, ← escapeText, List.length_cons]
      omega

theorem length_decimal_le {value : Int} {width : Nat} (hwidth : 0 < width)
    (h : value.natAbs < 10 ^ width) : (decimal value).length ≤ width + 1 := by
  have hdigits := (Nat.length_toDigits_le_iff (by decide) hwidth).mpr h
  unfold decimal
  split
  · rw [List.length_cons]
    omega
  · omega

theorem length_write_str (text : List Char) :
    (JsonScalar.str text).write.length = (escapeText text).length + 2 := by
  simp [JsonScalar.write]

theorem hexDigit_ascii : ∀ n < 16, (hexDigit n).toNat < 128 := by
  decide

theorem escapeChar_ascii (c : Char) : ∀ d ∈ escapeChar c, d.toNat < 128 := by
  have hletters : ∀ escape ∈ shortEscapes, escape.2.toNat < 128 := by decide
  intro d hd
  unfold escapeChar at hd
  cases hshort : shortEscapes.find? fun escape => decide (escape.1 = c) with
  | some escape =>
      simp only [hshort, List.mem_cons, List.not_mem_nil, or_false] at hd
      rcases hd with rfl | rfl
      · decide
      · exact hletters _ (List.mem_of_find?_eq_some hshort)
  | none =>
      simp only [hshort] at hd
      split at hd
      · rw [List.mem_singleton.mp hd]
        omega
      · obtain ⟨unit, _, hunit⟩ := List.mem_flatMap.mp hd
        simp only [unicodeEscape, List.mem_cons, List.not_mem_nil, or_false] at hunit
        rcases hunit with rfl | rfl | rfl | rfl | rfl | rfl
        · decide
        · decide
        · exact hexDigit_ascii _ (Nat.mod_lt _ (by decide))
        · exact hexDigit_ascii _ (Nat.mod_lt _ (by decide))
        · exact hexDigit_ascii _ (Nat.mod_lt _ (by decide))
        · exact hexDigit_ascii _ (Nat.mod_lt _ (by decide))

theorem decimal_ascii (value : Int) : ∀ c ∈ decimal value, c.toNat < 128 := by
  have hdigits : ∀ c ∈ Nat.toDigits 10 value.natAbs, c.toNat < 128 := by
    intro c hc
    have hdigit := Nat.isDigit_of_mem_toDigits (by decide) (by decide) hc
    simp only [Char.isDigit, Bool.and_eq_true, decide_eq_true_eq, UInt32.le_iff_toNat_le] at hdigit
    exact Nat.lt_of_le_of_lt hdigit.2 (by decide)
  intro c hc
  unfold decimal at hc
  split at hc
  · rcases List.mem_cons.mp hc with rfl | hc
    · decide
    · exact hdigits c hc
  · exact hdigits c hc

theorem forall_ascii {text : List Char} (h : text.all fun c => c.toNat < 128) :
    ∀ c ∈ text, c.toNat < 128 :=
  fun c hc => of_decide_eq_true (List.all_eq_true.mp h c hc)

theorem write_ascii (item : JsonScalar) : ∀ c ∈ item.write, c.toNat < 128 := by
  cases item with
  | str text =>
      intro c hc
      simp only [JsonScalar.write, List.cons_append, List.mem_cons, List.mem_append,
        List.not_mem_nil, or_false] at hc
      rcases hc with rfl | hc | rfl
      · decide
      · obtain ⟨d, _, hd⟩ := List.mem_flatMap.mp hc
        exact escapeChar_ascii d c hd
      · decide
  | int value => exact decimal_ascii value
  | bool value => cases value <;> exact forall_ascii (by decide)
  | null => exact forall_ascii (by decide)

/-- What is written is ASCII text. -/
theorem dumps_ascii (items : List JsonScalar) : ∀ c ∈ dumps items, c.toNat < 128 := by
  have hitems : ∀ c ∈ writeItems items, c.toNat < 128 := by
    induction items using writeItems.induct with
    | case1 => exact forall_ascii (by decide)
    | case2 item =>
        intro c hc
        rcases List.mem_append.mp hc with hc | hc
        · exact write_ascii item c hc
        · rw [List.mem_singleton.mp hc]
          decide
    | case3 item next items ih =>
        intro c hc
        rcases List.mem_append.mp hc with hc | hc
        · exact write_ascii item c hc
        · rcases List.mem_cons.mp hc with rfl | hc
          · decide
          · exact ih c hc
  rw [dumps_eq]
  exact List.forall_mem_cons.mpr ⟨by decide, hitems⟩

/-- Brackets and commas add one character to each value, and one more. -/
theorem length_dumps {items : List JsonScalar} (hne : items ≠ []) :
    (dumps items).length = (items.map (·.write.length)).sum + items.length + 1 := by
  rw [dumps_eq, List.length_cons]
  congr 1
  induction items using writeItems.induct with
  | case1 => exact absurd rfl hne
  | case2 item => simp [writeItems]
  | case3 item next items ih =>
      have hrest := ih (by simp)
      simp only [writeItems, List.length_append, List.length_cons, List.map_cons,
        List.sum_cons] at hrest ⊢
      omega

/-- UTF-8 takes one byte for each character of ASCII text. -/
theorem length_encodeUtf8_ascii {text : List Char} (h : ∀ c ∈ text, c.toNat < 128) :
    (encodeUtf8 text).length = text.length := by
  induction text with
  | nil => rfl
  | cons c text ih =>
      obtain ⟨hc, htext⟩ := List.forall_mem_cons.mp h
      have hone : (String.utf8EncodeChar c).length = 1 := by
        rw [String.length_utf8EncodeChar, Char.utf8Size_eq_one_iff, UInt32.le_iff_toNat_le]
        exact Nat.le_of_lt_succ hc
      rw [encodeUtf8, List.flatMap_cons, List.length_append, hone, ← encodeUtf8, ih htext,
        List.length_cons]
      omega

theorem decodeUtf8_encodeUtf8 (text : List Char) : decodeUtf8 (encodeUtf8 text) = some text := by
  have hall : ∀ text : List Char, (text.map some).mapM id = some text := by
    intro text
    induction text with
    | nil => rfl
    | cons c text ih => simp [ih]
  have hrun := utf8Run_encodeUtf8 text []
  rw [List.append_nil] at hrun
  rw [decodeUtf8, hrun]
  exact (congrArg (List.mapM id) (List.append_nil _)).trans (hall text)

end ParserServe.Foundation
