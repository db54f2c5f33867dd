import ParserServe.Foundation.Encodings

/-! # Percent encoding

`urllib.parse.quote` keeps the unreserved characters and those the caller calls safe, and escapes
every other byte of the text.
-/

namespace ParserServe.Foundation

/-- `_ALWAYS_SAFE`: letters, digits and `_.-~`. -/
def alwaysSafe (byte : UInt8) : Bool :=
  (0x30 ≤ byte.toNat && byte.toNat ≤ 0x39) || (0x41 ≤ byte.toNat && byte.toNat ≤ 0x5a) ||
    (0x61 ≤ byte.toNat && byte.toNat ≤ 0x7a) || [0x5f, 0x2e, 0x2d, 0x7e].contains byte.toNat

/-- The byte stands for itself. -/
def quoteKeeps (safe : List Char) (byte : UInt8) : Bool :=
  alwaysSafe byte || (byte.toNat < 128 && safe.contains (byteChar byte))

def upperHexDigit (n : Nat) : Char := Char.ofNat (if n < 10 then 0x30 + n else 0x37 + n)

def quoteByte (safe : List Char) (byte : UInt8) : List Char :=
  if quoteKeeps safe byte then [byteChar byte]
  else ['%', upperHexDigit (byte.toNat / 16), upperHexDigit (byte.toNat % 16)]

/-- `quote_from_bytes`. -/
def quoteFromBytes (safe : List Char) (bytes : Bytes) : List Char :=
  bytes.flatMap (quoteByte safe)

/-- `urllib.parse.quote(text, safe)`. -/
def quoteChars (safe : List Char) (text : List Char) : List Char :=
  quoteFromBytes safe (encodeUtf8 text)

def quote (safe : List Char) (text : String) : String :=
  String.ofList (quoteChars safe text.toList)

theorem quoteChars_append (safe first second : List Char) :
    quoteChars safe (first ++ second) = quoteChars safe first ++ quoteChars safe second := by
  simp [quoteChars, quoteFromBytes, encodeUtf8]

theorem quoteChars_replicate (safe : List Char) (c : Char) (n : Nat) :
    quoteChars safe (List.replicate n c) = (List.replicate n (quoteChars safe [c])).flatten := by
  induction n with
  | zero => rfl
  | succ n ih =>
      rw [List.replicate_succ, List.replicate_succ, List.flatten_cons, ← ih, ← quoteChars_append]
      rfl

end ParserServe.Foundation
