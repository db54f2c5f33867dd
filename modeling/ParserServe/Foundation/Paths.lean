import ParserServe.Foundation.Text

/-! # Paths

The parts of `pathlib.PurePosixPath` and `urllib.parse` that name a file: empty segments and
single dots do not count, and percent escapes are undone before the path is read.
-/

namespace ParserServe.Foundation

/-- The segments of a path. -/
def segments (path : List Char) : List (List Char) :=
  (path.splitOn '/').filter fun segment => segment ≠ [] ∧ segment ≠ ['.']

/-- `PurePosixPath(path).name`. -/
def pureName (path : String) : String :=
  String.ofList ((segments path.toList).getLast?.getD [])

/-- The part of a name from its last dot on, unless that is its first or last character. -/
def nameSuffix (name : List Char) : List Char :=
  let tail := name.reverse.takeWhile (· ≠ '.')
  match name.reverse.dropWhile (· ≠ '.') with
  | _ :: _ :: _ => if tail = [] then [] else '.' :: tail.reverse
  | _ => []

/-- `PurePosixPath(path).suffix`. -/
def pureSuffix (path : String) : String :=
  String.ofList (nameSuffix (pureName path).toList)

def hexValue (c : Char) : Option Nat :=
  if '0' ≤ c ∧ c ≤ '9' then some (c.toNat - 48)
  else if 'a' ≤ c ∧ c ≤ 'f' then some (c.toNat - 87)
  else if 'A' ≤ c ∧ c ≤ 'F' then some (c.toNat - 55)
  else none

/-- A percent sign that no two hexadecimal digits follow stands for itself. -/
def unquoteToBytes : List Char → Bytes
  | '%' :: high :: low :: rest =>
      match hexValue high, hexValue low with
      | some h, some l => UInt8.ofNat (h * 16 + l) :: unquoteToBytes rest
      | _, _ => 0x25 :: unquoteToBytes (high :: low :: rest)
  | c :: rest => String.utf8EncodeChar c ++ unquoteToBytes rest
  | [] => []

/-- `urllib.parse.unquote`. -/
def unquote (text : String) : String :=
  String.ofList (decodeUtf8Replace (unquoteToBytes text.toList))

end ParserServe.Foundation
