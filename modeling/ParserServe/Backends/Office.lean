import ParserServe.Foundation.Attempt
import ParserServe.Foundation.Sparse
import ParserServe.Foundation.Text

/-! # Office Open XML

`backends/office.py`: the archive that guards its XML members, and the extraction of
worksheets.  The XML parser is a parameter: it is not part of the repository.
-/

namespace ParserServe

open Foundation

abbrev Text := List Char

/-! ## Integers -/

/-- The code points of the decimal digit zero in each script. -/
def decimalZeros : List Nat :=
  [48, 1632, 1776, 1984, 2406, 2534, 2662, 2790, 2918, 3046, 3174, 3302, 3430, 3558, 3664, 3792,
   3872, 4160, 4240, 6112, 6160, 6470, 6608, 6784, 6800, 6992, 7088, 7232, 7248, 42528, 43216,
   43264, 43472, 43504, 43600, 44016, 65296, 66720, 68912, 69734, 69872, 69942, 70096, 70384,
   70736, 70864, 71248, 71360, 71472, 71904, 72016, 72784, 73040, 73120, 73552, 92768, 92864,
   93008, 120782, 120792, 120802, 120812, 120822, 123200, 123632, 124144, 125264, 130032]

def decimalValue (c : Char) : Option Nat :=
  (decimalZeros.find? fun first => decide (first ≤ c.toNat ∧ c.toNat ≤ first + 9)).map
    (c.toNat - ·)

/-- Decimal digits, with single underscores between them; a conversion takes at most 4300. -/
def parseDigits (text : Text) : Option Nat := do
  let groups ← (text.splitOn '_').mapM fun group =>
    if group = [] then none else group.mapM decimalValue
  if groups.flatten.length ≤ 4300 then some (groups.flatten.foldl (fun n d => n * 10 + d) 0)
  else none

/-- `int(text)`; `none` is a `ValueError`. -/
def parseInt (text : Text) : Option Int :=
  match strip text with
  | '-' :: digits => (parseDigits digits).map fun n => -(n : Int)
  | '+' :: digits => (parseDigits digits).map Int.ofNat
  | digits => (parseDigits digits).map Int.ofNat

/-- `values[index]`, which counts from the end where the index is negative. -/
def indexed {α : Type*} (values : List α) (index : Int) : Option α :=
  if 0 ≤ index then values[index.toNat]?
  else if -(values.length : Int) ≤ index then values[(values.length + index).toNat]?
  else none

/-! ## Elements -/

inductive Element where
  | mk (tag : String) (attrib : List (String × Text)) (text : Option Text)
      (children : List Element)

namespace Element

def tag : Element → String
  | mk tag _ _ _ => tag

def attrib : Element → List (String × Text)
  | mk _ attrib _ _ => attrib

def text : Element → Option Text
  | mk _ _ text _ => text

def children : Element → List Element
  | mk _ _ _ children => children

def get? (element : Element) (key : String) : Option Text := element.attrib.lookup key

/-- `attrib.get(key, "")`. -/
def get (element : Element) (key : String) : Text := (element.get? key).getD []

def find (element : Element) (name : String) : Option Element :=
  element.children.find? (·.tag = name)

def findall (element : Element) (name : String) : List Element :=
  element.children.filter (·.tag = name)

mutual

/-- The element and all below it that carry the tag, in document order. -/
def iter (name : String) : Element → List Element
  | .mk tag attrib text children =>
      if tag = name then .mk tag attrib text children :: iterAll name children
      else iterAll name children

def iterAll (name : String) : List Element → List Element
  | [] => []
  | child :: rest => iter name child ++ iterAll name rest

end

end Element

def sheetTag (name : String) : String :=
  "\x7bhttp://schemas.openxmlformats.org/spreadsheetml/2006/main\x7d" ++ name

/-- `_text` in the namespace of spreadsheets. -/
def sheetText (element : Element) : Text :=
  strip ((element.iter (sheetTag "t")).flatMap fun node => node.text.getD [])

/-! ## Cells -/

def isColumnLetter (c : Char) : Bool := decide (65 ≤ c.toNat ∧ c.toNat ≤ 90)

/-- `$` stands for the end of the text and for the place before a final line feed. -/
def beforeFinalNewline (text : Text) : Text :=
  if text.getLast? = some '\n' then text.dropLast else text

/-- `_CELL_REFERENCE.match(reference)`: the column letters. -/
def matchCellReference (reference : Text) : Option Text :=
  let letters := reference.takeWhile isColumnLetter
  match reference.dropWhile isColumnLetter with
  | [] => none
  | first :: digits =>
      if letters ≠ [] ∧ '1' ≤ first ∧ first ≤ '9' ∧
          (beforeFinalNewline digits).all (fun c => decide ('0' ≤ c ∧ c ≤ '9'))
      then some letters else none

/-- `_column_index`. -/
def columnIndex (reference : Text) : Except String Nat :=
  match matchCellReference reference with
  | none => .error "XLSX contains an invalid cell reference"
  | some letters =>
      .ok (letters.foldl (fun result c => result * 26 + c.toNat - 'A'.toNat + 1) 0 - 1)

/-- `_shared_strings`. -/
def sharedStrings : Option Element → List Text
  | none => []
  | some root => (root.findall (sheetTag "si")).map sheetText

/-- `_cell_value`. -/
def cellValue (shared : List Text) (cell : Element) : Except String Text :=
  if cell.get? "t" = some "inlineStr".toList then .ok (sheetText cell)
  else
    let raw := ((cell.find (sheetTag "v")).bind (·.text)).getD []
    if cell.get? "t" = some "s".toList ∧ raw ≠ [] then
      match (parseInt raw).bind (indexed shared) with
      | none => .error "XLSX shared string reference is invalid"
      | some value => .ok value
    else if cell.get? "t" = some "b".toList then
      .ok (if raw = "1".toList then "true".toList else "false".toList)
    else .ok raw

/-- One cell: pad the row up to its column, then assign its value. -/
def placeCell (shared : List Text) (cells : List Text) (cell : Element) :
    Except String (List Text) := do
  let index ← columnIndex (cell.get "r")
  let value ← cellValue shared cell
  .ok (writeAt [] cells index value)

/-- The list of a row, without the blanks at its end. -/
def rowCells (shared : List Text) (row : Element) : Except String (List Text) := do
  let cells ← (row.findall (sheetTag "c")).foldlM (placeCell shared) []
  .ok (trimBlanks [] cells)

/-- The rows of a worksheet; a row without a value is dropped. -/
def sheetRows (shared : List Text) (root : Element) : Except String (List (List Text)) :=
  (root.iter (sheetTag "row")).foldlM
    (fun rows row => do
      let cells ← rowCells shared row
      .ok (if cells = [] then rows else rows ++ [cells])) []

end ParserServe
