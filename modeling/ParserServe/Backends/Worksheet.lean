import ParserServe.Backends.Office
import ParserServe.Foundation.Numeration

/-! # Worksheets

The column letters of a cell reference are a bijective numeral, and the list of a row is
written by position: each value lands in the column its reference names.
-/

namespace ParserServe

open Foundation

/-! ## Column names -/

/-- The digit a column letter stands for. -/
def letterDigit (c : Char) : Nat := c.toNat - 64

def digitLetter (digit : Nat) : Char := Char.ofNat (digit + 64)

theorem digitLetter_letterDigit {c : Char} (h : isColumnLetter c) :
    digitLetter (letterDigit c) = c := by
  simp only [isColumnLetter, decide_eq_true_eq] at h
  have hsum : c.toNat - 64 + 64 = c.toNat := by omega
  rw [digitLetter, letterDigit, hsum, Char.ofNat_toNat]

theorem toNat_digitLetter : ∀ digit ≤ 26, (digitLetter digit).toNat = digit + 64 := by
  decide

theorem map_digitLetter {letters : Text} (h : ∀ c ∈ letters, isColumnLetter c) :
    (letters.map letterDigit).map digitLetter = letters := by
  rw [List.map_map]
  exact (List.map_congr_left fun c hc => digitLetter_letterDigit (h c hc)).trans
    (List.map_id' letters)

theorem isNumeral_letters {letters : Text} (h : ∀ c ∈ letters, isColumnLetter c) :
    IsNumeral 26 (letters.map letterDigit) := by
  intro digit hdigit
  obtain ⟨c, hc, rfl⟩ := List.mem_map.mp hdigit
  have hletter := h c hc
  simp only [isColumnLetter, decide_eq_true_eq] at hletter
  unfold letterDigit
  omega

/-- The loop of `_column_index` computes the numeral's value. -/
theorem foldl_letters {letters : Text} (h : ∀ c ∈ letters, isColumnLetter c) :
    letters.foldl (fun result c => result * 26 + c.toNat - 'A'.toNat + 1) 0 =
      numeralValue 26 (letters.map letterDigit) := by
  induction letters using List.reverseRecOn with
  | nil => rfl
  | append_singleton letters c ih =>
      have hc := h c (by simp)
      simp only [isColumnLetter, decide_eq_true_eq] at hc
      have hA : 'A'.toNat = 65 := rfl
      rw [List.foldl_append, ih fun d hd => h d (by simp [hd]), List.map_append,
        List.map_singleton, numeralValue_concat, List.foldl_cons, List.foldl_nil, letterDigit, hA]
      omega

/-- A reference as the regular expression accepts it: its column letters. -/
structure NamesColumn (reference letters : Text) : Prop where
  matched : matchCellReference reference = some letters
  upper : ∀ c ∈ letters, isColumnLetter c
  ne_nil : letters ≠ []

theorem namesColumn_of_match {reference letters : Text}
    (h : matchCellReference reference = some letters) : NamesColumn reference letters := by
  have hmatch := h
  unfold matchCellReference at h
  split at h
  · cases h
  · dsimp only at h
    split at h
    · next hcond =>
        cases h
        refine ⟨hmatch, ?_, hcond.1⟩
        intro c hc
        exact List.mem_takeWhile_imp hc
    · cases h

theorem columnIndex_eq_ok {reference : Text} {index : Nat} :
    columnIndex reference = .ok index ↔
      ∃ letters, NamesColumn reference letters ∧
        numeralValue 26 (letters.map letterDigit) = index + 1 := by
  unfold columnIndex
  cases hmatch : matchCellReference reference with
  | none =>
      refine iff_of_false (by simp) ?_
      rintro ⟨letters, hname, _⟩
      rw [hname.matched] at hmatch
      cases hmatch
  | some letters =>
      have hname := namesColumn_of_match hmatch
      have hpos := numeralValue_pos (isNumeral_letters hname.upper)
        (by simpa using hname.ne_nil)
      simp only [Except.ok.injEq, foldl_letters hname.upper]
      constructor
      · intro h
        exact ⟨letters, hname, by omega⟩
      · rintro ⟨letters', hname', hvalue⟩
        obtain rfl : letters = letters' := Option.some.inj (hmatch.symm.trans hname'.matched)
        omega

/-- Letters determine the column, and the column determines the letters. -/
theorem columnIndex_eq_iff {reference reference' letters letters' : Text}
    (hname : NamesColumn reference letters) (hname' : NamesColumn reference' letters') :
    columnIndex reference = columnIndex reference' ↔ letters = letters' := by
  have hindex : ∀ {reference letters}, NamesColumn reference letters →
      columnIndex reference = .ok (numeralValue 26 (letters.map letterDigit) - 1) := by
    intro reference letters hname
    unfold columnIndex
    rw [hname.matched, ← foldl_letters hname.upper]
  constructor
  · intro h
    have hpos := numeralValue_pos (isNumeral_letters hname.upper) (by simpa using hname.ne_nil)
    have hpos' := numeralValue_pos (isNumeral_letters hname'.upper)
      (by simpa using hname'.ne_nil)
    rw [hindex hname, hindex hname'] at h
    have hvalue := Except.ok.inj h
    have hdigits := numeralValue_inj (isNumeral_letters hname.upper)
      (isNumeral_letters hname'.upper) (by omega)
    rw [← map_digitLetter hname.upper, hdigits, map_digitLetter hname'.upper]
  · rintro rfl
    rw [hindex hname, hindex hname']

/-- Every column has a name. -/
theorem exists_columnName (index : Nat) : ∃ letters,
    NamesColumn (letters ++ ['1']) letters ∧ columnIndex (letters ++ ['1']) = .ok index := by
  obtain ⟨digits, hdigits, hvalue⟩ := exists_numeral (b := 26) (by decide) (index + 1)
  have hupper : ∀ c ∈ digits.map digitLetter, isColumnLetter c := by
    intro c hc
    obtain ⟨digit, hdigit, rfl⟩ := List.mem_map.mp hc
    have hbound := hdigits digit hdigit
    rw [isColumnLetter, toNat_digitLetter digit hbound.2, decide_eq_true_eq]
    omega
  have hback : (digits.map digitLetter).map letterDigit = digits := by
    rw [List.map_map]
    refine (List.map_congr_left fun digit hdigit => ?_).trans (List.map_id' digits)
    have hletter := toNat_digitLetter digit (hdigits digit hdigit).2
    simp only [Function.comp_apply, letterDigit, hletter, Nat.add_sub_cancel]
  have hne : digits.map digitLetter ≠ [] := by
    intro hnil
    rw [List.map_eq_nil_iff.mp hnil] at hvalue
    cases hvalue
  have hname : NamesColumn (digits.map digitLetter ++ ['1']) (digits.map digitLetter) := by
    refine namesColumn_of_match ?_
    have hstop : isColumnLetter '1' = false := by decide
    unfold matchCellReference
    rw [List.dropWhile_append_of_pos hupper, List.takeWhile_append_of_pos hupper]
    simp [hstop, hne, beforeFinalNewline]
  exact ⟨digits.map digitLetter, hname,
    columnIndex_eq_ok.mpr ⟨digits.map digitLetter, hname, by rw [hback, hvalue]⟩⟩

/-! ## The list of a row -/

def rowTag : String := sheetTag "row"

def cellTag : String := sheetTag "c"

/-- The value of the last cell that names the column, or the empty text. -/
def columnValue (shared : List Text) (cells : List Element) (k : Nat) : Text :=
  match cells.reverse.find? fun cell => decide (columnIndex (cell.get "r") = .ok k) with
  | none => []
  | some cell => (cellValue shared cell).toOption.getD []

theorem placeCell_eq_ok {shared : List Text} {cells cells' : List Text} {cell : Element} :
    placeCell shared cells cell = .ok cells' ↔
      ∃ index value, columnIndex (cell.get "r") = .ok index ∧
        cellValue shared cell = .ok value ∧ cells' = writeAt [] cells index value := by
  simp only [placeCell, bind_eq_ok, Except.ok.injEq]
  constructor
  · rintro ⟨index, hindex, value, hvalue, rfl⟩
    exact ⟨index, value, hindex, hvalue, rfl⟩
  · rintro ⟨index, value, hindex, hvalue, rfl⟩
    exact ⟨index, hindex, value, hvalue, rfl⟩

theorem columnValue_concat {shared : List Text} {cells : List Element} {cell : Element}
    {index : Nat} {value : Text} (hindex : columnIndex (cell.get "r") = .ok index)
    (hvalue : cellValue shared cell = .ok value) (k : Nat) :
    columnValue shared (cells ++ [cell]) k =
      if index = k then value else columnValue shared cells k := by
  unfold columnValue
  rw [List.reverse_append, List.reverse_singleton, List.singleton_append, List.find?_cons,
    hindex]
  by_cases h : index = k
  · simp [h, hvalue, Except.toOption]
  · simp [h]

/-- Placing cells one by one leaves in each column the value of the last cell that names it. -/
theorem getD_placed {shared : List Text} {cells : List Element} {result : List Text}
    (h : cells.foldlM (placeCell shared) [] = .ok result) (k : Nat) :
    result.getD k [] = columnValue shared cells k := by
  induction cells using List.reverseRecOn generalizing result with
  | nil =>
      obtain rfl := foldlM_nil_eq_ok.mp h
      rfl
  | append_singleton cells cell ih =>
      rw [List.foldlM_append, bind_eq_ok] at h
      obtain ⟨middle, hcells, hcell⟩ := h
      obtain ⟨placed, hplace, hend⟩ := foldlM_cons_eq_ok.mp hcell
      obtain rfl := foldlM_nil_eq_ok.mp hend
      obtain ⟨index, value, hindex, hvalue, rfl⟩ := placeCell_eq_ok.mp hplace
      rw [getD_writeAt, ih hcells, columnValue_concat hindex hvalue]

/-- Trimming after the loop: what the cells of a row say about its list. -/
structure LandsInColumns (shared : List Text) (row : Element) (cells : List Text) : Prop where
  value : ∀ k, cells.getD k [] = columnValue shared (row.findall cellTag) k
  last : ∀ h : cells ≠ [], cells.getLast h ≠ []
  dropped : cells = [] ↔ ∀ k, columnValue shared (row.findall cellTag) k = []

theorem rowCells_lands {shared : List Text} {row : Element} {cells : List Text}
    (h : rowCells shared row = .ok cells) : LandsInColumns shared row cells := by
  simp only [rowCells, bind_eq_ok, Except.ok.injEq] at h
  obtain ⟨placed, hplaced, rfl⟩ := h
  have hvalue : ∀ k, placed.getD k [] = columnValue shared (row.findall cellTag) k :=
    getD_placed hplaced
  refine ⟨?_, getLast_trimBlanks_ne [] placed, ?_⟩
  · intro k
    rw [getD_trimBlanks, hvalue]
  · rw [trimBlanks_eq_nil_iff]
    exact forall_congr' fun k => by rw [hvalue]

theorem placeCell_isOk_iff {shared : List Text} (cells : List Text) (cell : Element) :
    (placeCell shared cells cell).isOk ↔
      (columnIndex (cell.get "r")).isOk ∧ (cellValue shared cell).isOk := by
  simp only [isOk_iff, placeCell_eq_ok]
  constructor
  · rintro ⟨_, index, value, hindex, hvalue, _⟩
    exact ⟨⟨index, hindex⟩, value, hvalue⟩
  · rintro ⟨⟨index, hindex⟩, value, hvalue⟩
    exact ⟨_, index, value, hindex, hvalue, rfl⟩

/-- A row raises only at a cell whose reference or value cannot be read. -/
theorem rowCells_isOk_iff {shared : List Text} {row : Element} :
    (rowCells shared row).isOk ↔ ∀ cell ∈ row.findall cellTag,
      (columnIndex (cell.get "r")).isOk ∧ (cellValue shared cell).isOk := by
  rw [← foldlM_isOk_iff (b := []) placeCell_isOk_iff, isOk_iff, isOk_iff]
  simp only [rowCells, bind_eq_ok, Except.ok.injEq]
  constructor
  · rintro ⟨_, placed, hplaced, _⟩
    exact ⟨placed, hplaced⟩
  · rintro ⟨placed, hplaced⟩
    exact ⟨_, placed, hplaced, rfl⟩

theorem foldlM_rows {shared : List Text} {elements : List Element}
    {rows result : List (List Text)} :
    elements.foldlM (fun rows row => do
        let cells ← rowCells shared row
        .ok (if cells = [] then rows else rows ++ [cells])) rows = .ok result ↔
      ∃ lists, elements.mapM (rowCells shared) = .ok lists ∧
        result = rows ++ lists.filter (fun cells => decide (cells ≠ [])) := by
  induction elements generalizing rows with
  | nil => simp [pure, Except.pure, eq_comm]
  | cons row elements ih =>
      rw [foldlM_cons_eq_ok, List.mapM_cons]
      simp only [bind_eq_ok, ih, Except.ok.injEq, pure, Except.pure]
      constructor
      · rintro ⟨_, ⟨cells, hcells, rfl⟩, lists, hlists, rfl⟩
        refine ⟨cells :: lists, ⟨cells, hcells, lists, hlists, rfl⟩, ?_⟩
        by_cases hempty : cells = [] <;> simp [hempty]
      · rintro ⟨_, ⟨cells, hcells, lists, hlists, rfl⟩, rfl⟩
        refine ⟨_, ⟨cells, hcells, rfl⟩, lists, hlists, ?_⟩
        by_cases hempty : cells = [] <;> simp [hempty]

/-- The rows of a worksheet are the lists of its row elements that are not empty. -/
theorem sheetRows_eq_ok {shared : List Text} {root : Element} {rows : List (List Text)} :
    sheetRows shared root = .ok rows ↔
      ∃ lists, (root.iter rowTag).mapM (rowCells shared) = .ok lists ∧
        rows = lists.filter (fun cells => decide (cells ≠ [])) :=
  foldlM_rows

/-- `_column_index` numbers the column names from zero, in bijective base 26. -/
structure ColumnNumbering : Prop where
  determined : ∀ reference reference' letters letters',
    NamesColumn reference letters → NamesColumn reference' letters' →
      (columnIndex reference = columnIndex reference' ↔ letters = letters')
  named : ∀ index, ∃ letters,
    NamesColumn (letters ++ ['1']) letters ∧ columnIndex (letters ++ ['1']) = .ok index
  first : columnIndex "A1".toList = .ok 0
  last_of_one : columnIndex "Z1".toList = .ok 25
  first_of_two : columnIndex "AA1".toList = .ok 26

theorem columnNumbering : ColumnNumbering where
  determined _ _ _ _ := columnIndex_eq_iff
  named := exists_columnName
  first := by decide
  last_of_one := by decide
  first_of_two := by decide

/-- For every row element: the row is extracted exactly when its references are valid and its
values can be read, each value then stands in its column, and a worksheet keeps the rows that
are not empty. -/
theorem xlsx_cells_in_columns (shared : List Text) :
    (∀ row, (rowCells shared row).isOk ↔ ∀ cell ∈ row.findall cellTag,
        (columnIndex (cell.get "r")).isOk ∧ (cellValue shared cell).isOk) ∧
      (∀ row cells, rowCells shared row = .ok cells → LandsInColumns shared row cells) ∧
      (∀ root rows, sheetRows shared root = .ok rows ↔
        ∃ lists, (root.iter rowTag).mapM (rowCells shared) = .ok lists ∧
          rows = lists.filter (fun cells => decide (cells ≠ []))) ∧
      ColumnNumbering :=
  ⟨fun _ => rowCells_isOk_iff, fun _ _ => rowCells_lands, fun _ _ => sheetRows_eq_ok,
    columnNumbering⟩

end ParserServe
