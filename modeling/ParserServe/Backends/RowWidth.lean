import ParserServe.Backends.Worksheet

/-! # The width of a row

The loop over a worksheet, with every list that it holds on the way.  A row is padded up to
the column of its rightmost reference, so its width is bounded by the references alone:
`xlsx_rows_bounded_iff` says which worksheets stay within the columns of the format.
-/

namespace ParserServe

open Foundation

/-- The number of columns of the format, `A` to `XFD`. -/
def columnLimit : Nat := 16384

/-! ## The lists built -/

/-- `cells.append("")` until the column exists: the list after each turn. -/
def appendedLists (cells : List Text) (index : Nat) : List (List Text) :=
  (List.range (index + 1 - cells.length)).map fun k => cells ++ List.replicate (k + 1) []

/-- The lists of a row while one cell is placed. -/
def cellLists (shared : List Text) (cells : List Text) (cell : Element) : List (List Text) :=
  match columnIndex (cell.get "r") with
  | .error _ => []
  | .ok index =>
      appendedLists cells index ++
        match cellValue shared cell with
        | .error _ => []
        | .ok value => [writeAt [] cells index value]

/-- `cells.pop()` while the last value is empty: the list after each turn. -/
def poppedLists (cells : List Text) : List (List Text) :=
  (List.range (cells.length - (trimBlanks [] cells).length)).map fun k =>
    cells.take (cells.length - (k + 1))

/-- The lists of a row from `cells` on, until it is complete or a cell raises. -/
def rowLists (shared : List Text) (cells : List Text) : List Element → List (List Text)
  | [] => poppedLists cells
  | cell :: rest =>
      cellLists shared cells cell ++
        match placeCell shared cells cell with
        | .error _ => []
        | .ok cells' => rowLists shared cells' rest

/-- What the extraction of a worksheet holds: the finished rows and the list of the row it is
at. -/
structure SheetState where
  rows : List (List Text)
  cells : List Text

def SheetState.held (state : SheetState) : Nat := state.rows.flatten.length + state.cells.length

/-- The states from `rows` on, until the worksheet is complete or a cell raises. -/
def sheetStates (shared : List Text) (rows : List (List Text)) : List Element → List SheetState
  | [] => [⟨rows, []⟩]
  | row :: rest =>
      ⟨rows, []⟩ :: (rowLists shared [] (row.findall cellTag)).map (⟨rows, ·⟩) ++
        match rowCells shared row with
        | .error _ => []
        | .ok cells =>
            ⟨rows, cells⟩ :: sheetStates shared (if cells = [] then rows else rows ++ [cells]) rest

/-! ## Their width -/

/-- The cell can be placed, whatever was placed before. -/
def Readable (shared : List Text) (cell : Element) : Prop :=
  (columnIndex (cell.get "r")).isOk ∧ (cellValue shared cell).isOk

/-- The cells of the list that come into processing name a column of the format. -/
def WithinFormat (shared : List Text) (cells : List Element) : Prop :=
  ∀ before cell after, cells = before ++ cell :: after → (∀ b ∈ before, Readable shared b) →
    ∀ index, columnIndex (cell.get "r") = .ok index → index < columnLimit

theorem withinFormat_nil (shared : List Text) : WithinFormat shared [] := by
  intro before cell after h
  simp at h

theorem withinFormat_cons {shared : List Text} {cell : Element} {rest : List Element} :
    WithinFormat shared (cell :: rest) ↔
      (∀ index, columnIndex (cell.get "r") = .ok index → index < columnLimit) ∧
        (Readable shared cell → WithinFormat shared rest) := by
  constructor
  · intro h
    refine ⟨h [] cell rest rfl (by simp), ?_⟩
    intro hread before other after hrest hbefore
    refine h (cell :: before) other after (by rw [hrest]; rfl) ?_
    exact List.forall_mem_cons.mpr ⟨hread, hbefore⟩
  · rintro ⟨hcell, hrest⟩ before other after heq hbefore
    cases before with
    | nil =>
        obtain ⟨rfl, rfl⟩ := List.cons.inj heq
        exact hcell
    | cons first before =>
        obtain ⟨rfl, hsplit⟩ := List.cons.inj heq
        obtain ⟨hfirst, hbefore⟩ := List.forall_mem_cons.mp hbefore
        exact hrest hfirst before other after hsplit hbefore

theorem withinFormat_append {shared : List Text} {cells rest : List Element} :
    WithinFormat shared (cells ++ rest) ↔
      WithinFormat shared cells ∧ ((∀ cell ∈ cells, Readable shared cell) →
        WithinFormat shared rest) := by
  induction cells with
  | nil => simp [withinFormat_nil]
  | cons cell cells ih =>
      rw [List.cons_append, withinFormat_cons, withinFormat_cons, ih, List.forall_mem_cons]
      tauto

/-- The lists of one cell stay within the format exactly when its column does. -/
theorem cellLists_bounded_iff {shared : List Text} {cells : List Text} {cell : Element}
    (hcells : cells.length ≤ columnLimit) :
    (∀ list ∈ cellLists shared cells cell, list.length ≤ columnLimit) ↔
      ∀ index, columnIndex (cell.get "r") = .ok index → index < columnLimit := by
  unfold cellLists
  cases hindex : columnIndex (cell.get "r") with
  | error e => simp
  | ok index =>
      simp only [Except.ok.injEq, forall_eq']
      constructor
      · intro h
        by_contra hwide
        have hmem : cells ++ List.replicate (index - cells.length + 1) [] ∈
            appendedLists cells index := by
          refine List.mem_map.mpr ⟨index - cells.length, ?_, rfl⟩
          rw [List.mem_range]
          omega
        have := h _ (List.mem_append_left _ hmem)
        rw [List.length_append, List.length_replicate] at this
        omega
      · intro hindex list hlist
        rcases List.mem_append.mp hlist with hpad | hset
        · obtain ⟨k, hk, rfl⟩ := List.mem_map.mp hpad
          rw [List.mem_range] at hk
          rw [List.length_append, List.length_replicate]
          omega
        · split at hset
          · cases hset
          · rw [List.mem_singleton.mp hset, length_writeAt]
            omega

theorem length_placed {shared : List Text} {cells cells' : List Text} {cell : Element}
    (hcells : cells.length ≤ columnLimit)
    (hindex : ∀ index, columnIndex (cell.get "r") = .ok index → index < columnLimit)
    (h : placeCell shared cells cell = .ok cells') : cells'.length ≤ columnLimit := by
  obtain ⟨index, value, hcolumn, _, rfl⟩ := placeCell_eq_ok.mp h
  have := hindex index hcolumn
  rw [length_writeAt]
  omega

theorem rowLists_bounded_iff {shared : List Text} {cells : List Text} {elements : List Element}
    (hcells : cells.length ≤ columnLimit) :
    (∀ list ∈ rowLists shared cells elements, list.length ≤ columnLimit) ↔
      WithinFormat shared elements := by
  induction elements generalizing cells with
  | nil =>
      refine iff_of_true ?_ (withinFormat_nil shared)
      intro list hlist
      obtain ⟨k, _, rfl⟩ := List.mem_map.mp hlist
      exact (List.length_take_le' _ _).trans hcells
  | cons cell rest ih =>
      rw [rowLists, List.forall_mem_append, cellLists_bounded_iff hcells, withinFormat_cons]
      refine and_congr_right fun hindex => ?_
      cases hplace : placeCell shared cells cell with
      | error e =>
          have hraise : ¬ Readable shared cell := by
            intro hread
            have hok := (placeCell_isOk_iff cells cell).mpr hread
            rw [hplace] at hok
            cases hok
          simp [hraise]
      | ok cells' =>
          have hread : Readable shared cell := by
            refine (placeCell_isOk_iff cells cell).mp ?_
            rw [hplace]
            rfl
          rw [ih (length_placed hcells hindex hplace)]
          exact ⟨fun h _ => h, fun h => h hread⟩

theorem length_rowCells {shared : List Text} {row : Element} {cells : List Text}
    (hwithin : WithinFormat shared (row.findall cellTag))
    (h : rowCells shared row = .ok cells) : cells.length ≤ columnLimit := by
  simp only [rowCells, bind_eq_ok, Except.ok.injEq] at h
  obtain ⟨placed, hplaced, rfl⟩ := h
  refine (length_trimBlanks_le [] placed).trans ?_
  have hstart : ([] : List Text).length ≤ columnLimit := Nat.zero_le _
  change (row.findall cellTag).foldlM (placeCell shared) [] = .ok placed at hplaced
  generalize row.findall cellTag = elements at hwithin hplaced
  generalize ([] : List Text) = start at hstart hplaced
  induction elements generalizing start with
  | nil =>
      obtain rfl := foldlM_nil_eq_ok.mp hplaced
      exact hstart
  | cons cell rest ih =>
      obtain ⟨middle, hcell, hrest⟩ := foldlM_cons_eq_ok.mp hplaced
      obtain ⟨hindex, hothers⟩ := withinFormat_cons.mp hwithin
      have hread : Readable shared cell :=
        (placeCell_isOk_iff start cell).mp (isOk_iff.mpr ⟨middle, hcell⟩)
      exact ih (hothers hread) middle (length_placed hstart hindex hcell) hrest

/-- A worksheet keeps every list within the format exactly when its references do. -/
theorem sheetStates_bounded_iff (shared : List Text) (rows : List (List Text))
    (elements : List Element) :
    (∀ state ∈ sheetStates shared rows elements, state.cells.length ≤ columnLimit) ↔
      WithinFormat shared (elements.flatMap (·.findall cellTag)) := by
  induction elements generalizing rows with
  | nil => simp [sheetStates, withinFormat_nil]
  | cons row rest ih =>
      have hempty : ([] : List Text).length ≤ columnLimit := Nat.zero_le _
      rw [sheetStates, List.flatMap_cons, withinFormat_append, List.cons_append,
        List.forall_mem_cons, List.forall_mem_append, List.forall_mem_map,
        ← rowLists_bounded_iff hempty]
      refine (and_iff_right hempty).trans ?_
      refine and_congr_right fun hlists => ?_
      have hread : (rowCells shared row).isOk ↔
          ∀ cell ∈ row.findall cellTag, Readable shared cell := rowCells_isOk_iff
      rw [← hread]
      cases hrow : rowCells shared row with
      | error e => simp [Except.isOk, Except.toBool]
      | ok cells =>
          have hcells := length_rowCells ((rowLists_bounded_iff hempty).mp hlists) hrow
          rw [List.forall_mem_cons, ih]
          exact (and_iff_right hcells).trans ⟨fun h _ => h, fun h => h rfl⟩

theorem length_flatten_le {rows : List (List Text)}
    (h : ∀ row ∈ rows, row.length ≤ columnLimit) :
    rows.flatten.length ≤ columnLimit * rows.length := by
  induction rows with
  | nil => simp
  | cons row rows ih =>
      obtain ⟨hrow, hrows⟩ := List.forall_mem_cons.mp h
      have := ih hrows
      rw [List.flatten_cons, List.length_append, List.length_cons, Nat.mul_succ]
      omega

/-- Where each list is within the format, so are the finished rows, and the row elements bound
what is held. -/
theorem sheetStates_held {shared : List Text} {rows : List (List Text)}
    {elements : List Element} {n : Nat}
    (hrows : ∀ row ∈ rows, row.length ≤ columnLimit) (hn : rows.length + elements.length ≤ n)
    (h : ∀ state ∈ sheetStates shared rows elements, state.cells.length ≤ columnLimit) :
    ∀ state ∈ sheetStates shared rows elements,
      (∀ row ∈ state.rows, row.length ≤ columnLimit) ∧ state.held ≤ columnLimit * n := by
  induction elements generalizing rows with
  | nil =>
      intro state hstate
      rw [List.mem_singleton.mp hstate]
      have hheld := length_flatten_le hrows
      have hcount : columnLimit * rows.length ≤ columnLimit * n :=
        Nat.mul_le_mul_left _ (by simpa using hn)
      exact ⟨hrows, by simpa [SheetState.held] using hheld.trans hcount⟩
  | cons row rest ih =>
      rw [List.length_cons] at hn
      -- a state of this row: the rows before it and one list
      have hhere : ∀ cells : List Text, cells.length ≤ columnLimit →
          (∀ r ∈ rows, r.length ≤ columnLimit) ∧
            (SheetState.mk rows cells).held ≤ columnLimit * n := by
        intro cells hcells
        have hheld := length_flatten_le hrows
        have hcount : columnLimit * (rows.length + 1) ≤ columnLimit * n :=
          Nat.mul_le_mul_left _ (by omega)
        rw [Nat.mul_succ] at hcount
        refine ⟨hrows, ?_⟩
        simp only [SheetState.held]
        omega
      intro state hstate
      have hwidth := h state hstate
      rw [sheetStates, List.cons_append] at h hstate
      rcases List.mem_cons.mp hstate with rfl | hstate
      · exact hhere _ hwidth
      rcases List.mem_append.mp hstate with hlist | hlater
      · obtain ⟨cells, _, rfl⟩ := List.mem_map.mp hlist
        exact hhere _ hwidth
      cases hrow : rowCells shared row with
      | error e =>
          rw [hrow] at hlater
          cases hlater
      | ok cells =>
          rw [hrow] at hlater h
          have hrest := (List.forall_mem_append.mp (List.forall_mem_cons.mp h).2).2
          obtain ⟨hcells, hstates⟩ := List.forall_mem_cons.mp hrest
          rcases List.mem_cons.mp hlater with rfl | hlater
          · exact hhere _ hwidth
          · refine ih ?_ ?_ hstates state hlater
            · split
              · exact hrows
              · rw [List.forall_mem_append]
                exact ⟨hrows, by simpa using hcells⟩
            · split
              · omega
              · rw [List.length_append, List.length_singleton]
                omega

/-- The bound that the format suggests, in a state of a worksheet with `n` row elements. -/
structure SheetState.Bounded (n : Nat) (state : SheetState) : Prop where
  cells : state.cells.length ≤ columnLimit
  rows : ∀ row ∈ state.rows, row.length ≤ columnLimit
  held : state.held ≤ columnLimit * n

/-- For every worksheet: the extraction stays within the columns of the format exactly when
every cell that it comes to names one of them. -/
theorem xlsx_rows_bounded_iff (shared : List Text) (root : Element) :
    (∀ state ∈ sheetStates shared [] (root.iter rowTag),
        state.Bounded (root.iter rowTag).length) ↔
      WithinFormat shared ((root.iter rowTag).flatMap (·.findall cellTag)) := by
  rw [← sheetStates_bounded_iff shared []]
  constructor
  · intro h state hstate
    exact (h state hstate).cells
  · intro h state hstate
    obtain ⟨hrows, hheld⟩ := sheetStates_held (n := (root.iter rowTag).length) (by simp)
      (by simp) h state hstate
    exact ⟨h state hstate, hrows, hheld⟩

/-- One cell in the column after `XFD`, in a worksheet of one row. -/
def wideCell : Element := .mk (sheetTag "c") [("r", "XFE1".toList)] none []

def wideSheet : Element :=
  .mk (sheetTag "worksheet") [] none
    [.mk (sheetTag "sheetData") [] none [.mk (sheetTag "row") [] none [wideCell]]]

/-- The worksheet demands a list of 16385 cells from its one row element. -/
theorem wide_sheet_unbounded :
    ¬ ∀ state ∈ sheetStates [] [] (wideSheet.iter rowTag),
      state.Bounded (wideSheet.iter rowTag).length := by
  intro h
  have hcells : (wideSheet.iter rowTag).flatMap (·.findall cellTag) = [wideCell] :=
    rfl
  have hwithin : WithinFormat [] ((wideSheet.iter rowTag).flatMap (·.findall cellTag)) :=
    (sheetStates_bounded_iff [] [] _).mp fun state hstate => (h state hstate).cells
  rw [hcells] at hwithin
  have hcolumn : columnIndex (wideCell.get "r") = .ok 16384 := by decide
  exact Nat.lt_irrefl _ (hwithin [] wideCell [] rfl (by simp) 16384 hcolumn)

end ParserServe
