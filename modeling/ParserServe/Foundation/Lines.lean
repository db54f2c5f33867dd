import ParserServe.Foundation.Text

/-! # Lines

`str.splitlines` and the universal newlines of text files.
-/

namespace ParserServe.Foundation

/-- The line boundaries of `str.splitlines`. -/
def isLineBreak (c : Char) : Bool :=
  (10 ≤ c.toNat && c.toNat ≤ 13) || (28 ≤ c.toNat && c.toNat ≤ 30) ||
    [0x85, 0x2028, 0x2029].contains c.toNat

/-- The lines of the rest of a text after the part `current` of a line; a line feed after a
carriage return belongs to it. -/
def splitLinesFrom : Bool → List Char → List Char → List (List Char)
  | _, current, [] => if current = [] then [] else [current]
  | afterReturn, current, c :: rest =>
      if afterReturn ∧ c = '\n' then splitLinesFrom false current rest
      else if isLineBreak c then current :: splitLinesFrom (c = '\r') [] rest
      else splitLinesFrom false (current ++ [c]) rest

/-- `str.splitlines`. -/
def splitLines (text : List Char) : List (List Char) := splitLinesFrom false [] text

def universalNewlinesFrom : Bool → List Char → List Char
  | _, [] => []
  | afterReturn, c :: rest =>
      if afterReturn ∧ c = '\n' then universalNewlinesFrom false rest
      else if c = '\r' then '\n' :: universalNewlinesFrom true rest
      else c :: universalNewlinesFrom false rest

/-- The text as a file in text mode reads it. -/
def universalNewlines (text : List Char) : List Char := universalNewlinesFrom false text

theorem splitLinesFrom_breakless {afterReturn : Bool} {current text : List Char}
    (hcurrent : ∀ c ∈ current, isLineBreak c = false) :
    ∀ line ∈ splitLinesFrom afterReturn current text, ∀ c ∈ line, isLineBreak c = false := by
  induction text generalizing afterReturn current with
  | nil =>
      intro line hline
      unfold splitLinesFrom at hline
      split at hline
      · cases hline
      · rw [List.mem_singleton.mp hline]
        exact hcurrent
  | cons c rest ih =>
      intro line hline
      unfold splitLinesFrom at hline
      split at hline
      · exact ih hcurrent line hline
      · split at hline
        · rcases List.mem_cons.mp hline with rfl | hline
          · exact hcurrent
          · exact ih (by simp) line hline
        · next hbreak =>
            refine ih (fun other hother => ?_) line hline
            rcases List.mem_append.mp hother with hother | hother
            · exact hcurrent other hother
            · rw [List.mem_singleton.mp hother]
              exact Bool.eq_false_iff.mpr hbreak

/-- No line has a line boundary in it. -/
theorem splitLines_breakless {text line : List Char} (h : line ∈ splitLines text) :
    ∀ c ∈ line, isLineBreak c = false :=
  splitLinesFrom_breakless (by simp) line h

example : splitLines "a\r\nb\n\nc\r".toList = ["a".toList, "b".toList, [], "c".toList] := by
  decide

end ParserServe.Foundation
