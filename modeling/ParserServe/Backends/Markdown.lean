import ParserServe.Backends.Text
import ParserServe.Security.TextSamples

/-! # Text without loss

The blocks of a Markdown text are its headings and the paragraphs between them, in their order,
unless a heading has no text.  A text file that passed the inspection is read unless it is UTF-16.
-/

namespace ParserServe

open Foundation

variable {level level' : Nat} {line text rest : List Char}

/-! ## The expression -/

theorem atEnd_iff (hrest : '\n' ∉ rest) : atEnd rest ↔ rest = [] := by
  have hne : rest ≠ ['\n'] := fun heq => hrest (heq ▸ List.mem_cons_self)
  simp [atEnd, hne]

/-- White space to the end of the line. -/
theorem matchEnd_eq (hrest : '\n' ∉ rest) :
    matchEnd level text rest = if rest.all isSpace then some (level, text) else none := by
  have hdrop : ∀ n, '\n' ∉ rest.drop n := fun n hmem => hrest (List.mem_of_mem_drop hmem)
  by_cases hall : rest.all isSpace
  · have htakes : Takes isSpace 0 rest.length rest rest.length :=
      ⟨le_rfl, Nat.zero_le _, le_rfl, by rwa [List.take_length]⟩
    have hsome : (matchEnd level text rest).isSome :=
      greedySearch_isSome htakes (by simp [atEnd])
    obtain ⟨result, hresult⟩ := Option.isSome_iff_exists.mp hsome
    obtain ⟨n, -, hend, -⟩ := greedySearch_eq_some hresult
    split at hend
    · rw [if_pos hall, hresult, hend]
    · cases hend
  · rw [if_neg hall]
    refine Option.eq_none_iff_forall_ne_some.mpr fun result hresult => hall ?_
    obtain ⟨n, htakes, hend, -⟩ := greedySearch_eq_some hresult
    split at hend
    · next hatEnd =>
        have hnil : rest.drop n = [] := (atEnd_iff (hdrop n)).mp hatEnd
        have hspaces := htakes.all
        rwa [List.take_of_length_le (List.drop_eq_nil_iff.mp hnil)] at hspaces
    · cases hend

/-- The text goes up to the white space at the end of the line, and has one character at least. -/
theorem matchText_eq_some {result : List Char} (hrest : '\n' ∉ rest)
    (h : matchText level rest = some (level', result)) :
    level' = level ∧ ∃ before c spaces, result = before ++ [c] ∧ rest = result ++ spaces ∧
      spaces.all isSpace ∧ (before = [] ∨ ¬ isSpace c) := by
  have hdrop : ∀ n, '\n' ∉ rest.drop n := fun n hmem => hrest (List.mem_of_mem_drop hmem)
  obtain ⟨n, htakes, hend, hfirst⟩ := lazySearch_eq_some h
  rw [matchEnd_eq (hdrop n)] at hend
  split at hend
  · next hspaces =>
      cases hend
      refine ⟨rfl, ?_⟩
      obtain ⟨m, rfl⟩ : ∃ m, n = m + 1 := ⟨n - 1, by have := htakes.low; omega⟩
      have hlt : m < rest.length := htakes.length
      refine ⟨rest.take m, rest[m], rest.drop (m + 1), ?_, (List.take_append_drop _ _).symm,
        hspaces, ?_⟩
      · exact (List.take_append_getElem hlt).symm
      · by_cases hm : m = 0
        · exact .inl (by rw [hm, List.take_zero])
        · refine .inr fun hspace => ?_
          have hearlier : Takes (· ≠ '\n') 1 rest.length rest m := by
            refine ⟨hlt.le, by omega, hlt.le, List.all_eq_true.mpr fun c hc => ?_⟩
            exact List.all_eq_true.mp htakes.all c
              ((List.take_subset_take_left rest (Nat.le_succ m)) hc)
          have hnone := hfirst m (Nat.lt_succ_self m) hearlier
          rw [matchEnd_eq (hdrop m), List.drop_eq_getElem_cons hlt, List.all_cons, hspace,
            hspaces] at hnone
          cases hnone
  · cases hend

theorem matchText_isSome (hrest : '\n' ∉ rest) (hne : rest ≠ []) :
    (matchText level rest).isSome := by
  have htakes : Takes (· ≠ '\n') 1 rest.length rest rest.length := by
    refine ⟨le_rfl, List.length_pos_iff.mpr hne, le_rfl, List.all_eq_true.mpr fun c hc => ?_⟩
    rw [List.take_length] at hc
    exact decide_eq_true fun heq => hrest (heq ▸ hc)
  refine lazySearch_isSome htakes ?_
  rw [List.drop_length, matchEnd_eq List.not_mem_nil]
  rfl

/-- What a match says about the rest of the line after the signs: spaces and tabs, the text up to
the white space at the end, and no more spaces or tabs before the text than there must be. -/
structure HeadingRest (rest text : List Char) : Prop where
  split : ∃ blanks before c spaces, rest = blanks ++ (text ++ spaces) ∧ text = before ++ [c] ∧
    blanks ≠ [] ∧ blanks.all isBlank ∧ spaces.all isSpace ∧ (before = [] ∨ ¬ isSpace c) ∧
    (rest.dropWhile isBlank ≠ [] → blanks = rest.takeWhile isBlank)

theorem matchBlanks_eq_some {result : List Char} (hrest : '\n' ∉ rest)
    (h : matchBlanks level rest = some (level', result)) :
    level' = level ∧ HeadingRest rest result := by
  have hdrop : ∀ n, '\n' ∉ rest.drop n := fun n hmem => hrest (List.mem_of_mem_drop hmem)
  obtain ⟨n, htakes, htext, hlonger⟩ := greedySearch_eq_some h
  obtain ⟨rfl, before, c, spaces, hresult, hsplit, hspaces, hlast⟩ :=
    matchText_eq_some (hdrop n) htext
  refine ⟨rfl, rest.take n, before, c, spaces, ?_, hresult, ?_, htakes.all, hspaces, hlast, ?_⟩
  · rw [← hsplit, List.take_append_drop]
  · intro hnil
    have hlow := htakes.low
    have hlength := congrArg List.length hnil
    rw [List.length_take_of_le htakes.length, List.length_nil] at hlength
    omega
  · intro hne
    have hblanks : rest.takeWhile isBlank =
        rest.take n ++ (rest.drop n).takeWhile isBlank := by
      conv_lhs => rw [← List.take_append_drop n rest]
      exact List.takeWhile_append_of_pos fun c hc => List.all_eq_true.mp htakes.all c hc
    by_contra hshort
    -- the run of blanks is longer, and from its end the expression matches too
    have hlt : n < (rest.takeWhile isBlank).length := by
      have hmore : (rest.drop n).takeWhile isBlank ≠ [] := fun hnil => hshort (by
        rw [hblanks, hnil, List.append_nil])
      have hpos := List.length_pos_iff.mpr hmore
      rw [hblanks, List.length_append, List.length_take_of_le htakes.length]
      omega
    have hall : rest.take (rest.takeWhile isBlank).length = rest.takeWhile isBlank :=
      (List.prefix_iff_eq_take.mp (List.takeWhile_prefix isBlank)).symm
    have hle : (rest.takeWhile isBlank).length ≤ rest.length :=
      (List.takeWhile_prefix isBlank).length_le
    have hlow := htakes.low
    have hlonger' : Takes isBlank 1 rest.length rest (rest.takeWhile isBlank).length :=
      ⟨hle, by omega, hle, by rw [hall]; exact List.all_takeWhile⟩
    have hnone := hlonger _ hlt hlonger'
    have hafter : rest.drop (rest.takeWhile isBlank).length = rest.dropWhile isBlank := by
      have hleft : (rest.takeWhile isBlank ++ rest.dropWhile isBlank).drop
          (rest.takeWhile isBlank).length = rest.dropWhile isBlank := List.drop_left
      rwa [List.takeWhile_append_dropWhile] at hleft
    have hsome : (matchText level' (rest.drop (rest.takeWhile isBlank).length)).isSome :=
      matchText_isSome (hdrop _) (hafter ▸ hne)
    rw [hnone] at hsome
    cases hsome

theorem matchBlanks_isSome {blank : Char} {more : List Char} (hmore : '\n' ∉ more)
    (hblank : isBlank blank) (hne : more ≠ []) : (matchBlanks level (blank :: more)).isSome := by
  have htakes : Takes isBlank 1 (blank :: more).length (blank :: more) 1 :=
    ⟨Nat.le_add_left 1 _, le_rfl, Nat.le_add_left 1 _, by simp [hblank]⟩
  exact greedySearch_isSome htakes (matchText_isSome hmore hne)

/-- A heading line has one to six signs, a space or tab, and something after it. -/
def IsHeading (line : List Char) : Prop :=
  ∃ level blank more, 1 ≤ level ∧ level ≤ 6 ∧ isBlank blank ∧ more ≠ [] ∧
    line = List.replicate level '#' ++ blank :: more

theorem matchHeading_eq_some {result : List Char} (hline : '\n' ∉ line)
    (h : matchHeading line = some (level, result)) :
    1 ≤ level ∧ level ≤ 6 ∧ ∃ rest, line = List.replicate level '#' ++ rest ∧
      HeadingRest rest result := by
  obtain ⟨n, htakes, hblanks, -⟩ := greedySearch_eq_some h
  rw [List.length_take_of_le htakes.length] at hblanks
  have hdrop : '\n' ∉ line.drop n := fun hmem => hline (List.mem_of_mem_drop hmem)
  obtain ⟨rfl, hrest⟩ := matchBlanks_eq_some hdrop hblanks
  refine ⟨htakes.low, htakes.high, line.drop level, ?_, hrest⟩
  have hsigns : line.take level = List.replicate level '#' := by
    refine List.eq_replicate_iff.mpr ⟨List.length_take_of_le htakes.length, fun c hc => ?_⟩
    simpa using List.all_eq_true.mp htakes.all c hc
  rw [← hsigns, List.take_append_drop]

theorem matchHeading_isSome_iff (hline : '\n' ∉ line) :
    (matchHeading line).isSome ↔ IsHeading line := by
  constructor
  · intro hsome
    obtain ⟨⟨level, result⟩, hresult⟩ := Option.isSome_iff_exists.mp hsome
    obtain ⟨hlow, hhigh, rest, rfl, hrest⟩ := matchHeading_eq_some hline hresult
    obtain ⟨blanks, before, c, spaces, rfl, rfl, hne, hblanks, -⟩ := hrest.split
    obtain ⟨blank, others, rfl⟩ := List.exists_cons_of_ne_nil hne
    refine ⟨level, blank, others ++ (before ++ [c] ++ spaces), hlow, hhigh, ?_, by simp, rfl⟩
    exact List.all_eq_true.mp hblanks blank List.mem_cons_self
  · rintro ⟨level, blank, more, hlow, hhigh, hblank, hne, rfl⟩
    have hmore : '\n' ∉ more := fun hmem => hline
      (List.mem_append_right _ (List.mem_cons_of_mem _ hmem))
    have htake : (List.replicate level '#' ++ blank :: more).take level =
        List.replicate level '#' := by
      have hleft : (List.replicate level '#' ++ blank :: more).take
          (List.replicate level '#').length = List.replicate level '#' := List.take_left
      rwa [List.length_replicate] at hleft
    have hdrop : (List.replicate level '#' ++ blank :: more).drop level = blank :: more := by
      have hleft : (List.replicate level '#' ++ blank :: more).drop
          (List.replicate level '#').length = blank :: more := List.drop_left
      rwa [List.length_replicate] at hleft
    have htakes : Takes (· = '#') 1 6 (List.replicate level '#' ++ blank :: more) level :=
      ⟨by simp, hlow, hhigh, by rw [htake]; simp⟩
    refine greedySearch_isSome htakes ?_
    rw [hdrop]
    exact matchBlanks_isSome hmore hblank hne

/-! ## White space -/

theorem isSpace_of_whiteSpace {c : Char} (h : whiteSpace c) : isSpace c := by
  simp only [whiteSpace, isSpace, Bool.or_eq_true, Bool.and_eq_true, decide_eq_true_eq,
    List.contains_iff_mem, List.mem_cons, List.not_mem_nil, or_false] at h ⊢
  omega

theorem whiteSpace_of_isBlank {c : Char} (h : isBlank c) : whiteSpace c := by
  simp only [isBlank, Bool.or_eq_true, decide_eq_true_eq] at h
  rcases h with rfl | rfl <;> decide

/-- Inside a line the two notions of white space differ in the unit separator. -/
theorem whiteSpace_iff_of_isSpace {c : Char} (hspace : isSpace c) (hbreak : isLineBreak c = false) :
    whiteSpace c ↔ c.toNat ≠ 31 := by
  rw [Bool.eq_false_iff, ne_eq] at hbreak
  simp only [whiteSpace, isSpace, isLineBreak, Bool.or_eq_true, Bool.and_eq_true,
    decide_eq_true_eq, List.contains_iff_mem, List.mem_cons, List.not_mem_nil, or_false]
    at hspace hbreak ⊢
  omega

/-! ## The text of a heading -/

def afterSigns (line : List Char) : List Char := line.dropWhile (· = '#')

def headingLevel (line : List Char) : Nat := (line.takeWhile (· = '#')).length

/-- The line without its marker, with the white space after it, and without the blanks at its
end. -/
def headingText (line : List Char) : List Char :=
  ((afterSigns line).dropWhile whiteSpace).rdropWhile isSpace

theorem signs_split {blank : Char} {more : List Char} (hblank : isBlank blank) :
    afterSigns (List.replicate level '#' ++ blank :: more) = blank :: more ∧
      headingLevel (List.replicate level '#' ++ blank :: more) = level := by
  have hsign : ¬ decide (blank = '#') = true := by
    rw [decide_eq_true_eq]
    rintro rfl
    cases hblank
  have hsigns : ∀ c ∈ List.replicate level '#', decide (c = '#') = true :=
    fun c hc => decide_eq_true (List.eq_of_mem_replicate hc)
  constructor
  · exact (List.dropWhile_append_of_pos hsigns).trans (List.dropWhile_cons_of_neg hsign)
  · have htake : (blank :: more).takeWhile (· = '#') = [] := List.takeWhile_cons_of_neg hsign
    rw [headingLevel, List.takeWhile_append_of_pos hsigns, htake, List.append_nil,
      List.length_replicate]

theorem dropWhile_concat {p : Char → Bool} {before : List Char} {c : Char} {after : List Char}
    (h : ¬ p c) : (before ++ c :: after).dropWhile p = before.dropWhile p ++ c :: after := by
  induction before with
  | nil => exact List.dropWhile_cons_of_neg h
  | cons first before ih =>
      rw [List.cons_append, List.dropWhile_cons, List.dropWhile_cons]
      split
      · exact ih
      · rfl

/-- `NonEmptyStr` of a text whose last character is no white space. -/
theorem nonEmptyStr_concat {before : List Char} {c : Char} (h : ¬ whiteSpace c) :
    nonEmptyStr (String.ofList (before ++ [c])) =
      some (String.ofList (before.dropWhile whiteSpace ++ [c])) := by
  have hreverse : (before.dropWhile whiteSpace ++ [c]).reverse.dropWhile whiteSpace =
      (before.dropWhile whiteSpace ++ [c]).reverse := by
    rw [List.reverse_append, List.reverse_singleton, List.singleton_append]
    exact List.dropWhile_cons_of_neg h
  rw [nonEmptyStr, String.toList_ofList, dropWhile_concat h, hreverse, List.reverse_reverse]
  cases hdropped : before.dropWhile whiteSpace <;> rfl

theorem nonEmptyStr_singleton {c : Char} :
    nonEmptyStr (String.ofList [c]) = if whiteSpace c then none else some (String.ofList [c]) := by
  by_cases h : whiteSpace c
  · rw [if_pos h, nonEmptyStr, String.toList_ofList, List.dropWhile_cons_of_pos h]
    rfl
  · rw [if_neg h]
    have hconcat : nonEmptyStr (String.ofList ([] ++ [c])) = _ := nonEmptyStr_concat h
    exact hconcat

/-- A heading with more than blanks after its signs becomes a block with its text. -/
theorem headingBlock_of_text {result : List Char} (hrest : HeadingRest rest result)
    (hlow : 1 ≤ level) (hhigh : level ≤ 6) (hline : line = List.replicate level '#' ++ rest)
    (htext : ¬ rest.all isSpace) :
    headingBlock result level =
      .ok (.heading (String.ofList (headingText line)) (headingLevel line)) := by
  obtain ⟨blanks, before, c, spaces, hsplit, rfl, hne, hblanks, hspaces, hlast, -⟩ := hrest.split
  have hblankSpaces : blanks.all whiteSpace := List.all_eq_true.mpr fun c hc =>
    whiteSpace_of_isBlank (List.all_eq_true.mp hblanks c hc)
  have hc : ¬ isSpace c := by
    rcases hlast with rfl | hlast
    · intro hspace
      refine htext ?_
      rw [hsplit, List.all_append, List.nil_append, List.singleton_append, List.all_cons, hspace,
        hspaces]
      simp only [Bool.and_true]
      exact List.all_eq_true.mpr fun c hc =>
        isSpace_of_whiteSpace (List.all_eq_true.mp hblankSpaces c hc)
    · exact hlast
  have hwhite : ¬ whiteSpace c := fun h => hc (isSpace_of_whiteSpace h)
  obtain ⟨blank, others, rfl⟩ := List.exists_cons_of_ne_nil hne
  have hblank : isBlank blank := List.all_eq_true.mp hblanks blank List.mem_cons_self
  obtain ⟨hafter, hlevel⟩ : afterSigns line = rest ∧ headingLevel line = level := by
    rw [hline, hsplit]
    exact signs_split hblank
  have hheading : headingText line = before.dropWhile whiteSpace ++ [c] := by
    have hdrop : rest.dropWhile whiteSpace = before.dropWhile whiteSpace ++ c :: spaces := by
      rw [hsplit, List.dropWhile_append_of_pos (List.all_eq_true.mp hblankSpaces),
        List.append_assoc, List.singleton_append, dropWhile_concat hwhite]
    have hend : (before.dropWhile whiteSpace ++ c :: spaces).rdropWhile isSpace =
        before.dropWhile whiteSpace ++ [c] := by
      have hback : ∀ c ∈ spaces.reverse, isSpace c = true := fun c hc =>
        List.all_eq_true.mp hspaces c (List.mem_reverse.mp hc)
      rw [List.rdropWhile, List.reverse_append, List.reverse_cons, List.append_assoc,
        List.dropWhile_append_of_pos hback, List.singleton_append, List.dropWhile_cons_of_neg hc,
        List.reverse_cons, List.reverse_reverse]
    rw [headingText, hafter, hdrop, hend]
  rw [headingBlock, nonEmptyStr_concat hwhite, hheading, hlevel]
  exact bind_eq_ok.mpr ⟨(), ensure_of_true ⟨hlow, hhigh⟩, rfl⟩

/-- A heading line with nothing but blanks after its signs. -/
def BlankHeading (line : List Char) : Prop := IsHeading line ∧ (afterSigns line).all isSpace

/-- The first character after the spaces and tabs is not the unit separator. -/
def RefusedHeading (line : List Char) : Prop :=
  BlankHeading line ∧ ((afterSigns line).dropWhile isBlank).head? ≠ some (Char.ofNat 31)

/-- What is left of a blank heading: its last space or tab, or the first other blank. -/
theorem blank_text {result : List Char} (hrest : HeadingRest rest result)
    (hall : rest.all isSpace) : ∃ c ∈ rest, result = [c] ∧
      (isBlank c ∧ rest.dropWhile isBlank = [] ∨ (rest.dropWhile isBlank).head? = some c) := by
  obtain ⟨blanks, before, c, spaces, hsplit, hresult, hne, hblanks, hspaces, hlast, hgreedy⟩ :=
    hrest.split
  have hmem : c ∈ rest := by
    rw [hsplit, hresult]
    simp
  have hbefore : before = [] := by
    refine hlast.resolve_right fun hc => hc ?_
    exact List.all_eq_true.mp hall c hmem
  refine ⟨c, hmem, by rw [hresult, hbefore, List.nil_append], ?_⟩
  by_cases hdropped : rest.dropWhile isBlank = []
  · exact .inl ⟨List.dropWhile_eq_nil_iff.mp hdropped c hmem, hdropped⟩
  · right
    have hparts : rest.takeWhile isBlank ++ rest.dropWhile isBlank =
        rest.takeWhile isBlank ++ (c :: spaces) := by
      rw [List.takeWhile_append_dropWhile, ← hgreedy hdropped]
      rw [hsplit, hresult, hbefore]
      rfl
    rw [List.append_cancel_left hparts]
    rfl

variable {result : List Char}

theorem afterSigns_of_match (hline : line = List.replicate level '#' ++ rest)
    (hrest : HeadingRest rest result) : afterSigns line = rest := by
  obtain ⟨blanks, _, _, _, hsplit, _, hne, hblanks, -⟩ := hrest.split
  obtain ⟨blank, others, rfl⟩ := List.exists_cons_of_ne_nil hne
  rw [hline, hsplit]
  exact (signs_split (List.all_eq_true.mp hblanks blank List.mem_cons_self)).1

theorem newline_notMem (hline : ∀ c ∈ line, isLineBreak c = false) : '\n' ∉ line := by
  intro hmem
  have hbreak := hline _ hmem
  revert hbreak
  decide

/-- A heading with a text becomes its block. -/
theorem headingBlock_of_not_blank (hline : ∀ c ∈ line, isLineBreak c = false)
    (h : matchHeading line = some (level, result)) (hblank : ¬ BlankHeading line) :
    headingBlock result level =
      .ok (.heading (String.ofList (headingText line)) (headingLevel line)) := by
  have hnewline := newline_notMem hline
  obtain ⟨hlow, hhigh, rest, hsplit, hrest⟩ := matchHeading_eq_some hnewline h
  refine headingBlock_of_text hrest hlow hhigh hsplit fun hall => hblank ⟨?_, ?_⟩
  · exact (matchHeading_isSome_iff hnewline).mp (by rw [h]; rfl)
  · rwa [afterSigns_of_match hsplit hrest]

/-- The block of a heading is refused exactly when nothing is left of its text. -/
theorem headingBlock_isOk_iff (hline : ∀ c ∈ line, isLineBreak c = false)
    (h : matchHeading line = some (level, result)) :
    (∃ block, headingBlock result level = .ok block) ↔ ¬ RefusedHeading line := by
  by_cases hblank : BlankHeading line
  · obtain ⟨hlow, hhigh, rest, hsplit, hrest⟩ := matchHeading_eq_some (newline_notMem hline) h
    have hafter := afterSigns_of_match hsplit hrest
    have hall : rest.all isSpace := hafter ▸ hblank.2
    obtain ⟨c, hmem, rfl, hc⟩ := blank_text hrest hall
    have hbreak : isLineBreak c = false := hline c (hsplit ▸ List.mem_append_right _ hmem)
    have hwhite := whiteSpace_iff_of_isSpace (List.all_eq_true.mp hall c hmem) hbreak
    have hrefused : RefusedHeading line ↔ whiteSpace c := by
      rw [RefusedHeading, hafter, hwhite]
      refine (and_iff_right hblank).trans (not_congr ?_)
      rcases hc with ⟨hblankChar, hnil⟩ | hhead
      · rw [hnil]
        have hne := hwhite.mp (whiteSpace_of_isBlank hblankChar)
        simp [hne]
      · rw [hhead, Option.some.injEq]
        constructor
        · rintro rfl
          decide
        · intro hnat
          rw [← hnat, Char.ofNat_toNat]
    rw [hrefused, headingBlock, nonEmptyStr_singleton]
    by_cases hspace : whiteSpace c
    · simp [hspace]
    · simp [hspace, hlow, hhigh]
  · rw [headingBlock_of_not_blank hline h hblank]
    exact iff_of_true ⟨_, rfl⟩ fun hrefused => hblank hrefused.1

/-- The text of a heading block is not empty. -/
theorem headingBlock_ne {block : ContentBlock} (h : headingBlock result level = .ok block) :
    ∃ text, text ≠ "" ∧ block = .heading text level := by
  unfold headingBlock at h
  split at h
  · cases h
  · next text hsome =>
      obtain ⟨_, _, hblock⟩ := bind_eq_ok.mp h
      cases hblock
      refine ⟨text, ?_, rfl⟩
      unfold nonEmptyStr at hsome
      split at hsome
      · cases hsome
      · next hne =>
          cases hsome
          intro hempty
          exact hne (by simpa using hempty)

/-! ## Segments -/

/-- The parts of a text: blank lines, headings, and the paragraphs between them. -/
inductive Segment
  | blank (line : List Char)
  | heading (line : List Char)
  | paragraph (lines : List (List Char))

def Segment.lines : Segment → List (List Char)
  | .blank line | .heading line => [line]
  | .paragraph lines => lines

def Segment.isParagraph : Segment → Bool
  | .paragraph _ => true
  | _ => false

/-- A line of a paragraph. -/
def IsPlain (line : List Char) : Prop := ¬ IsHeading line ∧ strip line ≠ []

def Segment.Valid : Segment → Prop
  | .blank line => strip line = []
  | .heading line => IsHeading line
  | .paragraph lines => lines ≠ [] ∧ ∀ line ∈ lines, IsPlain line

/-- The block of a segment: the text and the level of a heading, or the lines of a paragraph. -/
def Segment.block? : Segment → Option ContentBlock
  | .blank _ => none
  | .heading line => some (.heading (String.ofList (headingText line)) (headingLevel line))
  | .paragraph lines => some (paragraphBlock lines)

/-- The segments are all lines in their order, and only blank lines and headings end a
paragraph. -/
structure Segmentation (lines : List (List Char)) (segments : List Segment) : Prop where
  lines : segments.flatMap Segment.lines = lines
  valid : ∀ segment ∈ segments, segment.Valid
  maximal : segments.IsChain fun a b => ¬ (a.isParagraph ∧ b.isParagraph)

/-- The blocks of the text are those of its segments. -/
def Lossless (text : List Char) : Prop :=
  ∃ segments title, Segmentation (splitLines text) segments ∧
    markdownBlocks text = .ok (segments.filterMap Segment.block?, title)

/-! ## The loop -/

variable {done lines : List (List Char)} {state : MarkdownState} {closed : List Segment}

/-- The segments that the blocks so far stand for, and the paragraph that is open. -/
structure Covered (done : List (List Char)) (state : MarkdownState) (closed : List Segment) :
    Prop where
  lines : closed.flatMap Segment.lines ++ state.paragraph = done
  valid : ∀ segment ∈ closed, segment.Valid
  maximal : closed.IsChain fun a b => ¬ (a.isParagraph ∧ b.isParagraph)
  last : ∀ segment ∈ closed.getLast?, ¬ segment.isParagraph
  blocks : state.blocks = closed.filterMap Segment.block?
  plain : ∀ line ∈ state.paragraph, IsPlain line

def MarkdownState.open (state : MarkdownState) : List Segment :=
  if state.paragraph = [] then [] else [.paragraph state.paragraph]

/-- The end of a paragraph. -/
theorem Covered.flush (h : Covered done state closed) :
    Segmentation done (closed ++ state.open) ∧
      state.flush.blocks = (closed ++ state.open).filterMap Segment.block? ∧
      state.flush.paragraph = [] := by
  unfold MarkdownState.open MarkdownState.flush
  by_cases hnone : state.paragraph = []
  · have hlines := h.lines
    rw [hnone, List.append_nil] at hlines
    rw [if_pos hnone, if_pos hnone, List.append_nil]
    exact ⟨⟨hlines, h.valid, h.maximal⟩, h.blocks, hnone⟩
  · rw [if_neg hnone, if_neg hnone]
    refine ⟨⟨?_, ?_, ?_⟩, ?_, rfl⟩
    · rw [List.flatMap_append, List.flatMap_singleton]
      exact h.lines
    · intro segment hmem
      rcases List.mem_append.mp hmem with hmem | hmem
      · exact h.valid segment hmem
      · rw [List.mem_singleton.mp hmem]
        exact ⟨hnone, h.plain⟩
    · refine List.isChain_append.mpr ⟨h.maximal, List.isChain_singleton _, ?_⟩
      exact fun a ha b _ hboth => h.last a ha hboth.1
    · rw [List.filterMap_append, h.blocks]
      rfl

/-- A blank line or a heading after the end of a paragraph. -/
theorem Covered.push {segment : Segment} {state' : MarkdownState} (h : Covered done state closed)
    (hsegment : segment.isParagraph = false) (hvalid : segment.Valid)
    (hparagraph : state'.paragraph = [])
    (hblocks : state'.blocks = state.flush.blocks ++ segment.block?.toList) :
    Covered (done ++ segment.lines) state' (closed ++ state.open ++ [segment]) := by
  obtain ⟨⟨hlines, hall, hmaximal⟩, hflushed, -⟩ := h.flush
  have hnot : ¬ segment.isParagraph := by simp [hsegment]
  constructor
  · rw [hparagraph, List.append_nil, List.flatMap_append, hlines, List.flatMap_singleton]
  · intro other hmem
    rcases List.mem_append.mp hmem with hmem | hmem
    · exact hall other hmem
    · rwa [List.mem_singleton.mp hmem]
  · refine List.isChain_append.mpr ⟨hmaximal, List.isChain_singleton _, ?_⟩
    rintro a - b hb ⟨-, hparagraph⟩
    rw [List.head?_singleton, Option.mem_some_iff] at hb
    exact hnot (hb ▸ hparagraph)
  · simpa using hnot
  · rw [hblocks, hflushed, List.filterMap_append]
    cases hblock : segment.block? <;> simp [hblock]
  · simp [hparagraph]

theorem Covered.next (h : Covered done state closed) (hline : ∀ c ∈ line, isLineBreak c = false)
    (hblank : ¬ BlankHeading line) : ∃ state' closed', state.line line = .ok state' ∧
      Covered (done ++ [line]) state' closed' := by
  have hnewline := newline_notMem hline
  unfold MarkdownState.line
  cases hmatch : matchHeading line with
  | some found =>
      obtain ⟨level, result⟩ := found
      have hheading : IsHeading line :=
        (matchHeading_isSome_iff hnewline).mp (by rw [hmatch]; rfl)
      have hblock := headingBlock_of_not_blank hline hmatch hblank
      refine ⟨_, closed ++ state.open ++ [.heading line], bind_eq_ok.mpr ⟨_, hblock, rfl⟩, ?_⟩
      have hvalid : (Segment.heading line).Valid := hheading
      exact h.push rfl hvalid h.flush.2.2 rfl
  | none =>
      have hnot : ¬ IsHeading line := by
        rw [← matchHeading_isSome_iff hnewline, hmatch]
        exact Bool.false_ne_true
      by_cases hstrip : strip line = []
      · refine ⟨state.flush, closed ++ state.open ++ [.blank line],
          if_neg (not_not.mpr hstrip), ?_⟩
        have hvalid : (Segment.blank line).Valid := hstrip
        exact h.push rfl hvalid h.flush.2.2 (List.append_nil _).symm
      · refine ⟨_, closed, if_pos hstrip, ?_⟩
        refine ⟨?_, h.valid, h.maximal, h.last, h.blocks, ?_⟩
        · rw [← h.lines, List.append_assoc]
        · intro other hother
          rcases List.mem_append.mp hother with hother | hother
          · exact h.plain other hother
          · rw [List.mem_singleton.mp hother]
            exact ⟨hnot, hstrip⟩

theorem Covered.run (h : Covered done state closed)
    (hlines : ∀ line ∈ lines, ∀ c ∈ line, isLineBreak c = false)
    (hblank : ∀ line ∈ lines, ¬ BlankHeading line) :
    ∃ state' closed', lines.foldlM MarkdownState.line state = .ok state' ∧
      Covered (done ++ lines) state' closed' := by
  induction lines generalizing done state closed with
  | nil => exact ⟨state, closed, rfl, by rwa [List.append_nil]⟩
  | cons line lines ih =>
      rw [List.forall_mem_cons] at hlines hblank
      obtain ⟨next, closed', hnext, hcovered⟩ := h.next hlines.1 hblank.1
      obtain ⟨state', closed'', hrun, hcovered'⟩ := ih hcovered hlines.2 hblank.2
      refine ⟨state', closed'', ?_, ?_⟩
      · rw [List.foldlM_cons]
        exact bind_eq_ok.mpr ⟨next, hnext, hrun⟩
      · rwa [List.append_assoc] at hcovered'

theorem lossless_of_not_blank {text : List Char}
    (hblank : ∀ line ∈ splitLines text, ¬ BlankHeading line) : Lossless text := by
  have hstart : Covered [] {} [] :=
    ⟨rfl, by simp, List.isChain_nil, by simp, rfl, by simp⟩
  obtain ⟨state, closed, hrun, hcovered⟩ :=
    hstart.run (fun line hline => splitLines_breakless hline) hblank
  obtain ⟨hsegments, hblocks, -⟩ := hcovered.flush
  refine ⟨closed ++ state.open, state.flush.title, hsegments, bind_eq_ok.mpr ⟨state, hrun, ?_⟩⟩
  rw [hblocks]

/-- No heading has an empty text. -/
def MarkdownState.Titled (state : MarkdownState) : Prop :=
  ∀ level, ContentBlock.heading "" level ∉ state.blocks

theorem MarkdownState.Titled.flush (h : state.Titled) : state.flush.Titled := by
  unfold MarkdownState.flush
  split
  · exact h
  · intro level hmem
    rcases List.mem_append.mp hmem with hmem | hmem
    · exact h level hmem
    · cases List.mem_singleton.mp hmem

theorem MarkdownState.Titled.next {state' : MarkdownState} (h : state.Titled)
    (hline : state.line line = .ok state') : state'.Titled := by
  unfold MarkdownState.line at hline
  split at hline
  · obtain ⟨block, hblock, hstate⟩ := bind_eq_ok.mp hline
    cases hstate
    obtain ⟨title, hne, rfl⟩ := headingBlock_ne hblock
    intro level hmem
    rcases List.mem_append.mp hmem with hmem | hmem
    · exact h.flush level hmem
    · cases List.mem_singleton.mp hmem
      exact hne rfl
  · split at hline
    · cases hline
      exact h
    · cases hline
      exact h.flush

theorem IsHeading.strip_ne (h : IsHeading line) : strip line ≠ [] := by
  obtain ⟨level, blank, more, hlow, -, -, -, rfl⟩ := h
  obtain ⟨signs, rfl⟩ : ∃ signs, level = signs + 1 := ⟨level - 1, by omega⟩
  have hsign : ¬ isSpace '#' := by decide
  rw [strip_eq_rdropWhile, List.replicate_succ, List.cons_append,
    List.dropWhile_cons_of_neg hsign, Ne, List.rdropWhile_eq_nil_iff]
  exact fun hall => hsign (hall '#' List.mem_cons_self)

theorem BlankHeading.headingText_eq (h : BlankHeading line) : headingText line = [] := by
  refine List.rdropWhile_eq_nil_iff.mpr fun c hc => ?_
  exact List.all_eq_true.mp h.2 c ((List.dropWhile_sublist whiteSpace).subset hc)

/-- The blocks are the text exactly when every heading has a text. -/
theorem lossless_iff {text : List Char} :
    Lossless text ↔ ∀ line ∈ splitLines text, ¬ BlankHeading line := by
  refine ⟨?_, lossless_of_not_blank⟩
  rintro ⟨segments, title, hsegments, hblocks⟩ line hline hblank
  rw [← hsegments.lines] at hline
  obtain ⟨segment, hmem, hin⟩ := List.mem_flatMap.mp hline
  have hvalid := hsegments.valid segment hmem
  cases segment with
  | blank _ =>
      rw [← List.mem_singleton.mp hin] at hvalid
      exact hblank.1.strip_ne hvalid
  | paragraph lines => exact (hvalid.2 line hin).1 hblank.1
  | heading _ =>
      rw [← List.mem_singleton.mp hin] at hmem
      obtain ⟨state, hrun, hresult⟩ := bind_eq_ok.mp hblocks
      have hstart : MarkdownState.Titled {} := fun level => List.not_mem_nil
      have htitled : state.Titled := foldlM_keeps (fun _ _ _ => MarkdownState.Titled.next)
        hstart hrun
      refine htitled.flush (headingLevel line) ?_
      have hflushed : state.flush.blocks = segments.filterMap Segment.block? :=
        congrArg Prod.fst (Except.ok.inj hresult)
      rw [hflushed]
      refine List.mem_filterMap.mpr ⟨_, hmem, ?_⟩
      rw [Segment.block?, hblank.headingText_eq]

/-! ## Reading -/

theorem lineStep_isOk_iff : (state.line line).isOk ↔ (({} : MarkdownState).line line).isOk := by
  unfold MarkdownState.line
  cases matchHeading line with
  | some found =>
      obtain ⟨level, result⟩ := found
      simp only
      cases headingBlock result level <;> exact Iff.rfl
  | none =>
      simp only
      split <;> exact Iff.rfl

theorem line_isOk_iff (hline : ∀ c ∈ line, isLineBreak c = false) :
    (state.line line).isOk ↔ ¬ RefusedHeading line := by
  have hnewline := newline_notMem hline
  unfold MarkdownState.line
  cases hmatch : matchHeading line with
  | some found =>
      obtain ⟨level, result⟩ := found
      rw [← headingBlock_isOk_iff hline hmatch]
      simp only
      cases headingBlock result level with
      | error failure => simp [bind, Except.bind, Except.isOk, Except.toBool]
      | ok block => simp [bind, Except.bind, Except.isOk, Except.toBool]
  | none =>
      have hnot : ¬ IsHeading line := by
        rw [← matchHeading_isSome_iff hnewline, hmatch]
        exact Bool.false_ne_true
      simp only
      refine iff_of_true ?_ fun hrefused => hnot hrefused.1.1
      split <;> rfl

/-- The blocks of a Markdown text are built unless a heading is refused. -/
theorem markdownBlocks_isOk_iff {text : List Char} :
    (∃ result, markdownBlocks text = .ok result) ↔
      ∀ line ∈ splitLines text, ¬ RefusedHeading line := by
  have hstep : ∀ (state : MarkdownState) (line : List Char),
      (state.line line).isOk ↔ (({} : MarkdownState).line line).isOk :=
    fun _ _ => lineStep_isOk_iff
  have hrun : ((splitLines text).foldlM MarkdownState.line {}).isOk ↔
      ∀ line ∈ splitLines text, (({} : MarkdownState).line line).isOk :=
    foldlM_isOk_iff hstep
  have hlines : (∀ line ∈ splitLines text, (({} : MarkdownState).line line).isOk) ↔
      ∀ line ∈ splitLines text, ¬ RefusedHeading line :=
    forall₂_congr fun _ hline => line_isOk_iff (splitLines_breakless hline)
  rw [← hlines, ← hrun]
  unfold markdownBlocks
  cases (splitLines text).foldlM MarkdownState.line {} with
  | error failure => simp [bind, Except.bind, Except.isOk, Except.toBool]
  | ok state => simp [bind, Except.bind, Except.isOk, Except.toBool]

/-- Content accepted as text has no binary signature and can be decoded. -/
theorem sampleText_of_accepted {filename mime : String} {content : Bytes}
    {inspection : ContentInspection}
    (h : inspectContent filename mime content = .ok inspection)
    (htext : inspection.mediaCategory = .text) :
    binaryInspection content = none ∧ (sampleText content).isSome := by
  obtain ⟨-, found, hfound, -, -, hinspection⟩ := inspectContent_eq_ok.mp h
  have hnamed : (found.named (foldedSuffix filename)).mediaCategory = .text := by
    rw [hinspection, effective_mediaCategory] at htext
    exact htext
  rcases hfound with hbinary | ⟨hbinary, hfound⟩
  · exact absurd hnamed (named_not_text (mem_binaryFindings hbinary) _)
  · refine ⟨hbinary, ?_⟩
    unfold textInspection at hfound
    cases hsample : sampleText content with
    | none => simp [hsample] at hfound
    | some text => rfl

theorem decodeUtf8Sig_of_mark {content : Bytes} (hmark : startsWith content [0xfe, 0xff]) :
    decodeUtf8Sig content = none := by
  obtain ⟨rest, rfl⟩ := List.isPrefixOf_iff_prefix.mp hmark
  rw [← Option.not_isSome_iff_eq_none, decodeUtf8Sig_isSome, decodeUtf8_isSome, not_not]
  exact List.mem_cons_self

/-- Content accepted as text can be read exactly when it is not UTF-16. -/
theorem decodeUtf8Sig_isSome_iff {filename mime : String} {content : Bytes}
    {inspection : ContentInspection}
    (h : inspectContent filename mime content = .ok inspection)
    (htext : inspection.mediaCategory = .text) :
    (decodeUtf8Sig content).isSome ↔ startsWith content [0xfe, 0xff] = false := by
  obtain ⟨hbinary, hsample⟩ := sampleText_of_accepted h htext
  have hlittle : startsWith content [0xff, 0xfe] = false :=
    Bool.eq_false_iff.mpr fun hmark => binaryInspection_of_mark hmark hbinary
  cases hbig : startsWith content [0xfe, 0xff] with
  | true => simp [decodeUtf8Sig_of_mark hbig]
  | false =>
      rw [sampleText, hlittle, hbig, if_neg (by decide)] at hsample
      refine iff_of_true ?_ rfl
      split at hsample
      · cases hsample
      · exact hsample

theorem readText_source (content : Bytes) (text : List Char) :
    readText { source := some content } = .ok text ↔
      ∃ decoded, decodeUtf8Sig content = some decoded ∧ text = universalNewlines decoded := by
  unfold readText
  simp only
  cases decodeUtf8Sig content with
  | none => simp
  | some decoded => simp [eq_comm]

/-- Text that passed the inspection is read and its blocks are built exactly when it is not UTF-16
and, in Markdown, no heading is refused.  The blocks of a Markdown text are the text exactly when
every heading has a text. -/
theorem text_parsed_without_loss_iff (ends : List Char → List Char → Bool)
    (metadata : SourceMetadata) {filename mime : String} {content : Bytes}
    {inspection : ContentInspection}
    (haccepted : inspectContent filename mime content = .ok inspection)
    (htext : inspection.mediaCategory = .text) (text : List Char) :
    ((∃ result, textBlocks ends metadata { source := some content } = .ok result) ↔
      startsWith content [0xfe, 0xff] = false ∧
        (isMarkdown ends metadata → ∀ decoded, decodeUtf8Sig content = some decoded →
          ∀ line ∈ splitLines (universalNewlines decoded), ¬ RefusedHeading line)) ∧
    (Lossless text ↔ ∀ line ∈ splitLines text, ¬ BlankHeading line) := by
  refine ⟨?_, lossless_iff⟩
  rw [← decodeUtf8Sig_isSome_iff haccepted htext]
  simp only [textBlocks, bind_eq_ok, readText_source]
  cases hdecoded : decodeUtf8Sig content with
  | none => simp
  | some decoded =>
      have hblocks : (∃ result, markdownBlocks (universalNewlines decoded) = .ok result) ↔ _ :=
        markdownBlocks_isOk_iff
      by_cases hmarkdown : isMarkdown ends metadata
      · simp [hmarkdown, hblocks]
      · simp [hmarkdown]

/-- A note of a heading and a paragraph. -/
def noteText : List Char := "# Notes\none".toList

def noteMetadata (filename : String) : SourceMetadata where
  filename := some filename
  mimeType := ⟨"text", "plain"⟩
  mediaCategory := .text

theorem note_inspected {filename : String} (hsuffix : foldedSuffix filename ∈ textExtensions) :
    ∃ inspection, inspectContent filename "text/plain" (encodeUtf8 noteText) = .ok inspection ∧
      inspection.mediaCategory = .text :=
  (inspect_plain_iff hsuffix).mpr ⟨by decide, by decide +kernel, by decide +kernel⟩

theorem noteText_headings : ∀ line ∈ splitLines noteText, ¬ BlankHeading line := by
  intro line hline hblank
  have hnone : (splitLines noteText).all fun line => !(afterSigns line).all isSpace := by
    decide +kernel
  have hline := List.all_eq_true.mp hnone line hline
  rw [hblank.2] at hline
  cases hline

/-- The note is read from a Markdown file and from one of plain text, and its blocks are the
text. -/
theorem text_parsed_without_loss_notes :
    isMarkdown (fun _ _ => true) (noteMetadata "notes.md") = true ∧
      (∀ filename ∈ ["notes.md", "notes.txt"], ∃ result,
        textBlocks (fun _ _ => true) (noteMetadata filename)
          { source := some (encodeUtf8 noteText) } = .ok result) ∧
      Lossless noteText := by
  have hdecoded : decodeUtf8Sig (encodeUtf8 noteText) = some noteText := by decide +kernel
  have hlines : universalNewlines noteText = noteText := by decide +kernel
  have hsuffixes : ∀ filename ∈ ["notes.md", "notes.txt"],
      foldedSuffix filename ∈ textExtensions := by decide +kernel
  refine ⟨by decide +kernel, fun filename hfilename => ?_, ?_⟩
  · obtain ⟨inspection, haccepted, htext⟩ := note_inspected (hsuffixes filename hfilename)
    refine (text_parsed_without_loss_iff (fun _ _ => true) (noteMetadata filename) haccepted htext
      noteText).1.mpr ⟨by decide +kernel, fun _ decoded hread line hline hrefused => ?_⟩
    obtain rfl : noteText = decoded := Option.some.inj (hdecoded.symm.trans hread)
    rw [hlines] at hline
    exact noteText_headings line hline hrefused.1
  · obtain ⟨inspection, haccepted, htext⟩ := note_inspected suffix_txt
    exact (text_parsed_without_loss_iff (fun _ _ => true) (noteMetadata "notes.txt") haccepted
      htext noteText).2.mpr noteText_headings

/-- Big-endian UTF-16 is accepted but not read, and a heading of a sign and two spaces is no
block. -/
theorem accepted_text_not_read :
    (¬ ∀ ends metadata filename mime content inspection, content.length ≤ 64 * 1024 →
      inspectContent filename mime content = .ok inspection → inspection.mediaCategory = .text →
      ∃ result, textBlocks ends metadata { source := some content } = .ok result) ∧
    ¬ ∀ text, Lossless text := by
  constructor
  · intro h
    have haccepted : ∃ inspection,
        inspectContent "notes.txt" "text/plain" [0xfe, 0xff, 0x00, 0x41] = .ok inspection ∧
          inspection.mediaCategory = .text :=
      (inspect_plain_iff suffix_txt).mpr ⟨by decide, by decide +kernel, by decide +kernel⟩
    obtain ⟨inspection, haccepted, htext⟩ := haccepted
    obtain ⟨result, hresult⟩ := h (fun _ _ => true)
      { filename := some "notes.txt", mimeType := ⟨"text", "plain"⟩, mediaCategory := .text }
      _ _ _ _ (by decide) haccepted htext
    obtain ⟨text, htext, -⟩ := bind_eq_ok.mp hresult
    obtain ⟨decoded, hdecoded, -⟩ := (readText_source _ _).mp htext
    have hnone : decodeUtf8Sig [0xfe, 0xff, 0x00, 0x41] = none := decodeUtf8Sig_of_mark rfl
    rw [hnone] at hdecoded
    cases hdecoded
  · intro h
    have hline : "#  ".toList ∈ splitLines "#  ".toList := by decide +kernel
    refine lossless_iff.mp (h "#  ".toList) _ hline ⟨?_, by decide +kernel⟩
    exact ⟨1, ' ', [' '], le_rfl, by decide, by decide, by decide, rfl⟩

end ParserServe
