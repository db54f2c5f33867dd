import Mathlib.Data.List.DropRight
import Mathlib.Data.List.Pairwise
import ParserServe.Foundation.Text

/-! # Folding twice

Case folding leads to characters that fold to themselves, so that a folded text stays as it is.
Sets of code points are compared as the bits of numbers.
-/

namespace ParserServe.Foundation

/-! ## Sets of numbers -/

/-- A set of numbers as the bits of one. -/
def bitSet : List Nat → Nat
  | [] => 0
  | n :: ns => 1 <<< n ||| bitSet ns

theorem testBit_bitSet (n : Nat) (ns : List Nat) : (bitSet ns).testBit n ↔ n ∈ ns := by
  induction ns with
  | nil => simp [bitSet]
  | cons m ns ih =>
      simp only [bitSet, Nat.testBit_or, Bool.or_eq_true, ih, List.mem_cons, Nat.one_shiftLeft,
        Nat.testBit_two_pow, decide_eq_true_eq]
      exact or_congr_left eq_comm

theorem disjoint_of_bitSet {ns ms : List Nat} (h : bitSet ns &&& bitSet ms = 0) :
    ns.Disjoint ms := by
  intro n hn hm
  have hbit := congrArg (Nat.testBit · n) h
  simp [(testBit_bitSet n ns).mpr hn, (testBit_bitSet n ms).mpr hm] at hbit

/-- The numbers from `low` to `high` in steps. -/
def rangePoints (low high step : Nat) : List Nat :=
  (List.range ((high - low) / step + 1)).map fun k => low + k * step

theorem mem_rangePoints {low high step n : Nat} (hlow : low ≤ n) (hhigh : n ≤ high)
    (hstep : (n - low) % step = 0) : n ∈ rangePoints low high step := by
  refine List.mem_map.mpr ⟨(n - low) / step, List.mem_range.mpr ?_, ?_⟩
  · exact Nat.lt_succ_of_le (Nat.div_le_div_right (by omega))
  · rw [Nat.div_mul_cancel (Nat.dvd_of_mod_eq_zero hstep)]
    omega

/-! ## Folded characters -/

/-- The code points that fold to others. -/
def caseFoldSources : List Nat :=
  caseFoldFull.map (·.1) ++
    caseFoldRanges.flatMap fun (low, high, step, _) => rangePoints low high step

/-- The code points that they fold to. -/
def caseFoldTargets : List Nat :=
  caseFoldFull.flatMap (·.2) ++
    caseFoldRanges.flatMap fun (low, high, step, target) =>
      rangePoints target (target + (high - low)) step

theorem caseFoldSources_disjoint : caseFoldSources.Disjoint caseFoldTargets :=
  disjoint_of_bitSet (by decide +kernel)

/-- No target is a surrogate or too large for a character. -/
theorem caseFoldTargets_isValidChar : ∀ n ∈ caseFoldTargets, n.isValidChar := by
  have hall : (caseFoldTargets.all fun n => decide n.isValidChar) = true := by
    decide +kernel
  simpa using hall

/-- A code point folds to itself, by an entry of the first table, or by a range of the second. -/
theorem casefoldPoint_spec (n : Nat) :
    casefoldPoint n = [n] ∨
      (∃ points, (n, points) ∈ caseFoldFull ∧ casefoldPoint n = points) ∨
      ∃ low high step target, (low, high, step, target) ∈ caseFoldRanges ∧
        (low ≤ n ∧ n ≤ high ∧ (n - low) % step = 0) ∧ casefoldPoint n = [target + (n - low)] := by
  unfold casefoldPoint
  cases hfull : caseFoldFull.find? (·.1 = n) with
  | some entry =>
      have heq : entry.1 = n := by simpa using List.find?_some hfull
      exact .inr (.inl ⟨entry.2, heq ▸ List.mem_of_find?_eq_some hfull, rfl⟩)
  | none =>
      cases hrange : caseFoldRanges.find? fun (low, high, step, _) =>
          low ≤ n ∧ n ≤ high ∧ (n - low) % step = 0 with
      | some range =>
          obtain ⟨low, high, step, target⟩ := range
          have hin : low ≤ n ∧ n ≤ high ∧ (n - low) % step = 0 := by
            simpa using List.find?_some hrange
          exact .inr (.inr
            ⟨low, high, step, target, List.mem_of_find?_eq_some hrange, hin, rfl⟩)
      | none => exact .inl rfl

theorem casefoldPoint_cases (n : Nat) :
    casefoldPoint n = [n] ∨
      n ∈ caseFoldSources ∧ ∀ p ∈ casefoldPoint n, p ∈ caseFoldTargets := by
  obtain hsame | ⟨points, hmem, heq⟩ | ⟨low, high, step, target, hmem, hin, heq⟩ :=
    casefoldPoint_spec n
  · exact .inl hsame
  · refine .inr ⟨List.mem_append_left _ (List.mem_map_of_mem hmem), fun p hp => ?_⟩
    exact List.mem_append_left _ (List.mem_flatMap.mpr ⟨_, hmem, heq ▸ hp⟩)
  · refine .inr ⟨List.mem_append_right _ ?_, fun p hp => List.mem_append_right _ ?_⟩
    · exact List.mem_flatMap.mpr ⟨_, hmem, mem_rangePoints hin.1 hin.2.1 hin.2.2⟩
    · rw [heq, List.mem_singleton] at hp
      rw [hp]
      refine List.mem_flatMap.mpr ⟨_, hmem, mem_rangePoints (by omega) (by omega) ?_⟩
      rw [Nat.add_sub_cancel_left]
      exact hin.2.2

/-! ## Ranges -/

def InRange (n : Nat) (range : Nat × Nat × Nat × Nat) : Prop :=
  range.1 ≤ n ∧ n ≤ range.2.1

def RangeBefore (range other : Nat × Nat × Nat × Nat) : Prop :=
  range.2.1 < other.1 ∧ other.1 ≤ other.2.1

instance : DecidableRel RangeBefore := fun _ _ => inferInstanceAs (Decidable (_ ∧ _))

instance : Trans RangeBefore RangeBefore RangeBefore where
  trans h h' := ⟨(h.1.trans_le h.2).trans h'.1, h'.2⟩

theorem caseFoldRanges_sorted : caseFoldRanges.Pairwise RangeBefore :=
  List.isChain_iff_pairwise.mp (by decide +kernel)

theorem eq_of_inRange {n : Nat} {range other : Nat × Nat × Nat × Nat}
    (hrange : range ∈ caseFoldRanges) (hother : other ∈ caseFoldRanges) (hn : InRange n range)
    (hn' : InRange n other) : range = other := by
  have hsymm : Std.Symm fun a b : Nat × Nat × Nat × Nat => InRange n a → InRange n b → a = b :=
    ⟨fun _ _ h hb ha => (h ha hb).symm⟩
  have hsame : caseFoldRanges.Pairwise fun a b => InRange n a → InRange n b → a = b :=
    caseFoldRanges_sorted.imp fun hbefore ha hb =>
      absurd (Nat.lt_of_le_of_lt ha.2 hbefore.1) (Nat.not_lt_of_le hb.1)
  exact hsame.forall_of_forall (fun _ _ _ _ => rfl) hrange hother hn hn'

theorem caseFoldFull_disjoint : (caseFoldFull.map (·.1)).Disjoint
    (caseFoldRanges.flatMap fun (low, high, step, _) => rangePoints low high step) :=
  disjoint_of_bitSet (by decide +kernel)

/-- The only range that a code point is in decides what it folds to. -/
theorem casefoldPoint_of_range {low high step target n : Nat}
    (hmem : (low, high, step, target) ∈ caseFoldRanges) (hlow : low ≤ n) (hhigh : n ≤ high)
    (hstep : (n - low) % step = 0) : casefoldPoint n = [target + (n - low)] := by
  have hsource : n ∈ caseFoldRanges.flatMap fun (low, high, step, _) =>
      rangePoints low high step :=
    List.mem_flatMap.mpr ⟨_, hmem, mem_rangePoints hlow hhigh hstep⟩
  have hfull : caseFoldFull.find? (·.1 = n) = none := by
    rw [List.find?_eq_none]
    intro entry hentry heq
    have hkey : entry.1 = n := by simpa using heq
    exact caseFoldFull_disjoint (hkey ▸ List.mem_map_of_mem hentry) hsource
  unfold casefoldPoint
  rw [hfull]
  cases hfind : caseFoldRanges.find? fun (low, high, step, _) =>
      low ≤ n ∧ n ≤ high ∧ (n - low) % step = 0 with
  | none =>
      have hnone := List.find?_eq_none.mp hfind _ hmem
      simp [hlow, hhigh, hstep] at hnone
  | some range =>
      obtain ⟨low', high', step', target'⟩ := range
      have hin : low' ≤ n ∧ n ≤ high' ∧ (n - low') % step' = 0 := by
        simpa using List.find?_some hfind
      have heq := eq_of_inRange (List.mem_of_find?_eq_some hfind) hmem ⟨hin.1, hin.2.1⟩
        ⟨hlow, hhigh⟩
      cases heq
      rfl

/-! ## Folded texts -/

theorem casefoldPoint_of_target {n : Nat} (h : n ∈ caseFoldTargets) : casefoldPoint n = [n] :=
  (casefoldPoint_cases n).resolve_right fun hsource => caseFoldSources_disjoint hsource.1 h

theorem toNat_ofNat_of_target {n : Nat} (h : n ∈ caseFoldTargets) : (Char.ofNat n).toNat = n := by
  rw [Char.ofNat, dif_pos (caseFoldTargets_isValidChar n h)]
  rfl

/-- A code point of a folding folds to itself. -/
theorem casefoldPoint_of_mem {n p : Nat} (h : p ∈ casefoldPoint n) : casefoldPoint p = [p] := by
  rcases casefoldPoint_cases n with hsame | ⟨_, htargets⟩
  · rw [hsame, List.mem_singleton] at h
    rw [h, hsame]
  · exact casefoldPoint_of_target (htargets p h)

theorem toNat_ofNat_of_mem {c : Char} {p : Nat} (h : p ∈ casefoldPoint c.toNat) :
    (Char.ofNat p).toNat = p := by
  rcases casefoldPoint_cases c.toNat with hsame | ⟨_, htargets⟩
  · rw [hsame, List.mem_singleton] at h
    rw [h, Char.ofNat_toNat]
  · exact toNat_ofNat_of_target (htargets p h)

/-- A character of a folded text folds to itself. -/
theorem casefoldChar_of_mem {c d : Char} (h : d ∈ casefoldChar c) : casefoldChar d = [d] := by
  obtain ⟨p, hp, rfl⟩ := List.mem_map.mp h
  rw [casefoldChar, toNat_ofNat_of_mem hp, casefoldPoint_of_mem hp]
  rfl

theorem casefold_eq_self {text : List Char} (h : ∀ c ∈ text, casefoldChar c = [c]) :
    casefold text = text := by
  induction text with
  | nil => rfl
  | cons c text ih =>
      rw [casefold, List.flatMap_cons, h c List.mem_cons_self, ← casefold,
        ih fun d hd => h d (List.mem_cons_of_mem c hd)]
      rfl

theorem casefoldChar_of_mem_casefold {text : List Char} {c : Char} (h : c ∈ casefold text) :
    casefoldChar c = [c] := by
  obtain ⟨_, _, hc⟩ := List.mem_flatMap.mp h
  exact casefoldChar_of_mem hc

/-! ## Stripping twice -/

theorem strip_eq_rdropWhile (text : List Char) :
    strip text = (text.dropWhile isSpace).rdropWhile isSpace :=
  rfl

theorem mem_of_mem_strip {text : List Char} {c : Char} (h : c ∈ strip text) : c ∈ text :=
  (List.dropWhile_sublist _).subset ((List.rdropWhile_prefix isSpace _).subset h)

theorem strip_strip (text : List Char) : strip (strip text) = strip text := by
  have hhead : (strip text).dropWhile isSpace = strip text := by
    cases hstrip : strip text with
    | nil => rfl
    | cons c rest =>
        obtain ⟨tail, htail⟩ := List.rdropWhile_prefix isSpace (text.dropWhile isSpace)
        rw [← strip_eq_rdropWhile, hstrip, List.cons_append] at htail
        have hne : text.dropWhile isSpace ≠ [] := by simp [← htail]
        have hspace := List.head_dropWhile_not isSpace hne
        simp only [← htail, List.head_cons] at hspace
        exact List.dropWhile_cons_of_neg (by simp [hspace])
  rw [strip_eq_rdropWhile, hhead, strip_eq_rdropWhile, List.rdropWhile_idempotent]

end ParserServe.Foundation
