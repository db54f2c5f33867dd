import ParserServe.Foundation.Folding

/-! # Lower case

`str.lower` beside case folding.  Both replace one character after the other and lead to the same
folded text.
-/

namespace ParserServe.Foundation

/-! ## The function -/

/-- The first and the last of small letters that stay, although they fold to other characters. -/
def lowerStays : List (Nat × Nat) :=
  [(181, 181), (223, 223), (329, 329), (383, 383), (496, 496), (837, 837), (912, 912), (944, 944),
   (962, 962), (976, 977), (981, 982), (1008, 1009), (1013, 1013), (1415, 1415), (5112, 5117),
   (7296, 7304), (7830, 7835), (8016, 8016), (8018, 8018), (8020, 8020), (8022, 8022),
   (8064, 8071), (8080, 8087), (8096, 8103), (8114, 8116), (8118, 8119), (8126, 8126),
   (8130, 8132), (8134, 8135), (8146, 8147), (8150, 8151), (8162, 8164), (8166, 8167),
   (8178, 8180), (8182, 8183), (43888, 43967), (64256, 64262), (64275, 64279)]

/-- Capital letters from the first to the second whose small letters, from the third on, are not
what they fold to. -/
def lowerRanges : List (Nat × Nat × Nat) :=
  [(5024, 5103, 43888), (5104, 5109, 5112), (7838, 7838, 223), (8072, 8079, 8064),
   (8088, 8095, 8080), (8104, 8111, 8096), (8124, 8124, 8115), (8140, 8140, 8131),
   (8188, 8188, 8179)]

def lowerPoint (n : Nat) : List Nat :=
  if lowerStays.any fun (low, high) => low ≤ n ∧ n ≤ high then [n]
  else match lowerRanges.find? fun (low, high, _) => low ≤ n ∧ n ≤ high with
    | some (low, _, target) => [target + (n - low)]
    | none => casefoldPoint n

def lowerChar (c : Char) : List Char := (lowerPoint c.toNat).map Char.ofNat

/-- The rest of a text after `before`; `ends before after` tells whether a capital sigma between
the two ends a word. -/
def lowerFrom (ends : List Char → List Char → Bool) (before : List Char) :
    List Char → List Char
  | [] => []
  | c :: after =>
      (if c.toNat = 931 then [Char.ofNat (if ends before after then 962 else 963)]
        else lowerChar c) ++ lowerFrom ends (before ++ [c]) after

/-- `str.lower`. -/
def lower (ends : List Char → List Char → Bool) (text : List Char) : List Char :=
  lowerFrom ends [] text

/-! ## Case variants -/

/-- Dots, slashes, semicolons and white space. -/
def isSpecial (c : Char) : Bool := c = '.' || c = '/' || c = ';' || isSpace c

/-- The characters fold to what the one folds to, and signs stay. -/
structure Variant (c : Char) (image : List Char) : Prop where
  folds : casefold image = casefoldChar c
  special : isSpecial c → image = [c]
  ordinary : ¬ isSpecial c → ∀ d ∈ image, ¬ isSpecial d

/-- A text in which each character is replaced by characters that are related to it. -/
inductive Replaced (R : Char → List Char → Prop) : List Char → List Char → Prop
  | nil : Replaced R [] []
  | cons {c : Char} {image text other : List Char} : R c image → Replaced R text other →
      Replaced R (c :: text) (image ++ other)

abbrev Variants : List Char → List Char → Prop := Replaced Variant

theorem Variant.self (c : Char) : Variant c [c] where
  folds := List.append_nil _
  special _ := rfl
  ordinary h := by simpa using h

def specialPoints : List Nat :=
  [46, 47, 59] ++ rangePoints 9 13 1 ++ rangePoints 28 32 1 ++ rangePoints 0x2000 0x200a 1 ++
    [0x85, 0xa0, 0x1680, 0x2028, 0x2029, 0x202f, 0x205f, 0x3000]

theorem mem_specialPoints {c : Char} (h : isSpecial c) : c.toNat ∈ specialPoints := by
  simp only [isSpecial, isSpace, Bool.or_eq_true, decide_eq_true_eq, Bool.and_eq_true,
    List.contains_iff_mem, or_assoc] at h
  simp only [specialPoints, List.append_assoc, List.mem_append]
  rcases h with rfl | rfl | rfl | h | h | h | h
  · exact .inl (by decide)
  · exact .inl (by decide)
  · exact .inl (by decide)
  · exact .inr (.inl (mem_rangePoints h.1 h.2 (Nat.mod_one _)))
  · exact .inr (.inr (.inl (mem_rangePoints h.1 h.2 (Nat.mod_one _))))
  · exact .inr (.inr (.inr (.inl (mem_rangePoints h.1 h.2 (Nat.mod_one _)))))
  · exact .inr (.inr (.inr (.inr h)))

theorem special_disjoint : specialPoints.Disjoint (caseFoldSources ++ caseFoldTargets) :=
  disjoint_of_bitSet (by decide +kernel)

theorem variant_casefold (c : Char) : Variant c (casefoldChar c) := by
  refine ⟨casefold_eq_self fun d hd => casefoldChar_of_mem hd, fun hspecial => ?_,
    fun hordinary d hd hspecial => ?_⟩
  · have hsame := (casefoldPoint_cases c.toNat).resolve_right fun hsource =>
      special_disjoint (mem_specialPoints hspecial) (List.mem_append_left _ hsource.1)
    rw [casefoldChar, hsame, List.map_singleton, Char.ofNat_toNat]
  · obtain ⟨p, hp, rfl⟩ := List.mem_map.mp hd
    have hpoint := mem_specialPoints hspecial
    rw [toNat_ofNat_of_mem hp] at hpoint
    rcases casefoldPoint_cases c.toNat with hsame | ⟨_, htargets⟩
    · rw [hsame, List.mem_singleton] at hp
      rw [hp, Char.ofNat_toNat] at hspecial
      exact hordinary hspecial
    · exact special_disjoint hpoint (List.mem_append_right _ (htargets p hp))

/-! ## Variants of single characters -/

/-- What a capital letter and its small letter of the ranges fold to. -/
theorem lowerRanges_folds : ∀ range ∈ lowerRanges, ∀ k ≤ range.2.1 - range.1,
    casefoldPoint (range.2.2 + k) = casefoldPoint (range.1 + k) := by
  have hrest : ∀ range ∈ lowerRanges.drop 2, ∀ k < range.2.1 - range.1 + 1,
      casefoldPoint (range.2.2 + k) = casefoldPoint (range.1 + k) := by
    decide +kernel
  have hcherokee : ∀ low high target k, (target, high, 1, low) ∈ caseFoldRanges →
      target + k ≤ high → casefoldPoint (target + k) = casefoldPoint (low + k) := by
    intro low high target k hmem hhigh
    have hfold := casefoldPoint_of_range hmem (Nat.le_add_right target k) hhigh (Nat.mod_one _)
    rw [Nat.add_sub_cancel_left] at hfold
    rw [hfold]
    exact (casefoldPoint_of_mem (n := target + k) (by simp [hfold])).symm
  intro range hmem k hk
  have hsplit : lowerRanges =
      (5024, 5103, 43888) :: (5104, 5109, 5112) :: lowerRanges.drop 2 :=
    rfl
  rw [hsplit] at hmem
  rcases List.mem_cons.mp hmem with rfl | hmem
  · exact hcherokee 5024 43967 43888 k (by decide +kernel) (by simp only at hk; omega)
  · rcases List.mem_cons.mp hmem with rfl | hmem
    · exact hcherokee 5104 5117 5112 k (by decide +kernel) (by simp only at hk; omega)
    · exact hrest range hmem k (Nat.lt_succ_of_le hk)

theorem lowerRanges_valid : ∀ range ∈ lowerRanges,
    range.2.2 + (range.2.1 - range.1) < 0xd800 ∧
      (rangePoints range.1 range.2.1 1).Disjoint specialPoints ∧
      (rangePoints range.2.2 (range.2.2 + (range.2.1 - range.1)) 1).Disjoint specialPoints := by
  intro range hmem
  have hbits : ∀ range ∈ lowerRanges, range.2.2 + (range.2.1 - range.1) < 0xd800 ∧
      bitSet (rangePoints range.1 range.2.1 1) &&& bitSet specialPoints = 0 ∧
      bitSet (rangePoints range.2.2 (range.2.2 + (range.2.1 - range.1)) 1) &&&
        bitSet specialPoints = 0 := by
    decide +kernel
  obtain ⟨hvalid, hlow, htarget⟩ := hbits range hmem
  exact ⟨hvalid, disjoint_of_bitSet hlow, disjoint_of_bitSet htarget⟩

theorem variant_lowerChar (c : Char) : Variant c (lowerChar c) := by
  unfold lowerChar lowerPoint
  split
  · simpa using Variant.self c
  · cases hfind : lowerRanges.find? fun (low, high, _) => low ≤ c.toNat ∧ c.toNat ≤ high with
    | none => exact variant_casefold c
    | some range =>
        obtain ⟨low, high, target⟩ := range
        have hmem := List.mem_of_find?_eq_some hfind
        have hin : low ≤ c.toNat ∧ c.toNat ≤ high := by simpa using List.find?_some hfind
        have hfolds := lowerRanges_folds _ hmem (c.toNat - low) (by simp only; omega)
        obtain ⟨hvalid, hlow, htarget⟩ := lowerRanges_valid _ hmem
        simp only at hfolds hvalid hlow htarget
        rw [Nat.add_sub_cancel' hin.1] at hfolds
        have hnat : (Char.ofNat (target + (c.toNat - low))).toNat = target + (c.toNat - low) := by
          rw [Char.ofNat, dif_pos (Or.inl (by omega))]
          rfl
        refine ⟨?_, fun hspecial => ?_, fun _ d hd hspecial => ?_⟩
        · simp only [List.map_singleton, casefold, List.flatMap_singleton, casefoldChar, hnat,
            hfolds]
        · exact absurd (mem_specialPoints hspecial)
            (hlow (mem_rangePoints hin.1 hin.2 (Nat.mod_one _)))
        · have hpoint := mem_specialPoints hspecial
          rw [List.mem_singleton.mp hd, hnat] at hpoint
          exact htarget (mem_rangePoints (by omega) (by omega) (Nat.mod_one _)) hpoint

/-- Both small forms of the capital sigma are variants of it. -/
theorem variant_sigma (final : Bool) :
    Variant (Char.ofNat 931) [Char.ofNat (if final then 962 else 963)] := by
  have hplain : ∀ small ∈ [962, 963], isSpecial (Char.ofNat small) = false := by
    decide +kernel
  cases final with
  | false =>
      refine ⟨by decide +kernel, by decide +kernel, fun _ d hd => ?_⟩
      rw [List.mem_singleton.mp hd]
      exact Bool.eq_false_iff.mp (hplain 963 (by decide))
  | true =>
      refine ⟨by decide +kernel, by decide +kernel, fun _ d hd => ?_⟩
      rw [List.mem_singleton.mp hd]
      exact Bool.eq_false_iff.mp (hplain 962 (by decide))

theorem Variants.of_flatMap {f : Char → List Char} (h : ∀ c, Variant c (f c))
    (text : List Char) : Variants text (text.flatMap f) := by
  induction text with
  | nil => exact .nil
  | cons c text ih => exact .cons (h c) ih

theorem variants_casefold (text : List Char) : Variants text (casefold text) :=
  .of_flatMap variant_casefold text

theorem variants_lowerFrom (ends : List Char → List Char → Bool) (before text : List Char) :
    Variants text (lowerFrom ends before text) := by
  induction text generalizing before with
  | nil => exact .nil
  | cons c text ih =>
      rw [lowerFrom]
      refine .cons ?_ (ih (before ++ [c]))
      split
      · next hsigma =>
          rw [← Char.ofNat_toNat c, hsigma]
          exact variant_sigma (ends before text)
      · exact variant_lowerChar c

theorem variants_lower (ends : List Char → List Char → Bool) (text : List Char) :
    Variants text (lower ends text) :=
  variants_lowerFrom ends [] text

/-! ## Small letters -/

theorem lowerChar_small {c : Char} (h : c.toNat < 128 ∧ ¬ (65 ≤ c.toNat ∧ c.toNat ≤ 90)) :
    lowerChar c = [c] := by
  have hstays : ∀ range ∈ lowerStays, 128 ≤ range.1 := by decide
  have hranges : ∀ range ∈ lowerRanges, 128 ≤ range.1 := by decide
  have hno : (lowerStays.any fun (low, high) => low ≤ c.toNat ∧ c.toNat ≤ high) = false := by
    refine List.any_eq_false.mpr fun range hmem => ?_
    have hlow := hstays range hmem
    simp only [decide_eq_true_eq]
    omega
  have hnone : (lowerRanges.find? fun (low, high, _) => low ≤ c.toNat ∧ c.toNat ≤ high) = none := by
    refine List.find?_eq_none.mpr fun range hmem => ?_
    have hlow := hranges range hmem
    simp only [decide_eq_true_eq]
    omega
  have hfold : casefoldChar c = [c] := by
    have hlower := casefoldChar_lower c.toNat h.1 h.2
    rwa [Char.ofNat_toNat] at hlower
  rw [lowerChar, lowerPoint, hno, hnone]
  exact hfold

/-- `str.lower` of small ASCII letters and signs. -/
theorem lower_small {ends : List Char → List Char → Bool} {text : List Char}
    (h : text.all fun c => decide (c.toNat < 128 ∧ ¬ (65 ≤ c.toNat ∧ c.toNat ≤ 90))) :
    lower ends text = text := by
  have hfrom : ∀ before, lowerFrom ends before text = text := by
    induction text with
    | nil => exact fun _ => rfl
    | cons c text ih =>
        intro before
        rw [List.all_cons, Bool.and_eq_true, decide_eq_true_eq] at h
        have hsigma : c.toNat ≠ 931 := by omega
        rw [lowerFrom, if_neg hsigma, lowerChar_small h.1, ih h.2]
        rfl
  exact hfrom []

/-! ## Capital letters -/

def isCapital (c : Char) : Bool := 65 ≤ c.toNat && c.toNat ≤ 90

theorem not_capital_of_folded {c : Char} (h : casefoldChar c = [c]) : ¬ isCapital c := by
  intro hcapital
  simp only [isCapital, Bool.and_eq_true, decide_eq_true_eq] at hcapital
  have hletters : (65, 90, 1, 97) ∈ caseFoldRanges := by decide
  have hfold := casefoldPoint_of_range hletters hcapital.1 hcapital.2 (Nat.mod_one _)
  have hsmall := toNat_ofNat_of_mem (c := c) (p := 97 + (c.toNat - 65)) (by simp [hfold])
  rw [casefoldChar, hfold, List.map_singleton, List.singleton_inj] at h
  rw [h] at hsmall
  omega

theorem lowerChar_not_capital {c d : Char} (h : d ∈ lowerChar c) : ¬ isCapital d := by
  have hlarge : ∀ d : Char, 90 < d.toNat → ¬ isCapital d := fun d hd hcapital => by
    simp only [isCapital, Bool.and_eq_true, decide_eq_true_eq] at hcapital
    omega
  obtain ⟨p, hp, rfl⟩ := List.mem_map.mp h
  unfold lowerPoint at hp
  split at hp
  · next hstays =>
      have hlow : ∀ range ∈ lowerStays, 90 < range.1 := by decide
      obtain ⟨range, hmem, hin⟩ := List.any_eq_true.mp hstays
      have hin : range.1 ≤ c.toNat ∧ c.toNat ≤ range.2 := by simpa using hin
      rw [List.mem_singleton.mp hp, Char.ofNat_toNat]
      exact hlarge c ((hlow range hmem).trans_le hin.1)
  · split at hp
    · next low high target hfind =>
        have hmem := List.mem_of_find?_eq_some hfind
        have hin : low ≤ c.toNat ∧ c.toNat ≤ high := by simpa using List.find?_some hfind
        have htargets : ∀ range ∈ lowerRanges, 90 < range.2.2 := by decide
        have htarget := htargets _ hmem
        have hvalid := (lowerRanges_valid _ hmem).1
        simp only at htarget hvalid
        rw [List.mem_singleton.mp hp]
        refine hlarge _ ?_
        rw [Char.ofNat, dif_pos (Or.inl (by omega))]
        exact Nat.lt_of_lt_of_le htarget (Nat.le_add_right _ _)
    · exact not_capital_of_folded (casefoldChar_of_mem (List.mem_map_of_mem hp))

theorem lowerFrom_not_capital {ends : List Char → List Char → Bool} {before text : List Char}
    {d : Char} (h : d ∈ lowerFrom ends before text) : ¬ isCapital d := by
  induction text generalizing before with
  | nil => cases h
  | cons c text ih =>
      rcases List.mem_append.mp h with h | h
      · split at h
        · rw [List.mem_singleton.mp h]
          cases ends before text <;> decide
        · exact lowerChar_not_capital h
      · exact ih h

theorem lower_not_capital {ends : List Char → List Char → Bool} {text : List Char} {d : Char}
    (h : d ∈ lower ends text) : ¬ isCapital d :=
  lowerFrom_not_capital h

/-- A character that is no capital letter folds to itself, if it folds to letters of ASCII that no
other character folds to. -/
theorem casefoldChar_of_ascii {c : Char} (hcapital : ¬ isCapital c)
    (h : ∀ d ∈ casefoldChar c, d.toNat < 128 ∧ d.toNat ∉ [102, 107, 115]) :
    casefoldChar c = [c] := by
  have hfull : ∀ entry ∈ caseFoldFull, ∃ p ∈ entry.2, 128 ≤ p ∨ p ∈ [102, 107, 115] := by
    decide +kernel
  have hranges : ∀ range ∈ caseFoldRanges, range = (65, 90, 1, 97) ∨ 128 ≤ range.2.2.2 ∨
      range.1 = range.2.1 ∧ range.2.2.2 ∈ [102, 107, 115] := by
    decide +kernel
  have hpoints : ∀ p ∈ casefoldPoint c.toNat, ¬ (128 ≤ p ∨ p ∈ [102, 107, 115]) := by
    intro p hp
    have hchar := h (Char.ofNat p) (List.mem_map_of_mem hp)
    rw [toNat_ofNat_of_mem hp] at hchar
    exact fun hlarge => hlarge.elim (by omega) hchar.2
  obtain hsame | ⟨points, hmem, heq⟩ | ⟨low, high, step, target, hmem, hin, heq⟩ :=
    casefoldPoint_spec c.toNat
  · rw [casefoldChar, hsame, List.map_singleton, Char.ofNat_toNat]
  · obtain ⟨p, hp, hlarge⟩ := hfull _ hmem
    exact absurd hlarge (hpoints p (heq ▸ hp))
  · have hpoint := hpoints (target + (c.toNat - low)) (by simp [heq])
    obtain hletters | hlarge | ⟨hone, hletter⟩ := hranges _ hmem
    · cases hletters
      simp [isCapital, hin.1, hin.2.1] at hcapital
    · exact absurd (.inl (by simp only at hlarge; omega)) hpoint
    · simp only at hone hletter
      have hnat : target + (c.toNat - low) = target := by omega
      rw [hnat] at hpoint
      exact absurd (.inr hletter) hpoint

/-- Variants of a text fold to the same text. -/
theorem Variants.casefold_eq {text other : List Char} (h : Variants text other) :
    casefold other = casefold text := by
  induction h with
  | nil => rfl
  | cons himage _ ih =>
      rw [casefold_append, ih, himage.folds]
      rfl

end ParserServe.Foundation
