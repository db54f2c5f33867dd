import Mathlib.Data.List.Forall2
import ParserServe.Foundation.Lower
import ParserServe.Foundation.Paths

/-! # Parts of case variants

Stripping a text, splitting it at signs and taking the suffix of a path do not depend on the case
of letters: the parts of variants are variants of the parts.
-/

namespace ParserServe.Foundation

/-- The images agree with their characters about `p`, and none is empty. -/
structure Respects (R : Char → List Char → Prop) (p : Char → Bool) : Prop where
  ne_nil : ∀ c image, R c image → image ≠ []
  agrees : ∀ c image, R c image → ∀ d ∈ image, p d = p c

variable {R : Char → List Char → Prop} {p : Char → Bool} {text other : List Char}

theorem Respects.exists_cons (hp : Respects R p) {c : Char} {image : List Char}
    (himage : R c image) (hc : p c = false) : ∃ d rest, p d = false ∧ image = d :: rest := by
  obtain ⟨d, rest, rfl⟩ := List.exists_cons_of_ne_nil (hp.ne_nil c image himage)
  exact ⟨d, rest, (hp.agrees c _ himage d List.mem_cons_self).trans hc, rfl⟩

theorem Respects.reverse (hp : Respects R p) : Respects (fun c image => R c image.reverse) p where
  ne_nil c image himage hnil := hp.ne_nil c _ himage (by simp [hnil])
  agrees c image himage d hd := hp.agrees c _ himage d (List.mem_reverse.mpr hd)

namespace Replaced

theorem append {text' other' : List Char} (h : Replaced R text other)
    (h' : Replaced R text' other') : Replaced R (text ++ text') (other ++ other') := by
  induction h with
  | nil => exact h'
  | cons himage _ ih =>
      rw [List.append_assoc]
      exact .cons himage ih

theorem reverse (h : Replaced R text other) :
    Replaced (fun c image => R c image.reverse) text.reverse other.reverse := by
  induction h with
  | nil => exact .nil
  | @cons c image _ _ himage _ ih =>
      rw [List.reverse_cons, List.reverse_append]
      refine ih.append ?_
      rw [← List.append_nil image.reverse]
      exact .cons (by simpa using himage) .nil

theorem eq_nil_iff (hR : ∀ c image, R c image → image ≠ []) (h : Replaced R text other) :
    other = [] ↔ text = [] := by
  cases h with
  | nil => simp
  | cons himage _ => simp [hR _ _ himage]

theorem takeWhile (hp : Respects R p) (h : Replaced R text other) :
    Replaced R (text.takeWhile p) (other.takeWhile p) := by
  induction h with
  | nil => exact .nil
  | @cons c image text other himage _ ih =>
      cases hc : p c with
      | true =>
          have hall : ∀ d ∈ image, p d = true :=
            fun d hd => (hp.agrees c image himage d hd).trans hc
          rw [List.takeWhile_cons_of_pos hc, List.takeWhile_append_of_pos hall]
          exact .cons himage ih
      | false =>
          obtain ⟨d, rest, hd, rfl⟩ := hp.exists_cons himage hc
          rw [List.takeWhile_cons_of_neg (by simp [hc]), List.cons_append,
            List.takeWhile_cons_of_neg (by simp [hd])]
          exact .nil

theorem dropWhile (hp : Respects R p) (h : Replaced R text other) :
    Replaced R (text.dropWhile p) (other.dropWhile p) := by
  induction h with
  | nil => exact .nil
  | @cons c image text other himage h ih =>
      cases hc : p c with
      | true =>
          have hall : ∀ d ∈ image, p d = true :=
            fun d hd => (hp.agrees c image himage d hd).trans hc
          rw [List.dropWhile_cons_of_pos hc, List.dropWhile_append_of_pos hall]
          exact ih
      | false =>
          have hkeep : (image ++ other).dropWhile p = image ++ other := by
            obtain ⟨d, rest, hd, rfl⟩ := hp.exists_cons himage hc
            exact List.dropWhile_cons_of_neg (by simp [hd])
          rw [List.dropWhile_cons_of_neg (by simp [hc]), hkeep]
          exact .cons himage h

theorem mono {R' : Char → List Char → Prop} (hR : ∀ c image, R c image → R' c image)
    (h : Replaced R text other) : Replaced R' text other := by
  induction h with
  | nil => exact .nil
  | cons himage _ ih => exact .cons (hR _ _ himage) ih

theorem strip (hp : Respects R isSpace) (h : Replaced R text other) :
    Replaced R (Foundation.strip text) (Foundation.strip other) := by
  have hdrop := ((h.dropWhile hp).reverse.dropWhile hp.reverse).reverse
  exact hdrop.mono fun c image himage => by simpa using himage

end Replaced

/-! ## Variants -/

theorem casefoldChar_ne_nil (c : Char) : casefoldChar c ≠ [] := by
  have hfull : ∀ entry ∈ caseFoldFull, entry.2 ≠ [] := by
    decide +kernel
  have hpoint : casefoldPoint c.toNat ≠ [] := by
    obtain hsame | ⟨points, hmem, heq⟩ | ⟨_, _, _, _, -, -, heq⟩ := casefoldPoint_spec c.toNat
    · simp [hsame]
    · exact heq ▸ hfull _ hmem
    · simp [heq]
  rwa [casefoldChar, Ne, List.map_eq_nil_iff]

theorem Variant.ne_nil {c : Char} {image : List Char} (h : Variant c image) : image ≠ [] := by
  rintro rfl
  exact casefoldChar_ne_nil c h.folds.symm

/-- Variants respect what is the same of all ordinary characters. -/
theorem variant_respects {p : Char → Bool} {b : Bool} (hp : ∀ c, ¬ isSpecial c → p c = b) :
    Respects Variant p where
  ne_nil _ _ := Variant.ne_nil
  agrees c image himage d hd := by
    by_cases hspecial : isSpecial c
    · rw [himage.special hspecial, List.mem_singleton] at hd
      rw [hd]
    · rw [hp d (himage.ordinary hspecial d hd), hp c hspecial]

theorem respects_isSpace : Respects Variant isSpace := by
  have hordinary : ∀ c, ¬ isSpecial c → isSpace c = false := fun c hc => by
    simp only [isSpecial, Bool.or_eq_true, not_or, Bool.not_eq_true] at hc
    exact hc.2
  exact variant_respects hordinary

theorem respects_ne (sign : Char) (hsign : isSpecial sign) : Respects Variant (· ≠ sign) := by
  have hordinary : ∀ c, ¬ isSpecial c → decide (c ≠ sign) = true := fun c hc =>
    decide_eq_true fun heq => hc (heq ▸ hsign)
  exact variant_respects hordinary

namespace Variants

/-- The part before the first semicolon, stripped. -/
theorem essence (h : Variants text other) :
    Variants (strip (text.takeWhile (· ≠ ';'))) (strip (other.takeWhile (· ≠ ';'))) :=
  (h.takeWhile (respects_ne ';' (by decide))).strip respects_isSpace

theorem eq_nil_iff (h : Variants text other) : other = [] ↔ text = [] :=
  Replaced.eq_nil_iff (fun _ _ => Variant.ne_nil) h

/-- A sign is a variant of nothing else. -/
theorem eq_sign_iff {sign : Char} (hsign : isSpecial sign) (h : Variants text other) :
    other = [sign] ↔ text = [sign] := by
  cases h with
  | nil => rfl
  | @cons c image text other himage hrest =>
      have hnil : other = [] ↔ text = [] := eq_nil_iff hrest
      by_cases hc : c = sign
      · rw [himage.special (hc ▸ hsign), hc]
        simp [hnil]
      · have hne : ∀ d ∈ image, d ≠ sign := fun d hd => by
          simpa [hc] using (respects_ne sign hsign).agrees c image himage d hd
        obtain ⟨d, rest, rfl⟩ := List.exists_cons_of_ne_nil himage.ne_nil
        simp [hc, hne d List.mem_cons_self]

/-! ## Paths -/

theorem splitOn_append {sign : Char} {image : List Char} (h : ∀ d ∈ image, d ≠ sign)
    (other : List Char) :
    (image ++ other).splitOn sign = (other.splitOn sign).modifyHead (image ++ ·) := by
  induction image with
  | nil => cases hparts : other.splitOn sign <;> simp [hparts]
  | cons d image ih =>
      rw [List.forall_mem_cons] at h
      rw [List.cons_append, List.splitOn_cons_eq_if_modifyHead, ih h.2, beq_eq_false_iff_ne.mpr h.1]
      simp [Function.comp_def]

theorem splitOn {sign : Char} (hsign : isSpecial sign) (h : Variants text other) :
    List.Forall₂ Variants (text.splitOn sign) (other.splitOn sign) := by
  induction h with
  | nil => exact .cons .nil .nil
  | @cons c image text other himage _ ih =>
      by_cases hc : c = sign
      · rw [himage.special (hc ▸ hsign), List.singleton_append,
          List.splitOn_cons_eq_if_modifyHead, List.splitOn_cons_eq_if_modifyHead, hc,
          beq_self_eq_true]
        exact .cons .nil ih
      · have hne : ∀ d ∈ image, d ≠ sign := fun d hd => by
          simpa [hc] using (respects_ne sign hsign).agrees c image himage d hd
        rw [splitOn_append hne, List.splitOn_cons_eq_if_modifyHead, beq_eq_false_iff_ne.mpr hc]
        revert ih
        generalize text.splitOn sign = parts
        generalize other.splitOn sign = parts'
        rintro (_ | ⟨hhead, htail⟩)
        · exact .nil
        · exact .cons (.cons himage hhead) htail

theorem segments (h : Variants text other) :
    List.Forall₂ Variants (Foundation.segments text) (Foundation.segments other) := by
  refine List.rel_filter ?_ (h.splitOn (by decide))
  intro segment segment' hsegment
  have hdot : segment' = ['.'] ↔ segment = ['.'] := eq_sign_iff (by decide) hsegment
  simp [eq_nil_iff hsegment, hdot]

theorem getLast {parts parts' : List (List Char)} (h : List.Forall₂ Variants parts parts') :
    Variants (parts.getLast?.getD []) (parts'.getLast?.getD []) := by
  have hreverse := List.rel_reverse h
  rw [← List.head?_reverse, ← List.head?_reverse]
  generalize parts.reverse = parts at hreverse
  generalize parts'.reverse = parts' at hreverse
  cases hreverse with
  | nil => exact .nil
  | cons hhead _ => exact hhead

theorem nameSuffix_eq (name : List Char) : Foundation.nameSuffix name =
    if 2 ≤ (name.reverse.dropWhile (· ≠ '.')).length ∧ name.reverse.takeWhile (· ≠ '.') ≠ [] then
      '.' :: (name.reverse.takeWhile (· ≠ '.')).reverse
    else [] := by
  unfold Foundation.nameSuffix
  generalize name.reverse.takeWhile (· ≠ '.') = tail
  rcases name.reverse.dropWhile (· ≠ '.') with _ | ⟨first, _ | ⟨second, rest⟩⟩
  · simp
  · simp
  · by_cases htail : tail = [] <;> simp [htail]

theorem nameSuffix (h : Variants text other) :
    Variants (Foundation.nameSuffix text) (Foundation.nameSuffix other) := by
  have hdot : Respects (fun c image => Variant c image.reverse) (· ≠ '.') :=
    (respects_ne '.' (by decide)).reverse
  have htail := h.reverse.takeWhile hdot
  have hrest := h.reverse.dropWhile hdot
  have hnil : other.reverse.takeWhile (· ≠ '.') = [] ↔ text.reverse.takeWhile (· ≠ '.') = [] :=
    htail.eq_nil_iff hdot.ne_nil
  have hlength : 2 ≤ (other.reverse.dropWhile (· ≠ '.')).length ↔
      2 ≤ (text.reverse.dropWhile (· ≠ '.')).length := by
    have hhead : ∀ c ∈ (text.reverse.dropWhile (· ≠ '.')).head?, c = '.' := fun c hc => by
      have hnot := List.head?_dropWhile_not (· ≠ '.') text.reverse
      rw [Option.mem_def.mp hc] at hnot
      simpa using hnot
    generalize text.reverse.dropWhile (· ≠ '.') = rest at hrest hhead
    generalize other.reverse.dropWhile (· ≠ '.') = rest' at hrest
    cases hrest with
    | nil => rfl
    | @cons c image rest rest' himage hrest =>
        have hsign : image.reverse = ['.'] := by
          rw [← hhead c rfl]
          exact himage.special (by rw [hhead c rfl]; decide)
        have hnil : rest' = [] ↔ rest = [] := hrest.eq_nil_iff hdot.ne_nil
        rw [List.reverse_eq_iff.mp hsign]
        cases rest <;> cases rest' <;> simp_all
  rw [nameSuffix_eq, nameSuffix_eq]
  by_cases hsuffix : 2 ≤ (text.reverse.dropWhile (· ≠ '.')).length ∧
      text.reverse.takeWhile (· ≠ '.') ≠ []
  · rw [if_pos hsuffix, if_pos ⟨hlength.mpr hsuffix.1, fun heq => hsuffix.2 (hnil.mp heq)⟩]
    have hback : Variants (text.reverse.takeWhile (· ≠ '.')).reverse
        (other.reverse.takeWhile (· ≠ '.')).reverse :=
      htail.reverse.mono fun c image himage => by simpa using himage
    exact .cons (.self '.') hback
  · have hother : ¬ (2 ≤ (other.reverse.dropWhile (· ≠ '.')).length ∧
        other.reverse.takeWhile (· ≠ '.') ≠ []) := fun hsuffix' =>
      hsuffix ⟨hlength.mp hsuffix'.1, fun heq => hsuffix'.2 (hnil.mpr heq)⟩
    rw [if_neg hsuffix, if_neg hother]
    exact .nil

/-- The suffixes of variants are variants. -/
theorem pureSuffix (h : Variants text other) :
    Variants (Foundation.pureSuffix (String.ofList text)).toList
      (Foundation.pureSuffix (String.ofList other)).toList := by
  simp only [Foundation.pureSuffix, pureName, String.toList_ofList]
  exact (getLast h.segments).nameSuffix

end Variants

theorem mem_of_mem_splitOn {sign c : Char} {part : List Char} (hpart : part ∈ text.splitOn sign)
    (hc : c ∈ part) : c ∈ text := by
  induction text generalizing part with
  | nil =>
      rw [List.mem_singleton.mp hpart] at hc
      cases hc
  | cons first text ih =>
      rw [List.splitOn_cons_eq_if_modifyHead] at hpart
      split at hpart
      · rcases List.mem_cons.mp hpart with rfl | hpart
        · cases hc
        · exact List.mem_cons_of_mem first (ih hpart hc)
      · cases hparts : text.splitOn sign with
        | nil => simp [hparts] at hpart
        | cons head parts =>
            rw [hparts, List.modifyHead_cons] at hpart
            rcases List.mem_cons.mp hpart with rfl | hpart
            · rcases List.mem_cons.mp hc with rfl | hc
              · exact List.mem_cons_self
              · exact List.mem_cons_of_mem first (ih (hparts ▸ List.mem_cons_self) hc)
            · exact List.mem_cons_of_mem first
                (ih (hparts ▸ List.mem_cons_of_mem head hpart) hc)

theorem mem_of_mem_nameSuffix {c : Char} (h : c ∈ nameSuffix text) : c ∈ text ∨ c = '.' := by
  rw [Variants.nameSuffix_eq] at h
  split at h
  · rcases List.mem_cons.mp h with rfl | h
    · exact .inr rfl
    · left
      rw [List.mem_reverse] at h
      exact List.mem_reverse.mp ((List.takeWhile_subset _) h)
  · cases h

/-- The suffix of a path has no other characters than the path, apart from its dot. -/
theorem mem_of_mem_pureSuffix {path : String} {c : Char} (h : c ∈ (pureSuffix path).toList) :
    c ∈ path.toList ∨ c = '.' := by
  rw [pureSuffix, String.toList_ofList] at h
  refine (mem_of_mem_nameSuffix h).imp_left fun hname => ?_
  rw [pureName, String.toList_ofList] at hname
  cases hlast : (segments path.toList).getLast? with
  | none => simp [hlast] at hname
  | some segment =>
      rw [hlast] at hname
      have hsegment : segment ∈ segments path.toList := List.mem_of_getLast? hlast
      exact mem_of_mem_splitOn (List.mem_of_mem_filter hsegment) hname

end ParserServe.Foundation
