import Mathlib.Data.List.Forall2
import Mathlib.Data.List.Nodup

/-! # Tables as lists of rows with a key

A row is written back by replacing the row that carries its key.  Nothing here asks the
keys to be distinct except where a lookup has to find the row it is looking for.
-/

namespace ParserServe.Foundation

variable {α κ : Type*} [DecidableEq κ]

/-- Write `x` back over the row with the same key. -/
def replaceKey (key : α → κ) (x : α) (xs : List α) : List α :=
  xs.map fun y => if key y = key x then x else y

theorem map_replaceKey (key : α → κ) (x : α) (xs : List α) :
    (replaceKey key x xs).map key = xs.map key := by
  unfold replaceKey
  rw [List.map_map]
  apply List.map_congr_left
  intro y _
  by_cases h : key y = key x <;> simp [h]

theorem mem_replaceKey_cases {key : α → κ} {x y : α} {xs : List α}
    (h : y ∈ replaceKey key x xs) : y = x ∨ (y ∈ xs ∧ key y ≠ key x) := by
  obtain ⟨z, hz, rfl⟩ := List.mem_map.mp h
  by_cases hk : key z = key x
  · simp [hk]
  · simp [hk, hz]

theorem mem_replaceKey_self {key : α → κ} {x y : α} {xs : List α}
    (hy : y ∈ xs) (hk : key y = key x) : x ∈ replaceKey key x xs :=
  List.mem_map.mpr ⟨y, hy, by simp [hk]⟩

theorem mem_replaceKey_of_ne {key : α → κ} {x y : α} {xs : List α}
    (hy : y ∈ xs) (hk : key y ≠ key x) : y ∈ replaceKey key x xs :=
  List.mem_map.mpr ⟨y, hy, by simp [hk]⟩

omit [DecidableEq κ] in
/-- Overwriting a row at its place leaves the rows of other keys. -/
theorem mem_set_cases {key : α → κ} {x x' y : α} {xs : List α} {i : Nat}
    (hnd : (xs.map key).Nodup) (hx : xs[i]? = some x) (hy : y ∈ xs.set i x') :
    y = x' ∨ (y ∈ xs ∧ key y ≠ key x) := by
  obtain ⟨hi, rfl⟩ := List.getElem?_eq_some_iff.mp hx
  obtain ⟨j, hj, rfl⟩ := List.getElem_of_mem hy
  rw [List.length_set] at hj
  rw [List.getElem_set]
  split
  · exact .inl rfl
  · next hne =>
      refine .inr ⟨List.getElem_mem hj, fun heq => hne ?_⟩
      have hi' : i < (xs.map key).length := by simpa using hi
      have hj' : j < (xs.map key).length := by simpa using hj
      have hkeys : (xs.map key)[i] = (xs.map key)[j] := by simpa using heq.symm
      exact hnd.getElem_inj_iff.mp hkeys

theorem map_set_of_eq {γ : Type*} {f : α → γ} {x x' : α} {xs : List α} {i : Nat}
    (hx : xs[i]? = some x) (h : f x' = f x) : (xs.set i x').map f = xs.map f := by
  obtain ⟨hi, rfl⟩ := List.getElem?_eq_some_iff.mp hx
  rw [List.map_set, h, ← List.getElem_map f (h := by simpa using hi), List.set_getElem_self]

/-- Writing a row back over itself changes nothing. -/
theorem replaceKey_self {key : α → κ} {x : α} {xs : List α} (hnd : (xs.map key).Nodup)
    (hx : x ∈ xs) : replaceKey key x xs = xs := by
  unfold replaceKey
  conv_rhs => rw [← List.map_id xs]
  apply List.map_congr_left
  intro y hy
  by_cases h : key y = key x
  · simp [List.inj_on_of_nodup_map hnd hy hx h]
  · simp [h]

/-- Among distinct keys a lookup finds the row that has the key. -/
theorem find?_key_eq_some {key : α → κ} {x : α} {xs : List α} (hnd : (xs.map key).Nodup)
    (hx : x ∈ xs) : xs.find? (fun y => decide (key y = key x)) = some x := by
  cases hfind : xs.find? (fun y => decide (key y = key x)) with
  | none =>
      have := List.find?_eq_none.mp hfind x hx
      simp at this
  | some y =>
      have hkey : key y = key x := by simpa using List.find?_some hfind
      rw [List.inj_on_of_nodup_map hnd (List.mem_of_find?_eq_some hfind) hx hkey]

/-- No other row has the key. -/
theorem filter_key_eq_singleton {key : α → κ} {x : α} {xs : List α} (hnd : (xs.map key).Nodup)
    (hx : x ∈ xs) : xs.filter (fun y => decide (key y = key x)) = [x] := by
  induction xs with
  | nil => cases hx
  | cons y ys ih =>
      rw [List.map_cons, List.nodup_cons] at hnd
      rcases List.mem_cons.mp hx with rfl | hx
      · have hrest : ys.filter (fun y => decide (key y = key x)) = [] := by
          rw [List.filter_eq_nil_iff]
          intro y hy heq
          exact hnd.1 (of_decide_eq_true heq ▸ List.mem_map_of_mem hy)
        rw [List.filter_cons_of_pos (by simp), hrest]
      · have hne : key y ≠ key x := fun heq => hnd.1 (heq ▸ List.mem_map_of_mem hx)
        rw [List.filter_cons_of_neg (by simpa using hne), ih hnd.2 hx]

theorem find?_replaceKey_of_ne {key : α → κ} {x : α} {k : κ} {xs : List α} (hne : k ≠ key x) :
    (replaceKey key x xs).find? (key · = k) = xs.find? (key · = k) := by
  induction xs with
  | nil => rfl
  | cons y ys ih =>
      unfold replaceKey at ih ⊢
      rw [List.map_cons, List.find?_cons, List.find?_cons, ih]
      by_cases hy : key y = key x
      · have hx : ¬ key x = k := fun h => hne h.symm
        simp [hy, hx]
      · simp [hy]

/-- A lookup finds the row written back. -/
theorem find?_replaceKey_self {key : α → κ} {x y : α} {k : κ} {xs : List α}
    (hfind : xs.find? (key · = k) = some y) (hk : key x = k) :
    (replaceKey key x xs).find? (key · = k) = some x := by
  induction xs with
  | nil => cases hfind
  | cons z zs ih =>
      unfold replaceKey at ih ⊢
      rw [List.map_cons, List.find?_cons]
      by_cases hz : key z = k
      · simp [hz, hk]
      · rw [List.find?_cons, decide_eq_false hz] at hfind
        simpa [hz, hk] using ih hfind

theorem replaceKey_of_notMem {key : α → κ} {x : α} {xs : List α}
    (h : key x ∉ xs.map key) : replaceKey key x xs = xs := by
  unfold replaceKey
  conv_rhs => rw [← List.map_id xs]
  refine List.map_congr_left fun y hy => ?_
  have hne : key y ≠ key x := fun heq => h (heq ▸ List.mem_map_of_mem hy)
  simp [hne]

/-- Writing one row adds at most one to a count. -/
theorem length_filter_replaceKey_le {key : α → κ} {x : α} {xs : List α} (p : α → Bool)
    (hnd : (xs.map key).Nodup) :
    ((replaceKey key x xs).filter p).length ≤ (xs.filter p).length + 1 := by
  induction xs with
  | nil => exact Nat.zero_le _
  | cons y ys ih =>
      rw [List.map_cons, List.nodup_cons] at hnd
      by_cases hkey : key y = key x
      · have hrest : replaceKey key x ys = ys := replaceKey_of_notMem (hkey ▸ hnd.1)
        have hcons : replaceKey key x (y :: ys) = x :: replaceKey key x ys := by
          simp [replaceKey, hkey]
        have htail : (ys.filter p).length ≤ ((y :: ys).filter p).length :=
          ((List.sublist_cons_self y ys).filter p).length_le
        have hhead : ((x :: ys).filter p).length ≤ (ys.filter p).length + 1 := by
          rw [List.filter_cons]
          split <;> simp
        rw [hcons, hrest]
        omega
      · have hcons : replaceKey key x (y :: ys) = y :: replaceKey key x ys := by
          simp [replaceKey, hkey]
        have hle := ih hnd.2
        rw [hcons, List.filter_cons, List.filter_cons]
        split
        · simpa using hle
        · exact hle

/-- Of distinct elements at most one is left when any two are the same. -/
theorem length_le_one_iff_of_nodup {xs : List α} (hnd : xs.Nodup) :
    xs.length ≤ 1 ↔ ∀ x ∈ xs, ∀ y ∈ xs, x = y := by
  cases xs with
  | nil => simp
  | cons x ys =>
      cases ys with
      | nil => simp
      | cons y zs =>
          have hne : x ≠ y := fun heq => by simp [heq] at hnd
          simp only [List.length_cons]
          exact ⟨fun h => by omega,
            fun h => absurd (h x List.mem_cons_self y (by simp)) hne⟩

/-- Write each row of `written` back over the row with its key. -/
def replaceKeys (key : α → κ) (written xs : List α) : List α :=
  xs.map fun y => (written.find? (key · = key y)).getD y

theorem map_replaceKeys (key : α → κ) (written xs : List α) :
    (replaceKeys key written xs).map key = xs.map key := by
  unfold replaceKeys
  rw [List.map_map]
  refine List.map_congr_left fun y _ => ?_
  cases hfind : written.find? (key · = key y) with
  | none => simp [hfind]
  | some x =>
      have hkey : key x = key y := by simpa using List.find?_some hfind
      simp [hfind, hkey]

theorem mem_replaceKeys_cases {key : α → κ} {y : α} {written xs : List α}
    (h : y ∈ replaceKeys key written xs) :
    y ∈ written ∨ (y ∈ xs ∧ key y ∉ written.map key) := by
  obtain ⟨z, hz, rfl⟩ := List.mem_map.mp h
  cases hfind : written.find? (key · = key z) with
  | none =>
      refine .inr ⟨by simpa [hfind] using hz, ?_⟩
      intro hmem
      obtain ⟨x, hx, hkey⟩ := List.mem_map.mp hmem
      have hne := List.find?_eq_none.mp hfind x hx
      simp_all
  | some x => exact .inl (by simpa [hfind] using List.mem_of_find?_eq_some hfind)

theorem mem_replaceKeys_of_notMem {key : α → κ} {y : α} {written xs : List α} (hy : y ∈ xs)
    (hkey : key y ∉ written.map key) : y ∈ replaceKeys key written xs := by
  refine List.mem_map.mpr ⟨y, hy, ?_⟩
  have hnone : written.find? (key · = key y) = none := by
    rw [List.find?_eq_none]
    intro x hx hxy
    exact hkey (List.mem_map.mpr ⟨x, hx, by simpa using hxy⟩)
  simp [hnone]

theorem mem_replaceKeys_head {key : α → κ} {x y : α} {written xs : List α} (hy : y ∈ xs)
    (hkey : key y = key x) : x ∈ replaceKeys key (x :: written) xs :=
  List.mem_map.mpr ⟨y, hy, by simp [hkey]⟩

/-- Removing the rows of one key after those of others. -/
theorem filter_notMem_cons (key : α → κ) (k : κ) (ks : List κ) (xs : List α) :
    (xs.filter (key · ≠ k)).filter (key · ∉ ks) = xs.filter (key · ∉ k :: ks) := by
  rw [List.filter_filter]
  refine List.filter_congr fun x _ => ?_
  by_cases hk : key x = k <;> simp [hk]

/-- Removing rows of a table by their keys removes these rows and no others. -/
theorem mem_filter_notMem_keys {key : α → κ} {x : α} {xs removed : List α}
    (hnd : (xs.map key).Nodup) (hsub : ∀ y ∈ removed, y ∈ xs) :
    x ∈ xs.filter (key · ∉ removed.map key) ↔ x ∈ xs ∧ x ∉ removed := by
  rw [List.mem_filter, decide_eq_true_eq]
  refine and_congr_right fun hx => not_congr ⟨fun hkey => ?_, List.mem_map_of_mem⟩
  obtain ⟨y, hy, heq⟩ := List.mem_map.mp hkey
  rwa [List.inj_on_of_nodup_map hnd hx (hsub y hy) heq.symm]

/-- Each row of the second list belongs to one of the first. -/
theorem exists_of_forall₂_mem {β : Type*} {R : α → β → Prop} {xs : List α} {ys : List β}
    (h : List.Forall₂ R xs ys) {y : β} (hy : y ∈ ys) : ∃ x ∈ xs, R x y := by
  induction h with
  | nil => cases hy
  | @cons x _ _ _ hxy _ ih =>
      rcases List.mem_cons.mp hy with rfl | hy
      · exact ⟨x, List.mem_cons_self, hxy⟩
      · obtain ⟨x', hx', hR⟩ := ih hy
        exact ⟨x', List.mem_cons_of_mem _ hx', hR⟩

theorem nodup_eraseDups [BEq α] [LawfulBEq α] (xs : List α) : xs.eraseDups.Nodup := by
  induction hlen : xs.length using Nat.strongRecOn generalizing xs with
  | ind n ih =>
      cases xs with
      | nil => simp
      | cons x xs =>
          rw [List.eraseDups_cons, List.nodup_cons]
          refine ⟨by simp [List.mem_eraseDups], ih _ ?_ _ rfl⟩
          have := List.length_filter_le (fun y => !y == x) xs
          rw [List.length_cons] at hlen
          omega

end ParserServe.Foundation
