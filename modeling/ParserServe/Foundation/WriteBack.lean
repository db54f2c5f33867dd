import ParserServe.Foundation.Keyed

/-! # Writing changed columns back

A session that loaded a row, changed it and flushes it writes the columns that differ from
what it loaded; the other columns keep what is committed by then.
-/

namespace ParserServe.Foundation

/-! ## One column -/

section Column

variable {α : Type*} [DecidableEq α]

/-- The value of a column after the write. -/
def writeBack (loaded computed current : α) : α :=
  if computed = loaded then current else computed

@[simp] theorem writeBack_unchanged (loaded current : α) :
    writeBack loaded loaded current = current := by
  simp [writeBack]

@[simp] theorem writeBack_current (loaded computed : α) :
    writeBack loaded computed loaded = computed := by
  unfold writeBack
  split
  · next h => exact h.symm
  · rfl

end Column

/-! ## Rows by key -/

section Rows

variable {α κ : Type*} [DecidableEq κ]

/-- Write every row back over the committed row with its key. -/
def writeBackRows (key : α → κ) (merge : α → α → α → α) (loaded computed current : List α) :
    List α :=
  current.map fun row =>
    match loaded.find? (key · = key row), computed.find? (key · = key row) with
    | some loadedRow, some computedRow => merge loadedRow computedRow row
    | _, _ => row

variable {key : α → κ} {merge : α → α → α → α}

/-- A session that changed one row and found it as it is committed writes that row only. -/
theorem writeBackRows_replaceKey {x y : α} {loaded current : List α}
    (hsame : ∀ a c, merge a a c = c) (hcurrent : ∀ a b, merge a b a = b)
    (hloaded : (loaded.map key).Nodup) (hnodup : (current.map key).Nodup)
    (hyloaded : y ∈ loaded) (hycurrent : y ∈ current) (hkey : key x = key y) :
    writeBackRows key merge loaded (replaceKey key x loaded) current =
      replaceKey key x current := by
  unfold writeBackRows
  rw [replaceKey.eq_def key x current]
  refine List.map_congr_left fun row hrow => ?_
  by_cases hown : key row = key x
  · -- the changed row is the committed one
    have hrowy : row = y := List.inj_on_of_nodup_map hnodup hrow hycurrent (hown.trans hkey)
    have hfindLoaded : loaded.find? (key · = key row) = some y := by
      rw [hrowy]
      exact find?_key_eq_some hloaded hyloaded
    have hmem : x ∈ replaceKey key x loaded := mem_replaceKey_self hyloaded hkey.symm
    have hnd : ((replaceKey key x loaded).map key).Nodup := by
      rw [map_replaceKey]
      exact hloaded
    have hfindComputed : (replaceKey key x loaded).find? (key · = key row) = some x := by
      rw [hown]
      exact find?_key_eq_some hnd hmem
    rw [hfindLoaded, hfindComputed, if_pos hown, hrowy]
    exact hcurrent y x
  · rw [find?_replaceKey_of_ne hown, if_neg hown]
    cases loaded.find? (key · = key row) with
    | none => rfl
    | some found => exact hsame found row

/-- A session that found the rows as they are committed leaves what it computed. -/
theorem writeBackRows_current {loaded computed : List α} (hcurrent : ∀ a b, merge a b a = b)
    (hnodup : (loaded.map key).Nodup) (hkeys : computed.map key = loaded.map key) :
    writeBackRows key merge loaded computed loaded = computed := by
  have hlength : loaded.length = computed.length := by
    simpa using (congrArg List.length hkeys).symm
  refine List.ext_getElem (by simp [writeBackRows, hlength]) ?_
  intro k hk hk'
  have hkl : k < loaded.length := hlength ▸ hk'
  have hkey : key loaded[k] = key computed[k] := by
    have := congrArg (fun keys => keys[k]?) hkeys
    simpa [hkl, hk'] using this.symm
  have hfindLoaded := find?_key_eq_some hnodup (List.getElem_mem hkl)
  have hfindComputed := find?_key_eq_some (hkeys ▸ hnodup) (List.getElem_mem hk')
  rw [← hkey] at hfindComputed
  simp only [writeBackRows, List.getElem_map, hfindLoaded, hfindComputed, hcurrent]

end Rows

end ParserServe.Foundation
