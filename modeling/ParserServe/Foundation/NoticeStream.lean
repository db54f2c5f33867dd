import Mathlib.Data.List.Basic
import Mathlib.Order.BoundedOrder.Lattice

/-! # Capped streams

An append-only stream whose entries have increasing identifiers and whose oldest entries may be
dropped, as long as the newest one stays.  A reader asks for the entries after a cursor; the cursor
is the identifier of the newest entry that the reader knows of.
-/

namespace ParserServe.Foundation

/-- `lastId` is the greatest identifier so far, `⊥` before the first one. -/
structure NoticeStream (ι α : Type*) [LinearOrder ι] [OrderBot ι] where
  lastId : ι
  entries : List (ι × α)
  increasing : entries.Pairwise (·.1 < ·.1)
  newest : entries.getLast?.elim ⊥ (·.1) = lastId

namespace NoticeStream

variable {ι α : Type*} [LinearOrder ι] [OrderBot ι] {stream : NoticeStream ι α} {cursor id : ι}
  {value : α} {dropped : Nat}

def empty : NoticeStream ι α := ⟨⊥, [], .nil, rfl⟩

/-- The entries that a reader at the cursor has not seen. -/
def after (stream : NoticeStream ι α) (cursor : ι) : List (ι × α) :=
  stream.entries.filter (cursor < ·.1)

theorem le_lastId {entry : ι × α} (h : entry ∈ stream.entries) : entry.1 ≤ stream.lastId := by
  have hne : stream.entries ≠ [] := List.ne_nil_of_mem h
  have hlast := stream.newest
  rw [List.getLast?_eq_some_getLast hne, Option.elim_some] at hlast
  rw [← hlast]
  have hsplit := List.dropLast_append_getLast hne
  have hincreasing := stream.increasing
  rw [← hsplit, List.pairwise_append] at hincreasing
  rw [← hsplit] at h
  rcases List.mem_append.mp h with hearlier | hself
  · exact (hincreasing.2.2 entry hearlier _ List.mem_cons_self).le
  · rw [List.mem_singleton.mp hself]

/-- A reader has something to read exactly when an entry is newer than its cursor. -/
theorem after_ne_nil_iff : stream.after cursor ≠ [] ↔ cursor < stream.lastId := by
  constructor
  · intro h
    obtain ⟨entry, hentry⟩ := List.exists_mem_of_ne_nil _ h
    obtain ⟨hmem, hlt⟩ := List.mem_filter.mp hentry
    exact lt_of_lt_of_le (of_decide_eq_true hlt) (le_lastId hmem)
  · intro h
    have hne : stream.entries ≠ [] := by
      intro hnil
      have hlast := stream.newest
      rw [hnil] at hlast
      exact not_lt_bot (hlast ▸ h)
    have hlast := stream.newest
    rw [List.getLast?_eq_some_getLast hne, Option.elim_some] at hlast
    have hread : stream.entries.getLast hne ∈ stream.after cursor :=
      List.mem_filter.mpr ⟨List.getLast_mem hne, decide_eq_true (hlast.symm ▸ h)⟩
    exact List.ne_nil_of_mem hread

/-- Append an entry and drop some of the earlier ones. -/
def add (stream : NoticeStream ι α) (id : ι) (value : α) (dropped : Nat)
    (hid : stream.lastId < id) : NoticeStream ι α where
  lastId := id
  entries := stream.entries.drop dropped ++ [(id, value)]
  increasing := by
    rw [List.pairwise_append]
    refine ⟨stream.increasing.sublist (List.drop_sublist _ _), List.pairwise_singleton _ _, ?_⟩
    intro entry hentry new hnew
    rw [List.mem_singleton.mp hnew]
    exact lt_of_le_of_lt (le_lastId (List.mem_of_mem_drop hentry)) hid
  newest := by rw [List.getLast?_concat]; rfl

@[simp] theorem add_lastId {hid : stream.lastId < id} :
    (stream.add id value dropped hid).lastId = id := rfl

end NoticeStream

end ParserServe.Foundation
