import Mathlib.Data.List.Nodup
import Mathlib.Logic.Function.Basic

/-!
Entries in flight, and a table that records them.

A list holds entries, each with a key; `Tracks f key val l` says that no two
entries of the list share a key, and that the table `f` has under the key of each
entry the value that belongs to it. One entry can then be added under a key that
the table has free, and taken out again, without a word about the others.
-/

namespace OsModel.Lib

variable {α κ β : Type}

/-- The table has, for every entry of the list, its value under its key, and the
keys are distinct. -/
structure Tracks (f : κ → β) (key : α → κ) (val : α → β) (l : List α) : Prop where
  recorded : ∀ a ∈ l, f (key a) = val a
  once : (l.map key).Nodup

namespace Tracks

variable {f : κ → β} {key : α → κ} {val : α → β} {l l' : List α} {k : κ} {b : β} {a : α}

theorem nil : Tracks f key val [] := ⟨by simp, by simp⟩

/-- The order of the entries does not matter. -/
theorem of_perm (h : Tracks f key val l) (perm : l.Perm l') : Tracks f key val l' where
  recorded a mem := h.recorded a (perm.mem_iff.mpr mem)
  once := (perm.map key).nodup_iff.mp h.once

/-- A key whose value in the table belongs to no entry has none. -/
theorem absent (h : Tracks f key val l) (free : ∀ a, f k ≠ val a) : k ∉ l.map key := by
  intro mem
  obtain ⟨a, among, rfl⟩ := List.mem_map.mp mem
  exact free a (h.recorded a among)

/-- An entry is taken out, and its key is free. -/
theorem pop (h : Tracks f key val l) (perm : l.Perm (a :: l')) :
    Tracks f key val l' ∧ key a ∉ l'.map key := by
  have h' := h.of_perm perm
  have once := h'.once
  rw [List.map_cons, List.nodup_cons] at once
  exact ⟨⟨fun other mem => h'.recorded other (List.mem_cons_of_mem _ mem), once.2⟩, once.1⟩

variable [DecidableEq κ]

/-- The table may change under a key without an entry. -/
theorem update (h : Tracks f key val l) (free : k ∉ l.map key) (b : β) :
    Tracks (Function.update f k b) key val l := by
  refine ⟨fun a mem => ?_, h.once⟩
  have ne : key a ≠ k := fun eq => free (eq ▸ List.mem_map_of_mem mem)
  rw [Function.update_of_ne ne]
  exact h.recorded a mem

/-- An entry is added under a free key. -/
theorem push (h : Tracks f key val l) (free : key a ∉ l.map key) :
    Tracks (Function.update f (key a) (val a)) key val (l ++ [a]) := by
  refine ⟨fun other mem => ?_, ?_⟩
  · rcases List.mem_append.mp mem with old | new
    · exact (h.update free (val a)).recorded other old
    · obtain rfl := List.mem_singleton.mp new
      rw [Function.update_self]
  · rw [List.map_append, List.nodup_append]
    refine ⟨h.once, by simp, ?_⟩
    rintro k mem k' mem' rfl
    obtain rfl : k = key a := by simpa using mem'
    exact free mem

end Tracks

end OsModel.Lib
