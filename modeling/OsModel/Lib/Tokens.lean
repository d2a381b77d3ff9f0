import Mathlib.Algebra.Order.BigOperators.Group.Finset
import Mathlib.Data.Fintype.Basic

/-!
Tokens spread over a finite family of places.

`tokens held a` counts how often `a` is held, over all places. A step that
changes one place changes the count by what that place gains and loses
(`tokens_update`; `count_flatMap_update` where the places are a list), so that
"at most one token" survives every step that only moves tokens; and two
different places cannot both hold the same one (`eq_of_held`).
-/

namespace OsModel.Lib

open Finset

variable {ι α : Type} [Fintype ι] [DecidableEq ι] [DecidableEq α]

/-- How often `a` is held, over all places. -/
def tokens (held : ι → List α) (a : α) : ℕ := ∑ i, (held i).count a

/-- One place holds something else now. -/
theorem tokens_update (held : ι → List α) (i : ι) (now : List α) (a : α) :
    tokens (Function.update held i now) a + (held i).count a = tokens held a + now.count a := by
  have others : ∑ j ∈ univ.erase i, (Function.update held i now j).count a =
      ∑ j ∈ univ.erase i, (held j).count a :=
    sum_congr rfl fun j mem => by rw [Function.update_of_ne (ne_of_mem_erase mem)]
  rw [tokens, tokens, ← add_sum_erase univ _ (mem_univ i), Function.update_self, others,
    ← add_sum_erase univ (fun j => (held j).count a) (mem_univ i)]
  omega

omit [DecidableEq ι] in
theorem count_le_tokens (held : ι → List α) (i : ι) (a : α) :
    (held i).count a ≤ tokens held a :=
  single_le_sum (f := fun j => (held j).count a) (fun _ _ => Nat.zero_le _) (mem_univ i)

omit [DecidableEq ι] in
/-- What is counted is in some place. -/
theorem exists_held {held : ι → List α} {a : α} (some : 0 < tokens held a) :
    ∃ i, a ∈ held i := by
  obtain ⟨i, -, ne⟩ := exists_ne_zero_of_sum_ne_zero some.ne'
  exact ⟨i, List.count_pos_iff.mp (Nat.pos_of_ne_zero ne)⟩

/-- Two places together hold no more than all. -/
theorem count_add_count_le (held : ι → List α) {i j : ι} (ne : i ≠ j) (a : α) :
    (held i).count a + (held j).count a ≤ tokens held a := by
  have next := single_le_sum (f := fun k => (held k).count a) (fun _ _ => Nat.zero_le _)
    (mem_erase.mpr ⟨ne.symm, mem_univ j⟩)
  rw [tokens, ← add_sum_erase univ _ (mem_univ i)]
  exact Nat.add_le_add_left next _

/-- A token there is at most one of is in one place. -/
theorem eq_of_held {held : ι → List α} {i j : ι} {a : α} (once : tokens held a ≤ 1)
    (here : a ∈ held i) (there : a ∈ held j) : i = j := by
  by_contra ne
  have both := count_add_count_le held ne a
  have one := List.count_pos_iff.mpr here
  have two := List.count_pos_iff.mpr there
  omega

/-! ### A list of places -/

omit [Fintype ι]

omit [DecidableEq α] in
theorem flatMap_update_of_notMem {l : List ι} {i : ι} (out : i ∉ l) (held : ι → List α)
    (now : List α) : l.flatMap (Function.update held i now) = l.flatMap held := by
  refine List.flatMap_congr fun j mem => ?_
  rw [Function.update_of_ne]
  rintro rfl
  exact out mem

/-- One place of a list without repetitions holds something else now. -/
theorem count_flatMap_update {l : List ι} {i : ι} (once : l.Nodup) (mem : i ∈ l)
    (held : ι → List α) (now : List α) (a : α) :
    (l.flatMap (Function.update held i now)).count a + (held i).count a =
      (l.flatMap held).count a + now.count a := by
  obtain ⟨before, after, rfl⟩ := List.append_of_mem mem
  have apart := List.nodup_append.mp once
  have not_before : i ∉ before := fun here => apart.2.2 i here i List.mem_cons_self rfl
  have not_after : i ∉ after := (List.nodup_cons.mp apart.2.1).1
  simp only [List.flatMap_append, List.flatMap_cons, Function.update_self,
    flatMap_update_of_notMem not_before, flatMap_update_of_notMem not_after, List.count_append]
  omega

end OsModel.Lib
