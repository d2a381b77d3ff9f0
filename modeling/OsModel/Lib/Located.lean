import Mathlib.Logic.Function.Basic
import Mathlib.Data.Nat.Notation

/-!
Tokens that are in one place.

`held a k` counts the tokens of `a` in the place `k`. `Located held place` says that
there is one token of `a` in the place `place a`, and none elsewhere: at most one in all,
over a family of places that may be infinite. A step that takes a token out of a place
(`take`), or puts one into a place (`put`), is described by what it does to the counts.
-/

namespace OsModel.Lib

variable {α κ : Type} [DecidableEq α] [DecidableEq κ]

/-- One token of `a` in the place `place a`, and none elsewhere. -/
def Located (held : α → κ → ℕ) (place : α → Option κ) : Prop :=
  ∀ a k, held a k = if place a = some k then 1 else 0

/-- The counts `more` are the counts `held`, and one token of `a` in `k`. -/
def AddsToken (held more : α → κ → ℕ) (a : α) (k : κ) : Prop :=
  ∀ b k', more b k' = held b k' + if b = a ∧ k' = k then 1 else 0

theorem AddsToken.of_place {held more : α → κ → ℕ} {a : α} {k : κ}
    (others : ∀ b k', k' ≠ k → more b k' = held b k')
    (here : ∀ b, more b k = held b k + if b = a then 1 else 0) : AddsToken held more a k := by
  intro b k'
  by_cases same : k' = k
  · subst same
    simp [here b]
  · simp [others b k' same, same]

namespace Located

variable {held held' : α → κ → ℕ} {place : α → Option κ} {a : α} {k : κ}

omit [DecidableEq α] in
theorem congr (located : Located held place) (same : ∀ a k, held' a k = held a k) :
    Located held' place :=
  fun a k => (same a k).trans (located a k)

omit [DecidableEq α] in
/-- A token that is counted says where it is. -/
theorem place_eq (located : Located held place) (pos : 0 < held a k) : place a = some k := by
  by_contra elsewhere
  rw [located a k, if_neg elsewhere] at pos
  exact absurd pos (Nat.lt_irrefl 0)

omit [DecidableEq α] in
theorem held_eq_zero (located : Located held place) (nowhere : place a = none) (k : κ) :
    held a k = 0 := by
  rw [located a k, nowhere, if_neg nofun]

/-- A token is taken out. -/
theorem take (located : Located held place) (adds : AddsToken held' held a k) :
    place a = some k ∧ Located held' (Function.update place a none) := by
  have here : place a = some k := located.place_eq (by simp [adds a k])
  refine ⟨here, fun b k' => ?_⟩
  have before := located b k'
  rw [adds b k'] at before
  by_cases eq : b = a
  · subst eq
    rw [Function.update_self, if_neg nofun]
    by_cases same : k' = k
    · subst same
      rw [if_pos ⟨rfl, rfl⟩, if_pos here] at before
      exact Nat.succ.inj before
    · rw [if_neg fun both => same both.2, here, if_neg fun eq => same (Option.some.inj eq).symm]
        at before
      exact before
  · rw [if_neg fun both => eq both.1] at before
    rw [Function.update_of_ne eq]
    exact before

/-- A token that was nowhere is put into a place. -/
theorem put (located : Located held place) (nowhere : place a = none)
    (adds : AddsToken held held' a k) : Located held' (Function.update place a (some k)) := by
  intro b k'
  rw [adds b k', located b k']
  by_cases eq : b = a
  · subst eq
    rw [Function.update_self, nowhere, if_neg nofun, Nat.zero_add]
    by_cases same : k' = k
    · subst same
      rw [if_pos ⟨rfl, rfl⟩, if_pos rfl]
    · rw [if_neg fun both => same both.2, if_neg fun eq => same (Option.some.inj eq).symm]
  · rw [Function.update_of_ne eq]
    simp [eq]

omit [DecidableEq α] in
/-- The tokens in one place are lost. -/
theorem clear (located : Located held place) (others : ∀ a k', k' ≠ k → held' a k' = held a k')
    (empty : ∀ a, held' a k = 0) :
    Located held' fun a => if place a = some k then none else place a := by
  intro a k'
  dsimp only
  by_cases same : k' = k
  · subst same
    by_cases here : place a = some k'
    · simp [empty a, here]
    · simp [empty a, here]
  · rw [others a k' same, located a k']
    by_cases here : place a = some k
    · simp [here, Ne.symm same]
    · simp [here]

end Located

/-! ### Counts in lists -/

section Counts

variable {β : Type} [DecidableEq β] [BEq β] [LawfulBEq β] {l : List β} {a : β}

theorem count_cons_eq (l : List β) (a b : β) :
    (a :: l).count b = l.count b + if b = a then 1 else 0 := by
  by_cases eq : b = a
  · subst eq
    simp
  · simp [eq, Ne.symm eq]

theorem count_concat (l : List β) (a b : β) :
    (l ++ [a]).count b = l.count b + if b = a then 1 else 0 := by
  rw [List.count_append, count_cons_eq, List.count_nil, Nat.zero_add]

theorem count_erase_add (mem : a ∈ l) (b : β) :
    l.count b = (l.erase a).count b + if b = a then 1 else 0 := by
  by_cases eq : b = a
  · subst eq
    have pos := List.count_pos_iff.mpr mem
    simp only [List.count_erase_self, if_true]
    omega
  · simp [eq, List.count_erase_of_ne eq]

end Counts

end OsModel.Lib
