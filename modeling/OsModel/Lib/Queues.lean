import Mathlib.Data.List.Nodup
import Mathlib.Logic.Function.Basic

/-!
Lists that go into queues, one element after another, and the order in which they stand there.

Each element has a queue of its own. Put in front one by one, the elements of a queue end up
in the opposite order (`foldl_putFront`); put at the back, they keep their order, behind what
was there (`foldl_putBack`). That one element comes before another in a list is that the two
are a sublist of it.
-/

namespace OsModel.Lib

variable {α : Type} {key : α → Nat} {queues : Nat → List α} {l m : List α} {a b : α}

/-- An element is put in front of its queue. -/
def putFront (key : α → Nat) (queues : Nat → List α) (a : α) : Nat → List α :=
  Function.update queues (key a) (a :: queues (key a))

/-- An element is put at the back of its queue. -/
def putBack (key : α → Nat) (queues : Nat → List α) (a : α) : Nat → List α :=
  Function.update queues (key a) (queues (key a) ++ [a])

theorem foldl_putFront (l : List α) (i : Nat) :
    l.foldl (putFront key) queues i = (l.filter fun a => key a == i).reverse ++ queues i := by
  induction l generalizing queues with
  | nil => rfl
  | cons a rest ih =>
      rw [List.foldl_cons, ih, putFront, Function.update_apply, List.filter_cons]
      by_cases here : key a = i
      · simp [here]
      · have away : ¬ i = key a := fun eq => here eq.symm
        simp [here, away]

theorem foldl_putBack (l : List α) (i : Nat) :
    l.foldl (putBack key) queues i = queues i ++ l.filter fun a => key a == i := by
  induction l generalizing queues with
  | nil => simp
  | cons a rest ih =>
      rw [List.foldl_cons, ih, putBack, Function.update_apply, List.filter_cons]
      by_cases here : key a = i
      · simp [here]
      · have away : ¬ i = key a := fun eq => here eq.symm
        simp [here, away]

/-! ### Which element comes first -/

/-- An element of the first part comes before one of the second. -/
theorem before_append (first : a ∈ l) (second : b ∈ m) : [a, b].Sublist (l ++ m) :=
  (List.singleton_sublist.mpr first).append (List.singleton_sublist.mpr second)

/-- What comes before an element of the first part only is in the first part. -/
theorem before_append_left (before : [a, b].Sublist (l ++ m)) (only : b ∉ m) :
    [a, b].Sublist l := by
  obtain ⟨first, second, split, inFirst, inSecond⟩ := List.sublist_append_iff.mp before
  rcases first with _ | ⟨x, _ | ⟨y, rest⟩⟩
  · obtain rfl : [a, b] = second := split
    exact absurd (inSecond.subset (by simp)) only
  · obtain ⟨rfl, rfl⟩ := List.cons.inj split
    exact absurd (inSecond.subset (by simp)) only
  · obtain ⟨rfl, rfl, empty⟩ : a = x ∧ b = y ∧ rest ++ second = [] := by simpa using split
    obtain ⟨rfl, -⟩ := List.append_eq_nil_iff.mp empty
    exact inFirst

/-- What comes after an element of the second part only is in the second part. -/
theorem before_append_right (before : [a, b].Sublist (l ++ m)) (only : a ∉ l) :
    [a, b].Sublist m := by
  obtain ⟨first, second, split, inFirst, inSecond⟩ := List.sublist_append_iff.mp before
  rcases first with _ | ⟨x, rest⟩
  · obtain rfl : [a, b] = second := split
    exact inSecond
  · obtain ⟨rfl, -⟩ := List.cons.inj split
    exact absurd (inFirst.subset List.mem_cons_self) only

/-- Of two elements of a list without repetitions, only one comes first. -/
theorem before_asymm (nodup : l.Nodup) (before : [a, b].Sublist l) : ¬ [b, a].Sublist l := by
  induction l with
  | nil => cases before
  | cons c rest ih =>
      obtain ⟨new, nodup⟩ := List.nodup_cons.mp nodup
      intro after
      have mem_a : a ∈ c :: rest := before.subset (by simp)
      cases before with
      | cons _ before =>
          have in_a : a ∈ rest := before.subset (by simp)
          cases after with
          | cons _ after => exact ih nodup before after
          | cons_cons _ after => exact new (before.subset (by simp))
      | cons_cons _ before =>
          cases after with
          | cons _ after => exact new (after.subset (by simp))
          | cons_cons _ after => exact new (List.singleton_sublist.mp after)

/-- Those of a list that pass a test stand in the order of the list. -/
theorem before_filter {p : α → Bool} (before : [a, b].Sublist l) (passes : p a = true)
    (passes' : p b = true) : [a, b].Sublist (l.filter p) := by
  have kept := before.filter p
  rwa [List.filter_cons_of_pos passes, List.filter_cons_of_pos passes', List.filter_nil] at kept

end OsModel.Lib
