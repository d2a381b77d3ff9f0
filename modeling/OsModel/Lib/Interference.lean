import OsModel.Lib.Run
import Mathlib.Data.List.Basic

/-!
A program among other parties.

The program takes its steps one after another, and between them the other parties do what they
like. `After Q k` is total correctness in time: `k` steps of the program lead to `Q`, whatever
the others do before each of them.

* `After.trans`: what is proved of two parts holds of one after the other.
* `After.reached`: a run has not come so far yet, and can go on, or it has been at `Q`.
-/

namespace OsModel.Lib

variable {S A : Type} {act : S → Option S} {env : S → S → Prop}

/-- `k` steps of the program lead to `Q`, whatever the others do before each of them. -/
def After (act : S → Option S) (env : S → S → Prop) (Q : S → Prop) : ℕ → S → Prop
  | 0, s => Q s
  | k + 1, s => ∀ t, env s t → ∃ t', act t = some t' ∧ After act env Q k t'

namespace After

variable {P Q : S → Prop} {k l : ℕ} {s : S}

/-- A weaker postcondition. -/
theorem mono (weaker : ∀ s, P s → Q s) (after : After act env P k s) : After act env Q k s := by
  induction k generalizing s with
  | zero => exact weaker s after
  | succ k ih =>
      intro t others
      obtain ⟨t', acts, later⟩ := after t others
      exact ⟨t', acts, ih later⟩

/-- **One part after the other.** -/
theorem trans (first : After act env P k s) (second : ∀ s, P s → After act env Q l s) :
    After act env Q (k + l) s := by
  induction k generalizing s with
  | zero =>
      rw [Nat.zero_add]
      exact second s first
  | succ k ih =>
      rw [Nat.succ_add]
      intro t others
      obtain ⟨t', acts, later⟩ := first t others
      exact ⟨t', acts, ih later⟩

end After

/-- The steps of a system are those of the program and those of the others. -/
structure Interleaves (step : S → A → Option S) (own : A → Bool) (act : S → Option S)
    (env : S → S → Prop) : Prop where
  acts {s a} : own a = true → step s a = act s
  others {s a t} : own a = false → step s a = some t → env s t
  refl (s) : env s s
  trans {s t u} : env s t → env t u → env s u

variable {step : S → A → Option S} {ok : S → A → Prop} {own : A → Bool} {Q : S → Prop} {k : ℕ}
  {s t : S} {as : List A}

/-- The others do not bring the program off its way. -/
theorem After.others (interleaves : Interleaves step own act env)
    (after : After act env Q (k + 1) s) (others : env s t) : After act env Q (k + 1) t :=
  fun u further => after u (interleaves.trans others further)

/-- **What a run does about a program**: it has taken less than its steps, and can go on, or it
has been where they lead to. -/
theorem After.reached (interleaves : Interleaves step own act env) (after : After act env Q k s)
    (run : Run step ok s as t) :
    (∃ left, as.countP own + (left + 1) = k ∧ After act env Q (left + 1) t) ∨
      ∃ before rest u, as = before ++ rest ∧ Run step ok s before u ∧ Run step ok u rest t ∧
        before.countP own = k ∧ Q u := by
  induction run with
  | refl =>
      cases k with
      | zero => exact .inr ⟨[], [], s, rfl, .refl s, .refl s, rfl, after⟩
      | succ k => exact .inl ⟨k, by simp, after⟩
  | @snoc t u as a before guard taken ih =>
      rcases ih with ⟨left, count, later⟩ | ⟨first, rest, v, rfl, leads, further, count, there⟩
      · cases mine : own a with
        | true =>
            rw [interleaves.acts mine] at taken
            obtain ⟨u', acts, later'⟩ := later t (interleaves.refl t)
            obtain rfl : u' = u := Option.some.inj (acts.symm.trans taken)
            cases left with
            | zero =>
                refine .inr ⟨as ++ [a], [], u', by simp, ?_, .refl u', ?_, later'⟩
                · exact before.snoc guard ((interleaves.acts mine).trans taken)
                · simpa [List.countP_append, mine] using count
            | succ left =>
                refine .inl ⟨left, ?_, later'⟩
                simp only [List.countP_append, List.countP_cons, mine, List.countP_nil, if_true]
                omega
        | false =>
            refine .inl ⟨left, ?_, later.others interleaves (interleaves.others mine taken)⟩
            simpa [List.countP_append, mine] using count
      · exact .inr ⟨first, rest ++ [a], v, by simp, leads, further.snoc guard taken, count, there⟩

/-- Without the others the program takes its steps. -/
theorem After.run (ok : S → A → Prop) (interleaves : Interleaves step own act env)
    (after : After act env Q k s) (a : A) (mine : own a = true) (allowed : ∀ s, ok s a) :
    ∃ t, Run step ok s (List.replicate k a) t ∧ Q t := by
  induction k generalizing s with
  | zero => exact ⟨s, .refl s, after⟩
  | succ k ih =>
      obtain ⟨t, acts, later⟩ := after s (interleaves.refl s)
      obtain ⟨u, steps, there⟩ := ih later
      have first : Run step ok s [a] t :=
        .single (allowed s) ((interleaves.acts mine).trans acts)
      exact ⟨u, first.trans steps, there⟩

end OsModel.Lib
