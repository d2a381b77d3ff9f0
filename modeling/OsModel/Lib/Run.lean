import Mathlib.Data.List.Basic

/-!
Guarded runs of a partial step function.

`Run step ok s as t` says that the actions `as` lead from `s` to `t` and that
every action was taken in a state where `ok` holds of the state and the action.
With `ok` always true it is plain reachability; a narrower guard selects the
runs a conditional safety result speaks about. `Run.invariant` is the only
induction over runs that a development needs.
-/

namespace OsModel.Lib

/-- A finite run of `step` whose actions all satisfy the guard `ok` in the
state where they are taken. -/
inductive Run {State Action : Type} (step : State → Action → Option State)
    (ok : State → Action → Prop) : State → List Action → State → Prop where
  | refl (s : State) : Run step ok s [] s
  | snoc {s t u : State} {as : List Action} {a : Action} :
      Run step ok s as t → ok t a → step t a = some u → Run step ok s (as ++ [a]) u

namespace Run

variable {State Action : Type} {step : State → Action → Option State}
  {ok ok' : State → Action → Prop}

/-- What one guarded step preserves, a guarded run preserves. -/
theorem invariant {Inv : State → Prop}
    (keeps : ∀ {s a t}, Inv s → ok s a → step s a = some t → Inv t)
    {s t : State} {as : List Action} (start : Inv s) (run : Run step ok s as t) : Inv t := by
  induction run with
  | refl => exact start
  | snoc _ guard taken ih => exact keeps ih guard taken

/-- A reflexive and transitive relation that every guarded step respects holds
between the ends of a guarded run, when an invariant helps each step. -/
theorem relates {Inv : State → Prop} {Rel : State → State → Prop}
    (refl : ∀ s, Rel s s) (trans : ∀ {s t u}, Rel s t → Rel t u → Rel s u)
    (keeps : ∀ {s a t}, Inv s → ok s a → step s a = some t → Inv t ∧ Rel s t)
    {s t : State} {as : List Action} (start : Inv s) (run : Run step ok s as t) : Rel s t := by
  suffices Inv t ∧ Rel s t from this.2
  induction run with
  | refl => exact ⟨start, refl _⟩
  | snoc _ guard taken ih =>
      obtain ⟨inv, rel⟩ := ih
      obtain ⟨inv', rel'⟩ := keeps inv guard taken
      exact ⟨inv', trans rel rel'⟩

/-- A run under a guard is a run under every weaker guard. -/
theorem mono (weaker : ∀ s a, ok s a → ok' s a) {s t : State} {as : List Action}
    (run : Run step ok s as t) : Run step ok' s as t := by
  induction run with
  | refl => exact .refl _
  | snoc _ guard taken ih => exact .snoc ih (weaker _ _ guard) taken

/-- Runs compose. -/
theorem trans {s t u : State} {as bs : List Action}
    (first : Run step ok s as t) (second : Run step ok t bs u) : Run step ok s (as ++ bs) u := by
  induction second with
  | refl => simpa using first
  | snoc _ guard taken ih =>
      rw [← List.append_assoc]
      exact .snoc ih guard taken

/-- One guarded action is a run. -/
theorem single {s t : State} {a : Action} (guard : ok s a) (taken : step s a = some t) :
    Run step ok s [a] t :=
  .snoc (.refl s) guard taken

/-- A run without actions goes nowhere. -/
theorem eq_of_nil {s t : State} (run : Run step ok s [] t) : t = s := by
  generalize empty : ([] : List Action) = as at run
  cases run with
  | refl => rfl
  | snoc => simp at empty

/-- A run of one action is a step. -/
theorem step_of_single {s t : State} {a : Action} (run : Run step ok s [a] t) :
    step s a = some t := by
  generalize only : [a] = as at run
  cases run with
  | refl => simp at only
  | @snoc u _ before b leads _ taken =>
      have split : [] ++ [a] = before ++ [b] := only
      obtain ⟨rfl, same⟩ := List.append_inj' split rfl
      obtain rfl := List.singleton_inj.mp same
      rwa [leads.eq_of_nil] at taken

end Run

/-! ### Computing runs -/

/-- Take the actions in turn, as long as their guards hold. -/
def exec {State Action : Type} (step : State → Action → Option State)
    (ok : State → Action → Prop) [∀ s a, Decidable (ok s a)] :
    List Action → State → Option State
  | [], s => some s
  | a :: rest, s => if ok s a then (step s a).bind (exec step ok rest) else none

/-- What `exec` computes is a run. -/
theorem Run.of_exec {State Action : Type} {step : State → Action → Option State}
    {ok : State → Action → Prop} [∀ s a, Decidable (ok s a)] {as : List Action} {s t : State}
    (computed : exec step ok as s = some t) : Run step ok s as t := by
  induction as generalizing s with
  | nil =>
      obtain rfl := Option.some.inj computed
      exact .refl s
  | cons a rest ih =>
      rw [exec] at computed
      split at computed
      · rename_i guard
        obtain ⟨u, taken, later⟩ := Option.bind_eq_some_iff.mp computed
        exact (Run.single guard taken).trans (ih later)
      · simp at computed

/-- A run whose end passes a test, found by computing it. -/
theorem Run.exists_of_exec {State Action : Type} (step : State → Action → Option State)
    (ok : State → Action → Prop) [∀ s a, Decidable (ok s a)] (as : List Action) (s : State)
    (test : State → Bool) (computed : (exec step ok as s).any test = true) :
    ∃ t, Run step ok s as t ∧ test t = true := by
  obtain ⟨t, found, passed⟩ := (Option.any_eq_true _ _).mp computed
  exact ⟨t, .of_exec found, passed⟩

end OsModel.Lib
