import OsModel.Lib.Run

/-!
Simulations that hide steps.

A machine simulates another one if each of its steps is hidden, and keeps a relation between
the states of the two, or is seen as a step of the other machine. Then a run of the one shows
a run of the other (`Simulation.run`). For the converse it is enough that every step of the
other machine can be brought about from related states (`Run.realised`).
-/

namespace OsModel.Lib

variable {S A T B : Type} {step : S → A → Option S} {ok : S → A → Prop}
  {step' : T → B → Option T} {ok' : T → B → Prop} {visible : A → Option B} {Rel : S → T → Prop}
  {s t : S} {u v : T} {as : List A} {bs : List B}

/-- Related states stay related, along the steps that are hidden and those that are seen. -/
structure Simulation (step : S → A → Option S) (ok : S → A → Prop) (step' : T → B → Option T)
    (visible : A → Option B) (Rel : S → T → Prop) : Prop where
  hidden {s t u a} : Rel s u → ok s a → step s a = some t → visible a = none → Rel t u
  seen {s t u a b} : Rel s u → ok s a → step s a = some t → visible a = some b →
    ∃ v, step' u b = some v ∧ Rel t v

/-- **What a run shows is a run.** -/
theorem Simulation.run (sim : Simulation step ok step' visible Rel) (start : Rel s u)
    (run : Run step ok s as t) :
    ∃ v, Run step' (fun _ _ => True) u (as.filterMap visible) v ∧ Rel t v := by
  induction run with
  | refl => exact ⟨u, .refl u, start⟩
  | @snoc t t' as a before guard taken ih =>
      obtain ⟨v, shown, related⟩ := ih
      rw [List.filterMap_append]
      cases sees : visible a with
      | none =>
          refine ⟨v, ?_, sim.hidden related guard taken sees⟩
          simpa [sees] using shown
      | some b =>
          obtain ⟨w, follows, related'⟩ := sim.seen related guard taken sees
          refine ⟨w, ?_, related'⟩
          simpa [sees] using shown.snoc trivial follows

/-- A run that shows nothing keeps the relation. -/
theorem Simulation.run_hidden (sim : Simulation step ok step' visible Rel) (start : Rel s u)
    (run : Run step ok s as t) (hidden : as.filterMap visible = []) : Rel t u := by
  obtain ⟨v, shown, related⟩ := sim.run start run
  rw [hidden] at shown
  exact shown.eq_of_nil ▸ related

/-- **Every run is shown by some run**, if every step is. -/
theorem Run.realised
    (way : ∀ {s u v b}, Rel s u → ok' u b → step' u b = some v →
      ∃ as t, Run step ok s as t ∧ as.filterMap visible = [b] ∧ Rel t v)
    (start : Rel s u) (run : Run step' ok' u bs v) :
    ∃ as t, Run step ok s as t ∧ as.filterMap visible = bs ∧ Rel t v := by
  induction run with
  | refl => exact ⟨[], s, .refl s, rfl, start⟩
  | snoc before guard taken ih =>
      obtain ⟨as, t, run, shown, related⟩ := ih
      obtain ⟨more, t', further, shown', related'⟩ := way related guard taken
      exact ⟨as ++ more, t', run.trans further, by rw [List.filterMap_append, shown, shown'],
        related'⟩

end OsModel.Lib
