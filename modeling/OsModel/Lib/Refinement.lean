import OsModel.Lib.Run

/-!
Refinements.

A machine refines another one if each of its steps, from related states, is brought about by
some steps of the other machine, which show what the step shows. Then a run is brought about by a
run (`Refinement.run`), and what holds in every run of the other machine holds in those of this
one (`Refinement.transfers`).

A `Simulation` is a refinement in which a step that is seen is one step, and a step that is
hidden is none.
-/

namespace OsModel.Lib

variable {S A T B C : Type} {step : S → A → Option S} {ok : S → A → Prop}
  {step' : T → B → Option T} {ok' : T → B → Prop} {shows : A → Option C} {shows' : B → Option C}
  {Rel : S → T → Prop} {s t : S} {u : T} {as : List A}

/-- Related states stay related. -/
structure Refinement (step : S → A → Option S) (ok : S → A → Prop) (step' : T → B → Option T)
    (ok' : T → B → Prop) (shows : A → Option C) (shows' : B → Option C)
    (Rel : S → T → Prop) : Prop where
  steps : ∀ {s t u a}, Rel s u → ok s a → step s a = some t →
    ∃ bs v, Run step' ok' u bs v ∧ bs.filterMap shows' = (shows a).toList ∧ Rel t v

namespace Refinement

variable (refines : Refinement step ok step' ok' shows shows' Rel)
include refines

/-- **Every run is brought about by a run.** -/
theorem run (start : Rel s u) (run : Run step ok s as t) :
    ∃ bs v, Run step' ok' u bs v ∧ bs.filterMap shows' = as.filterMap shows ∧ Rel t v := by
  induction run with
  | refl => exact ⟨[], u, .refl u, rfl, start⟩
  | @snoc t t' as a before guard taken ih =>
      obtain ⟨bs, v, earlier, shown, related⟩ := ih
      obtain ⟨more, w, later, shown', related'⟩ := refines.steps related guard taken
      refine ⟨bs ++ more, w, earlier.trans later, ?_, related'⟩
      rw [List.filterMap_append, List.filterMap_append, shown, shown']
      cases seen : shows a <;> simp [seen]

/-- **What holds in every run of the other machine** holds of a state that is related to one of
its own. -/
theorem transfers {P : T → Prop} (holds : ∀ bs v, Run step' ok' u bs v → P v) (start : Rel s u)
    (run : Run step ok s as t) : ∃ v, Rel t v ∧ P v := by
  obtain ⟨bs, v, run', -, related⟩ := refines.run start run
  exact ⟨v, related, holds bs v run'⟩

end Refinement

end OsModel.Lib
