import OsModel.Lib.Run

/-!
What the steps of a run record.

`history step record s as` is the list of what `record` says of each step that the actions
`as` take from `s`. `Run.history_snoc` is its equation at the end of a run, where the
induction over runs needs it; `Run.history_queue` is the bookkeeping of a queue, whose steps
take from its front and add at its end.
-/

namespace OsModel.Lib

variable {State Action α : Type} {step : State → Action → Option State}
  {ok : State → Action → Prop}

/-- What the steps that the actions take record, in turn. -/
def history (step : State → Action → Option State) (record : State → Action → State → List α) :
    State → List Action → List α
  | _, [] => []
  | s, a :: as =>
      match step s a with
      | none => []
      | some t => record s a t ++ history step record t as

namespace Run

variable {record : State → Action → State → List α} {s t u : State} {as : List Action}
  {a : Action}

theorem history_append (run : Run step ok s as t) (bs : List Action) :
    history step record s (as ++ bs) = history step record s as ++ history step record t bs := by
  induction run generalizing bs with
  | refl => rfl
  | snoc before guard taken ih =>
      rw [List.append_assoc, ih, ih]
      simp [history, taken]

theorem history_snoc (run : Run step ok s as t) (taken : step t a = some u) :
    history step record s (as ++ [a]) = history step record s as ++ record t a u := by
  rw [run.history_append]
  simp [history, taken]

/-- What has come into a queue is what has left it and what is still in it. -/
theorem history_queue {Inv : State → Prop} {queue : State → List α}
    {comes leaves : State → Action → State → List α}
    (keeps : ∀ {s a t}, Inv s → ok s a → step s a = some t →
      Inv t ∧ queue s ++ comes s a t = leaves s a t ++ queue t)
    (start : Inv s) (empty : queue s = []) (run : Run step ok s as t) :
    history step comes s as = history step leaves s as ++ queue t := by
  suffices Inv t ∧ history step comes s as = history step leaves s as ++ queue t from this.2
  induction run with
  | refl => exact ⟨start, by rw [empty]; rfl⟩
  | snoc before guard taken ih =>
      obtain ⟨inv, eq⟩ := ih
      obtain ⟨inv', moved⟩ := keeps inv guard taken
      refine ⟨inv', ?_⟩
      rw [before.history_snoc taken, before.history_snoc taken, eq, List.append_assoc, moved,
        List.append_assoc]

end Run

end OsModel.Lib
