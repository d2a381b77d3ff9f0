import Mathlib.Logic.Relation

/-!
Paths of a relation to which an edge has been added.

A path that uses the edge goes on from its end, after its last use; so what can be reached
through the edge is what could be reached from its end before.
-/

namespace OsModel.Lib

open Relation

variable {α : Type} {r : α → α → Prop} {x y : α}

/-- A relation and one more edge. -/
inductive AddEdge (r : α → α → Prop) (source target : α) : α → α → Prop where
  | old {x y : α} : r x y → AddEdge r source target x y
  | new : AddEdge r source target source target

theorem AddEdge.mono {source target : α} (path : ReflTransGen r x y) :
    ReflTransGen (AddEdge r source target) x y :=
  ReflTransGen.mono (fun _ _ => .old) _ _ path

/-- Along a path the new edge is used, or it is not. -/
theorem AddEdge.reaches {source target : α} (path : ReflTransGen (AddEdge r source target) x y) :
    ReflTransGen r x y ∨ ReflTransGen r target y := by
  induction path with
  | refl => exact .inl .refl
  | tail _ edge ih =>
      cases edge with
      | new => exact .inr .refl
      | old edge =>
          rcases ih with before | after
          · exact .inl (before.tail edge)
          · exact .inr (after.tail edge)

/-- What can be reached from the source of the new edge. -/
theorem AddEdge.reaches_source_iff {source target : α} :
    TransGen (AddEdge r source target) source y ↔
      TransGen r source y ∨ ReflTransGen r target y := by
  constructor
  · intro path
    obtain ⟨next, edge, rest⟩ := TransGen.head'_iff.mp path
    cases edge with
    | new =>
        rcases AddEdge.reaches rest with path | path
        · exact .inr path
        · exact .inr path
    | old edge =>
        rcases AddEdge.reaches rest with path | path
        · exact .inl (.head' edge path)
        · exact .inr path
  · rintro (path | path)
    · exact TransGen.mono (fun _ _ => .old) _ _ path
    · exact .head' .new (AddEdge.mono path)

end OsModel.Lib
