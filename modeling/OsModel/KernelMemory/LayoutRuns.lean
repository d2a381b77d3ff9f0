import OsModel.KernelMemory.Operations

/-!
The layout over whole runs of Kernel Memory.

`layout_of_run` covers every operation and every run in which each resumption
meets `Separated`. The condition is not an artefact of the proof:
`process_desuspend` chooses the holes of all its segments before it records the
first one, so two segments that are not separated come back at the same base
(`layout_lost`).
-/

namespace OsModel.KernelMemory

open Lib

instance (s : State) (pid : UInt32) : Decidable (Separated s pid) :=
  match h : findSuspended s pid with
  | none => isTrue fun sp found => by simp [h] at found
  | some sp =>
      decidable_of_iff ((findPcb s pid).isSome →
          (∀ ss ∈ sp.suspendedSegments, ∃ hole ∈ getFreeHoles s, ss.size ≤ hole.size) →
          sp.suspendedSegments.Pairwise fun a b =>
            Separates s.allocationStrategy (getFreeHoles s) a.size b.size)
        ⟨fun holds sp' found => by
          obtain rfl := Option.some.inj (h.symm.trans found)
          exact holds, fun separated => separated sp h⟩

instance (s : State) : (op : Op) → Decidable (op.Separated s)
  | .processDesuspend pid => inferInstanceAs (Decidable (KernelMemory.Separated s pid))
  | .processCreate .. | .processEnd _ | .segmentCreate .. | .segmentDelete .. | .processSuspend _
  | .connectStick .. | .ioMemoryWrite .. => .isTrue trivial

/-- The guard of the runs that keep the layout. -/
def Op.Placing (s : State) (op : Op) : Prop := op.Admissible s ∧ op.Separated s

instance (s : State) (op : Op) : Decidable (op.Placing s) := by
  unfold Op.Placing
  infer_instance

/-- Guarded runs from a sound state stay sound. -/
theorem sound_of_run {s t : State} {ops : List Op} (sound : Sound s)
    (run : Run step (fun s op => op.Placing s) s ops t) : Sound t :=
  run.invariant (fun sound guard taken => step_sound sound guard.1 guard.2 taken) sound

section Reachable

variable {strategy : AllocationStrategy} {swapBlockSize swapTotalSize : UInt32}
  {swapFile : UInt32 → Nat → UInt8} {refusals : List Bool} {fresh : Nat → UInt8}

/-- **The layout invariant**: in every state reached by operations each of which
meets its condition, the segments of all tables are pairwise disjoint and inside
the memory. -/
theorem layout_of_run {ops : List Op} {s : State}
    (run : Run step (fun s op => op.Placing s)
      (initial strategy swapBlockSize swapTotalSize swapFile refusals fresh) ops s) :
    Layout s :=
  (sound_of_run (initial_sound ..) run).layout

end Reachable

/-- A memory of eight bytes with two processes in it. -/
private def twoProcesses : State :=
  initial .best 4 16 (fun _ _ => 0) [] fun _ => 0

/-- A process of two segments that leaves and comes back between two others. -/
private def resumption : List Op :=
  [.connectStick 0 8, .processCreate 1 (some []), .processCreate 2 (some []),
    .segmentCreate 1 0 1, .segmentCreate 2 0 1, .segmentCreate 1 1 2, .processSuspend 1,
    .processDesuspend 1]

/-- With best fit, a hole of one byte separates the sizes one and two. -/
theorem layout_of_resumption : ∃ s, Layout s ∧ (allSegments s).length = 3 := by
  obtain ⟨s, run, three⟩ := Run.exists_of_exec step (fun s op => op.Placing s) resumption
    twoProcesses (fun s => (allSegments s).length == 3) (by decide)
  exact ⟨s, layout_of_run run, beq_iff_eq.mp three⟩

/-- With worst fit, both segments of a process come back at address zero. -/
theorem layout_lost : ∃ ops s,
    Run step (fun s op => op.Admissible s) (initial .worst 4 16 (fun _ _ => 0) [] fun _ => 0)
      ops s ∧ ¬ Layout s := by
  obtain ⟨s, run, overlap⟩ := Run.exists_of_exec step (fun s op => op.Admissible s)
    [.connectStick 0 4, .processCreate 1 (some []), .segmentCreate 1 0 1, .segmentCreate 1 1 2,
      .processSuspend 1, .processDesuspend 1]
    (initial .worst 4 16 (fun _ _ => 0) [] fun _ => 0)
    (fun s => ¬ (allSegments s).Pairwise fun a b => a.span.Apart b.span) (by decide)
  exact ⟨_, s, run, fun layout => (decide_eq_true_eq.mp overlap) layout.apart⟩

end OsModel.KernelMemory
