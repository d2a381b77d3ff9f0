import OsModel.KernelMemory.MemoryAccess

/-!
The layout of the user memory, as a property of the segment tables.

The sources never store which bytes are in use: `get_free_holes` recomputes it
from the tables. `Layout` is what the tables have to satisfy for that to be
right, and `Sound` adds the facts about sizes, heap addresses and sticks that
the operations need to keep it.
-/

namespace OsModel.KernelMemory

open Lib Span

/-- The segments of the tables are pairwise disjoint and inside the memory. -/
structure Layout (s : State) : Prop where
  apart : (allSegments s).Pairwise fun a b => a.span.Apart b.span
  inside : ∀ seg ∈ allSegments s, seg.span.stop ≤ s.totalMemorySize.toNat

/-- Nonempty segments placed below `top`, no two of them overlapping. -/
structure Placed (top : Nat) (segs : List HeapSegment) : Prop where
  apart : segs.Pairwise fun a b => a.span.Apart b.span
  inside : ∀ seg ∈ segs, seg.span.stop ≤ top
  sized : ∀ seg ∈ segs, 0 < seg.span.size

namespace Placed

variable {top top' : Nat} {segs segs' : List HeapSegment}

theorem nil : Placed top [] := ⟨.nil, by simp, by simp⟩

/-- The order of the segments does not matter. -/
theorem of_perm (h : Placed top segs) (perm : segs.Perm segs') : Placed top segs' where
  apart := (perm.pairwise_iff fun apart => Apart.symm apart).mp h.apart
  inside seg mem := h.inside seg (perm.mem_iff.mpr mem)
  sized seg mem := h.sized seg (perm.mem_iff.mpr mem)

theorem of_sublist (h : Placed top segs) (sub : segs'.Sublist segs) : Placed top segs' where
  apart := h.apart.sublist sub
  inside seg mem := h.inside seg (sub.subset mem)
  sized seg mem := h.sized seg (sub.subset mem)

theorem mono (h : Placed top segs) (le : top ≤ top') : Placed top' segs :=
  ⟨h.apart, fun seg mem => (h.inside seg mem).trans le, h.sized⟩

/-- Two groups can be placed together when no segment of one overlaps the other. -/
theorem append_iff : Placed top (segs ++ segs') ↔
    Placed top segs ∧ Placed top segs' ∧ ∀ a ∈ segs, ∀ b ∈ segs', a.span.Apart b.span := by
  constructor
  · intro h
    refine ⟨h.of_sublist (List.sublist_append_left ..),
      h.of_sublist (List.sublist_append_right ..), ?_⟩
    exact (List.pairwise_append.mp h.apart).2.2
  · rintro ⟨first, second, cross⟩
    refine ⟨List.pairwise_append.mpr ⟨first.apart, second.apart, cross⟩, ?_, ?_⟩
    · intro seg mem
      rcases List.mem_append.mp mem with mem | mem
      · exact first.inside seg mem
      · exact second.inside seg mem
    · intro seg mem
      rcases List.mem_append.mp mem with mem | mem
      · exact first.sized seg mem
      · exact second.sized seg mem

end Placed

/-- The invariant of Kernel Memory between operations. -/
structure Sound (s : State) : Prop where
  placed : Placed s.totalMemorySize.toNat (allSegments s)
  total : s.totalMemorySize.toNat = stickTotal s.devices.listMemoryStick
  suspendedSized : ∀ ss ∈ allSuspendedSegments s, 0 < ss.size.toNat
  allocated : ∀ seg ∈ allSegments s, seg.ptr < s.nextPtr
  distinct : ((allSegments s).map HeapSegment.ptr).Nodup

namespace Sound

variable {s s' : State}

theorem layout (h : Sound s) : Layout s := ⟨h.placed.apart, h.placed.inside⟩

/-- The sticks fit a 32-bit address space. -/
theorem fits (h : Sound s) : stickTotal s.devices.listMemoryStick < 2 ^ 32 := by
  rw [← h.total]
  exact s.totalMemorySize.toNat_lt

/-- Dropping segments keeps the invariant. -/
theorem of_sublist (h : Sound s) (sub : (allSegments s').Sublist (allSegments s))
    (same_total : s'.totalMemorySize = s.totalMemorySize)
    (same_sticks : stickTotal s'.devices.listMemoryStick = stickTotal s.devices.listMemoryStick)
    (sized : ∀ ss ∈ allSuspendedSegments s', 0 < ss.size.toNat)
    (same_ptr : s'.nextPtr = s.nextPtr) : Sound s' where
  placed := by
    rw [same_total]
    exact h.placed.of_sublist sub
  total := by rw [same_total, same_sticks, h.total]
  suspendedSized := sized
  allocated seg mem := by
    rw [same_ptr]
    exact h.allocated seg (sub.subset mem)
  distinct := h.distinct.sublist (sub.map _)

end Sound

/-! ### What updates of the process table do to the segments -/

section Tables

variable {s : State} {pid other : UInt32} {pcb : Pcb} {f : Pcb → Pcb}

/-- Where the process found stands among the segments, and what an update
through its pointer puts there. -/
theorem allSegments_updatePcb (found : findPcb s pid = some pcb) :
    ∃ before after, allSegments s = before ++ pcb.segmentTable ++ after ∧
      allSegments (updatePcb s pid f) = before ++ (f pcb).segmentTable ++ after := by
  obtain ⟨front, back, list_eq, -, -, updated⟩ := updateFirst_split (f := f) found
  refine ⟨front.flatMap Pcb.segmentTable, back.flatMap Pcb.segmentTable, ?_, ?_⟩
  · simp [allSegments, list_eq]
  · simp [allSegments, updatePcb, updated]

theorem findPcb_updatePcb_other (keeps : ∀ pcb, (f pcb).pid = pcb.pid)
    (ne : other ≠ pid) : findPcb (updatePcb s other f) pid = findPcb s pid := by
  refine find?_updateFirst_other (fun pcb here => ?_) (fun pcb => by rw [keeps]) _
  rw [beq_iff_eq] at here
  rw [beq_eq_false_iff_ne, here]
  exact ne

theorem findPcb_updatePcb_self (s : State) (pid : UInt32) (keeps : ∀ pcb, (f pcb).pid = pcb.pid) :
    findPcb (updatePcb s pid f) pid = (findPcb s pid).map f :=
  find?_updateFirst (fun pcb => by rw [keeps]) _

theorem updatePcb_not_found (missing : findPcb s pid = none) : updatePcb s pid f = s := by
  simp only [updatePcb, updateFirst_none missing]

/-- Segments of different processes do not overlap. -/
theorem Sound.apart_of_ne {pcb' : Pcb} (sound : Sound s) (found : findPcb s pid = some pcb)
    (found' : findPcb s other = some pcb') (ne : pid ≠ other) {seg seg' : HeapSegment}
    (mem : seg ∈ pcb.segmentTable) (mem' : seg' ∈ pcb'.segmentTable) :
    seg.span.Apart seg'.span := by
  have tables := (List.pairwise_flatMap.mp sound.placed.apart).2
  have : Std.Symm fun a b : Pcb =>
      ∀ x ∈ a.segmentTable, ∀ y ∈ b.segmentTable, x.span.Apart y.span :=
    ⟨fun a b apart y hy x hx => (apart x hx y hy).symm⟩
  have ne' : pcb ≠ pcb' := by
    rintro rfl
    have first : pcb.pid = pid := by simpa using List.find?_some found
    have second : pcb.pid = other := by simpa using List.find?_some found'
    exact ne (first.symm.trans second)
  exact tables.forall (List.mem_of_find?_eq_some found) (List.mem_of_find?_eq_some found') ne' seg
    mem seg' mem'

/-- A process whose table shrinks. -/
theorem allSegments_updatePcb_sublist
    (shrinks : ∀ pcb, ((f pcb).segmentTable).Sublist pcb.segmentTable) :
    (allSegments (updatePcb s pid f)).Sublist (allSegments s) := by
  cases found : findPcb s pid with
  | none => rw [updatePcb_not_found found]
  | some pcb =>
      obtain ⟨before, after, old, new⟩ := allSegments_updatePcb (f := f) found
      rw [old, new]
      exact ((List.Sublist.refl before).append (shrinks pcb)).append (.refl after)

/-- A process that gets new segments at the end of its table. -/
theorem allSegments_updatePcb_append {added : List HeapSegment}
    (found : findPcb s pid = some pcb)
    (grows : (f pcb).segmentTable = pcb.segmentTable ++ added) :
    (allSegments (updatePcb s pid f)).Perm (allSegments s ++ added) := by
  obtain ⟨before, after, old, new⟩ := allSegments_updatePcb (f := f) found
  rw [old, new, grows, List.append_assoc, List.append_assoc, List.append_assoc, List.append_assoc]
  exact List.Perm.append_left _ (List.Perm.append_left _ List.perm_append_comm)

end Tables

end OsModel.KernelMemory
