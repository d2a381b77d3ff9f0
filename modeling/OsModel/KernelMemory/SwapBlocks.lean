import OsModel.KernelMemory.Operations

/-!
Who owns which swap block, over whole runs.

`get_free_swap_blocks` finds the blocks in use by going over
`list_suspended_processes`, to which a process being suspended is added last:
each of its segments is given the first free blocks, so any two that need a
block share one. `exclusive_of_run` covers the runs in which no suspension
stores two segments that need blocks; `Suspended.exclusive_iff` is the exact
condition for one step.
-/

namespace OsModel.KernelMemory

open Lib

/-- No block has two owners, and every block is one of the swap file. -/
structure BlocksExclusive (s : State) : Prop where
  once : (usedBlocks s).Nodup
  inside : ∀ b ∈ usedBlocks s, b.toNat < s.swapTotalSize.toNat / s.swapBlockSize.toNat

/-- A segment of this size is given at least one block. -/
def NeedsBlocks (s : State) (size : UInt32) : Prop := 0 < castInt (blocksNeeded s size)

instance (s : State) (size : UInt32) : Decidable (NeedsBlocks s size) := by
  unfold NeedsBlocks
  infer_instance

/-- At most one segment of the table needs blocks. -/
def StoresOne (s : State) (table : List HeapSegment) : Prop :=
  table.Pairwise fun a b => ¬ (NeedsBlocks s a.size ∧ NeedsBlocks s b.size)

instance (s : State) (table : List HeapSegment) : Decidable (StoresOne s table) := by
  unfold StoresOne
  infer_instance

/-! ### One suspension -/

section Suspension

variable {s s' : State} {pid : UInt32} {pcb : Pcb} {suspended : List SuspendedSegment}
  {d : Devices}

/-- Two segments of one process share a block as soon as both need one. -/
theorem Suspends.disjoint_iff {a b : HeapSegment} {ss ss' : SuspendedSegment}
    (ha : Suspends s a ss) (hb : Suspends s b ss') :
    ss.swapBlocks.Disjoint ss'.swapBlocks ↔
      ¬ (NeedsBlocks s a.size ∧ NeedsBlocks s b.size) := by
  have first := ha.blocks
  have second := hb.blocks
  rw [getFreeSwapBlocks_eq] at first second
  split at first
  · simp at first
  rename_i enough
  split at second
  · simp at second
  rw [← Option.some.inj first, ← Option.some.inj second]
  unfold NeedsBlocks
  constructor
  · rintro apart ⟨pos, pos'⟩
    -- both lists start with the first free block
    have nonempty : 0 < (freeBlocks s).length := by omega
    obtain ⟨block, rest, eq⟩ := List.exists_cons_of_length_pos nonempty
    have shared : ∀ {n : Int}, 0 < n → block ∈ (freeBlocks s).take n.toNat := by
      intro n pos
      rw [eq, show n.toNat = (n.toNat - 1) + 1 by omega, List.take_succ_cons]
      exact List.mem_cons_self
    exact apart (shared pos) (shared pos')
  · intro one b mem mem'
    have pos := List.length_pos_of_mem mem
    have pos' := List.length_pos_of_mem mem'
    rw [List.length_take] at pos pos'
    omega

/-- The blocks in use after a suspension. -/
theorem Suspended.usedBlocks_eq (done : Suspended s pid pcb suspended d s') :
    usedBlocks s' = usedBlocks s ++ suspended.flatMap SuspendedSegment.swapBlocks := by
  rw [done.result]
  simp [usedBlocks, allSuspendedSegments]

/-- The new blocks were free. -/
theorem Suspended.fresh (done : Suspended s pid pcb suspended d s') {ss : SuspendedSegment}
    (mem : ss ∈ suspended) :
    ss.swapBlocks.Nodup ∧ ∀ b ∈ ss.swapBlocks, b ∉ usedBlocks s ∧ b < totalBlocks s := by
  obtain ⟨seg, -, entry⟩ := exists_of_mem_forall₂ done.entries mem
  obtain ⟨once, -, free⟩ := getFreeSwapBlocks_spec entry.blocks
  exact ⟨once, free⟩

/-- The new blocks have one owner each when one segment needs them. -/
theorem Suspended.nodup_iff (done : Suspended s pid pcb suspended d s') :
    (suspended.flatMap SuspendedSegment.swapBlocks).Nodup ↔ StoresOne s pcb.segmentTable := by
  have agree := pairwise_iff_of_forall₂ (R := Suspends s)
    (P := fun a b => ¬ (NeedsBlocks s a.size ∧ NeedsBlocks s b.size))
    (Q := fun ss ss' => ss.swapBlocks.Disjoint ss'.swapBlocks)
    (fun ha hb => (Suspends.disjoint_iff ha hb).symm) done.entries
  rw [List.nodup_flatMap, StoresOne, agree]
  exact and_iff_right fun ss mem => (done.fresh mem).1

/-- **Exactly when a suspension keeps the blocks exclusive.** -/
theorem Suspended.exclusive_iff (exclusive : BlocksExclusive s)
    (done : Suspended s pid pcb suspended d s') :
    BlocksExclusive s' ↔ StoresOne s pcb.segmentTable := by
  rw [← done.nodup_iff]
  constructor
  · rintro ⟨once, -⟩
    rw [done.usedBlocks_eq] at once
    exact (List.nodup_append.mp once).2.1
  · intro new_once
    refine ⟨?_, fun b mem => ?_⟩
    · rw [done.usedBlocks_eq, List.nodup_append]
      refine ⟨exclusive.once, new_once, ?_⟩
      rintro b old b' new rfl
      obtain ⟨ss, among, hb⟩ := List.mem_flatMap.mp new
      exact ((done.fresh among).2 b hb).1 old
    · rw [done.usedBlocks_eq] at mem
      rw [done.result]
      rcases List.mem_append.mp mem with old | new
      · exact exclusive.inside b old
      · obtain ⟨ss, among, hb⟩ := List.mem_flatMap.mp new
        have below := ((done.fresh among).2 b hb).2
        rwa [UInt32.lt_iff_toNat_lt, totalBlocks, UInt32.toNat_div] at below

end Suspension

/-! ### The other operations -/

/-- Entries of suspended processes only disappear. -/
structure EntriesShrink (s s' : State) : Prop where
  entries : s'.listSuspendedProcesses.Sublist s.listSuspendedProcesses
  blockSize : s'.swapBlockSize = s.swapBlockSize
  totalSize : s'.swapTotalSize = s.swapTotalSize

theorem EntriesShrink.exclusive {s s' : State} (shrink : EntriesShrink s s')
    (exclusive : BlocksExclusive s) : BlocksExclusive s' := by
  have sub : (usedBlocks s').Sublist (usedBlocks s) := by
    simp only [usedBlocks, allSuspendedSegments]
    exact (shrink.entries.flatMap _).flatMap _
  refine ⟨exclusive.once.sublist sub, fun b mem => ?_⟩
  rw [shrink.blockSize, shrink.totalSize]
  exact exclusive.inside b (sub.subset mem)

/-- Compaction changes nothing but the devices and the tables. -/
theorem compactLoop_frame (l : List HeapSegment) (cursor : UInt32) (s : State) :
    ∃ d ps, compactLoop l cursor s = { s with devices := d, listProcesses := ps } := by
  induction l generalizing cursor s with
  | nil => exact ⟨s.devices, s.listProcesses, rfl⟩
  | cons seg rest ih =>
      obtain ⟨d, ps, eq⟩ := ih (cursor + seg.size) (moveSegment s seg cursor)
      rw [compactLoop, eq]
      unfold moveSegment
      split
      · exact ⟨d, ps, rfl⟩
      · exact ⟨d, ps, rfl⟩

theorem segmentCreate_shrinks (s : State) (pid segmentId size : UInt32) :
    EntriesShrink s (segmentCreate s pid segmentId size).2 := by
  have in_hole : ∀ (s : State) (chosen : Hole),
      EntriesShrink s (segmentInHole s pid segmentId size chosen).2 := by
    intro s chosen
    unfold segmentInHole
    split <;> exact ⟨.refl _, rfl, rfl⟩
  obtain ⟨d, ps, compacted⟩ := compactLoop_frame (sortedSegments s) 0 s
  simp only [segmentCreate]
  split
  · exact ⟨.refl _, rfl, rfl⟩
  · split
    · exact in_hole s _
    · rw [compactMemory, compacted]
      split
      · exact ⟨.refl _, rfl, rfl⟩
      · rename_i chosen _
        have placed := in_hole { s with devices := d, listProcesses := ps } chosen
        exact ⟨placed.entries, placed.blockSize, placed.totalSize⟩

theorem segmentDelete_shrinks (s : State) (pid segmentId : UInt32) :
    EntriesShrink s (segmentDelete s pid segmentId).2 := by
  unfold segmentDelete
  split
  · exact ⟨.refl _, rfl, rfl⟩
  · split
    · exact ⟨.refl _, rfl, rfl⟩
    · split <;> exact ⟨.refl _, rfl, rfl⟩

theorem processDesuspend_shrinks (s : State) (pid : UInt32) :
    EntriesShrink s (processDesuspend s pid).2 := by
  unfold processDesuspend
  split
  · exact ⟨.refl _, rfl, rfl⟩
  · split
    · exact ⟨.refl _, rfl, rfl⟩
    · split
      · exact ⟨.refl _, rfl, rfl⟩
      · exact ⟨List.eraseP_sublist, rfl, rfl⟩

/-- No operation but a suspension adds an entry. -/
theorem step_shrinks {s s' : State} {op : Op} (other : ∀ pid, op ≠ .processSuspend pid)
    (taken : step s op = some s') : EntriesShrink s s' := by
  cases op with
  | processCreate pid instructions =>
      obtain rfl := Option.some.inj taken
      cases instructions <;> exact ⟨.refl _, rfl, rfl⟩
  | processEnd pid =>
      obtain rfl := Option.some.inj taken
      exact ⟨.refl _, rfl, rfl⟩
  | segmentCreate pid segmentId size =>
      obtain rfl := Option.some.inj taken
      exact segmentCreate_shrinks ..
  | segmentDelete pid segmentId =>
      obtain rfl := Option.some.inj taken
      exact segmentDelete_shrinks ..
  | processSuspend pid => exact absurd rfl (other pid)
  | processDesuspend pid =>
      obtain rfl := Option.some.inj taken
      exact processDesuspend_shrinks ..
  | connectStick id size =>
      obtain rfl := Option.some.inj taken
      exact ⟨.refl _, rfl, rfl⟩
  | ioMemoryWrite pid physicalAddress size rawData =>
      obtain rfl := Option.some.inj taken
      exact ⟨.refl _, rfl, rfl⟩

/-! ### Runs -/

/-- The condition on suspensions: if there are enough free blocks for each
segment of the process, at most one of them needs any. -/
def StoresApart (s : State) (pid : UInt32) : Prop :=
  ∀ pcb, findPcb s pid = some pcb →
    (∀ seg ∈ pcb.segmentTable, castInt (blocksNeeded s seg.size) ≤ (freeBlocks s).length) →
    StoresOne s pcb.segmentTable

instance (s : State) (pid : UInt32) : Decidable (StoresApart s pid) :=
  match h : findPcb s pid with
  | none => isTrue fun pcb found => by simp [h] at found
  | some pcb =>
      decidable_of_iff
        ((∀ seg ∈ pcb.segmentTable, castInt (blocksNeeded s seg.size) ≤ (freeBlocks s).length) →
          StoresOne s pcb.segmentTable)
        ⟨fun holds pcb' found => by
          obtain rfl := Option.some.inj (h.symm.trans found)
          exact holds, fun apart => apart pcb h⟩

/-- What an operation has to satisfy for the blocks to stay exclusive. -/
def Op.StoresApart (s : State) : Op → Prop
  | .processSuspend pid => KernelMemory.StoresApart s pid
  | _ => True

instance (s : State) : (op : Op) → Decidable (op.StoresApart s)
  | .processSuspend pid => inferInstanceAs (Decidable (KernelMemory.StoresApart s pid))
  | .processCreate .. | .processEnd _ | .segmentCreate .. | .segmentDelete ..
  | .processDesuspend _ | .connectStick .. | .ioMemoryWrite .. => .isTrue trivial

/-- One operation keeps the blocks exclusive. -/
theorem step_exclusive {s s' : State} {op : Op} (exclusive : BlocksExclusive s)
    (apart : op.StoresApart s) (taken : step s op = some s') : BlocksExclusive s' := by
  by_cases suspends : ∃ pid, op = .processSuspend pid
  · obtain ⟨pid, rfl⟩ := suspends
    obtain ⟨⟨ok, s''⟩, called, rfl⟩ := Option.map_eq_some_iff.mp taken
    obtain ⟨-, d, -, rfl⟩ | ⟨-, pcb, suspended, d, done⟩ := processSuspend_cases called
    · exact ⟨exclusive.once, exclusive.inside⟩
    · refine (done.exclusive_iff exclusive).mpr (apart pcb done.found fun seg mem => ?_)
      obtain ⟨ss, -, entry⟩ := exists_of_mem_forall₂ done.entries.flip mem
      have got := entry.blocks
      rw [getFreeSwapBlocks_eq] at got
      split at got
      · simp at got
      · omega
  · exact (step_shrinks (fun pid eq => suspends ⟨pid, eq⟩) taken).exclusive exclusive

section Reachable

variable {strategy : AllocationStrategy} {swapBlockSize swapTotalSize : UInt32}
  {swapFile : UInt32 → Nat → UInt8} {refusals : List Bool} {fresh : Nat → UInt8}

theorem initial_exclusive :
    BlocksExclusive (initial strategy swapBlockSize swapTotalSize swapFile refusals fresh) :=
  ⟨by simp [usedBlocks, allSuspendedSegments, initial],
    by simp [usedBlocks, allSuspendedSegments, initial]⟩

/-- **Swap block exclusivity**: in every state reached by operations whose
suspensions meet the condition, no block has two owners and every block is one
of the swap file. -/
theorem exclusive_of_run {ops : List Op} {s : State}
    (run : Run step (fun s op => op.StoresApart s)
      (initial strategy swapBlockSize swapTotalSize swapFile refusals fresh) ops s) :
    BlocksExclusive s :=
  run.invariant (fun exclusive apart taken => step_exclusive exclusive apart taken)
    initial_exclusive

end Reachable

/-- Two processes of one segment each, both suspended. -/
theorem exclusive_of_two : ∃ s, BlocksExclusive s ∧ usedBlocks s = [0, 1] := by
  obtain ⟨s, run, used⟩ := Run.exists_of_exec step (fun s op => op.StoresApart s)
    [.connectStick 0 4, .processCreate 1 (some []), .processCreate 2 (some []),
      .segmentCreate 1 0 1, .segmentCreate 2 0 1, .processSuspend 1, .processSuspend 2]
    (initial .worst 4 16 (fun _ _ => 0) [] fun _ => 0)
    (fun s => usedBlocks s == [0, 1]) (by decide)
  exact ⟨s, exclusive_of_run run, beq_iff_eq.mp used⟩

/-- Two segments of one process are stored in the same block. -/
theorem exclusive_lost : ∃ ops s,
    Run step (fun s op => op.Admissible s) (initial .worst 4 16 (fun _ _ => 0) [] fun _ => 0)
      ops s ∧ ¬ BlocksExclusive s := by
  obtain ⟨s, run, twice⟩ := Run.exists_of_exec step (fun s op => op.Admissible s)
    [.connectStick 0 4, .processCreate 1 (some []), .segmentCreate 1 0 1, .segmentCreate 1 1 2,
      .processSuspend 1]
    (initial .worst 4 16 (fun _ _ => 0) [] fun _ => 0)
    (fun s => ¬ (usedBlocks s).Nodup) (by decide)
  exact ⟨_, s, run, fun exclusive => (decide_eq_true_eq.mp twice) exclusive.once⟩

end OsModel.KernelMemory
