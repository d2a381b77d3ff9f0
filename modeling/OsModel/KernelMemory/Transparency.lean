import OsModel.KernelMemory.LayoutRuns
import OsModel.KernelMemory.SwapBlocks

/-!
Suspension as seen by the process: what it finds in memory after it comes back.

`suspension_transparent` is the round trip through swap of a process of at most
one segment, with arbitrary operations on other processes in between. Its
invariant is `Away`: the entry of the process keeps its blocks in use, so no
other suspension is given them. With two segments the round trip fails
(`suspension_overwrites`), since both are written to the same blocks.
-/

namespace OsModel.KernelMemory

open Lib Span

/-- What a process has in memory: its segments with their identities, sizes and
bytes. -/
def processView (s : State) (pid : UInt32) : Option (List (UInt32 × UInt32 × List UInt8)) :=
  (findPcb s pid).map fun pcb =>
    pcb.segmentTable.map fun seg => (seg.segmentId, seg.size, segmentBytes s seg)

/-- The segments and swap blocks of every other process, with their bytes, are
as before. -/
structure KeepsOthers (pid : UInt32) (s s' : State) : Prop where
  tables : s'.listProcesses.filter (fun pcb => !(pcb.pid == pid)) =
    s.listProcesses.filter fun pcb => !(pcb.pid == pid)
  entries : s'.listSuspendedProcesses.filter (fun sp => !(sp.pid == pid)) =
    s.listSuspendedProcesses.filter fun sp => !(sp.pid == pid)
  resident : ∀ pcb ∈ s.listProcesses, pcb.pid ≠ pid →
    ∀ seg ∈ pcb.segmentTable, segmentBytes s' seg = segmentBytes s seg
  swapped : ∀ sp ∈ s.listSuspendedProcesses, sp.pid ≠ pid →
    ∀ ss ∈ sp.suspendedSegments, ∀ b ∈ ss.swapBlocks,
      s'.devices.swapFile b = s.devices.swapFile b

/-- The condition under which a suspension keeps what it stores: the process has
at most one segment, whose size in blocks wraps neither in 32 bits nor as an
`int`, and no entry from an earlier suspension. -/
structure Storable (s : State) (pid : UInt32) : Prop where
  newEntry : findSuspended s pid = none
  single : ∀ pcb, findPcb s pid = some pcb → pcb.segmentTable.length ≤ 1
  small : ∀ pcb, findPcb s pid = some pcb → ∀ seg ∈ pcb.segmentTable,
    seg.size.toNat + s.swapBlockSize.toNat ≤ 2 ^ 32 ∧ (blocksNeeded s seg.size).toNat < 2 ^ 31

/-- The process an operation is about. -/
def Op.pid : Op → Option UInt32
  | .processCreate pid _ | .processEnd pid | .segmentCreate pid _ _ | .segmentDelete pid _
  | .processSuspend pid | .processDesuspend pid | .ioMemoryWrite pid _ _ _ => some pid
  | .connectStick _ _ => none

/-- The guard of the operations between suspension and resumption. -/
def Op.OnOthers (pid : UInt32) (s : State) (op : Op) : Prop := op.Placing s ∧ op.pid ≠ some pid

instance (pid : UInt32) (s : State) (op : Op) : Decidable (op.OnOthers pid s) := by
  unfold Op.OnOthers
  infer_instance

/-! ### The table of one process -/

section Table

variable {s : State} {pid other : UInt32} {f : Pcb → Pcb}

theorem filter_updatePcb (keeps : ∀ pcb, (f pcb).pid = pcb.pid) :
    (updatePcb s pid f).listProcesses.filter (fun pcb => !(pcb.pid == pid)) =
      s.listProcesses.filter fun pcb => !(pcb.pid == pid) :=
  filter_updateFirst (fun pcb => by rw [keeps]) _

end Table

/-! ### Frames of the two operations -/

section Frames

variable {s s' : State} {pid : UInt32} {pcb : Pcb} {d : Devices}

/-- A successful suspension touches no other process. -/
theorem Suspended.keepsOthers {suspended : List SuspendedSegment}
    (done : Suspended s pid pcb suspended d s') : KeepsOthers pid s s' := by
  obtain ⟨-, -, -, only, rfl⟩ := done
  refine ⟨?_, ?_, fun _ _ _ seg _ => ?_, fun sp among _ ss hss b hb => ?_⟩
  · exact filter_updatePcb (f := fun pcb => { pcb with segmentTable := [] }) fun _ => rfl
  · simp
  · simp only [segmentBytes, updatePcb, only.sticks]
  · exact only.used b (List.mem_flatMap.mpr ⟨ss, List.mem_flatMap.mpr ⟨sp, among, hss⟩, hb⟩)

/-- A successful resumption touches no other process. -/
theorem Desuspended.keepsOthers {sp : SuspendedPcb} {ready : List SegmentReady} (sound : Sound s)
    (done : Desuspended s pid sp pcb ready d s') : KeepsOthers pid s s' := by
  obtain ⟨-, -, -, -, only, rfl⟩ := done
  refine ⟨?_, ?_, fun pcb among _ seg hseg => ?_, fun sp _ _ ss _ b _ => ?_⟩
  · exact filter_updatePcb (f := fun pcb =>
      { pcb with segmentTable := pcb.segmentTable ++ allocSegments s.nextPtr ready }) fun _ => rfl
  · exact filter_eraseP_other (fun _ here => by simp [here]) _
  · exact only.resident sound (List.mem_flatMap.mpr ⟨pcb, among, hseg⟩)
  · simp only [addSegments, updatePcb, only.swapFile]

end Frames

/-! ### While the process is away -/

/-- A suspended process: its table is empty, its entry is the first of its pid
and the blocks of the entry hold what was stored in them. -/
structure Away (pid : UInt32) (sp : SuspendedPcb) (swapBlockSize : UInt32)
    (stored : UInt32 → Nat → UInt8) (s : State) : Prop where
  sound : Sound s
  table : (findPcb s pid).map Pcb.segmentTable = some []
  entry : findSuspended s pid = some sp
  blocks : ∀ ss ∈ sp.suspendedSegments, ∀ b ∈ ss.swapBlocks, s.devices.swapFile b = stored b
  blockSize : s.swapBlockSize = swapBlockSize

section Interim

variable {s s' : State} {pid other : UInt32}

/-- Compaction leaves an empty table empty. -/
theorem compactMemory_table (empty : (findPcb s pid).map Pcb.segmentTable = some [])
    {ps : List Pcb} {f : HeapSegment → HeapSegment} (moved : ps = s.listProcesses.map (mapTable f)) :
    (ps.find? fun pcb => pcb.pid == pid).map Pcb.segmentTable = some [] := by
  have found : (ps.find? fun pcb => pcb.pid == pid) = (findPcb s pid).map (mapTable f) := by
    rw [moved, List.find?_map]
    rfl
  rw [found, Option.map_map]
  obtain ⟨pcb, here, table⟩ := Option.map_eq_some_iff.mp empty
  simp [here, mapTable, table]

/-- What an operation on other processes may do while one is away. -/
structure Leaves (pid : UInt32) (s s' : State) : Prop where
  table : (findPcb s pid).map Pcb.segmentTable = some [] →
    (findPcb s' pid).map Pcb.segmentTable = some []
  entry : ∀ sp, findSuspended s pid = some sp → findSuspended s' pid = some sp
  blocks : ∀ b ∈ usedBlocks s, s'.devices.swapFile b = s.devices.swapFile b
  blockSize : s'.swapBlockSize = s.swapBlockSize

theorem Leaves.trans {s'' : State} (h : Leaves pid s s') (h' : Leaves pid s' s'')
    (same : usedBlocks s' = usedBlocks s) : Leaves pid s s'' where
  table empty := h'.table (h.table empty)
  entry sp found := h'.entry sp (h.entry sp found)
  blocks b used := (h'.blocks b (same ▸ used)).trans (h.blocks b used)
  blockSize := h'.blockSize.trans h.blockSize

theorem compactMemory_leaves (pid : UInt32) (sound : Sound s) :
    Leaves pid s (compactMemory s) ∧ usedBlocks (compactMemory s) = usedBlocks s := by
  obtain ⟨d, eq, -, swapFile, -⟩ := compactMemory_spec sound
  rw [eq]
  refine ⟨⟨fun empty => ?_, fun sp found => found, fun b _ => by rw [swapFile], rfl⟩, rfl⟩
  exact compactMemory_table empty rfl

theorem segmentCreate_leaves {segmentId size : UInt32} (sound : Sound s) (ne : other ≠ pid) :
    Leaves pid s (segmentCreate s other segmentId size).2 := by
  have in_hole : ∀ (s : State) (chosen : Hole),
      Leaves pid s (segmentInHole s other segmentId size chosen).2 := by
    intro s chosen
    unfold segmentInHole
    split
    · exact ⟨fun empty => empty, fun _ found => found, fun _ _ => rfl, rfl⟩
    · refine ⟨fun empty => ?_, fun _ found => found, fun _ _ => rfl, rfl⟩
      rw [addSegments, findPcb_updatePcb_other ?_ ne]
      · exact empty
      · exact fun _ => rfl
  obtain ⟨compacts, same⟩ := compactMemory_leaves pid sound
  simp only [segmentCreate]
  split
  · exact ⟨fun empty => empty, fun _ found => found, fun _ _ => rfl, rfl⟩
  · split
    · exact in_hole s _
    · split
      · exact compacts
      · exact compacts.trans (in_hole _ _) same

theorem segmentDelete_leaves {segmentId : UInt32} (ne : other ≠ pid) :
    Leaves pid s (segmentDelete s other segmentId).2 := by
  unfold segmentDelete
  split
  · exact ⟨fun empty => empty, fun _ found => found, fun _ _ => rfl, rfl⟩
  · split
    · exact ⟨fun empty => empty, fun _ found => found, fun _ _ => rfl, rfl⟩
    · split
      · exact ⟨fun empty => empty, fun _ found => found, fun _ _ => rfl, rfl⟩
      · refine ⟨fun empty => ?_, fun _ found => found, fun _ _ => rfl, rfl⟩
        rw [findPcb_updatePcb_other ?_ ne]
        · exact empty
        · exact fun _ => rfl

theorem processCreate_leaves {instructions : Option (List String)} :
    Leaves pid s (processCreate s other instructions) := by
  cases instructions with
  | none => exact ⟨fun empty => empty, fun _ found => found, fun _ _ => rfl, rfl⟩
  | some instructions =>
      refine ⟨fun empty => ?_, fun _ found => found, fun _ _ => rfl, rfl⟩
      obtain ⟨pcb, here, table⟩ := Option.map_eq_some_iff.mp empty
      simp only [findPcb] at here
      simp [findPcb, processCreate, List.find?_append, here, table]

theorem processEnd_leaves (ne : other ≠ pid) : Leaves pid s (processEnd s other) := by
  refine ⟨fun empty => ?_, fun _ found => found, fun _ _ => rfl, rfl⟩
  have same : findPcb (processEnd s other) pid = findPcb s pid := by
    refine find?_eraseP_other (fun pcb here => ?_) _
    rw [beq_iff_eq] at here
    rw [beq_eq_false_iff_ne, here]
    exact ne
  rw [same]
  exact empty

theorem processSuspend_leaves {ok : Bool} (ne : other ≠ pid)
    (called : processSuspend s other = some (ok, s')) : Leaves pid s s' := by
  obtain ⟨-, d, only, rfl⟩ | ⟨-, pcb, suspended, d, done⟩ := processSuspend_cases called
  · exact ⟨fun empty => empty, fun _ found => found, only.used, rfl⟩
  · obtain ⟨-, -, -, only, rfl⟩ := done
    refine ⟨fun empty => ?_, fun sp found => ?_, only.used, rfl⟩
    · have same := findPcb_updatePcb_other (s := { s with devices := d })
        (f := fun pcb => { pcb with segmentTable := [] }) (fun _ => rfl) ne
      exact (congrArg (Option.map Pcb.segmentTable) same).trans empty
    · simp only [findSuspended] at found
      simp [findSuspended, List.find?_append, found]

theorem processDesuspend_leaves {ok : Bool} (sound : Sound s) (ne : other ≠ pid)
    (called : processDesuspend s other = (ok, s')) : Leaves pid s s' := by
  obtain ⟨-, d, only, rfl⟩ | ⟨-, sp, pcb, ready, d, done⟩ := processDesuspend_cases sound called
  · exact ⟨fun empty => empty, fun _ found => found, fun _ _ => by rw [only.swapFile], rfl⟩
  · obtain ⟨-, -, -, -, only, rfl⟩ := done
    refine ⟨fun empty => ?_, fun sp found => ?_, fun b _ => ?_, rfl⟩
    · have same := findPcb_updatePcb_other
        (s := { s with devices := d, nextPtr := s.nextPtr + ready.length })
        (f := fun pcb =>
          { pcb with segmentTable := pcb.segmentTable ++ allocSegments s.nextPtr ready })
        (fun _ => rfl) ne
      exact (congrArg (Option.map Pcb.segmentTable) same).trans empty
    · refine (find?_eraseP_other (fun sp here => ?_) _).trans found
      rw [beq_iff_eq] at here
      rw [beq_eq_false_iff_ne, here]
      exact ne
    · exact congrFun only.swapFile b

/-- An operation on another process leaves a suspended one alone. -/
theorem step_leaves {op : Op} (sound : Sound s) (other : op.pid ≠ some pid)
    (taken : step s op = some s') : Leaves pid s s' := by
  cases op with
  | processCreate pid' instructions =>
      obtain rfl := Option.some.inj taken
      exact processCreate_leaves
  | processEnd pid' =>
      obtain rfl := Option.some.inj taken
      exact processEnd_leaves fun eq => other (congrArg some eq)
  | segmentCreate pid' segmentId size =>
      obtain rfl := Option.some.inj taken
      exact segmentCreate_leaves sound fun eq => other (congrArg some eq)
  | segmentDelete pid' segmentId =>
      obtain rfl := Option.some.inj taken
      exact segmentDelete_leaves fun eq => other (congrArg some eq)
  | processSuspend pid' =>
      obtain ⟨⟨ok, s''⟩, called, rfl⟩ := Option.map_eq_some_iff.mp taken
      exact processSuspend_leaves (fun eq => other (congrArg some eq)) called
  | processDesuspend pid' =>
      obtain rfl := Option.some.inj taken
      exact processDesuspend_leaves sound (fun eq => other (congrArg some eq))
        (Prod.mk.eta (p := processDesuspend s pid')).symm
  | connectStick id size =>
      obtain rfl := Option.some.inj taken
      exact ⟨fun empty => empty, fun _ found => found, fun _ _ => rfl, rfl⟩
  | ioMemoryWrite pid' physicalAddress size rawData =>
      obtain rfl := Option.some.inj taken
      have wrote := (memoryWrite_spec s.devices physicalAddress sound.fits
        (length_paddedData size rawData)).1
      exact ⟨fun empty => empty, fun _ found => found,
        fun b _ => congrFun wrote.swapFile_eq b, rfl⟩

/-- An operation on others leaves a suspended process where it is. -/
theorem Away.step {sp : SuspendedPcb} {swapBlockSize : UInt32} {stored : UInt32 → Nat → UInt8}
    {op : Op} (away : Away pid sp swapBlockSize stored s) (guard : op.OnOthers pid s)
    (taken : step s op = some s') : Away pid sp swapBlockSize stored s' := by
  obtain ⟨⟨admissible, separated⟩, other⟩ := guard
  obtain ⟨table, entry, blocks, blockSize⟩ := step_leaves away.sound other taken
  refine ⟨step_sound away.sound admissible separated taken, table away.table,
    entry sp away.entry, fun ss hss b hb => ?_, blockSize.trans away.blockSize⟩
  rw [blocks b ?_]
  · exact away.blocks ss hss b hb
  · exact List.mem_flatMap.mpr ⟨ss, List.mem_flatMap.mpr
      ⟨sp, List.mem_of_find?_eq_some away.entry, hss⟩, hb⟩

end Interim

/-! ### The round trip -/

section RoundTrip

variable {s s₁ s₂ s₃ : State} {pid : UInt32} {pcb : Pcb}

/-- A segment read from swap is the one that was stored, as long as its blocks
were left alone. -/
theorem read_suspended {seg : HeapSegment} {ss : SuspendedSegment} {d d' e : Devices}
    {data : List UInt8} (positive : 0 < s.swapBlockSize)
    (total : stickTotal d.listMemoryStick < 2 ^ 32)
    (inside : seg.span.stop ≤ stickTotal d.listMemoryStick)
    (fits : seg.size.toNat + s.swapBlockSize.toNat ≤ 2 ^ 32)
    (small : (blocksNeeded s seg.size).toNat < 2 ^ 31)
    (stored : suspendSegment s seg.toSegment d = (some ss, d'))
    (kept : ∀ b ∈ ss.swapBlocks, e.swapFile b = d'.swapFile b)
    (read : (readSegmentFromSwap s.swapBlockSize ss e).1 = some data) :
    data = slice (flat d.listMemoryStick) seg.base.toNat seg.size.toNat := by
  have entry : Suspends s seg ss :=
    (suspendSegment_spec s seg d).2 ss (by rw [stored])
  have swapFile := (suspendSegment_stored total stored).2
  have length_eq : (slice (flat d.listMemoryStick) seg.base.toNat seg.size.toNat).length =
      seg.size.toNat := length_slice (by rw [length_flat]; exact inside)
  unfold readSegmentFromSwap at read
  split at read
  · simp at read
  · rename_i whole e'' looped
    rw [entry.size] at looped
    have result := readSegmentLoop_writeSegmentLoop d.swapFile fits length_eq
      (getFreeSwapBlocks_spec entry.blocks).1 (covers_blocksNeeded positive fits small entry.blocks)
      (fun b mem => by rw [kept b mem, swapFile]) looped
    simp only [UInt32.toNat_zero, Nat.sub_zero, List.nil_append] at result
    rw [slice_slice (by omega), Nat.add_zero] at result
    rw [result, entry.size, length_eq, Nat.sub_self] at read
    obtain rfl := Option.some.inj read
    simp [List.take_of_length_le length_eq.le]

/-- A process that was just suspended. -/
theorem Suspended.away {suspended : List SuspendedSegment} {d : Devices} (sound : Sound s)
    (newEntry : findSuspended s pid = none) (done : Suspended s pid pcb suspended d s₁)
    (called : processSuspend s pid = some (true, s₁)) :
    Away pid ⟨pid, suspended⟩ s.swapBlockSize s₁.devices.swapFile s₁ := by
  refine ⟨processSuspend_sound sound called, ?_, ?_, fun _ _ _ _ => rfl, ?_⟩
  · have here := findPcb_updatePcb_self { s with devices := d } pid
      (f := fun pcb => { pcb with segmentTable := [] }) fun _ => rfl
    rw [done.result]
    refine (congrArg (Option.map Pcb.segmentTable) here).trans ?_
    have found : findPcb { s with devices := d } pid = some pcb := done.found
    rw [found]
    rfl
  · rw [done.result]
    simp only [findSuspended] at newEntry
    simp [findSuspended, List.find?_append, newEntry]
  · rw [done.result]
    rfl

/-- What a process finds after a resumption that brought back `ready`. -/
theorem Desuspended.processView {sp : SuspendedPcb} {ready : List SegmentReady} {d : Devices}
    (done : Desuspended s₂ pid sp pcb ready d s₃) (empty : pcb.segmentTable = []) :
    processView s₃ pid = some (ready.map fun sr =>
      (sr.segmentId, sr.size, slice (flat d.listMemoryStick) sr.newBase.toNat sr.size.toNat)) := by
  have views : ∀ (ptr : Nat) (ready : List SegmentReady),
      (allocSegments ptr ready).map (fun seg => (seg.segmentId, seg.size,
        slice (flat d.listMemoryStick) seg.base.toNat seg.size.toNat)) =
      ready.map fun sr => (sr.segmentId, sr.size,
        slice (flat d.listMemoryStick) sr.newBase.toNat sr.size.toNat) := by
    intro ptr ready
    induction ready generalizing ptr with
    | nil => rfl
    | cons sr rest ih => rw [allocSegments, List.map_cons, List.map_cons, ih]
  have here := findPcb_updatePcb_self
    { s₂ with devices := d, nextPtr := s₂.nextPtr + ready.length } pid
    (f := fun pcb => { pcb with segmentTable := pcb.segmentTable ++ allocSegments s₂.nextPtr ready })
    fun _ => rfl
  have found : findPcb s₃ pid =
      some { pcb with segmentTable := allocSegments s₂.nextPtr ready } := by
    rw [done.result]
    refine here.trans ?_
    have before : findPcb { s₂ with devices := d, nextPtr := s₂.nextPtr + ready.length } pid =
        some pcb := done.found
    rw [before, Option.map_some, empty, List.nil_append]
  rw [KernelMemory.processView, found, Option.map_some, ← views s₂.nextPtr]
  simp only [segmentBytes, done.result]
  rfl

theorem suspendLoop_singleton {seg : HeapSegment} {entries : List SuspendedSegment}
    {d d' : Devices} (loop : suspendLoop s [seg] d = (some entries, d')) :
    ∃ ss, entries = [ss] ∧ suspendSegment s seg.toSegment d = (some ss, d') := by
  simp only [suspendLoop] at loop
  split at loop
  · simp at loop
  · rename_i ss d'' stored
    obtain ⟨eq, rfl⟩ := Prod.mk.inj loop
    exact ⟨ss, (Option.some.inj eq).symm, stored⟩

theorem desuspendLoop_singleton {ss : SuspendedSegment} {ready : List SegmentReady}
    {d d' : Devices} (loop : desuspendLoop s [ss] d = (some ready, d')) :
    ∃ sr, ready = [sr] ∧ desuspendSegment s ss d = (some sr, d') := by
  simp only [desuspendLoop] at loop
  split at loop
  · simp at loop
  · rename_i sr d'' placed
    obtain ⟨eq, rfl⟩ := Prod.mk.inj loop
    exact ⟨sr, (Option.some.inj eq).symm, placed⟩

/-- The process is away with what it had in memory: `view`. -/
def Stored (pid : UInt32) (view : List (UInt32 × UInt32 × List UInt8)) (s : State) : Prop :=
  ∃ before pcb entries d after, Sound before ∧ 0 < before.swapBlockSize ∧ Storable before pid ∧
    Suspended before pid pcb entries d after ∧ KernelMemory.processView before pid = some view ∧
    Away pid ⟨pid, entries⟩ before.swapBlockSize after.devices.swapFile s

variable {view : List (UInt32 × UInt32 × List UInt8)}

/-- A suspension stores what the process has in memory. -/
theorem Suspended.stored {entries : List SuspendedSegment} {d : Devices} (sound : Sound s)
    (positive : 0 < s.swapBlockSize) (storable : Storable s pid)
    (left : Suspended s pid pcb entries d s₁) (had : KernelMemory.processView s pid = some view)
    (called : processSuspend s pid = some (true, s₁)) : Stored pid view s₁ :=
  ⟨s, pcb, entries, d, s₁, sound, positive, storable, left, had,
    left.away sound storable.newEntry called⟩

theorem Stored.sound (stored : Stored pid view s) : Sound s := by
  obtain ⟨_, _, _, _, _, -, -, -, -, -, away⟩ := stored
  exact away.sound

/-- It stays stored while others run. -/
theorem Stored.step {op : Op} (stored : Stored pid view s) (guard : op.OnOthers pid s)
    (taken : step s op = some s') : Stored pid view s' := by
  obtain ⟨before, pcb, entries, d, after, sound, positive, storable, left, had, away⟩ := stored
  exact ⟨before, pcb, entries, d, after, sound, positive, storable, left, had,
    away.step guard taken⟩

/-- A resumption that succeeds brings back what was stored. -/
theorem Stored.resumed (stored : Stored pid view s₂)
    (resumed : processDesuspend s₂ pid = (true, s₃)) :
    KernelMemory.processView s₃ pid = some view := by
  obtain ⟨s, pcb, entries, d, s₁, sound, positive, storable, left, had, away⟩ := stored
  obtain ⟨ff, -⟩ | ⟨-, sp, pcb', ready, d', back⟩ := processDesuspend_cases away.sound resumed
  · simp at ff
  obtain rfl : sp = ⟨pid, entries⟩ := Option.some.inj (back.suspended.symm.trans away.entry)
  have empty : pcb'.segmentTable = [] := by
    have := away.table
    rw [back.found] at this
    exact Option.some.inj this
  have loop := left.loop
  have loop' := back.loop
  rw [back.processView empty, ← had, KernelMemory.processView, left.found, Option.map_some]
  match table : pcb.segmentTable, storable.single pcb left.found with
  | [], _ =>
      rw [table] at loop
      obtain ⟨rfl, -⟩ : entries = [] ∧ _ := by simpa [suspendLoop, eq_comm] using loop
      obtain ⟨rfl, -⟩ : ready = [] ∧ _ := by simpa [desuspendLoop, eq_comm] using loop'
      rfl
  | [seg], _ =>
      have mem : seg ∈ pcb.segmentTable := by simp [table]
      have resident : seg ∈ allSegments s :=
        List.mem_flatMap.mpr ⟨pcb, List.mem_of_find?_eq_some left.found, mem⟩
      obtain ⟨fits, small⟩ := storable.small pcb left.found seg mem
      rw [table] at loop
      obtain ⟨ss, rfl, stored⟩ := suspendLoop_singleton loop
      obtain ⟨sr, rfl, placed⟩ := desuspendLoop_singleton loop'
      have entry := (suspendSegment_spec s seg s.devices).2 ss (by rw [stored])
      obtain ⟨place, data, read, bytes⟩ :=
        (desuspendSegment_spec away.sound ss away.sound.total.symm).2 sr (by rw [placed])
      simp only [placed] at bytes
      have kept : ∀ b ∈ ss.swapBlocks, s₂.devices.swapFile b = d.swapFile b := by
        intro b hb
        rw [away.blocks ss List.mem_cons_self b hb, left.result]
        rfl
      rw [away.blockSize] at read
      have whole := read_suspended positive sound.fits
        (sound.total ▸ sound.placed.inside seg resident) fits small stored kept read
      have returned := bytes.trans whole
      rw [place.size, entry.size] at returned
      simp only [List.map_cons, List.map_nil, place.segmentId, place.size, entry.segmentId,
        entry.size, returned, segmentBytes]

/-- **Suspension is transparent** for a process of at most one segment: after
any operations on other processes, the process has its segment back with its
bytes, and neither operation touched another process. -/
theorem suspension_transparent {ops : List Op} (sound : Sound s) (positive : 0 < s.swapBlockSize)
    (storable : Storable s pid) (suspended : processSuspend s pid = some (true, s₁))
    (run : Run step (fun s op => op.OnOthers pid s) s₁ ops s₂)
    (resumed : processDesuspend s₂ pid = (true, s₃)) :
    processView s₃ pid = processView s pid ∧ KeepsOthers pid s s₁ ∧ KeepsOthers pid s₂ s₃ := by
  obtain ⟨ff, -⟩ | ⟨-, pcb, entries, d, left⟩ := processSuspend_cases suspended
  · simp at ff
  obtain ⟨view, had⟩ : ∃ view, KernelMemory.processView s pid = some view := by
    rw [KernelMemory.processView, left.found]
    exact ⟨_, rfl⟩
  have stored := run.invariant (fun stored guard taken => Stored.step stored guard taken)
    (left.stored sound positive storable had suspended)
  refine ⟨(stored.resumed resumed).trans had.symm, left.keepsOthers, ?_⟩
  obtain ⟨ff, -⟩ | ⟨-, sp, pcb', ready, d', back⟩ := processDesuspend_cases stored.sound resumed
  · simp at ff
  exact back.keepsOthers stored.sound

end RoundTrip

instance (s : State) (pid : UInt32) : Decidable (Storable s pid) :=
  decidable_of_iff (findSuspended s pid = none ∧
      ∀ pcb ∈ findPcb s pid, pcb.segmentTable.length ≤ 1 ∧ ∀ seg ∈ pcb.segmentTable,
        seg.size.toNat + s.swapBlockSize.toNat ≤ 2 ^ 32 ∧
          (blocksNeeded s seg.size).toNat < 2 ^ 31)
    ⟨fun ⟨newEntry, rest⟩ => ⟨newEntry, fun pcb found => (rest pcb found).1,
      fun pcb found => (rest pcb found).2⟩,
    fun ⟨newEntry, single, small⟩ =>
      ⟨newEntry, fun pcb found => ⟨single pcb found, small pcb found⟩⟩⟩

/-- Suspension, some operations on others, and resumption, when all succeed. -/
def roundTrip (pid : UInt32) (ops : List Op) (s : State) : Option State :=
  match processSuspend s pid with
  | some (true, s₁) =>
      (exec step (fun s op => op.OnOthers pid s) ops s₁).bind fun s₂ =>
        match processDesuspend s₂ pid with
        | (true, s₃) => some s₃
        | (false, _) => none
  | _ => none

theorem roundTrip_spec {pid : UInt32} {ops : List Op} {s s₃ : State}
    (completed : roundTrip pid ops s = some s₃) :
    ∃ s₁ s₂, processSuspend s pid = some (true, s₁) ∧
      Run step (fun s op => op.OnOthers pid s) s₁ ops s₂ ∧
      processDesuspend s₂ pid = (true, s₃) := by
  unfold roundTrip at completed
  split at completed
  · rename_i s₁ suspended
    obtain ⟨s₂, computed, rest⟩ := Option.bind_eq_some_iff.mp completed
    split at rest
    · rename_i s₃' resumed
      obtain rfl := Option.some.inj rest
      exact ⟨s₁, s₂, suspended, .of_exec computed, resumed⟩
    · simp at rest
  · simp at completed

/-- A process of one segment, whose place another process takes meanwhile. -/
theorem transparent_of_one : ∃ s₃, processView s₃ 1 = some [(0, 2, [7, 9])] := by
  obtain ⟨s, run, test⟩ := Run.exists_of_exec step (fun s op => op.Placing s)
    [.connectStick 0 8, .processCreate 1 (some []), .processCreate 2 (some []),
      .segmentCreate 1 0 2, .ioMemoryWrite 1 0 2 [7, 9]]
    (initial .worst 4 16 (fun _ _ => 0) [] fun _ => 0)
    (fun s => 0 < s.swapBlockSize ∧ Storable s 1 ∧
      processView s 1 = some [(0, 2, [7, 9])] ∧
      (roundTrip 1 [.segmentCreate 2 0 3, .processSuspend 2] s).isSome) (by decide)
  obtain ⟨positive, storable, view, completed⟩ := decide_eq_true_eq.mp test
  obtain ⟨s₃, eq⟩ := Option.isSome_iff_exists.mp completed
  obtain ⟨s₁, s₂, suspended, others, resumed⟩ := roundTrip_spec eq
  refine ⟨s₃, ?_⟩
  rw [← view]
  exact (suspension_transparent (sound_of_run (initial_sound ..) run) positive storable suspended
    others resumed).1

/-- A process of two segments comes back with the bytes of the second one in the
first, even where the two are given different holes. -/
theorem suspension_overwrites : ∃ ops s s₁ s₃,
    Run step (fun s op => op.Placing s) (initial .best 4 16 (fun _ _ => 0) [] fun _ => 0) ops s ∧
      processSuspend s 1 = some (true, s₁) ∧ processDesuspend s₁ 1 = (true, s₃) ∧
      processView s 1 = some [(0, 1, [7]), (1, 2, [8, 9])] ∧
      processView s₃ 1 = some [(0, 1, [8]), (1, 2, [8, 9])] := by
  obtain ⟨s, run, test⟩ := Run.exists_of_exec step (fun s op => op.Placing s)
    [.connectStick 0 8, .processCreate 1 (some []), .processCreate 2 (some []),
      .segmentCreate 1 0 1, .segmentCreate 2 0 1, .segmentCreate 1 1 2,
      .ioMemoryWrite 1 0 1 [7], .ioMemoryWrite 1 2 2 [8, 9]]
    (initial .best 4 16 (fun _ _ => 0) [] fun _ => 0)
    (fun s => processView s 1 = some [(0, 1, [7]), (1, 2, [8, 9])] ∧
      (roundTrip 1 [] s).any fun s₃ => processView s₃ 1 = some [(0, 1, [8]), (1, 2, [8, 9])])
    (by decide)
  obtain ⟨view, completed⟩ := decide_eq_true_eq.mp test
  obtain ⟨s₃, eq, view₃⟩ := (Option.any_eq_true _ _).mp completed
  obtain ⟨s₁, s₂, suspended, others, resumed⟩ := roundTrip_spec eq
  obtain rfl := others.eq_of_nil
  exact ⟨_, s, s₂, s₃, run, suspended, resumed, view, decide_eq_true_eq.mp view₃⟩

end OsModel.KernelMemory
