import OsModel.MemoryStick
import OsModel.Lib.Span

/-!
The state of Kernel Memory (`kernel_memory/src`): process table, suspended
processes, and the modules it reads and writes through their sockets.

Segments live on the heap and the lists hold pointers to them, so a segment
here carries its own address: compaction keeps pointers to segments while it
moves them.
-/

namespace OsModel.KernelMemory

open Lib

/-- A `t_segment` on Kernel Memory's heap, with its address. -/
structure HeapSegment extends Segment where
  ptr : Nat
  deriving DecidableEq, Repr

structure Pcb where
  pid : UInt32
  context : CpuContext
  instructions : List String
  segmentTable : List HeapSegment
  deriving DecidableEq, Repr

structure SuspendedSegment where
  segmentId : UInt32
  size : UInt32
  swapBlocks : List UInt32
  deriving DecidableEq, Repr

structure SuspendedPcb where
  pid : UInt32
  suspendedSegments : List SuspendedSegment
  deriving DecidableEq, Repr

/-- `t_segment_ready`; its `data` field is always `NULL`. -/
structure SegmentReady where
  segmentId : UInt32
  size : UInt32
  newBase : UInt32
  deriving DecidableEq, Repr

/-- `allocation_strategy`, as `select_hole` reads the configured string: every
string other than `BEST` is worst fit. -/
inductive AllocationStrategy where
  | best
  | worst
  deriving DecidableEq, Repr

/-- What Kernel Memory reaches through sockets and the allocator.

`swapFile b i` is byte `i` of swap block `b`, where SWAP seeks to for a request.
`refusals` says, request by request, which of the next `MS_WRITE` requests and
block reads come back as a failure (`true`); past its end every request succeeds.
`fresh` is what a newly allocated buffer contains. -/
structure Devices where
  listMemoryStick : List MemoryStick
  swapFile : UInt32 → Nat → UInt8
  refusals : List Bool
  fresh : Nat → UInt8

/-- The globals of Kernel Memory. `nextPtr` is the allocator: addresses at or
above it are unused. -/
structure State where
  devices : Devices
  totalMemorySize : UInt32
  allocationStrategy : AllocationStrategy
  swapBlockSize : UInt32
  swapTotalSize : UInt32
  listProcesses : List Pcb
  listSuspendedProcesses : List SuspendedPcb
  nextPtr : Nat

/-! ### Looking processes up -/

/-- `list_find(list_processes, find_by_pid)`. -/
def findPcb (s : State) (pid : UInt32) : Option Pcb :=
  s.listProcesses.find? fun pcb => pcb.pid == pid

/-- A write through the pointer `findPcb` returns. -/
def updatePcb (s : State) (pid : UInt32) (f : Pcb → Pcb) : State :=
  { s with listProcesses := updateFirst (fun pcb => pcb.pid == pid) f s.listProcesses }

/-- `list_find(list_suspended_processes, find_suspended_by_pid)`. -/
def findSuspended (s : State) (pid : UInt32) : Option SuspendedPcb :=
  s.listSuspendedProcesses.find? fun sp => sp.pid == pid

/-- All segments of all segment tables, in the order of the lists. -/
def allSegments (s : State) : List HeapSegment :=
  s.listProcesses.flatMap Pcb.segmentTable

/-- All suspended segments of all entries of `list_suspended_processes`. -/
def allSuspendedSegments (s : State) : List SuspendedSegment :=
  s.listSuspendedProcesses.flatMap SuspendedPcb.suspendedSegments

/-- The interval a segment occupies. -/
def HeapSegment.span (seg : HeapSegment) : Span := ⟨seg.base.toNat, seg.size.toNat⟩

/-! ### Memory sticks as one address space -/

/-- The bytes of the sticks, one after another. -/
def flat (sticks : List MemoryStick) : List UInt8 := sticks.flatMap MemoryStick.memory

/-- The sum of the stick sizes. -/
def stickTotal (sticks : List MemoryStick) : Nat := (sticks.map fun ms => ms.size.toNat).sum

theorem length_flat (sticks : List MemoryStick) : (flat sticks).length = stickTotal sticks := by
  induction sticks with
  | nil => rfl
  | cons ms rest ih =>
      simp only [flat, stickTotal, List.flatMap_cons, List.length_append, List.map_cons,
        List.sum_cons, ms.length_memory] at *
      rw [ih]

@[simp] theorem stickTotal_cons (ms : MemoryStick) (rest : List MemoryStick) :
    stickTotal (ms :: rest) = ms.size.toNat + stickTotal rest := by
  simp [stickTotal]

@[simp] theorem stickTotal_append (a b : List MemoryStick) :
    stickTotal (a ++ b) = stickTotal a + stickTotal b := by
  simp [stickTotal]

@[simp] theorem flat_append (a b : List MemoryStick) : flat (a ++ b) = flat a ++ flat b := by
  simp [flat]

@[simp] theorem flat_cons (ms : MemoryStick) (rest : List MemoryStick) :
    flat (ms :: rest) = ms.memory ++ flat rest := by
  simp [flat]

/-- The bytes a resident segment holds. -/
def segmentBytes (s : State) (seg : HeapSegment) : List UInt8 :=
  slice (flat s.devices.listMemoryStick) seg.base.toNat seg.size.toNat

end OsModel.KernelMemory
