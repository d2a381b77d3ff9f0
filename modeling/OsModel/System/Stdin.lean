import OsModel.Cpu.Mmu
import OsModel.KernelMemory.CpuHandler
import OsModel.KernelMemory.Relocation

/-!
A `STDIN` request on its way from the CPU to Kernel Memory.

The CPU translates the address with the segment table it was sent when the process
was dispatched, and the physical address travels from there: in the syscall, in
`pending_io_stdin_reading` until an IO device answers, and in `IO_MEMORY_WRITE`.
Meanwhile Kernel Memory goes on with the other processes, and may suspend this one.

A process is in one place at a time: this model dispatches only what has stopped,
and a process that waits for Kernel Memory or for a device has.
-/

namespace OsModel.Stdin

open Lib KernelMemory

/-- `t_pending_stdin`, with the logical address of the instruction, which the
source does not keep. -/
structure PendingStdin where
  pid : UInt32
  physicalAddress : UInt32
  size : UInt32
  logicalAddress : UInt32
  deriving DecidableEq, Repr

/-- An `IO_MEMORY_WRITE` that the scheduler has sent. -/
structure IoMemoryWrite where
  request : PendingStdin
  rawData : List UInt8
  deriving DecidableEq, Repr

/-- The process whose syscall an operation is. -/
def requestedBy : Op → Option UInt32
  | .segmentCreate pid _ _ | .segmentDelete pid _ | .processEnd pid => some pid
  | _ => none

/-- A memory operation that the scheduler has asked Kernel Memory for, on behalf of
a process. -/
structure MemoryRequest where
  pid : UInt32
  op : Op
  requested : requestedBy op = some pid
  deriving DecidableEq, Repr

/-- What a `STDIN` has left at a logical address. -/
structure Delivery where
  logicalAddress : UInt32
  data : List UInt8
  deriving DecidableEq, Repr

/-- Where a process stands. -/
inductive Phase where
  /-- On no CPU, with nothing under way; `delivery` is what its last `STDIN` wrote,
  until it runs again. -/
  | stopped (delivery : Option Delivery)
  /-- On a CPU, with the segment table it was dispatched with. -/
  | running (segmentTable : List Segment)
  /-- Waiting for a memory operation, or for its end. -/
  | requesting (request : MemoryRequest)
  /-- In a `STDIN`. -/
  | reading (request : PendingStdin)
  deriving DecidableEq, Repr

/-- All components. `syscalls` are the `STDIN` messages of the CPUs; `requests` are
the memory operations that the scheduler has sent to Kernel Memory; `writes` are
its `IO_MEMORY_WRITE` messages, in order. -/
structure System where
  memory : State
  phase : UInt32 → Phase
  syscalls : List PendingStdin
  pendingIoStdinReading : List PendingStdin
  writes : List IoMemoryWrite
  requests : List MemoryRequest

/-- What can happen next. -/
inductive Action where
  | create (pid : UInt32) (instructions : List String)
  | connectStick (id size : UInt32)
  /-- `PROCESS_EXECUTE`, and the answer to `CONTEXT_SEEK`. -/
  | dispatch (pid : UInt32)
  /-- An eviction, or a syscall that Kernel Memory has no part in. -/
  | stop (pid : UInt32)
  /-- The process ends, or asks for a segment or its removal. -/
  | request (request : MemoryRequest)
  /-- Kernel Memory performs one of the operations it was asked for. -/
  | perform (i : Nat)
  /-- An instruction writes to memory. -/
  | store (pid logicalAddress size : UInt32) (data : List UInt8)
  /-- `instruction_stdin`. -/
  | stdin (pid logicalAddress size : UInt32)
  /-- `stdin_syscall_manager`. -/
  | hear (i : Nat)
  /-- An IO device has read the line. -/
  | answer (pid : UInt32) (rawData : List UInt8)
  /-- Kernel Memory handles the next `IO_MEMORY_WRITE`. -/
  | write
  /-- `SWAP_OUT`. -/
  | suspend (pid : UInt32)
  /-- `SWAP_IN`. -/
  | resume (pid : UInt32)
  deriving DecidableEq, Repr

/-- The phase of one process changes. -/
def System.setPhase (s : System) (pid : UInt32) (phase : Phase) : System :=
  { s with phase := Function.update s.phase pid phase }

/-- `PROCESS_END` is sent for a process. -/
def endProcess (s : System) (pid : UInt32) : System :=
  let request : MemoryRequest := ⟨pid, .processEnd pid, rfl⟩
  { s with requests := s.requests ++ [request] }.setPhase pid (.requesting request)

section Step

variable (segmentMaxSize : UInt32)

def step (s : System) : Action → Option System
  | .create pid instructions =>
      if findPcb s.memory pid = none ∧ s.phase pid = .stopped none then
        some { s with memory := processCreate s.memory pid (some instructions) }
      else none
  | .connectStick id size => some { s with memory := KernelMemory.connectStick s.memory id size }
  | .dispatch pid =>
      match s.phase pid, contextSeek s.memory pid with
      | .stopped _, some (_, segmentTable) =>
          if findSuspended s.memory pid = none then
            some (s.setPhase pid (.running segmentTable))
          else none
      | _, _ => none
  | .stop pid =>
      match s.phase pid with
      | .running _ => some (s.setPhase pid (.stopped none))
      | _ => none
  | .request request =>
      match s.phase request.pid with
      | .running _ =>
          some ({ s with requests := s.requests ++ [request] }.setPhase request.pid
            (.requesting request))
      | _ => none
  | .perform i =>
      match s.requests[i]? with
      | none => none
      | some request =>
          (KernelMemory.step s.memory request.op).map fun memory =>
            { s with memory := memory, requests := s.requests.eraseIdx i }.setPhase request.pid
              (.stopped none)
  | .store pid logicalAddress size data =>
      match s.phase pid with
      | .running segmentTable =>
          if data.length = size.toNat then
            match Cpu.translate segmentMaxSize segmentTable logicalAddress size with
            | none => some (endProcess s pid)
            | some physicalAddress =>
                let devices := (memoryWrite s.memory.devices physicalAddress data size).2
                some { s with memory := { s.memory with devices := devices } }
          else none
      | _ => none
  | .stdin pid logicalAddress size =>
      match s.phase pid with
      | .running segmentTable =>
          match Cpu.translate segmentMaxSize segmentTable logicalAddress size with
          | none => some (endProcess s pid)
          | some physicalAddress =>
              let request := ⟨pid, physicalAddress, size, logicalAddress⟩
              some ({ s with syscalls := s.syscalls ++ [request] }.setPhase pid (.reading request))
      | _ => none
  | .hear i =>
      match s.syscalls[i]? with
      | none => none
      | some request =>
          let s' := { s with syscalls := s.syscalls.eraseIdx i }
          if request.size = 0 then some (endProcess s' request.pid)
          else some { s' with pendingIoStdinReading := s.pendingIoStdinReading ++ [request] }
  | .answer pid rawData =>
      match s.pendingIoStdinReading.find? fun p => p.pid == pid with
      | none => some s
      | some request =>
          some { s with
            pendingIoStdinReading := s.pendingIoStdinReading.eraseP fun p => p.pid == pid
            writes := s.writes ++ [⟨request, rawData⟩] }
  | .write =>
      match s.writes with
      | [] => none
      | ⟨request, rawData⟩ :: rest =>
          match ioMemoryWrite s.memory request.physicalAddress request.size rawData with
          | (true, memory) =>
              some ({ s with memory := memory, writes := rest }.setPhase request.pid
                (.stopped (some ⟨request.logicalAddress, paddedData request.size rawData⟩)))
          | (false, memory) =>
              some (endProcess { s with memory := memory, writes := rest } request.pid)
  | .suspend pid =>
      match s.phase pid with
      | .stopped _ | .reading _ =>
          if findSuspended s.memory pid = none then
            (KernelMemory.step s.memory (.processSuspend pid)).map fun memory =>
              { s with memory := memory }
          else none
      | _ => none
  | .resume pid =>
      match s.phase pid with
      | .stopped _ =>
          (KernelMemory.step s.memory (.processDesuspend pid)).map fun memory =>
            { s with memory := memory }
      | _ => none

end Step

/-- Nothing has been created yet. -/
def initial (memory : State) : System := ⟨memory, fun _ => .stopped none, [], [], [], []⟩

/-! ### What is asked of the system -/

/-- The process finds the data at the logical address when it reads there with the
table it is sent. -/
def Visible (segmentMaxSize : UInt32) (memory : State) (segmentTable : List Segment)
    (d : Delivery) : Prop :=
  ∃ physicalAddress,
    Cpu.translate segmentMaxSize segmentTable d.logicalAddress (UInt32.ofNat d.data.length) =
        some physicalAddress ∧
      slice (flat memory.devices.listMemoryStick) physicalAddress.toNat d.data.length = d.data

/-- The segment of the process that a logical address names; `size` bytes from the
address on end inside it. -/
structure Names (segmentMaxSize : UInt32) (memory : State) (pid logicalAddress size : UInt32)
    (seg : HeapSegment) : Prop where
  found : (segmentTableOf memory pid).bind (fun table =>
    table.find? fun seg => seg.segmentId == logicalAddress / segmentMaxSize) = some seg
  inside : (logicalAddress % segmentMaxSize).toNat + size.toNat ≤ seg.size.toNat

/-- A write changes no byte but those at the offset of the segment that the
instruction named. -/
def Confined (segmentMaxSize : UInt32) (r : PendingStdin) (memory memory' : State) : Prop :=
  ∃ seg, Names segmentMaxSize memory r.pid r.logicalAddress r.size seg ∧
    SameOutside (seg.base.toNat + (r.logicalAddress % segmentMaxSize).toNat) r.size.toNat
      (flat memory.devices.listMemoryStick) (flat memory'.devices.listMemoryStick)

/-- What is asked of a step: a write stays in its place, and a process that runs
again finds what was written for it. -/
def Lands (segmentMaxSize : UInt32) (s s' : System) : Action → Prop
  | .write => ∀ w ∈ s.writes.head?, Confined segmentMaxSize w.request s.memory s'.memory
  | .dispatch pid => ∀ d segmentTable, s.phase pid = .stopped (some d) →
      s'.phase pid = .running segmentTable → Visible segmentMaxSize s'.memory segmentTable d
  | _ => True

/-! ### The condition -/

/-- What a process in this phase asks of a compaction: not to move a segment whose
physical addresses are in use, so to find no hole below it; and to carry along
what a `STDIN` has written. -/
def Phase.Compactable (memory : State) (segmentTable : List HeapSegment) : Phase → Prop
  | .running _ | .reading _ => Grounded memory segmentTable
  | .stopped (some _) => memory.devices.refusals = []
  | _ => True

instance (memory : State) (segmentTable : List HeapSegment) (phase : Phase) :
    Decidable (phase.Compactable memory segmentTable) := by
  unfold Phase.Compactable
  split <;> infer_instance

/-- What is asked of a suspension: the process is in no `STDIN`, and what its last
one wrote can be stored. -/
def Phase.Suspendable (memory : State) (pid : UInt32) : Phase → Prop
  | .stopped none => True
  | .stopped (some _) => 0 < memory.swapBlockSize ∧ Storable memory pid
  | _ => False

instance (memory : State) (pid : UInt32) (phase : Phase) :
    Decidable (phase.Suspendable memory pid) := by
  unfold Phase.Suspendable
  split <;> infer_instance

/-- The address check of an instruction does not wrap. -/
def Phase.Checked (segmentMaxSize logicalAddress size : UInt32) : Phase → Prop
  | .running segmentTable => ¬ Cpu.Wraps segmentMaxSize segmentTable logicalAddress size
  | _ => True

instance (segmentMaxSize logicalAddress size : UInt32) (phase : Phase) :
    Decidable (phase.Checked segmentMaxSize logicalAddress size) := by
  unfold Phase.Checked
  split <;> infer_instance

/-- The condition on a step. -/
def Action.Keeping (segmentMaxSize : UInt32) (s : System) : Action → Prop
  | .store pid logicalAddress size _ | .stdin pid logicalAddress size =>
      (s.phase pid).Checked segmentMaxSize logicalAddress size
  | .connectStick id size => (Op.connectStick id size).Admissible s.memory
  | .perform i => ∀ request ∈ s.requests[i]?, request.op.Admissible s.memory ∧
      (request.op.Compacts s.memory → ∀ pcb ∈ s.memory.listProcesses,
        (s.phase pcb.pid).Compactable s.memory pcb.segmentTable)
  | .suspend pid => (s.phase pid).Suspendable s.memory pid
  | .resume pid => Separated s.memory pid
  | _ => True

instance (segmentMaxSize : UInt32) (s : System) (a : Action) :
    Decidable (a.Keeping segmentMaxSize s) := by
  unfold Action.Keeping
  split <;> infer_instance

end OsModel.Stdin
