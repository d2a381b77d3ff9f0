import OsModel.Utils
import Mathlib

/-!
The state of the Kernel Scheduler (`kernel_scheduler/src`), of its threads and of
the CPUs it talks to.

A CPU is named by its connection, so a CPU that comes back is another one. Which
of the ready processes and which of the free CPUs the algorithm picks is left open,
so the ready queues are one list without an order. The priorities, the quantum and
the tables of the mutexes are left out: they only decide which step is taken.

`KernelScheduler.State` has what is left out here, for the same threads with each
handler as one step; `System.SchedulerRefinement` has that the sections bring the
handlers about.
-/

namespace OsModel.Dispatch

/-- `t_process_state`. A process that waits is in `block`, be it in memory or
suspended. -/
inductive ProcessState where
  | ready
  | exec
  | block
  | exit
  deriving DecidableEq, Repr

structure Process (ι : Type) where
  pid : UInt32
  state : ProcessState
  cpu : Option ι
  pendingMemorySyscall : Bool
  deriving DecidableEq, Repr

inductive ToCpu where
  | processExecute (pid : UInt32)
  | processEvict
  deriving DecidableEq, Repr

/-- The syscalls that stop the process, by their `op_code`. -/
inductive Syscall where
  | processEnd
  | segmentationFault
  | mutexCreate
  | mutexLock
  | mutexUnlock
  | sleep
  | stdin (toRead : UInt32)
  | stdout
  | memAlloc (segmentSize : UInt32)
  | memFree
  deriving DecidableEq, Repr

/-- What a CPU sends to the scheduler. -/
inductive ToScheduler where
  | syscall (pid : UInt32) (syscall : Syscall)
  | confirmation
  deriving DecidableEq, Repr

/-- The thread that has set `is_evicting` and waits for `response_sem`. -/
structure Evictor where
  /-- `evict_all_processes`, and not `wait_confirmation_thread_and_handle_state`. -/
  all : Bool
  /-- `PROCESS_EVICT` has been sent. -/
  sent : Bool
  deriving DecidableEq, Repr

/-- A connection: before, while and after the CPU is in `list_cpu`. -/
inductive Connection where
  | absent
  | connected
  | closed
  deriving DecidableEq, Repr

/-- A `t_client_info` in `list_cpu`, with the connection and the CPU at its other
end. `outstanding` are the processes that were sent to the CPU and have not been
heard to stop: it is read by no step. -/
structure Cpu where
  connection : Connection
  isAvailable : Bool
  isEvicting : Bool
  responseSem : Nat
  evictor : Option Evictor
  toCpu : List ToCpu
  running : Option UInt32
  toScheduler : List ToScheduler
  outstanding : List UInt32
  deriving DecidableEq, Repr

/-- A CPU before it connects. -/
def Cpu.absent : Cpu := ⟨.absent, false, false, 0, none, [], none, [], []⟩

/-- `create_client_info`. -/
def Cpu.create : Cpu := { Cpu.absent with connection := .connected, isAvailable := true }

/-- The threads that send `PROCESS_EXECUTE`. -/
inductive Thread (ι : Type) where
  /-- `short_term_scheduler_main`. -/
  | shortTerm
  /-- `cpu_handler`. -/
  | cpuHandler (cpu : ι)
  /-- `kernel_memory_handler`. -/
  | memoryHandler
  deriving DecidableEq, Repr

instance {ι : Type} [Fintype ι] : Fintype (Thread ι) :=
  .ofEquiv (Option (Option ι))
    { toFun := fun
        | none => .shortTerm
        | some none => .memoryHandler
        | some (some cpu) => .cpuHandler cpu
      invFun := fun
        | .shortTerm => none
        | .memoryHandler => some none
        | .cpuHandler cpu => some (some cpu)
      left_inv := by rintro (_ | _ | _) <;> rfl
      right_inv := by rintro (_ | _ | _) <;> rfl }

/-- What such a thread is in the middle of, between two critical sections. -/
inductive Activity (ι : Type) where
  | idle
  /-- In `send_pid_to_execute`; `checked` says that `is_evicting` has been read. -/
  | sendToExecute (pid : UInt32) (cpu : ι) (checked : Bool)
  /-- About to end a process that is still assigned to a CPU. -/
  | endProcess (pid : UInt32) (cpu : ι)
  /-- About to mark a CPU as available. -/
  | release (cpu : ι)
  deriving DecidableEq, Repr

/-- Where a `compaction_requested_thread` is. -/
inductive Compaction (ι : Type) where
  /-- Before `can_schedule_write(false)`. -/
  | requested
  /-- Before `evict_all_processes`. -/
  | closed
  /-- In `evict_all_processes`: the CPUs still to be evicted, the one whose
  `is_evicting` has just been set, and those whose confirmation it waits for. -/
  | evictAll (todo : List ι) (marked : Option ι) (evicted : List ι)
  /-- At `sem_wait(&compaction_finished_sem)`. -/
  | ready
  deriving DecidableEq, Repr

/-- The globals and threads of the Kernel Scheduler. `memoryRequests` are the
processes with a `SEGMENT_CREATE` or `SEGMENT_DELETE` at Kernel Memory;
`compacting` counts its `COMPACTION_READY` messages without `COMPACTION_FINISHED`. -/
structure State (ι : Type) where
  listProcesses : List (Process ι)
  readyQueue : List UInt32
  execProcesses : List UInt32
  canSchedule : Bool
  /-- The short-term scheduler is past its check of `can_schedule`. -/
  inRound : Bool
  cpus : ι → Cpu
  threads : Thread ι → Activity ι
  memoryRequests : List UInt32
  compactions : List (Compaction ι)
  compacting : Nat
  compactionFinishedSem : Nat

variable {ι : Type} [DecidableEq ι]

/-! ### Looking up and updating -/

def getProcessFromPid (s : State ι) (pid : UInt32) : Option (Process ι) :=
  s.listProcesses.find? fun p => p.pid == pid

def getProcessFromCpu (s : State ι) (cpu : ι) : Option (Process ι) :=
  s.listProcesses.find? fun p => p.cpu == some cpu

/-- A write through the pointer `getProcessFromPid` returns. -/
def State.updateProcess (s : State ι) (pid : UInt32) (f : Process ι → Process ι) : State ι :=
  { s with listProcesses := updateFirst (fun p => p.pid == pid) f s.listProcesses }

/-- A CPU and its connection after a step. -/
def State.setCpu (s : State ι) (cpu : ι) (now : Cpu) : State ι :=
  { s with cpus := Function.update s.cpus cpu now }

/-- What a thread is in the middle of after a step. -/
def State.setThread (s : State ι) (t : Thread ι) (now : Activity ι) : State ι :=
  { s with threads := Function.update s.threads t now }

/-- `process_set_state(READY)` and `add_process_to_ready_queue`. -/
def State.makeReady (s : State ι) (pid : UInt32) : State ι :=
  { s.updateProcess pid fun p => { p with state := .ready } with
    readyQueue := s.readyQueue ++ [pid] }

end OsModel.Dispatch
