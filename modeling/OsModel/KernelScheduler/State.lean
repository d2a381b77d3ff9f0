import OsModel.Utils

/-!
The state of the Kernel Scheduler (`kernel_scheduler/src`) and of its connections.

The lists of the source hold pointers; here they hold the names of what is pointed
at: a `t_process` is named by its pid, a `t_mutex` by its name, a CPU and an IO
device by their connection. `State.process`, `State.mutex`, `State.cpu` and
`State.io` are the memory behind the pointers. A CPU or a device that comes back has
another connection, so a name is used once.
-/

namespace OsModel.KernelScheduler

/-! ### Data -/

inductive ProcessState where
  | new
  | ready
  | exec
  | block
  | suspBlock
  | suspReady
  | exit
  deriving DecidableEq, Repr

inductive SchedulerAlgorithm where
  | fifo
  | rr
  | cmn
  deriving DecidableEq, Repr

/-- The configuration that `setup` reads. -/
structure Config where
  schedulerAlgorithm : SchedulerAlgorithm
  quantum : Nat
  suspensionTimeout : Nat
  queuePreemption : Bool
  queueAlgorithms : List SchedulerAlgorithm
  hasQueue : 0 < queueAlgorithms.length

/-- One ready queue. -/
def fifo : Config := ⟨.fifo, 0, 60000, false, [.fifo], Nat.zero_lt_one⟩

/-- Several ready queues. -/
def Config.ofQueues (first : SchedulerAlgorithm) (others : List SchedulerAlgorithm) : Config :=
  { fifo with
    schedulerAlgorithm := .cmn, queueAlgorithms := first :: others
    hasQueue := Nat.succ_pos others.length }

/-- `queue_algorithms_count`: without `CMN` there is one queue. -/
def Config.queueAlgorithmsCount (config : Config) : Nat :=
  match config.schedulerAlgorithm with
  | .cmn => config.queueAlgorithms.length
  | _ => 1

/-- `t_process`, without its pid. -/
structure Process (ι : Type) where
  state : ProcessState
  basePriority : UInt8
  effectivePriority : UInt8
  cpu : Option ι
  startExecTime : Nat
  startBlockTime : Nat
  ownedMutexes : List String
  memoryRequestSem : Nat
  pendingMemorySyscall : Bool
  deriving DecidableEq, Repr

def createProcess {ι : Type} (basePriority : UInt8) : Process ι where
  state := .new
  basePriority := basePriority
  effectivePriority := basePriority
  cpu := none
  startExecTime := 0
  startBlockTime := 0
  ownedMutexes := []
  memoryRequestSem := 0
  pendingMemorySyscall := false

/-- `t_mutex`, without its name. -/
structure Mutex where
  isLocked : Bool
  lockedBy : Option UInt32
  waitingProcesses : List UInt32
  deriving DecidableEq, Repr

inductive IoType where
  | stdin
  | stdout
  | sleep
  deriving DecidableEq, Repr

/-- What an IO device is sent: a `t_io_numeric_process` or a `t_io_string_process`. -/
inductive IoRequest where
  | numeric (pid value : UInt32)
  | string (pid : UInt32) (value : String)
  deriving DecidableEq, Repr

def IoRequest.pid : IoRequest → UInt32
  | .numeric pid _ | .string pid _ => pid

structure PendingStdin where
  pid : UInt32
  physicalAddress : UInt32
  size : UInt32
  deriving DecidableEq, Repr

/-! ### Connections -/

/-- A connection before, while and after its client is in a list of clients. -/
inductive Connection where
  | absent
  | connected
  | closed
  deriving DecidableEq, Repr

inductive ToCpu where
  | processExecute (pid : UInt32)
  | processEvict (reason : InterruptReason)
  deriving DecidableEq, Repr

/-- The syscalls that stop the process, with their operands. -/
inductive Syscall where
  | processEnd
  | segmentationFault
  | mutexCreate (name : String)
  | mutexLock (name : String)
  | mutexUnlock (name : String)
  | sleep (sleepTime : UInt32)
  | stdin (physicalAddress toRead : UInt32)
  | stdout (physicalAddress toRead : UInt32)
  | memAlloc (segmentId segmentSize : UInt32)
  | memFree (segmentId : UInt32)
  deriving DecidableEq, Repr

/-- What a CPU sends to the scheduler. `processCreate` does not stop the process;
`PROCESS_INTERRUPTED`, which is only logged, is left out. -/
inductive ToScheduler where
  | processCreate (priority : UInt32) (path : String)
  | syscall (pid : UInt32) (syscall : Syscall)
  | confirmation
  deriving DecidableEq, Repr

/-- Who waits for `response_sem`: `wait_confirmation_thread_and_handle_state`, or a
compaction in `evict_all_processes`. -/
inductive Evictor where
  | handleState
  | all
  deriving DecidableEq, Repr

/-- The `t_client_info` of a CPU, what is under way on its connection, and the
process that runs at its other end. -/
structure Cpu where
  connection : Connection
  isAvailable : Bool
  isEvicting : Bool
  responseSem : Nat
  evictor : Option Evictor
  toCpu : List ToCpu
  running : Option UInt32
  toScheduler : List ToScheduler
  deriving DecidableEq, Repr

/-- A CPU before it connects. -/
def Cpu.absent : Cpu := ⟨.absent, false, false, 0, none, [], none, []⟩

/-- `create_client_info`. -/
def Cpu.create : Cpu := { Cpu.absent with connection := .connected, isAvailable := true }

/-- The `t_client_info` of an IO device, and the requests it has. -/
structure Io where
  ioType : IoType
  connection : Connection
  isAvailable : Bool
  requests : List IoRequest
  deriving DecidableEq, Repr

inductive ToMemory where
  | processCreate (pid : UInt32) (path : String)
  | processEnd (pid : UInt32)
  | segmentCreate (pid segmentId segmentSize : UInt32)
  | segmentDelete (pid segmentId : UInt32)
  | ioMemoryRead (pid physicalAddress size : UInt32)
  | ioMemoryWrite (pid physicalAddress size : UInt32) (data : String)
  | swapOut (pid : UInt32)
  | swapIn (pids : List UInt32)
  | compactionReady
  deriving DecidableEq, Repr

inductive FromMemory where
  | processCreate (pid : UInt32)
  | segmentResult (pid segmentId : UInt32) (result : SegmentResult)
  | ioMemoryRead (pid : UInt32) (value : String)
  | ioMemoryWrite (pid : UInt32) (writeSuccesful : Bool)
  | swapOut (pid : UInt32) (ok : Bool)
  | swapIn (pids : List UInt32)
  | memoryUpdate (newSize : UInt32)
  | compactionRequest
  | compactionFinished
  | corruptedMemory
  deriving DecidableEq, Repr

/-- The connection to Kernel Memory, both ways, and what Kernel Memory has at its
other end: the pids and segments of its `segment_create_thread`s, the pids of
`list_suspended_processes`, and `compaction_sem`. -/
structure Memory where
  toMemory : List ToMemory
  segmentThreads : List (UInt32 × UInt32)
  listSuspendedProcesses : List UInt32
  compactionSem : Nat
  fromMemory : List FromMemory
  deriving DecidableEq, Repr

/-- Where a `compaction_requested_thread` or a `memory_corrupted_thread` is: before
`evict_all_processes`; waiting for the confirmations of CPUs; or at
`sem_wait(&compaction_finished_sem)`. -/
inductive Compaction (ι : Type) where
  | requested (reason : InterruptReason)
  | evicting (reason : InterruptReason) (evicted : List ι)
  | ready
  deriving DecidableEq, Repr

/-! ### The state -/

/-- The globals of the Kernel Scheduler. `now` is `system_timer`; `inRound` says
that the short-term scheduler is in its inner loop; `writeThreads` are the threads in
`wait_memory_write_confirmation`. -/
structure State (ι : Type) where
  now : Nat
  canSchedule : Bool
  shortTermSchedulerSem : Nat
  inRound : Bool
  currentMaxPid : UInt32
  process : UInt32 → Process ι
  listProcesses : List UInt32
  readyQueue : Nat → List UInt32
  execProcesses : List UInt32
  blockProcesses : List UInt32
  suspendedProcesses : List UInt32
  mutex : String → Mutex
  listMutexes : List String
  cpu : ι → Cpu
  listCpu : List ι
  io : Nat → Io
  listIo : IoType → List Nat
  pendingRequestIo : IoType → List IoRequest
  pendingIoStdinReading : List PendingStdin
  writeThreads : List UInt32
  compactions : List (Compaction ι)
  compactionFinishedSem : Nat
  memory : Memory

/-- The state that `setup` leaves: nothing is connected and there is no process. -/
def initial {ι : Type} : State ι where
  now := 0
  canSchedule := true
  shortTermSchedulerSem := 0
  inRound := false
  currentMaxPid := 0
  process := fun _ => createProcess 0
  listProcesses := []
  readyQueue := fun _ => []
  execProcesses := []
  blockProcesses := []
  suspendedProcesses := []
  mutex := fun _ => ⟨false, none, []⟩
  listMutexes := []
  cpu := fun _ => .absent
  listCpu := []
  io := fun _ => ⟨.sleep, .absent, false, []⟩
  listIo := fun _ => []
  pendingRequestIo := fun _ => []
  pendingIoStdinReading := []
  writeThreads := []
  compactions := []
  compactionFinishedSem := 0
  memory := ⟨[], [], [], 0, []⟩

section Updates

variable {ι : Type} (s : State ι)

def State.setProcess (pid : UInt32) (f : Process ι → Process ι) : State ι :=
  { s with process := Function.update s.process pid (f (s.process pid)) }

def State.setMutex (name : String) (f : Mutex → Mutex) : State ι :=
  { s with mutex := Function.update s.mutex name (f (s.mutex name)) }

/-- A CPU and its connection after a step. -/
def State.setCpu [DecidableEq ι] (cpu : ι) (f : Cpu → Cpu) : State ι :=
  { s with cpu := Function.update s.cpu cpu (f (s.cpu cpu)) }

/-- An IO device and its connection after a step. -/
def State.setIo (io : Nat) (f : Io → Io) : State ι :=
  { s with io := Function.update s.io io (f (s.io io)) }

def State.sendMemory (message : ToMemory) : State ι :=
  { s with memory.toMemory := s.memory.toMemory ++ [message] }

/-- `sem_post(&short_term_scheduler_sem)`. -/
def State.postShortTerm : State ι :=
  { s with shortTermSchedulerSem := s.shortTermSchedulerSem + 1 }

@[simp]
theorem process_setMutex (name : String) (f : Mutex → Mutex) :
    (s.setMutex name f).process = s.process := rfl

@[simp]
theorem process_setCpu [DecidableEq ι] (cpu : ι) (f : Cpu → Cpu) :
    (s.setCpu cpu f).process = s.process := rfl

@[simp]
theorem process_setIo (io : Nat) (f : Io → Io) : (s.setIo io f).process = s.process := rfl

@[simp]
theorem process_sendMemory (message : ToMemory) : (s.sendMemory message).process = s.process := rfl

@[simp]
theorem process_postShortTerm : s.postShortTerm.process = s.process := rfl

@[simp]
theorem setProcess_self (pid : UInt32) (f : Process ι → Process ι) :
    (s.setProcess pid f).process pid = f (s.process pid) := Function.update_self ..

@[simp]
theorem setProcess_of_ne {pid other : UInt32} (ne : other ≠ pid) (f : Process ι → Process ι) :
    (s.setProcess pid f).process other = s.process other := Function.update_of_ne ne ..

@[simp]
theorem setMutex_self (name : String) (f : Mutex → Mutex) :
    (s.setMutex name f).mutex name = f (s.mutex name) := Function.update_self ..

@[simp]
theorem setMutex_of_ne {name other : String} (ne : other ≠ name) (f : Mutex → Mutex) :
    (s.setMutex name f).mutex other = s.mutex other := Function.update_of_ne ne ..

@[simp]
theorem setCpu_self [DecidableEq ι] (cpu : ι) (f : Cpu → Cpu) :
    (s.setCpu cpu f).cpu cpu = f (s.cpu cpu) := Function.update_self ..

@[simp]
theorem setCpu_of_ne [DecidableEq ι] {cpu other : ι} (ne : other ≠ cpu) (f : Cpu → Cpu) :
    (s.setCpu cpu f).cpu other = s.cpu other := Function.update_of_ne ne ..

@[simp]
theorem setIo_self (io : Nat) (f : Io → Io) : (s.setIo io f).io io = f (s.io io) :=
  Function.update_self ..

@[simp]
theorem setIo_of_ne {io other : Nat} (ne : other ≠ io) (f : Io → Io) :
    (s.setIo io f).io other = s.io other := Function.update_of_ne ne ..

end Updates

end OsModel.KernelScheduler
