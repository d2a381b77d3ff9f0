import OsModel.KernelScheduler.Managers
import OsModel.KernelScheduler.Schedulers

/-!
The message handlers of the Kernel Scheduler (`kernel_scheduler/src/module_handlers`)
and its threads, each as one step; and what the CPUs, the IO devices and Kernel Memory
do at the other ends of their connections.
-/

namespace OsModel.KernelScheduler

variable {ι : Type} [DecidableEq ι] (config : Config) (s : State ι)

/-! ### CPUs (`cpu_handler.c`) -/

/-- The end of a process by `PROCESS_END` or `SEGMENTATION_FAULT`. -/
def endProcess (pid : UInt32) (cpu : ι) : State ι :=
  let s' :=
    if pid ∈ s.listProcesses then
      removeFromExec (s.setProcess pid fun p => { p with state := .exit, cpu := none }) pid
    else s
  ((makeAvailable s' cpu).sendMemory (.processEnd pid)).postShortTerm

/-- A mutex that is not in `list_mutexes` ends the process, which keeps its CPU. -/
def unknownMutex (pid : UInt32) (cpu : ι) : State ι :=
  ((processSetState (removeFromExec (makeAvailable s cpu) pid) pid .exit).sendMemory
    (.processEnd pid)).postShortTerm

/-- What `cpu_handler` does with a syscall. -/
def handleSyscall (cpu : ι) (pid : UInt32) : Syscall → State ι
  | .processEnd | .segmentationFault => endProcess s pid cpu
  | .mutexCreate name => sendPidToExecute (mutexCreate s name) pid (some cpu)
  | .mutexLock name =>
      if pid ∈ s.listProcesses then
        match getMutexByName s name with
        | some mutex => mutexLock config s mutex pid
        | none => unknownMutex s pid cpu
      else s
  | .mutexUnlock name =>
      if pid ∈ s.listProcesses then
        match getMutexByName s name with
        | some mutex => mutexUnlock config s mutex pid
        | none => unknownMutex s pid cpu
      else s
  | .sleep sleepTime => if pid ∈ s.listProcesses then sleepSyscallManager s pid cpu sleepTime else s
  | .stdin physicalAddress toRead =>
      if pid ∈ s.listProcesses then stdinSyscallManager s pid cpu physicalAddress toRead else s
  | .stdout physicalAddress toRead =>
      if pid ∈ s.listProcesses then stdoutSyscallManager s pid cpu physicalAddress toRead else s
  | .memAlloc segmentId segmentSize => memAllocSyscallManager s pid segmentId segmentSize
  | .memFree segmentId => memFreeSyscallManager s pid segmentId

/-- What `cpu_handler` does with a message; the pid of an `INIT_PROC` is only
logged. -/
def handleCpu (cpu : ι) : ToScheduler → Option (State ι)
  | .processCreate priority path => longTermScheduler s path priority.toUInt8
  | .syscall pid syscall => some (handleSyscall config s cpu pid syscall)
  | .confirmation => some (s.setCpu cpu fun c => { c with responseSem := c.responseSem + 1 })

/-- `handle_cpu_disconnection`: what was sent to the CPU is lost. -/
def handleCpuDisconnection (cpu : ι) : State ι :=
  let s' :=
    match getProcessFromCpu s cpu with
    | none => s
    | some pid =>
        removeFromExec
          (addProcessToReadyQueue config
            (s.setProcess pid fun p => { p with state := .ready, cpu := none, startExecTime := 0 })
            pid) pid
  { s'.setCpu cpu fun c => { c with connection := .closed, toCpu := [], running := none } with
    listCpu := s.listCpu.erase cpu }.postShortTerm

/-! ### IO devices (`io_handler.c`) -/

/-- The answer of an IO device to the first of its requests: `STDIN` with what was
typed, or `CONFIRMATION`. -/
def handleIo (io : Nat) (request : IoRequest) (value : String) : State ι :=
  let ioType := (s.io io).ioType
  let pid := request.pid
  match ioType with
  | .sleep | .stdout => handleNextOperation (ioFinishProcess config s pid io) io ioType
  | .stdin =>
      match s.pendingIoStdinReading.find? fun p => p.pid == pid with
      | none => s
      | some pending =>
          let s' := ({ s with
            pendingIoStdinReading := s.pendingIoStdinReading.erase pending
            writeThreads := s.writeThreads ++ [pid] }.sendMemory
              (.ioMemoryWrite pid pending.physicalAddress pending.size value)).setIo io fun d =>
                { d with isAvailable := true }
          handleNextOperation s' io ioType

/-! ### Kernel Memory (`kernel_memory_handler.c`) -/

def handleIoMemoryWrite (pid : UInt32) (writeSuccesful : Bool) : State ι :=
  if writeSuccesful then
    s.setProcess pid fun p => { p with memoryRequestSem := p.memoryRequestSem + 1 }
  else (processSetState s pid .exit).sendMemory (.processEnd pid)

/-- What `kernel_memory_handler` does with a message. -/
def handleMemory : FromMemory → State ι
  | .processCreate pid => waitProcessCreateConfirmation config s pid
  | .segmentResult pid _ result => handleSegmentResult config s pid result
  | .ioMemoryRead pid value => stdoutWaitMemoryRead s pid value
  | .ioMemoryWrite pid writeSuccesful => handleIoMemoryWrite s pid writeSuccesful
  | .swapOut pid ok => waitConfirmationSwapOut config s pid ok
  | .swapIn pids => waitConfirmationSwapIn config s pids
  | .memoryUpdate _ => requestSwapIn s
  | .compactionRequest => { s with compactions := s.compactions ++ [.requested .compaction] }
  | .compactionFinished => { s with compactionFinishedSem := s.compactionFinishedSem + 1 }
  | .corruptedMemory => { s with compactions := s.compactions ++ [.requested .bsod] }

/-! ### The other ends

A CPU confirms an eviction here only after its process has stopped. This is assumed: in
`Cpu.Threads` a post of `sem_eviction_ready` that nobody has waited for lets the CPU confirm the
next eviction early, and no theorem connects the two models. -/

inductive CpuStep where
  /-- It reads `PROCESS_EXECUTE`. -/
  | execute
  /-- Its process makes an `INIT_PROC`. -/
  | initProc (priority : UInt32) (path : String)
  /-- Its process stops with a syscall. -/
  | stop (syscall : Syscall)
  /-- It reads `PROCESS_EVICT`, stops its process if it has one, and confirms. -/
  | evict
  deriving DecidableEq, Repr

def Cpu.step (c : Cpu) : CpuStep → Option Cpu
  | .execute =>
      match c.toCpu, c.running with
      | .processExecute pid :: rest, none => some { c with toCpu := rest, running := some pid }
      | _, _ => none
  | .initProc priority path =>
      match c.running with
      | none => none
      | some _ => some { c with toScheduler := c.toScheduler ++ [.processCreate priority path] }
  | .stop syscall =>
      match c.running with
      | none => none
      | some pid =>
          some { c with running := none, toScheduler := c.toScheduler ++ [.syscall pid syscall] }
  | .evict =>
      match c.toCpu with
      | .processEvict _ :: rest =>
          some { c with
            toCpu := rest
            running := none
            toScheduler := c.toScheduler ++ [.confirmation] }
      | _ => none

/-- How Kernel Memory answers a request; the answer to `SWAP_IN` says which of the
calls of `process_desuspend` succeed. -/
inductive Answer where
  | ok (ok : Bool)
  | result (result : SegmentResult)
  | value (value : String)
  | desuspended (oks : List Bool)
  deriving DecidableEq, Repr

inductive MemoryStep where
  /-- `kernel_scheduler_handler` handles a request. -/
  | serve (answer : Answer)
  /-- A `segment_create_thread` answers. -/
  | segmentCreated (i : Nat) (result : SegmentResult)
  /-- It sends `MEMORY_UPDATE`. -/
  | memoryUpdate (newSize : UInt32)
  /-- A `segment_create_thread` sends `COMPACTION_REQUEST`. -/
  | compactionRequest
  /-- It sends `COMPACTION_FINISHED`. -/
  | compactionFinished
  /-- It sends `CORRUPTED_MEMORY`. -/
  | corruptedMemory
  deriving DecidableEq, Repr

/-- The loop of `SWAP_IN`: the processes that are brought in, and those that stay
suspended. `process_desuspend` fails for a process that is not suspended. -/
def desuspend : List UInt32 → List Bool → List UInt32 → List UInt32 × List UInt32
  | pid :: pids, ok :: oks, suspended =>
      if ok ∧ pid ∈ suspended then
        let (desuspended, rest) := desuspend pids oks (suspended.erase pid)
        (pid :: desuspended, rest)
      else desuspend pids oks suspended
  | _, _, suspended => ([], suspended)

def Memory.send (m : Memory) (message : FromMemory) : Memory :=
  { m with fromMemory := m.fromMemory ++ [message] }

/-- `kernel_scheduler_handler` of Kernel Memory: a process that cannot be created is
not answered for, and a segment is created by a thread of its own. -/
def Memory.serve (m : Memory) : ToMemory → Answer → Option Memory
  | .processCreate pid _, .ok ok => some (if ok then m.send (.processCreate pid) else m)
  | .processEnd _, _ => some m
  | .segmentCreate pid segmentId _, _ =>
      some { m with segmentThreads := m.segmentThreads ++ [(pid, segmentId)] }
  | .segmentDelete pid segmentId, .result result => some (m.send (.segmentResult pid segmentId result))
  | .ioMemoryRead pid _ _, .value value => some (m.send (.ioMemoryRead pid value))
  | .ioMemoryWrite pid _ _ _, .ok ok => some (m.send (.ioMemoryWrite pid ok))
  | .swapOut pid, .ok ok =>
      let suspended := if ok then m.listSuspendedProcesses ++ [pid] else m.listSuspendedProcesses
      some ({ m with listSuspendedProcesses := suspended }.send (.swapOut pid ok))
  | .swapIn pids, .desuspended oks =>
      let (desuspended, rest) := desuspend pids oks m.listSuspendedProcesses
      some ({ m with listSuspendedProcesses := rest }.send (.swapIn desuspended))
  | .compactionReady, _ => some { m with compactionSem := m.compactionSem + 1 }
  | _, _ => none

def Memory.step (m : Memory) : MemoryStep → Option Memory
  | .serve answer =>
      match m.toMemory with
      | [] => none
      | message :: rest => { m with toMemory := rest }.serve message answer
  | .segmentCreated i result =>
      match m.segmentThreads[i]? with
      | none => none
      | some (pid, segmentId) =>
          some ({ m with segmentThreads := m.segmentThreads.eraseIdx i }.send
            (.segmentResult pid segmentId result))
  | .memoryUpdate newSize => some (m.send (.memoryUpdate newSize))
  | .compactionRequest => if m.segmentThreads = [] then none else some (m.send .compactionRequest)
  | .compactionFinished =>
      if 0 < m.compactionSem then
        some ({ m with compactionSem := m.compactionSem - 1 }.send .compactionFinished)
      else none
  | .corruptedMemory => some (m.send .corruptedMemory)

/-! ### Compaction threads (`memory_manager.c`) -/

/-- What a `compaction_requested_thread` or a `memory_corrupted_thread` does. -/
inductive CompactionStep where
  /-- It runs up to its first `sem_wait`. -/
  | evictAll
  /-- It handles the next confirmation. -/
  | handleEvicted
  /-- It sends `COMPACTION_READY`. -/
  | compactionReady
  /-- It opens the scheduler again and ends. -/
  | reopen
  deriving DecidableEq, Repr

/-- Where a compaction thread is after a step. -/
def State.setCompaction (i : Nat) (now : Compaction ι) : State ι :=
  { s with compactions := s.compactions.set i now }

/-- A step of a compaction thread. After `CORRUPTED_MEMORY` the program ends when
every process is evicted. -/
def stepCompaction (i : Nat) : CompactionStep → Option (State ι)
  | .evictAll =>
      match s.compactions[i]? with
      | some (.requested reason) =>
          let (evicted, s') := evictAllProcesses reason s.execProcesses s
          some ({ s' with canSchedule := false }.setCompaction i (.evicting reason evicted))
      | _ => none
  | .handleEvicted =>
      match s.compactions[i]? with
      | some (.evicting reason (cpu :: rest)) =>
          if (s.cpu cpu).connection = .connected ∧ (s.cpu cpu).evictor = some .all ∧
              0 < (s.cpu cpu).responseSem then
            some ((handleEvicted config s cpu).setCompaction i (.evicting reason rest))
          else none
      | _ => none
  | .compactionReady =>
      match s.compactions[i]? with
      | some (.evicting .compaction []) =>
          some ((s.sendMemory .compactionReady).setCompaction i .ready)
      | _ => none
  | .reopen =>
      match s.compactions[i]? with
      | some .ready =>
          if 0 < s.compactionFinishedSem then
            some { s with
              canSchedule := true
              compactionFinishedSem := s.compactionFinishedSem - 1
              compactions := s.compactions.eraseIdx i }.postShortTerm
          else none
      | _ => none

/-! ### Steps -/

/-- What can happen next. -/
inductive Action (ι : Type) where
  /-- `system_timer` goes on. -/
  | tick
  /-- `kernel_memory_connection` creates the first process. -/
  | process0 (path : String)
  /-- A CPU connects. -/
  | connectCpu (cpu : ι)
  /-- A CPU does something. -/
  | cpu (cpu : ι) (step : CpuStep)
  /-- `cpu_handler` handles a message. -/
  | handleCpu (cpu : ι)
  /-- `handle_cpu_disconnection`. -/
  | disconnectCpu (cpu : ι)
  /-- `wait_confirmation_thread_and_handle_state`. -/
  | confirm (cpu : ι)
  /-- The short-term scheduler wakes up and reads `can_schedule`. -/
  | wake
  /-- One turn of its inner loop. -/
  | schedule
  /-- `quantum_manager` finds a process to evict. -/
  | quantum (pid : UInt32)
  /-- One pass of `suspension_manager`. -/
  | suspend
  /-- An IO device connects. -/
  | connectIo (io : Nat) (ioType : IoType)
  /-- An IO device answers. -/
  | handleIo (io : Nat) (value : String)
  /-- An IO device disconnects. -/
  | disconnectIo (io : Nat)
  /-- `wait_memory_write_confirmation`. -/
  | written (pid : UInt32)
  /-- Kernel Memory does something. -/
  | memory (step : MemoryStep)
  /-- `kernel_memory_handler` handles a message. -/
  | handleMemory
  /-- A compaction thread does something. -/
  | compaction (i : Nat) (step : CompactionStep)
  deriving DecidableEq, Repr

/-- One step of the scheduler or of what it is connected to. -/
def step : Action ι → Option (State ι)
  | .tick => some { s with now := s.now + 1 }
  | .process0 path => if s.listProcesses = [] then longTermScheduler s path 0 else none
  | .connectCpu cpu =>
      if (s.cpu cpu).connection = .absent then
        some { s.setCpu cpu fun _ => .create with listCpu := s.listCpu ++ [cpu] }.postShortTerm
      else none
  | .cpu cpu step => ((s.cpu cpu).step step).map fun c => s.setCpu cpu fun _ => c
  | .handleCpu cpu =>
      match (s.cpu cpu).toScheduler with
      | [] => none
      | message :: rest =>
          handleCpu config (s.setCpu cpu fun c => { c with toScheduler := rest }) cpu message
  | .disconnectCpu cpu =>
      if (s.cpu cpu).connection = .connected ∧ (s.cpu cpu).toScheduler = [] then
        some (handleCpuDisconnection config s cpu)
      else none
  | .confirm cpu =>
      if (s.cpu cpu).connection = .connected ∧ (s.cpu cpu).evictor = some .handleState ∧
          0 < (s.cpu cpu).responseSem then
        some (waitConfirmationThreadAndHandleState config s cpu)
      else none
  | .wake =>
      if s.inRound = false ∧ 0 < s.shortTermSchedulerSem then
        some { s with
          inRound := s.canSchedule
          shortTermSchedulerSem := s.shortTermSchedulerSem - 1 }
      else none
  | .schedule => if s.inRound then some (shortTermTurn config s) else none
  | .quantum pid =>
      if s.canSchedule ∧ pid ∈ s.execProcesses ∧ QuantumExpired config s (s.process pid) then
        some (evictProcess s (s.process pid).cpu .quantumExpired)
      else none
  | .suspend => some (suspensionManager config s)
  | .connectIo io ioType =>
      if (s.io io).connection = .absent then
        let s' := s.setIo io fun _ => ⟨ioType, .connected, true, []⟩
        some (handleNextOperation
          { s' with
            listIo := Function.update s.listIo ioType (s.listIo ioType ++ [io]) } io ioType)
      else none
  | .handleIo io value =>
      match (s.io io).requests with
      | [] => none
      | request :: rest =>
          some (handleIo config (s.setIo io fun d => { d with requests := rest }) io request value)
  | .disconnectIo io =>
      if (s.io io).connection = .connected then
        let ioType := (s.io io).ioType
        let s' := s.setIo io fun d => { d with connection := .closed, requests := [] }
        some { s' with listIo := Function.update s.listIo ioType ((s.listIo ioType).erase io) }
      else none
  | .written pid =>
      if pid ∈ s.writeThreads ∧ 0 < (s.process pid).memoryRequestSem then
        some (waitMemoryWriteConfirmation config
          { s with writeThreads := s.writeThreads.erase pid } pid)
      else none
  | .memory step => (s.memory.step step).map fun memory => { s with memory }
  | .handleMemory =>
      match s.memory.fromMemory with
      | [] => none
      | message :: rest => some (handleMemory config { s with memory.fromMemory := rest } message)
  | .compaction i step => stepCompaction config s i step

end OsModel.KernelScheduler
