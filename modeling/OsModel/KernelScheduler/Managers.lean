import OsModel.KernelScheduler.Processes

/-!
The managers of the Kernel Scheduler (`kernel_scheduler/src/managers`): mutexes, IO
devices and memory.
-/

namespace OsModel.KernelScheduler

variable {ι : Type} [DecidableEq ι] (config : Config) (s : State ι)

/-- A process that runs leaves `exec_processes` and its CPU, and waits. -/
def blockProcess (pid : UInt32) : State ι :=
  let s' := (removeFromExec s pid).setProcess pid fun p =>
    { p with state := .block, cpu := none, startBlockTime := s.now }
  { s' with blockProcesses := s'.blockProcesses ++ [pid] }

/-! ### Mutexes (`mutex_manager.c`) -/

def stringEqualsIgnoreCase (a b : String) : Bool := a.toLower == b.toLower

def getMutexByName (name : String) : Option String :=
  s.listMutexes.find? fun m => stringEqualsIgnoreCase m name

/-- `mutex_create`: a mutex that exists stays as it is. -/
def mutexCreate (name : String) : State ι :=
  match getMutexByName s name with
  | some _ => s
  | none =>
      { s.setMutex name fun _ => ⟨false, none, []⟩ with listMutexes := s.listMutexes ++ [name] }

/-- The owner of a mutex inherits the priority of a process that comes to wait. -/
def inheritPriority (pid : UInt32) : Option UInt32 → State ι
  | none => s
  | some owner =>
      if config.schedulerAlgorithm = .cmn ∧
          (s.process pid).effectivePriority < (s.process owner).effectivePriority then
        requeueWithPriority config s owner (s.process pid).effectivePriority
      else s

def mutexLock (name : String) (pid : UInt32) : State ι :=
  let mutex := s.mutex name
  let cpu := (s.process pid).cpu
  if mutex.isLocked = false then
    let s' := s.setMutex name fun m => { m with isLocked := true, lockedBy := some pid }
    sendPidToExecute
      (s'.setProcess pid fun p => { p with ownedMutexes := p.ownedMutexes ++ [name] }) pid cpu
  else if mutex.lockedBy = some pid then sendPidToExecute s pid cpu
  else
    let s' := s.setMutex name fun m => { m with waitingProcesses := m.waitingProcesses ++ [pid] }
    let s'' := inheritPriority config (blockProcess s' pid) pid mutex.lockedBy
    (match cpu with
      | none => s''
      | some cpu => makeAvailable s'' cpu).postShortTerm

/-- The priority of a process that has released a mutex: its own, or a higher one of
a process that waits for a mutex it still has. -/
def restoredPriority (p : Process ι) : UInt8 :=
  p.ownedMutexes.foldl (fun priority owned =>
    (s.mutex owned).waitingProcesses.foldl (fun priority waiting =>
      if (s.process waiting).effectivePriority < priority then
        (s.process waiting).effectivePriority
      else priority) priority) p.basePriority

/-- The releasing process gets back its priority. -/
def restorePriority (pid : UInt32) : State ι :=
  let newPriority := restoredPriority s (s.process pid)
  if config.schedulerAlgorithm = .cmn ∧ newPriority ≠ (s.process pid).effectivePriority then
    requeueWithPriority config s pid newPriority
  else s

/-- A mutex without an owner goes to the first process that waits for it. -/
def handOver (name : String) : State ι :=
  match (s.mutex name).waitingProcesses with
  | [] => s.setMutex name fun m => { m with isLocked := false, lockedBy := none }
  | next :: rest =>
      let s' := s.setMutex name fun _ => ⟨true, some next, rest⟩
      let s'' := finishBlock config
        (s'.setProcess next fun p => { p with ownedMutexes := p.ownedMutexes ++ [name] }) next
      if (s''.process next).state = .ready then s''.postShortTerm else s''

/-- `mutex_unlock`: a mutex that the process does not have stays as it is, and
nothing is sent. -/
def mutexUnlock (name : String) (pid : UInt32) : State ι :=
  if (s.mutex name).lockedBy = some pid then
    let s' := (sendPidToExecute s pid (s.process pid).cpu).setProcess pid fun p =>
      { p with ownedMutexes := p.ownedMutexes.erase name }
    handOver config (restorePriority config s' pid) name
  else s

/-! ### IO (`io_manager.c`) -/

def getAvailableIoType (ioType : IoType) : Option Nat :=
  (s.listIo ioType).find? fun io => (s.io io).isAvailable

/-- `io_numeric_process_send` and `io_string_process_send`, after
`io->is_available = false`. -/
def ioProcessSend (io : Nat) (request : IoRequest) : State ι :=
  s.setIo io fun d => { d with isAvailable := false, requests := d.requests ++ [request] }

/-- A request goes to an available device, or waits for one. -/
def requestIo (ioType : IoType) (request : IoRequest) : State ι :=
  (match getAvailableIoType s ioType with
    | some io => ioProcessSend s io request
    | none =>
        { s with
          pendingRequestIo :=
            Function.update s.pendingRequestIo ioType
              (s.pendingRequestIo ioType ++ [request]) }).postShortTerm

def sleepSyscallManager (pid : UInt32) (cpu : ι) (sleepTime : UInt32) : State ι :=
  requestIo (makeAvailable (blockProcess s pid) cpu) .sleep (.numeric pid sleepTime)

/-- `stdin_syscall_manager`: with nothing to read the process ends, with its CPU. -/
def stdinSyscallManager (pid : UInt32) (cpu : ι) (physicalAddress toRead : UInt32) : State ι :=
  if toRead = 0 then
    (processSetState (removeFromExec s pid) pid .exit).sendMemory (.processEnd pid)
  else
    let s' := makeAvailable (blockProcess s pid) cpu
    requestIo
      { s' with
        pendingIoStdinReading := s.pendingIoStdinReading ++ [⟨pid, physicalAddress, toRead⟩] }
      .stdin (.numeric pid toRead)

def stdoutSyscallManager (pid : UInt32) (cpu : ι) (physicalAddress toRead : UInt32) : State ι :=
  (makeAvailable (blockProcess s pid) cpu).sendMemory (.ioMemoryRead pid physicalAddress toRead)

/-- `stdout_wait_memory_read`: an empty value ends the process, and the request is
sent all the same. -/
def stdoutWaitMemoryRead (pid : UInt32) (value : String) : State ι :=
  let s' :=
    if value = "" then (processSetState s pid .exit).sendMemory (.processEnd pid) else s
  requestIo s' .stdout (.string pid value)

/-- `wait_memory_write_confirmation`, after `sem_wait`. -/
def waitMemoryWriteConfirmation (pid : UInt32) : State ι :=
  (finishBlock config
    (s.setProcess pid fun p => { p with memoryRequestSem := p.memoryRequestSem - 1 })
    pid).postShortTerm

def ioFinishProcess (pid : UInt32) (io : Nat) : State ι :=
  if pid ∈ s.listProcesses then
    ((finishBlock config s pid).setIo io fun d => { d with isAvailable := true }).postShortTerm
  else s

def handleNextOperation (io : Nat) (ioType : IoType) : State ι :=
  match s.pendingRequestIo ioType with
  | [] => s
  | request :: rest =>
      ioProcessSend { s with pendingRequestIo := Function.update s.pendingRequestIo ioType rest }
        io request

/-! ### Memory (`memory_manager.c`) -/

/-- A `SEGMENT_CREATE` or `SEGMENT_DELETE` of a process that stays with its CPU. -/
def requestSegment (pid : UInt32) (message : ToMemory) : State ι :=
  (s.setProcess pid fun p => { p with pendingMemorySyscall := true }).sendMemory message

/-- `mem_alloc_syscall_manager`: a segment of size zero is not asked for. -/
def memAllocSyscallManager (pid segmentId segmentSize : UInt32) : State ι :=
  if pid ∈ s.listProcesses ∧ segmentSize ≠ 0 then
    requestSegment s pid (.segmentCreate pid segmentId segmentSize)
  else s

def memFreeSyscallManager (pid segmentId : UInt32) : State ι :=
  if pid ∈ s.listProcesses then requestSegment s pid (.segmentDelete pid segmentId) else s

/-- The end of `handle_segment_result` for a process that has a CPU. -/
def terminateProcess (pid : UInt32) (cpu : ι) : State ι :=
  let s' := removeFromExec (s.setProcess pid fun p => { p with state := .exit, cpu := none }) pid
  (((removeProcessFromReadyQueue config s' pid).setCpu cpu fun c =>
    { c with isAvailable := c.isAvailable || !c.isEvicting }).sendMemory
      (.processEnd pid)).postShortTerm

def handleSegmentResult (pid : UInt32) (result : SegmentResult) : State ι :=
  if pid ∈ s.listProcesses then
    let s' := s.setProcess pid fun p => { p with pendingMemorySyscall := false }
    match (s.process pid).cpu with
    | none =>
        if result = .segmentOk then
          if (s.process pid).state = .exec then (makeReady config s' pid).postShortTerm else s'
        else
          ((removeFromExec (processSetState s' pid .exit) pid).sendMemory
            (.processEnd pid)).postShortTerm
    | some cpu =>
        if result = .segmentOk then sendPidToExecute s' pid (some cpu)
        else terminateProcess config s' pid cpu
  else s

end OsModel.KernelScheduler
