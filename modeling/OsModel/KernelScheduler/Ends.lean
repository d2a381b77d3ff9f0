import OsModel.KernelScheduler.Handlers

/-!
What the Kernel Scheduler does not see of its connections.

A message that a CPU or Kernel Memory has read may still be unanswered, and what they have at
their ends of the connections is theirs. The handlers of the scheduler neither read nor change
any of this: they put their messages behind those that are there. So it can be attached to a
state before a step or after it (`step_attach`).
-/

namespace OsModel.KernelScheduler

variable {ι : Type}

/-! ### The far ends -/

/-- What is attached: messages in front of those under way to Kernel Memory and to the CPUs, and
what is at the other ends in place of what was there. -/
structure Ends (ι : Type) where
  requests : List ToMemory
  segmentThreads : List (UInt32 × UInt32) → List (UInt32 × UInt32)
  listSuspendedProcesses : List UInt32 → List UInt32
  compactionSem : Nat → Nat
  orders : ι → List ToCpu
  running : ι → Option UInt32 → Option UInt32

/-- Nothing is attached. -/
def Ends.none : Ends ι := ⟨[], id, id, id, fun _ => [], fun _ => id⟩

/-- A CPU that has come or gone has nothing. -/
def Ends.forget [DecidableEq ι] (e : Ends ι) (cpu : ι) : Ends ι :=
  { e with
    orders := Function.update e.orders cpu []
    running := Function.update e.running cpu id }

def Memory.attach (e : Ends ι) (m : Memory) : Memory :=
  { m with
    toMemory := e.requests ++ m.toMemory
    segmentThreads := e.segmentThreads m.segmentThreads
    listSuspendedProcesses := e.listSuspendedProcesses m.listSuspendedProcesses
    compactionSem := e.compactionSem m.compactionSem }

def Cpu.attach (orders : List ToCpu) (running : Option UInt32 → Option UInt32) (c : Cpu) : Cpu :=
  { c with toCpu := orders ++ c.toCpu, running := running c.running }

/-- The state with its far ends. -/
def State.attach (e : Ends ι) (s : State ι) : State ι :=
  { s with
    cpu := fun cpu => (s.cpu cpu).attach (e.orders cpu) (e.running cpu)
    memory := s.memory.attach e }

/-- What a step of the scheduler leaves attached. -/
def Ends.after [DecidableEq ι] (e : Ends ι) : Action ι → Ends ι
  | .connectCpu cpu | .disconnectCpu cpu => e.forget cpu
  | _ => e

/-! ### Writes -/

section Writes

variable {e : Ends ι} {s : State ι}

theorem setProcess_attach (pid : UInt32) (f : Process ι → Process ι) :
    (s.attach e).setProcess pid f = (s.setProcess pid f).attach e := rfl

theorem setMutex_attach (name : String) (f : Mutex → Mutex) :
    (s.attach e).setMutex name f = (s.setMutex name f).attach e := rfl

theorem setIo_attach (io : Nat) (f : Io → Io) :
    (s.attach e).setIo io f = (s.setIo io f).attach e := rfl

theorem postShortTerm_attach : (s.attach e).postShortTerm = s.postShortTerm.attach e := rfl

theorem sendMemory_attach (message : ToMemory) :
    (s.attach e).sendMemory message = (s.sendMemory message).attach e := by
  simp [State.sendMemory, State.attach, Memory.attach]

/-- A write to what the scheduler has of a CPU. -/
theorem setCpu_attach [DecidableEq ι] (cpu : ι) {f : Cpu → Cpu}
    (own : ∀ orders running c, f (c.attach orders running) = (f c).attach orders running) :
    (s.attach e).setCpu cpu f = (s.setCpu cpu f).attach e := by
  have same : Function.update (s.attach e).cpu cpu (f ((s.attach e).cpu cpu)) =
      ((s.setCpu cpu f).attach e).cpu := by
    funext other
    by_cases eq : other = cpu
    · subst eq
      simp [State.attach, State.setCpu, own]
    · simp [State.attach, State.setCpu, eq]
  rw [State.setCpu, same]
  rfl

/-- A CPU comes or goes: nothing of what was attached is left. -/
theorem setCpu_forget [DecidableEq ι] (cpu : ι) {f : Cpu → Cpu}
    (lost : ∀ orders running c, f (c.attach orders running) = f c) :
    (s.attach e).setCpu cpu f = (s.setCpu cpu f).attach (e.forget cpu) := by
  have same : Function.update (s.attach e).cpu cpu (f ((s.attach e).cpu cpu)) =
      ((s.setCpu cpu f).attach (e.forget cpu)).cpu := by
    funext other
    by_cases eq : other = cpu
    · subst eq
      simp only [State.attach, State.setCpu, Ends.forget, lost, Function.update_self]
      rfl
    · simp [State.attach, State.setCpu, Ends.forget, eq]
  rw [State.setCpu, same]
  rfl

end Writes

/-! ### Processes and queues -/

section Processes

variable {config : Config} {e : Ends ι} {s : State ι}

theorem attach_ite (c : Prop) [Decidable c] (t : State ι) :
    (if c then s else t).attach e = if c then s.attach e else t.attach e := by
  split <;> rfl

theorem map_attach_ite (c : Prop) [Decidable c] (s : State ι) :
    (if c then some s else none).map (State.attach e) = if c then some (s.attach e) else none := by
  split <;> rfl

theorem processSetState_attach (pid : UInt32) (state : ProcessState) :
    processSetState (s.attach e) pid state = (processSetState s pid state).attach e := rfl

theorem removeFromExec_attach (pid : UInt32) :
    removeFromExec (s.attach e) pid = (removeFromExec s pid).attach e := rfl

theorem addProcessToReadyQueue_attach (pid : UInt32) :
    addProcessToReadyQueue config (s.attach e) pid =
      (addProcessToReadyQueue config s pid).attach e := rfl

theorem addProcessAtStartOfReadyQueue_attach (pid : UInt32) :
    addProcessAtStartOfReadyQueue config (s.attach e) pid =
      (addProcessAtStartOfReadyQueue config s pid).attach e := by
  unfold addProcessAtStartOfReadyQueue
  cases config.schedulerAlgorithm <;> rfl

theorem removeProcessFromReadyQueue_attach (pid : UInt32) :
    removeProcessFromReadyQueue config (s.attach e) pid =
      (removeProcessFromReadyQueue config s pid).attach e := rfl

theorem makeReady_attach (pid : UInt32) :
    makeReady config (s.attach e) pid = (makeReady config s pid).attach e := rfl

theorem requeueWithPriority_attach (pid : UInt32) (newPriority : UInt8) :
    requeueWithPriority config (s.attach e) pid newPriority =
      (requeueWithPriority config s pid newPriority).attach e := by
  rw [requeueWithPriority, requeueWithPriority, attach_ite]
  rfl

theorem finishBlock_attach (pid : UInt32) :
    finishBlock config (s.attach e) pid = (finishBlock config s pid).attach e := by
  rw [finishBlock, finishBlock, attach_ite]
  rfl

end Processes

/-! ### Orders to the CPUs -/

section Orders

variable [DecidableEq ι] {config : Config} {e : Ends ι} {s : State ι}

theorem makeAvailable_attach (cpu : ι) :
    makeAvailable (s.attach e) cpu = (makeAvailable s cpu).attach e :=
  setCpu_attach cpu fun _ _ _ => rfl

/-- A message to a CPU is behind those that are attached. -/
theorem Cpu.order_attach (orders : List ToCpu) (running : Option UInt32 → Option UInt32) (c : Cpu)
    (message : ToCpu) :
    { c.attach orders running with toCpu := (c.attach orders running).toCpu ++ [message] } =
      Cpu.attach orders running { c with toCpu := c.toCpu ++ [message] } := by
  simp [Cpu.attach]

theorem sendPidToExecute_attach (pid : UInt32) (cpu : Option ι) :
    sendPidToExecute (s.attach e) pid cpu = (sendPidToExecute s pid cpu).attach e := by
  cases cpu with
  | none => rfl
  | some cpu =>
      simp only [sendPidToExecute, attach_ite]
      rw [← setCpu_attach cpu fun orders running c => Cpu.order_attach orders running c _]
      rfl

theorem sendProcessEvict_attach (reason : InterruptReason) (evictor : Evictor) (cpu : Option ι) :
    sendProcessEvict (s.attach e) reason evictor cpu =
      (sendProcessEvict s reason evictor cpu).map (State.attach e) := by
  cases cpu with
  | none => rfl
  | some cpu =>
      simp only [sendProcessEvict]
      split
      · rename_i refused
        have refused' : (s.cpu cpu).isEvicting ∨ (s.cpu cpu).connection ≠ .connected := refused
        rw [if_pos refused']
        rfl
      · rename_i reached
        have reached' : ¬ ((s.cpu cpu).isEvicting ∨ (s.cpu cpu).connection ≠ .connected) := reached
        rw [if_neg reached', setCpu_attach]
        · rfl
        · simp [Cpu.attach]

theorem evictProcess_attach (cpu : Option ι) (reason : InterruptReason) :
    evictProcess (s.attach e) cpu reason = (evictProcess s cpu reason).attach e := by
  rw [evictProcess, sendProcessEvict_attach, evictProcess]
  cases sendProcessEvict s reason .handleState cpu <;> rfl

theorem getProcessFromCpu_attach (cpu : ι) :
    getProcessFromCpu (s.attach e) cpu = getProcessFromCpu s cpu := rfl

theorem waitConfirmationThreadAndHandleState_attach (cpu : ι) :
    waitConfirmationThreadAndHandleState config (s.attach e) cpu =
      (waitConfirmationThreadAndHandleState config s cpu).attach e := by
  simp only [waitConfirmationThreadAndHandleState, getProcessFromCpu_attach]
  rw [setCpu_attach cpu fun _ _ _ => rfl]
  cases getProcessFromCpu s cpu with
  | none => rfl
  | some pid =>
      simp only [← postShortTerm_attach, attach_ite]
      rfl

theorem evictAllProcesses_attach (reason : InterruptReason) (pids : List UInt32) :
    evictAllProcesses reason pids (s.attach e) =
      (evictAllProcesses reason pids s).map id (State.attach e) := by
  induction pids generalizing s with
  | nil => rfl
  | cons pid rest ih =>
      have same : ((s.attach e).process pid).cpu = (s.process pid).cpu := rfl
      simp only [evictAllProcesses, sendProcessEvict_attach, same]
      cases (s.process pid).cpu with
      | none => exact ih
      | some cpu =>
          cases sendProcessEvict s reason .all (some cpu) with
          | none => exact ih
          | some s' => simp [ih]

theorem handleEvicted_attach (cpu : ι) :
    handleEvicted config (s.attach e) cpu = (handleEvicted config s cpu).attach e := by
  simp only [handleEvicted, getProcessFromCpu_attach]
  cases getProcessFromCpu s cpu with
  | none => exact setCpu_attach cpu fun _ _ _ => rfl
  | some pid =>
      simp only
      rw [← setCpu_attach cpu fun _ _ _ => rfl, attach_ite,
        ← addProcessAtStartOfReadyQueue_attach]
      rfl

end Orders

/-! ### Managers -/

section Managers

variable {config : Config} {e : Ends ι} {s : State ι}

theorem blockProcess_attach (pid : UInt32) :
    blockProcess (s.attach e) pid = (blockProcess s pid).attach e := rfl

theorem mutexCreate_attach (name : String) :
    mutexCreate (s.attach e) name = (mutexCreate s name).attach e := by
  have same : getMutexByName (s.attach e) name = getMutexByName s name := rfl
  rw [mutexCreate, mutexCreate, same]
  cases getMutexByName s name <;> rfl

theorem inheritPriority_attach (pid : UInt32) (owner : Option UInt32) :
    inheritPriority config (s.attach e) pid owner = (inheritPriority config s pid owner).attach e := by
  cases owner with
  | none => rfl
  | some owner =>
      simp only [inheritPriority, attach_ite, ← requeueWithPriority_attach]
      rfl

theorem mutexLock_attach [DecidableEq ι] (name : String) (pid : UInt32) :
    mutexLock config (s.attach e) name pid = (mutexLock config s name pid).attach e := by
  have process : (s.attach e).process pid = s.process pid := rfl
  have mutex : (s.attach e).mutex name = s.mutex name := rfl
  simp only [mutexLock, attach_ite, ← sendPidToExecute_attach, ← postShortTerm_attach, process,
    mutex, setMutex_attach, blockProcess_attach, inheritPriority_attach]
  cases (s.process pid).cpu with
  | none => rfl
  | some cpu => simp only [makeAvailable_attach]; rfl

theorem restorePriority_attach (pid : UInt32) :
    restorePriority config (s.attach e) pid = (restorePriority config s pid).attach e := by
  simp only [restorePriority, attach_ite, ← requeueWithPriority_attach]
  rfl

theorem handOver_attach (name : String) :
    handOver config (s.attach e) name = (handOver config s name).attach e := by
  have mutex : (s.attach e).mutex name = s.mutex name := rfl
  simp only [handOver, mutex]
  cases (s.mutex name).waitingProcesses with
  | nil => rfl
  | cons next rest =>
      simp only [attach_ite, setMutex_attach, setProcess_attach, finishBlock_attach]
      rfl

theorem mutexUnlock_attach [DecidableEq ι] (name : String) (pid : UInt32) :
    mutexUnlock config (s.attach e) name pid = (mutexUnlock config s name pid).attach e := by
  have process : (s.attach e).process pid = s.process pid := rfl
  simp only [mutexUnlock, attach_ite, process, sendPidToExecute_attach, setProcess_attach,
    restorePriority_attach, handOver_attach]
  rfl

theorem requestIo_attach (ioType : IoType) (request : IoRequest) :
    requestIo (s.attach e) ioType request = (requestIo s ioType request).attach e := by
  have same : getAvailableIoType (s.attach e) ioType = getAvailableIoType s ioType := rfl
  rw [requestIo, requestIo, same]
  cases getAvailableIoType s ioType <;> rfl

theorem sleepSyscallManager_attach [DecidableEq ι] (pid : UInt32) (cpu : ι) (sleepTime : UInt32) :
    sleepSyscallManager (s.attach e) pid cpu sleepTime =
      (sleepSyscallManager s pid cpu sleepTime).attach e := by
  rw [sleepSyscallManager, blockProcess_attach, makeAvailable_attach, requestIo_attach]
  rfl

theorem stdinSyscallManager_attach [DecidableEq ι] (pid : UInt32) (cpu : ι)
    (physicalAddress toRead : UInt32) :
    stdinSyscallManager (s.attach e) pid cpu physicalAddress toRead =
      (stdinSyscallManager s pid cpu physicalAddress toRead).attach e := by
  simp only [stdinSyscallManager, attach_ite, blockProcess_attach, makeAvailable_attach,
    ← requestIo_attach, ← sendMemory_attach]
  rfl

theorem stdoutSyscallManager_attach [DecidableEq ι] (pid : UInt32) (cpu : ι)
    (physicalAddress toRead : UInt32) :
    stdoutSyscallManager (s.attach e) pid cpu physicalAddress toRead =
      (stdoutSyscallManager s pid cpu physicalAddress toRead).attach e := by
  rw [stdoutSyscallManager, blockProcess_attach, makeAvailable_attach, sendMemory_attach]
  rfl

theorem stdoutWaitMemoryRead_attach [DecidableEq ι] (pid : UInt32) (value : String) :
    stdoutWaitMemoryRead (s.attach e) pid value = (stdoutWaitMemoryRead s pid value).attach e := by
  simp only [stdoutWaitMemoryRead, processSetState_attach, sendMemory_attach, ← attach_ite,
    requestIo_attach]

theorem waitMemoryWriteConfirmation_attach (pid : UInt32) :
    waitMemoryWriteConfirmation config (s.attach e) pid =
      (waitMemoryWriteConfirmation config s pid).attach e := by
  simp only [waitMemoryWriteConfirmation, ← postShortTerm_attach, ← finishBlock_attach]
  rfl

theorem ioFinishProcess_attach (pid : UInt32) (io : Nat) :
    ioFinishProcess config (s.attach e) pid io = (ioFinishProcess config s pid io).attach e := by
  simp only [ioFinishProcess, attach_ite, finishBlock_attach]
  rfl

theorem handleNextOperation_attach (io : Nat) (ioType : IoType) :
    handleNextOperation (s.attach e) io ioType = (handleNextOperation s io ioType).attach e := by
  have same : (s.attach e).pendingRequestIo ioType = s.pendingRequestIo ioType := rfl
  rw [handleNextOperation, handleNextOperation, same]
  cases s.pendingRequestIo ioType <;> rfl

theorem requestSegment_attach (pid : UInt32) (message : ToMemory) :
    requestSegment (s.attach e) pid message = (requestSegment s pid message).attach e := by
  rw [requestSegment, setProcess_attach, sendMemory_attach]
  rfl

theorem memAllocSyscallManager_attach [DecidableEq ι] (pid segmentId segmentSize : UInt32) :
    memAllocSyscallManager (s.attach e) pid segmentId segmentSize =
      (memAllocSyscallManager s pid segmentId segmentSize).attach e := by
  simp only [memAllocSyscallManager, attach_ite, ← requestSegment_attach]
  rfl

theorem memFreeSyscallManager_attach [DecidableEq ι] (pid segmentId : UInt32) :
    memFreeSyscallManager (s.attach e) pid segmentId =
      (memFreeSyscallManager s pid segmentId).attach e := by
  simp only [memFreeSyscallManager, attach_ite, ← requestSegment_attach]
  rfl

theorem terminateProcess_attach [DecidableEq ι] (pid : UInt32) (cpu : ι) :
    terminateProcess config (s.attach e) pid cpu = (terminateProcess config s pid cpu).attach e := by
  simp only [terminateProcess, setProcess_attach, removeFromExec_attach,
    removeProcessFromReadyQueue_attach, ← postShortTerm_attach, ← sendMemory_attach]
  rw [← setCpu_attach cpu fun _ _ _ => rfl]

theorem handleSegmentResult_attach [DecidableEq ι] (pid : UInt32) (result : SegmentResult) :
    handleSegmentResult config (s.attach e) pid result =
      (handleSegmentResult config s pid result).attach e := by
  have process : (s.attach e).process pid = s.process pid := rfl
  simp only [handleSegmentResult, attach_ite, process, setProcess_attach]
  cases (s.process pid).cpu with
  | none =>
      simp only [attach_ite, ← postShortTerm_attach, ← sendMemory_attach, ← makeReady_attach]
      rfl
  | some cpu =>
      simp only [attach_ite, ← sendPidToExecute_attach, ← terminateProcess_attach]
      rfl

end Managers

/-! ### Schedulers -/

section Schedulers

variable {config : Config} {e : Ends ι} {s : State ι}

theorem longTermScheduler_attach (path : String) (priority : UInt8) :
    longTermScheduler (s.attach e) path priority =
      (longTermScheduler s path priority).map (State.attach e) := by
  have max : (s.attach e).currentMaxPid = s.currentMaxPid := rfl
  have list : (s.attach e).listProcesses = s.listProcesses := rfl
  simp only [longTermScheduler, max, list, setProcess_attach, sendMemory_attach]
  split <;> rfl

theorem waitProcessCreateConfirmation_attach (pid : UInt32) :
    waitProcessCreateConfirmation config (s.attach e) pid =
      (waitProcessCreateConfirmation config s pid).attach e := by
  simp only [waitProcessCreateConfirmation, attach_ite, ← postShortTerm_attach, ← makeReady_attach]
  rfl

theorem suspensionScan_attach (pids : List UInt32) :
    suspensionScan config pids (s.attach e) =
      (suspensionScan config pids s).map id (Prod.map id (State.attach e)) := by
  induction pids generalizing s with
  | nil => rfl
  | cons pid rest ih =>
      have same : Expired config (s.attach e) ((s.attach e).process pid) ↔
          Expired config s (s.process pid) := Iff.rfl
      simp only [suspensionScan, same, processSetState_attach, ih]
      split <;> rfl

theorem suspensionManager_attach :
    suspensionManager config (s.attach e) = (suspensionManager config s).attach e := by
  have sends (pids : List UInt32) (t : State ι) :
      pids.foldl (fun s pid => s.sendMemory (.swapOut pid)) (t.attach e) =
        (pids.foldl (fun s pid => s.sendMemory (.swapOut pid)) t).attach e := by
    induction pids generalizing t with
    | nil => rfl
    | cons pid rest ih => rw [List.foldl_cons, sendMemory_attach, ih, List.foldl_cons]
  have blocked : (s.attach e).blockProcesses = s.blockProcesses := rfl
  simp only [suspensionManager, blocked, suspensionScan_attach, attach_ite, ← sends]
  rfl

theorem waitConfirmationSwapOut_attach (pid : UInt32) (ok : Bool) :
    waitConfirmationSwapOut config (s.attach e) pid ok =
      (waitConfirmationSwapOut config s pid ok).attach e := by
  have process : (s.attach e).process pid = s.process pid := rfl
  simp only [waitConfirmationSwapOut, process, attach_ite]
  cases (s.process pid).state <;> cases ok <;> rfl

theorem requestSwapIn_attach : requestSwapIn (s.attach e) = (requestSwapIn s).attach e := by
  simp only [requestSwapIn, attach_ite, ← sendMemory_attach]
  rfl

theorem swappedIn_attach (pid : UInt32) :
    swappedIn config (s.attach e) pid = (swappedIn config s pid).attach e := by
  have process : (s.attach e).process pid = s.process pid := rfl
  simp only [swappedIn, process, attach_ite]
  cases (s.process pid).state <;> rfl

theorem waitConfirmationSwapIn_attach (pids : List UInt32) :
    waitConfirmationSwapIn config (s.attach e) pids =
      (waitConfirmationSwapIn config s pids).attach e := by
  have all (pids : List UInt32) (t : State ι) :
      pids.foldl (swappedIn config) (t.attach e) = (pids.foldl (swappedIn config) t).attach e := by
    induction pids generalizing t with
    | nil => rfl
    | cons pid rest ih => rw [List.foldl_cons, swappedIn_attach, ih, List.foldl_cons]
  simp only [waitConfirmationSwapIn, all, attach_ite, ← postShortTerm_attach]
  rfl

theorem dispatch_attach [DecidableEq ι] (pid : UInt32) (cpu : ι) :
    dispatch config (s.attach e) pid cpu = (dispatch config s pid cpu).attach e := by
  simp only [dispatch, removeProcessFromReadyQueue_attach, ← sendPidToExecute_attach]
  rw [setCpu_attach cpu fun _ _ _ => rfl]
  rfl

theorem preempt_attach [DecidableEq ι] (pid : UInt32) :
    preempt config (s.attach e) pid = (preempt config s pid).attach e := by
  have same : getLowestPriorityProcess (s.attach e) (s.attach e).execProcesses =
      getLowestPriorityProcess s s.execProcesses := rfl
  simp only [preempt, same, attach_ite]
  cases getLowestPriorityProcess s s.execProcesses with
  | none => rfl
  | some lowest =>
      simp only [attach_ite, ← evictProcess_attach]
      rfl

theorem shortTermTurn_attach [DecidableEq ι] :
    shortTermTurn config (s.attach e) = (shortTermTurn config s).attach e := by
  have next : getNextProcessToExecute config (s.attach e) = getNextProcessToExecute config s := rfl
  have cpus : getAvailableCpu (s.attach e) = getAvailableCpu s := rfl
  rw [shortTermTurn, shortTermTurn, next, cpus]
  cases getNextProcessToExecute config s with
  | none => rfl
  | some pid =>
      cases getAvailableCpu s with
      | none => simp only [preempt_attach]; rfl
      | some cpu => exact dispatch_attach pid cpu

end Schedulers

/-! ### Handlers -/

section Handlers

variable {config : Config} {e : Ends ι} {s : State ι}

theorem endProcess_attach [DecidableEq ι] (pid : UInt32) (cpu : ι) :
    endProcess (s.attach e) pid cpu = (endProcess s pid cpu).attach e := by
  simp only [endProcess, ← postShortTerm_attach, ← sendMemory_attach, ← makeAvailable_attach,
    attach_ite]
  rfl

theorem unknownMutex_attach [DecidableEq ι] (pid : UInt32) (cpu : ι) :
    unknownMutex (s.attach e) pid cpu = (unknownMutex s pid cpu).attach e := by
  simp only [unknownMutex, makeAvailable_attach, removeFromExec_attach, processSetState_attach,
    sendMemory_attach, postShortTerm_attach]

theorem handleSyscall_attach [DecidableEq ι] (cpu : ι) (pid : UInt32) (syscall : Syscall) :
    handleSyscall config (s.attach e) cpu pid syscall =
      (handleSyscall config s cpu pid syscall).attach e := by
  have found (name : String) : getMutexByName (s.attach e) name = getMutexByName s name := rfl
  have list : (s.attach e).listProcesses = s.listProcesses := rfl
  cases syscall with
  | processEnd | segmentationFault => exact endProcess_attach pid cpu
  | mutexCreate name =>
      simp only [handleSyscall, mutexCreate_attach, sendPidToExecute_attach]
  | mutexLock name =>
      simp only [handleSyscall, found, list, attach_ite]
      cases getMutexByName s name with
      | none => simp only [unknownMutex_attach]
      | some mutex => simp only [mutexLock_attach]
  | mutexUnlock name =>
      simp only [handleSyscall, found, list, attach_ite]
      cases getMutexByName s name with
      | none => simp only [unknownMutex_attach]
      | some mutex => simp only [mutexUnlock_attach]
  | sleep sleepTime => simp only [handleSyscall, list, attach_ite, sleepSyscallManager_attach]
  | stdin physicalAddress toRead =>
      simp only [handleSyscall, list, attach_ite, stdinSyscallManager_attach]
  | stdout physicalAddress toRead =>
      simp only [handleSyscall, list, attach_ite, stdoutSyscallManager_attach]
  | memAlloc segmentId segmentSize => exact memAllocSyscallManager_attach ..
  | memFree segmentId => exact memFreeSyscallManager_attach ..

theorem handleCpu_attach [DecidableEq ι] (cpu : ι) (message : ToScheduler) :
    handleCpu config (s.attach e) cpu message =
      (handleCpu config s cpu message).map (State.attach e) := by
  cases message with
  | processCreate priority path => exact longTermScheduler_attach path _
  | syscall pid syscall => exact congrArg some (handleSyscall_attach cpu pid syscall)
  | confirmation => exact congrArg some (setCpu_attach cpu fun _ _ _ => rfl)

theorem handleIo_attach (io : Nat) (request : IoRequest) (value : String) :
    handleIo config (s.attach e) io request value = (handleIo config s io request value).attach e := by
  have device : (s.attach e).io io = s.io io := rfl
  have pending : (s.attach e).pendingIoStdinReading = s.pendingIoStdinReading := rfl
  simp only [handleIo, device, pending]
  cases (s.io io).ioType with
  | sleep | stdout => simp only [ioFinishProcess_attach, handleNextOperation_attach]
  | stdin =>
      simp only
      split
      · rfl
      · rw [← handleNextOperation_attach, ← setIo_attach, ← sendMemory_attach]
        rfl

theorem handleIoMemoryWrite_attach (pid : UInt32) (writeSuccesful : Bool) :
    handleIoMemoryWrite (s.attach e) pid writeSuccesful =
      (handleIoMemoryWrite s pid writeSuccesful).attach e := by
  simp only [handleIoMemoryWrite, setProcess_attach, processSetState_attach, sendMemory_attach,
    attach_ite]

theorem handleMemory_attach [DecidableEq ι] (message : FromMemory) :
    handleMemory config (s.attach e) message = (handleMemory config s message).attach e := by
  cases message with
  | processCreate pid => exact waitProcessCreateConfirmation_attach pid
  | segmentResult pid _ result => exact handleSegmentResult_attach pid result
  | ioMemoryRead pid value => exact stdoutWaitMemoryRead_attach pid value
  | ioMemoryWrite pid writeSuccesful => exact handleIoMemoryWrite_attach pid writeSuccesful
  | swapOut pid ok => exact waitConfirmationSwapOut_attach pid ok
  | swapIn pids => exact waitConfirmationSwapIn_attach pids
  | memoryUpdate => exact requestSwapIn_attach
  | compactionRequest | compactionFinished | corruptedMemory => rfl

theorem stepCompaction_attach [DecidableEq ι] (i : Nat) (now : CompactionStep) :
    stepCompaction config (s.attach e) i now =
      (stepCompaction config s i now).map (State.attach e) := by
  have compactions : (s.attach e).compactions = s.compactions := rfl
  cases now with
  | evictAll =>
      simp only [stepCompaction, compactions]
      split
      · simp only [evictAllProcesses_attach]
        rfl
      · rfl
  | handleEvicted =>
      simp only [stepCompaction, compactions]
      split
      · simp only [handleEvicted_attach, map_attach_ite]
        rfl
      · rfl
  | compactionReady =>
      simp only [stepCompaction, compactions]
      split
      · simp only [sendMemory_attach]
        rfl
      · rfl
  | reopen =>
      simp only [stepCompaction, compactions]
      split
      · simp only [map_attach_ite]
        rfl
      · rfl

theorem handleCpuDisconnection_attach [DecidableEq ι] (cpu : ι) :
    handleCpuDisconnection config (s.attach e) cpu =
      (handleCpuDisconnection config s cpu).attach (e.forget cpu) := by
  have moved (t : State ι) : (t.attach e).setCpu cpu
      (fun c => { c with connection := .closed, toCpu := [], running := none }) =
        (t.setCpu cpu fun c => { c with connection := .closed, toCpu := [], running := none }).attach
          (e.forget cpu) :=
    setCpu_forget cpu fun _ _ _ => rfl
  simp only [handleCpuDisconnection, getProcessFromCpu_attach]
  cases getProcessFromCpu s cpu with
  | none => simp only [moved]; rfl
  | some pid =>
      simp only [setProcess_attach, addProcessToReadyQueue_attach, removeFromExec_attach, moved]
      rfl

end Handlers

/-! ### Steps -/

variable [DecidableEq ι] {config : Config} {e : Ends ι} {s : State ι}

/-- **The scheduler does not see its far ends.** -/
theorem step_attach {a : Action ι} (cpus : ∀ cpu now, a ≠ .cpu cpu now)
    (memory : ∀ now, a ≠ .memory now) :
    step config (s.attach e) a = (step config s a).map (State.attach (e.after a)) := by
  cases a with
  | cpu cpu now => exact absurd rfl (cpus cpu now)
  | memory now => exact absurd rfl (memory now)
  | tick => rfl
  | process0 path =>
      simp only [step, longTermScheduler_attach, apply_ite (Option.map _)]
      rfl
  | connectCpu cpu =>
      have fresh : (s.attach e).setCpu cpu (fun _ => .create) =
          (s.setCpu cpu fun _ => .create).attach (e.forget cpu) :=
        setCpu_forget cpu fun _ _ _ => rfl
      simp only [step, fresh, map_attach_ite]
      rfl
  | handleCpu cpu =>
      have messages : ((s.attach e).cpu cpu).toScheduler = (s.cpu cpu).toScheduler := rfl
      simp only [step, messages]
      cases (s.cpu cpu).toScheduler with
      | nil => rfl
      | cons message rest =>
          simp only
          rw [setCpu_attach cpu fun _ _ _ => rfl]
          exact handleCpu_attach cpu message
  | disconnectCpu cpu =>
      simp only [step, handleCpuDisconnection_attach, map_attach_ite]
      rfl
  | confirm cpu =>
      simp only [step, waitConfirmationThreadAndHandleState_attach, map_attach_ite]
      rfl
  | wake =>
      simp only [step, map_attach_ite]
      rfl
  | schedule =>
      simp only [step, shortTermTurn_attach, map_attach_ite]
      rfl
  | quantum pid =>
      simp only [step, evictProcess_attach, map_attach_ite]
      rfl
  | suspend => exact congrArg some suspensionManager_attach
  | connectIo io ioType =>
      simp only [step, setIo_attach, map_attach_ite, ← handleNextOperation_attach]
      rfl
  | handleIo io value =>
      have requests : ((s.attach e).io io).requests = (s.io io).requests := rfl
      simp only [step, requests]
      cases (s.io io).requests with
      | nil => rfl
      | cons request rest =>
          simp only [setIo_attach]
          rw [handleIo_attach]
          rfl
  | disconnectIo io =>
      simp only [step, map_attach_ite]
      rfl
  | written pid =>
      simp only [step, map_attach_ite, ← waitMemoryWriteConfirmation_attach]
      rfl
  | handleMemory =>
      have messages : (s.attach e).memory.fromMemory = s.memory.fromMemory := rfl
      simp only [step, messages]
      cases s.memory.fromMemory with
      | nil => rfl
      | cons message rest =>
          have read : ({ s.attach e with memory.fromMemory := rest } : State ι) =
              ({ s with memory.fromMemory := rest } : State ι).attach e := rfl
          simp only
          rw [read, handleMemory_attach]
          rfl
  | compaction i now => exact stepCompaction_attach i now

end OsModel.KernelScheduler
