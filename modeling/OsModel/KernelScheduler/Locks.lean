import OsModel.Lib.Locks

/-!
The locks of the kernel scheduler: what each of its threads does with them.

A function is modelled by the locks that it takes and gives back, by the functions that it
calls, and by where it waits: for a message, for a semaphore, or for time to pass. Which way
its branches go, and which process, CPU or IO device they are about, is left open. What is
sent goes out at once.

The mutexes of the list of mutexes, of one mutex, and of the scheduler are taken in this
order, as `mutex_manager.c` asks; below them come the other lists, then the record of a
client, and its connection last. No thread waits while it has a lock. So, with any number of
CPUs, IO devices and threads that wait for confirmations, no threads wait for each other in a
circle, and behind each lock that is taken some thread can go on
(`no_circle_of_scheduler_locks`).
-/

namespace OsModel.KernelScheduler.Locks

open OsModel.Lib.Locks

/-- The modules that the scheduler has connections with. -/
inductive Client where
  | kernelMemory
  | cpu (i : ℕ)
  | io (i : ℕ)
  deriving DecidableEq

inductive Lock where
  | listMutexMutex
  | mutexInternalMutex (mutex : ℕ)
  | schedulerMutex
  | canScheduleMutex
  | blockProcessesMutex
  | suspendedProcessesMutex
  | pendingIoStdinReadingMutex
  | ioMutex
  | ioIdMutex
  | internalMutex (client : Client)
  | networkMutex (client : Client)
  deriving DecidableEq

def Lock.rank : Lock → ℕ
  | listMutexMutex => 0
  | mutexInternalMutex _ => 1
  | schedulerMutex => 2
  | canScheduleMutex | blockProcessesMutex | suspendedProcessesMutex
  | pendingIoStdinReadingMutex | ioMutex | ioIdMutex => 3
  | internalMutex _ => 4
  | networkMutex _ => 5

def order : Order Lock where
  rank := Lock.rank
  patient _ := False
  top := 5
  bounded l := by cases l <;> simp [Lock.rank]

@[grind =]
theorem order_rank (l : Lock) : order.rank l = l.rank := rfl

attribute [grind =] Lock.rank

/-! ### Messages, semaphores and time -/

abbrev operationReceive : Code Lock := .wait

abbrev bufferReceive : Code Lock := .wait

abbrev semWait : Code Lock := .wait

abbrev usleep : Code Lock := .wait

/-- A package for a client. Every function that sends one comes to this. -/
def packageSend (client : Client) : Code Lock := .critical (.networkMutex client)

theorem packageSend_fits (client : Client) : (packageSend client).Fits order (order.Below 5) := by
  apply Code.Fits.critical
  grind

/-- The client gets its number while the lock is taken again. -/
def idAssigner : Code Lock := .block [.critical .ioIdMutex, .critical .ioIdMutex]

theorem idAssigner_fits : idAssigner.Fits order (order.Below 3) := by
  intro held allowed
  have assigned : (Code.critical Lock.ioIdMutex).Fits order (order.Below 3) := by
    apply Code.Fits.critical
    grind
  exact .call assigned allowed (.call assigned allowed .nil)

theorem internalMutex_fits (client : Client) :
    (Code.critical (Lock.internalMutex client)).Fits order (order.Below 4) := by
  apply Code.Fits.critical
  grind

theorem schedulerMutex_fits : (Code.critical Lock.schedulerMutex).Fits order (order.Below 2) := by
  apply Code.Fits.critical
  grind

theorem blockProcessesMutex_fits :
    (Code.critical Lock.blockProcessesMutex).Fits order (order.Below 3) := by
  apply Code.Fits.critical
  grind

theorem suspendedProcessesMutex_fits :
    (Code.critical Lock.suspendedProcessesMutex).Fits order (order.Below 3) := by
  apply Code.Fits.critical
  grind

/-! ### `utils.c` -/

/-- What is sent to a CPU unless it is evicting. -/
def sendUnlessEvicting (cpu : Client) : Code Lock :=
  .either
    [] -- there is no CPU
    [.lock (.internalMutex cpu),
      .either
        [.unlock (.internalMutex cpu)]
        [.unlock (.internalMutex cpu), packageSend cpu]]

theorem sendUnlessEvicting_fits (cpu : Client) :
    (sendUnlessEvicting cpu).Fits order (order.Below 4) := by
  intro held allowed
  apply Code.Has.either
  · exact .nil
  · apply Code.Has.lock
    · grind
    · apply Code.Has.last
      apply Code.Has.either
      · exact .unlock .nil
      · apply Code.Has.unlock
        exact .call (packageSend_fits cpu) (by grind) .nil

def sendProcessEvict (cpu : Client) : Code Lock := sendUnlessEvicting cpu

def sendPidToExecute (cpu : Client) : Code Lock := sendUnlessEvicting cpu

/-- The thread that waits for the confirmation is one of the others. -/
def evictProcess (cpu : Client) : Code Lock := sendProcessEvict cpu

def waitConfirmationThreadAndHandleState (cpu : Client) : Code Lock :=
  .block
    [semWait,
      .lock .schedulerMutex,
      .either
        [.critical (.internalMutex cpu),
          .either
            [.unlock .schedulerMutex]
            [.unlock .schedulerMutex]]
        [.critical (.internalMutex cpu), .unlock .schedulerMutex]]

theorem waitConfirmationThreadAndHandleState_has (cpu : Client) :
    (waitConfirmationThreadAndHandleState cpu).Has order [] [] := by
  apply Code.Has.idle
  apply Code.Has.lock
  · simp
  · apply Code.Has.last
    have available := internalMutex_fits cpu
    apply Code.Has.either
    · apply Code.Has.call available (by grind)
      apply Code.Has.last
      exact .either (.unlock .nil) (.unlock .nil)
    · apply Code.Has.call available (by grind)
      exact .unlock .nil

def waitConfirmationThread (cpu : Client) : Code Lock :=
  .block
    [semWait,
      .lock .schedulerMutex,
      .either
        [.critical (.internalMutex cpu)]
        [],
      .unlock .schedulerMutex]

theorem waitConfirmationThread_has (cpu : Client) :
    (waitConfirmationThread cpu).Has order [] [] := by
  apply Code.Has.idle
  apply Code.Has.lock
  · simp
  · apply Code.Has.seq
    · apply Code.Has.either
      · exact .call (internalMutex_fits cpu) (by grind) .nil
      · exact .nil
    · exact .unlock .nil

def evictAllProcesses : Code Lock :=
  .block
    [.lock .schedulerMutex,
      .either
        [.unlock .schedulerMutex] -- no process is executed
        [.unlock .schedulerMutex,
          .loop (.any fun i => sendProcessEvict (.cpu i)),
          .loop (.any fun i => .block
            [semWait,
              .lock .schedulerMutex,
              .either
                [.critical (.internalMutex (.cpu i))]
                [],
              .unlock .schedulerMutex])]]

theorem evictAllProcesses_has : evictAllProcesses.Has order [] [] := by
  apply Code.Has.lock
  · simp
  · apply Code.Has.last
    apply Code.Has.either
    · exact .unlock .nil
    · apply Code.Has.unlock
      have evicts := (Code.Fits.any fun i => sendUnlessEvicting_fits (.cpu i)).loop.thread
      apply Code.Has.seq evicts
      apply Code.Has.last
      apply Code.Has.loop
      apply Code.Has.any
      intro i
      exact waitConfirmationThread_has (.cpu i)

def canScheduleGet : Code Lock := .critical .canScheduleMutex

theorem canScheduleGet_fits : canScheduleGet.Fits order (order.Below 3) := by
  apply Code.Fits.critical
  grind

def canScheduleWrite : Code Lock :=
  .block [.lock .schedulerMutex, .critical .canScheduleMutex, .unlock .schedulerMutex]

theorem canScheduleWrite_fits : canScheduleWrite.Fits order (order.Below 2) := by
  intro held allowed
  apply Code.Has.lock
  · grind
  · apply Code.Has.call canScheduleGet_fits
    · grind
    · exact .unlock .nil

/-! ### `io_manager.c` -/

/-- A process gets into the list of blocked ones, or out of it. -/
def moveBlocked : Code Lock :=
  .block [.lock .schedulerMutex, .critical .blockProcessesMutex, .unlock .schedulerMutex]

theorem moveBlocked_fits : moveBlocked.Fits order (order.Below 2) := by
  intro held allowed
  apply Code.Has.lock
  · grind
  · apply Code.Has.call blockProcessesMutex_fits
    · grind
    · exact .unlock .nil

/-- A request goes to a device that is free, or waits until there is one. -/
def sendToAvailableIo : Code Lock :=
  .block
    [.lock .ioMutex,
      .either
        [.any fun i => .block
          [.critical (.internalMutex (.io i)), .unlock .ioMutex, packageSend (.io i)]]
        [.unlock .ioMutex]]

theorem sendToAvailableIo_fits : sendToAvailableIo.Fits order (order.Below 3) := by
  intro held allowed
  apply Code.Has.lock
  · grind
  · apply Code.Has.last
    apply Code.Has.either
    · apply Code.Has.last
      apply Code.Has.any
      intro i
      apply Code.Has.call (internalMutex_fits (.io i))
      · grind
      · apply Code.Has.unlock
        exact .call (packageSend_fits (.io i)) (by grind) .nil
    · exact .unlock .nil

def sleepSyscallManager (cpu : Client) : Code Lock :=
  .block [moveBlocked, .critical (.internalMutex cpu), sendToAvailableIo]

theorem sleepSyscallManager_fits (cpu : Client) :
    (sleepSyscallManager cpu).Fits order (order.Below 2) := by
  intro held allowed
  apply Code.Has.call moveBlocked_fits allowed
  apply Code.Has.call (internalMutex_fits cpu)
  · grind
  · exact .call sendToAvailableIo_fits (by grind) .nil

def stdinSyscallManager (cpu : Client) : Code Lock :=
  .block
    [.lock .schedulerMutex,
      .either
        [.unlock .schedulerMutex, packageSend .kernelMemory] -- nothing is to be read
        [.critical .blockProcessesMutex,
          .unlock .schedulerMutex,
          .critical (.internalMutex cpu),
          .critical .pendingIoStdinReadingMutex,
          sendToAvailableIo]]

theorem stdinSyscallManager_fits (cpu : Client) :
    (stdinSyscallManager cpu).Fits order (order.Below 2) := by
  intro held allowed
  have pending : (Code.critical Lock.pendingIoStdinReadingMutex).Fits order (order.Below 3) := by
    apply Code.Fits.critical
    grind
  apply Code.Has.lock
  · grind
  · apply Code.Has.last
    apply Code.Has.either
    · apply Code.Has.unlock
      exact .call (packageSend_fits _) (by grind) .nil
    · apply Code.Has.call blockProcessesMutex_fits (by grind)
      apply Code.Has.unlock
      apply Code.Has.call (internalMutex_fits cpu) (by grind)
      apply Code.Has.call pending (by grind)
      exact .call sendToAvailableIo_fits (by grind) .nil

def stdoutSyscallManager (cpu : Client) : Code Lock :=
  .block [moveBlocked, .critical (.internalMutex cpu), packageSend .kernelMemory]

theorem stdoutSyscallManager_fits (cpu : Client) :
    (stdoutSyscallManager cpu).Fits order (order.Below 2) := by
  intro held allowed
  apply Code.Has.call moveBlocked_fits allowed
  apply Code.Has.call (internalMutex_fits cpu)
  · grind
  · exact .call (packageSend_fits _) (by grind) .nil

def waitMemoryWriteConfirmation : Code Lock :=
  .block [semWait, .either [moveBlocked] []]

theorem waitMemoryWriteConfirmation_has : waitMemoryWriteConfirmation.Has order [] [] := by
  apply Code.Has.idle
  apply Code.Has.last
  apply Code.Has.either
  · exact .last moveBlocked_fits.thread
  · exact .nil

def stdoutWaitMemoryRead : Code Lock :=
  .block [.either [packageSend .kernelMemory] [], sendToAvailableIo]

theorem stdoutWaitMemoryRead_fits : stdoutWaitMemoryRead.Fits order (order.Below 3) := by
  intro held allowed
  apply Code.Has.seq
  · apply Code.Has.either
    · exact .call (packageSend_fits _) (by grind) .nil
    · exact .nil
  · exact .call sendToAvailableIo_fits allowed .nil

def ioFinishProcess (io : Client) : Code Lock :=
  .block
    [.lock .schedulerMutex,
      .either
        [.critical .blockProcessesMutex,
          .unlock .schedulerMutex,
          .critical (.internalMutex io)]
        [.unlock .schedulerMutex]]

theorem ioFinishProcess_fits (io : Client) : (ioFinishProcess io).Fits order (order.Below 2) := by
  intro held allowed
  apply Code.Has.lock
  · grind
  · apply Code.Has.last
    apply Code.Has.either
    · apply Code.Has.call blockProcessesMutex_fits (by grind)
      apply Code.Has.unlock
      exact .call (internalMutex_fits io) (by grind) .nil
    · exact .unlock .nil

/-- The same for each type of device; for another type nothing is done. -/
def handleNextOperation (io : Client) : Code Lock :=
  .either
    [.lock .ioMutex,
      .either
        [.unlock .ioMutex] -- nothing is pending
        [.critical (.internalMutex io), .unlock .ioMutex, packageSend io]]
    []

theorem handleNextOperation_fits (io : Client) :
    (handleNextOperation io).Fits order (order.Below 3) := by
  intro held allowed
  apply Code.Has.either
  · apply Code.Has.lock
    · grind
    · apply Code.Has.last
      apply Code.Has.either
      · exact .unlock .nil
      · apply Code.Has.call (internalMutex_fits io) (by grind)
        apply Code.Has.unlock
        exact .call (packageSend_fits io) (by grind) .nil
  · exact .nil

/-! ### `mutex_manager.c` -/

def getMutexByName : Code Lock := .critical .listMutexMutex

theorem getMutexByName_fits : getMutexByName.Fits order (order.Below 0) := by
  apply Code.Fits.critical
  grind

def mutexCreate : Code Lock :=
  .block [getMutexByName, .either [] [.critical .listMutexMutex]]

theorem mutexCreate_fits : mutexCreate.Fits order (order.Below 0) := by
  intro held allowed
  apply Code.Has.call getMutexByName_fits allowed
  apply Code.Has.last
  apply Code.Has.either
  · exact .nil
  · exact .call getMutexByName_fits allowed .nil

def mutexLock (mutex : ℕ) (cpu : Client) : Code Lock :=
  .block
    [.lock (.mutexInternalMutex mutex),
      .either
        [.critical .schedulerMutex,
          .unlock (.mutexInternalMutex mutex),
          sendPidToExecute cpu]
        [.either
          [.unlock (.mutexInternalMutex mutex), sendPidToExecute cpu] -- it is the owner's
          [moveBlocked,
            .unlock (.mutexInternalMutex mutex),
            .critical (.internalMutex cpu)]]]

theorem mutexLock_fits (mutex : ℕ) (cpu : Client) :
    (mutexLock mutex cpu).Fits order (order.Below 1) := by
  intro held allowed
  have send := sendUnlessEvicting_fits cpu
  apply Code.Has.lock
  · grind
  · apply Code.Has.last
    apply Code.Has.either
    · apply Code.Has.call schedulerMutex_fits (by grind)
      apply Code.Has.unlock
      exact .call send (by grind) .nil
    · apply Code.Has.last
      apply Code.Has.either
      · apply Code.Has.unlock
        exact .call send (by grind) .nil
      · apply Code.Has.call moveBlocked_fits (by grind)
        apply Code.Has.unlock
        exact .call (internalMutex_fits cpu) (by grind) .nil

/-- The process that gives the mutex back goes on before its priority is set, while the mutex
is still locked here. -/
def mutexUnlock (mutex : ℕ) (cpu : Client) : Code Lock :=
  .block
    [.lock (.mutexInternalMutex mutex),
      .either
        [.unlock (.mutexInternalMutex mutex)] -- it is nobody's, or another process's
        [sendPidToExecute cpu,
          .critical .schedulerMutex,
          .either
            [moveBlocked, .unlock (.mutexInternalMutex mutex)]
            [.unlock (.mutexInternalMutex mutex)]]]

theorem mutexUnlock_fits (mutex : ℕ) (cpu : Client) :
    (mutexUnlock mutex cpu).Fits order (order.Below 1) := by
  intro held allowed
  apply Code.Has.lock
  · grind
  · apply Code.Has.last
    apply Code.Has.either
    · exact .unlock .nil
    · apply Code.Has.call (sendUnlessEvicting_fits cpu) (by grind)
      apply Code.Has.call schedulerMutex_fits (by grind)
      apply Code.Has.last
      apply Code.Has.either
      · apply Code.Has.call moveBlocked_fits (by grind)
        exact .unlock .nil
      · exact .unlock .nil

/-! ### `memory_manager.c` -/

/-- A request to create a segment or to delete one. -/
def memSyscallManager : Code Lock :=
  .either [] [.critical .schedulerMutex, packageSend .kernelMemory]

theorem memSyscallManager_fits : memSyscallManager.Fits order (order.Below 2) := by
  intro held allowed
  apply Code.Has.either
  · exact .nil
  · apply Code.Has.call schedulerMutex_fits allowed
    exact .call (packageSend_fits _) (by grind) .nil

def memAllocSyscallManager : Code Lock := memSyscallManager

def memFreeSyscallManager : Code Lock := memSyscallManager

def handleSegmentResult : Code Lock :=
  .either
    []
    [.lock .schedulerMutex,
      .either
        [.either -- the process has no CPU any more
          [.either
            [.unlock .schedulerMutex]
            [.unlock .schedulerMutex]]
          [.unlock .schedulerMutex, packageSend .kernelMemory]]
        [.unlock .schedulerMutex,
          .any fun i => .either
            [sendPidToExecute (.cpu i)]
            [.critical .schedulerMutex,
              .critical (.internalMutex (.cpu i)),
              packageSend .kernelMemory]]]

theorem handleSegmentResult_fits : handleSegmentResult.Fits order (order.Below 2) := by
  intro held allowed
  apply Code.Has.either
  · exact .nil
  · apply Code.Has.lock
    · grind
    · apply Code.Has.last
      apply Code.Has.either
      · apply Code.Has.last
        apply Code.Has.either
        · exact .last (.either (.unlock .nil) (.unlock .nil))
        · apply Code.Has.unlock
          exact .call (packageSend_fits _) (by grind) .nil
      · apply Code.Has.unlock
        apply Code.Has.last
        apply Code.Has.any
        intro i
        apply Code.Has.either
        · exact .call (sendUnlessEvicting_fits (.cpu i)) (by grind) .nil
        · apply Code.Has.call schedulerMutex_fits allowed
          apply Code.Has.call (internalMutex_fits (.cpu i)) (by grind)
          exact .call (packageSend_fits _) (by grind) .nil

def compactionRequestedThread : Code Lock :=
  .block
    [canScheduleWrite, evictAllProcesses, packageSend .kernelMemory, semWait, canScheduleWrite]

theorem compactionRequestedThread_has : compactionRequestedThread.Has order [] [] := by
  apply Code.Has.seq canScheduleWrite_fits.thread
  apply Code.Has.seq evictAllProcesses_has
  apply Code.Has.seq (packageSend_fits _).thread
  apply Code.Has.wait
  · simp
  · exact .last canScheduleWrite_fits.thread

def memoryCorruptedThread : Code Lock := .block [canScheduleWrite, evictAllProcesses]

theorem memoryCorruptedThread_has : memoryCorruptedThread.Has order [] [] := by
  apply Code.Has.seq canScheduleWrite_fits.thread
  exact .last evictAllProcesses_has

/-! ### The schedulers -/

def longTermScheduler : Code Lock :=
  .block [.critical .schedulerMutex, packageSend .kernelMemory, .critical .schedulerMutex]

theorem longTermScheduler_fits : longTermScheduler.Fits order (order.Below 2) := by
  intro held allowed
  apply Code.Has.call schedulerMutex_fits allowed
  apply Code.Has.call (packageSend_fits _)
  · grind
  · exact .call schedulerMutex_fits allowed .nil

def waitProcessCreateConfirmation : Code Lock :=
  .block [.lock .schedulerMutex, .either [.unlock .schedulerMutex] [.unlock .schedulerMutex]]

theorem waitProcessCreateConfirmation_fits :
    waitProcessCreateConfirmation.Fits order (order.Below 2) := by
  intro held allowed
  apply Code.Has.lock
  · grind
  · exact .last (.either (.unlock .nil) (.unlock .nil))

def suspensionManager : Code Lock :=
  .loop (.block
    [usleep,
      canScheduleGet,
      .either
        [] -- nothing is scheduled now
        [moveBlocked, .loop (packageSend .kernelMemory)]])

theorem suspensionManager_has : suspensionManager.Has order [] [] := by
  apply Code.Has.loop
  apply Code.Has.idle
  apply Code.Has.seq canScheduleGet_fits.thread
  apply Code.Has.last
  apply Code.Has.either
  · exact .nil
  · apply Code.Has.seq moveBlocked_fits.thread
    exact .last (packageSend_fits _).loop.thread

def waitConfirmationSwapOut : Code Lock :=
  .either
    []
    [.lock .schedulerMutex,
      .either
        [.unlock .schedulerMutex] -- it is not suspended
        [.either
          [.unlock .schedulerMutex] -- it was ready, and stays in memory
          [.either
            [.unlock .schedulerMutex, .critical .blockProcessesMutex]
            [.unlock .schedulerMutex, .either [.critical .suspendedProcessesMutex] []]]]]

theorem waitConfirmationSwapOut_fits : waitConfirmationSwapOut.Fits order (order.Below 2) := by
  intro held allowed
  apply Code.Has.either
  · exact .nil
  · apply Code.Has.lock
    · grind
    · apply Code.Has.last
      apply Code.Has.either
      · exact .unlock .nil
      · apply Code.Has.last
        apply Code.Has.either
        · exact .unlock .nil
        · apply Code.Has.last
          apply Code.Has.either
          · apply Code.Has.unlock
            exact .call blockProcessesMutex_fits (by grind) .nil
          · apply Code.Has.unlock
            apply Code.Has.last
            apply Code.Has.either
            · exact .call suspendedProcessesMutex_fits (by grind) .nil
            · exact .nil

def requestSwapIn : Code Lock :=
  .block [.critical .suspendedProcessesMutex, .either [] [packageSend .kernelMemory]]

theorem requestSwapIn_fits : requestSwapIn.Fits order (order.Below 3) := by
  intro held allowed
  apply Code.Has.call suspendedProcessesMutex_fits allowed
  apply Code.Has.last
  apply Code.Has.either
  · exact .nil
  · exact .call (packageSend_fits _) (by grind) .nil

def waitConfirmationSwapIn : Code Lock :=
  .loop (.either
    [.critical .suspendedProcessesMutex,
      .switch
        [[.critical .schedulerMutex],
          [.critical .schedulerMutex, .critical .blockProcessesMutex]]]
    [])

theorem waitConfirmationSwapIn_fits : waitConfirmationSwapIn.Fits order (order.Below 2) := by
  apply Code.Fits.loop
  intro held allowed
  apply Code.Has.either
  · apply Code.Has.call suspendedProcessesMutex_fits (by grind)
    apply Code.Has.last
    apply Code.Has.switch
    simp only [List.mem_cons, List.not_mem_nil, or_false, forall_eq_or_imp, forall_eq]
    constructor
    · exact .call schedulerMutex_fits allowed .nil
    · apply Code.Has.call schedulerMutex_fits allowed
      exact .call blockProcessesMutex_fits (by grind) .nil
  · exact .nil

/-- It looks at each CPU until one is available. -/
def getAvailableCpu : Code Lock := .loop (.any fun i => .critical (.internalMutex (.cpu i)))

theorem getAvailableCpu_fits : getAvailableCpu.Fits order (order.Below 4) := by
  apply Code.Fits.loop
  apply Code.Fits.any
  intro i
  exact internalMutex_fits (.cpu i)

def shortTermSchedulerMain : Code Lock :=
  .loop (.block
    [semWait,
      canScheduleGet,
      .either
        [] -- nothing is scheduled now
        [.loop (.block
          [.lock .schedulerMutex,
            getAvailableCpu,
            .either -- a process of lower priority is evicted
              [.unlock .schedulerMutex,
                .any fun i => evictProcess (.cpu i),
                .lock .schedulerMutex]
              [],
            .either
              [.unlock .schedulerMutex]
              [.any fun i => .block
                [.critical (.internalMutex (.cpu i)),
                  .unlock .schedulerMutex,
                  sendPidToExecute (.cpu i)]]])]])

theorem shortTermSchedulerMain_has : shortTermSchedulerMain.Has order [] [] := by
  have send : ∀ i, (sendUnlessEvicting (.cpu i)).Fits order (order.Below 4) :=
    fun i => sendUnlessEvicting_fits (.cpu i)
  apply Code.Has.loop
  apply Code.Has.idle
  apply Code.Has.seq canScheduleGet_fits.thread
  apply Code.Has.last
  apply Code.Has.either
  · exact .nil
  · apply Code.Has.last
    apply Code.Has.loop
    apply Code.Has.lock
    · simp
    · apply Code.Has.call getAvailableCpu_fits (by grind)
      apply Code.Has.seq
      · apply Code.Has.either
        · apply Code.Has.unlock
          apply Code.Has.seq (Code.Fits.any send).thread
          apply Code.Has.lock
          · simp
          · exact .nil
        · exact .nil
      · apply Code.Has.last
        apply Code.Has.either
        · exact .unlock .nil
        · apply Code.Has.last
          apply Code.Has.any
          intro i
          apply Code.Has.call (internalMutex_fits (.cpu i)) (by grind)
          apply Code.Has.unlock
          exact .last (send i).thread

def quantumManager : Code Lock :=
  .loop (.block
    [usleep,
      canScheduleGet,
      .either
        [] -- nothing is scheduled now
        [.lock .schedulerMutex,
          .loop (.block
            [.unlock .schedulerMutex,
              .any fun i => evictProcess (.cpu i),
              .lock .schedulerMutex]),
          .unlock .schedulerMutex]])

theorem quantumManager_has : quantumManager.Has order [] [] := by
  have evict := Code.Fits.any fun i => sendUnlessEvicting_fits (.cpu i)
  apply Code.Has.loop
  apply Code.Has.idle
  apply Code.Has.seq canScheduleGet_fits.thread
  apply Code.Has.last
  apply Code.Has.either
  · exact .nil
  · apply Code.Has.lock
    · simp
    · apply Code.Has.seq
      · apply Code.Has.loop
        apply Code.Has.unlock
        apply Code.Has.seq evict.thread
        apply Code.Has.lock
        · simp
        · exact .nil
      · exact .unlock .nil

/-! ### The handlers of the connections -/

def handleCpuDisconnection : Code Lock := .critical .schedulerMutex

/-- A process asks for a mutex by its name, and ends if there is none. -/
def mutexSyscall (cpu : Client) (manager : ℕ → Client → Code Lock) : Code Lock :=
  .either
    []
    [getMutexByName,
      .either
        [.any fun mutex => .any fun i => manager mutex (.cpu i)]
        [.critical (.internalMutex cpu), .critical .schedulerMutex, packageSend .kernelMemory]]

theorem mutexSyscall_fits (cpu : Client) {manager : ℕ → Client → Code Lock}
    (fits : ∀ mutex client, (manager mutex client).Fits order (order.Below 1)) :
    (mutexSyscall cpu manager).Fits order (order.Below 0) := by
  intro held allowed
  apply Code.Has.either
  · exact .nil
  · apply Code.Has.call getMutexByName_fits allowed
    apply Code.Has.last
    apply Code.Has.either
    · apply Code.Has.last
      apply Code.Has.any
      intro mutex
      apply Code.Has.any
      intro i
      apply fits
      grind
    · apply Code.Has.call (internalMutex_fits cpu) (by grind)
      apply Code.Has.call schedulerMutex_fits (by grind)
      exact .call (packageSend_fits _) (by grind) .nil

def cpuHandler (cpu : Client) : Code Lock :=
  .block
    [bufferReceive,
      .loop (.block
        [operationReceive,
          .switch
            [ -- PROCESS_CREATE
              [bufferReceive, longTermScheduler],
              -- PROCESS_END
              [bufferReceive,
                .lock .schedulerMutex,
                .critical (.internalMutex cpu),
                .unlock .schedulerMutex,
                packageSend .kernelMemory],
              -- MUTEX_CREATE
              [bufferReceive, mutexCreate, sendPidToExecute cpu],
              -- MUTEX_LOCK
              [bufferReceive, mutexSyscall cpu mutexLock],
              -- MUTEX_UNLOCK
              [bufferReceive, mutexSyscall cpu mutexUnlock],
              -- SLEEP
              [bufferReceive, .either [sleepSyscallManager cpu] []],
              -- STDIN
              [bufferReceive, .either [stdinSyscallManager cpu] []],
              -- STDOUT
              [bufferReceive, .either [stdoutSyscallManager cpu] []],
              -- PROCESS_INTERRUPTED
              [bufferReceive],
              -- MEM_ALLOC
              [bufferReceive, memAllocSyscallManager],
              -- MEM_FREE
              [bufferReceive, memFreeSyscallManager],
              -- SEGMENTATION_FAULT
              [bufferReceive, .critical .schedulerMutex, packageSend .kernelMemory],
              -- CONFIRMATION
              [bufferReceive]]]),
      operationReceive,
      handleCpuDisconnection]

/-- A syscall is handled only if its process is known. -/
theorem known {c : Code Lock} {n : ℕ} (fits : c.Fits order (order.Below n)) :
    (Code.block [.either [c] []]).Has order [] [] := by
  apply Code.Has.last
  apply Code.Has.either
  · exact .last fits.thread
  · exact .nil

theorem cpuHandler_has (cpu : Client) : (cpuHandler cpu).Has order [] [] := by
  have toMemory := (packageSend_fits .kernelMemory).thread
  have scheduler := schedulerMutex_fits.thread
  have memory := memSyscallManager_fits.thread
  apply Code.Has.idle
  apply Code.Has.seq
  · apply Code.Has.loop
    apply Code.Has.idle
    apply Code.Has.last
    apply Code.Has.switch
    simp only [List.mem_cons, List.not_mem_nil, or_false, forall_eq_or_imp, forall_eq]
    refine ⟨?create, ?exit, ?mutexCreate, ?lock, ?unlock, ?sleep, ?stdin, ?stdout, ?interrupted,
      ?alloc, ?free, ?fault, ?confirmation⟩ <;> apply Code.Has.idle
    case create => exact .last longTermScheduler_fits.thread
    case exit =>
      apply Code.Has.lock
      · simp
      · apply Code.Has.call (internalMutex_fits cpu) (by grind)
        apply Code.Has.unlock
        exact .last toMemory
    case mutexCreate =>
      apply Code.Has.seq mutexCreate_fits.thread
      exact .last (sendUnlessEvicting_fits cpu).thread
    case lock => exact .last (mutexSyscall_fits cpu mutexLock_fits).thread
    case unlock => exact .last (mutexSyscall_fits cpu mutexUnlock_fits).thread
    case sleep => exact known (sleepSyscallManager_fits cpu)
    case stdin => exact known (stdinSyscallManager_fits cpu)
    case stdout => exact known (stdoutSyscallManager_fits cpu)
    case interrupted => exact .nil
    case alloc => exact .last memory
    case free => exact .last memory
    case fault =>
      apply Code.Has.seq scheduler
      exact .last toMemory
    case confirmation => exact .nil
  · apply Code.Has.idle
    exact .last scheduler

def ioHandler (io : Client) : Code Lock :=
  .block
    [bufferReceive,
      idAssigner,
      .either
        [] -- the type of the device is unknown
        [handleNextOperation io,
          .loop (.block
            [operationReceive,
              .switch
                [ -- CONFIRMATION
                  [bufferReceive, ioFinishProcess io, handleNextOperation io],
                  -- STDIN
                  [bufferReceive,
                    .either
                      []
                      [.lock .pendingIoStdinReadingMutex,
                        .either
                          [.unlock .pendingIoStdinReadingMutex]
                          [.unlock .pendingIoStdinReadingMutex,
                            packageSend .kernelMemory,
                            .critical (.internalMutex io),
                            handleNextOperation io]]]]])]]

theorem ioHandler_has (io : Client) : (ioHandler io).Has order [] [] := by
  have next := (handleNextOperation_fits io).thread
  apply Code.Has.idle
  apply Code.Has.seq idAssigner_fits.thread
  apply Code.Has.last
  apply Code.Has.either
  · exact .nil
  · apply Code.Has.seq next
    apply Code.Has.last
    apply Code.Has.loop
    apply Code.Has.idle
    apply Code.Has.last
    apply Code.Has.switch
    simp only [List.mem_cons, List.not_mem_nil, or_false, forall_eq_or_imp, forall_eq]
    constructor
    · apply Code.Has.idle
      apply Code.Has.seq (ioFinishProcess_fits io).thread
      exact .last next
    · apply Code.Has.idle
      apply Code.Has.last
      apply Code.Has.either
      · exact .nil
      · apply Code.Has.lock
        · simp
        · apply Code.Has.last
          apply Code.Has.either
          · exact .unlock .nil
          · apply Code.Has.unlock
            apply Code.Has.seq (packageSend_fits _).thread
            apply Code.Has.seq (internalMutex_fits io).thread
            exact .last next

def kernelMemoryHandler : Code Lock :=
  .loop (.block
    [operationReceive,
      .switch
        [ -- PROCESS_CREATE
          [bufferReceive, waitProcessCreateConfirmation],
          -- COMPACTION_REQUEST, COMPACTION_FINISHED, CORRUPTED_MEMORY
          [bufferReceive],
          -- MEMORY_UPDATE
          [bufferReceive, requestSwapIn],
          -- SEGMENT_RESULT
          [bufferReceive, handleSegmentResult],
          -- IO_MEMORY_READ
          [bufferReceive, stdoutWaitMemoryRead],
          -- IO_MEMORY_WRITE
          [bufferReceive, .either [packageSend .kernelMemory] []],
          -- SWAP_IN
          [bufferReceive, waitConfirmationSwapIn],
          -- SWAP_OUT
          [bufferReceive, .either [waitConfirmationSwapOut] []]]])

theorem kernelMemoryHandler_has : kernelMemoryHandler.Has order [] [] := by
  apply Code.Has.loop
  apply Code.Has.idle
  apply Code.Has.last
  apply Code.Has.switch
  simp only [List.mem_cons, List.not_mem_nil, or_false, forall_eq_or_imp, forall_eq]
  refine ⟨?create, ?compaction, ?update, ?segment, ?read, ?write, ?swapIn, ?swapOut⟩ <;>
    apply Code.Has.idle
  case create => exact .last waitProcessCreateConfirmation_fits.thread
  case compaction => exact .nil
  case update => exact .last requestSwapIn_fits.thread
  case segment => exact .last handleSegmentResult_fits.thread
  case read => exact .last stdoutWaitMemoryRead_fits.thread
  case write => exact known (packageSend_fits _)
  case swapIn => exact .last waitConfirmationSwapIn_fits.thread
  case swapOut => exact known waitConfirmationSwapOut_fits

/-- The handler of the `i`-th connection. -/
def clientHandlerSelector (i : ℕ) : Code Lock :=
  .block
    [operationReceive,
      .either
        [] -- no handshake
        [bufferReceive, .switch [[cpuHandler (.cpu i)], [ioHandler (.io i)]]]]

theorem clientHandlerSelector_has (i : ℕ) : (clientHandlerSelector i).Has order [] [] := by
  apply Code.Has.idle
  apply Code.Has.last
  apply Code.Has.either
  · exact .nil
  · apply Code.Has.idle
    apply Code.Has.last
    apply Code.Has.switch
    simp only [List.mem_cons, List.not_mem_nil, or_false, forall_eq_or_imp, forall_eq]
    constructor
    · exact .last (cpuHandler_has _)
    · exact .last (ioHandler_has _)

/-! ### The threads -/

def kernelMemoryConnection : Code Lock := .block [packageSend .kernelMemory, longTermScheduler]

/-- The connections that it accepts are handled by other threads. -/
def main : Code Lock := .block [kernelMemoryConnection, .loop .wait]

theorem main_has : main.Has order [] [] := by
  apply Code.Has.seq
  · apply Code.Has.seq (packageSend_fits _).thread
    exact .last longTermScheduler_fits.thread
  · apply Code.Has.last
    apply Code.Has.loop
    exact ⟨by simp [Code.Ordered], rfl⟩

/-- What a thread may be created for. -/
inductive Role where
  | main
  | shutdownHandler
  | shortTermSchedulerMain
  | quantumManager
  | suspensionManager
  | kernelMemoryHandler
  | clientHandlerSelector (i : ℕ)
  | waitConfirmationThread (cpu : ℕ)
  | waitConfirmationThreadAndHandleState (cpu : ℕ)
  | waitMemoryWriteConfirmation
  | compactionRequestedThread
  | memoryCorruptedThread

def Role.code : Role → Code Lock
  | main => Locks.main
  | shutdownHandler => .block [semWait]
  | shortTermSchedulerMain => Locks.shortTermSchedulerMain
  | quantumManager => Locks.quantumManager
  | suspensionManager => Locks.suspensionManager
  | kernelMemoryHandler => Locks.kernelMemoryHandler
  | clientHandlerSelector i => Locks.clientHandlerSelector i
  | waitConfirmationThread cpu => Locks.waitConfirmationThread (.cpu cpu)
  | waitConfirmationThreadAndHandleState cpu =>
      Locks.waitConfirmationThreadAndHandleState (.cpu cpu)
  | waitMemoryWriteConfirmation => Locks.waitMemoryWriteConfirmation
  | compactionRequestedThread => Locks.compactionRequestedThread
  | memoryCorruptedThread => Locks.memoryCorruptedThread

/-- Every thread keeps the order, and has no lock in the end. -/
theorem Role.code_has (role : Role) : role.code.Has order [] [] := by
  cases role with
  | main => exact main_has
  | shutdownHandler => exact .idle .nil
  | shortTermSchedulerMain => exact shortTermSchedulerMain_has
  | quantumManager => exact quantumManager_has
  | suspensionManager => exact suspensionManager_has
  | kernelMemoryHandler => exact kernelMemoryHandler_has
  | clientHandlerSelector i => exact clientHandlerSelector_has i
  | waitConfirmationThread cpu => exact waitConfirmationThread_has (.cpu cpu)
  | waitConfirmationThreadAndHandleState cpu =>
      exact waitConfirmationThreadAndHandleState_has (.cpu cpu)
  | waitMemoryWriteConfirmation => exact waitMemoryWriteConfirmation_has
  | compactionRequestedThread => exact compactionRequestedThread_has
  | memoryCorruptedThread => exact memoryCorruptedThread_has

section

variable {τ : Type} [DecidableEq τ]

/-- **The threads of the scheduler never wait for each other in a circle**, whichever threads
there are, and however their steps are ordered. A thread that waits for a message, a
semaphore or time has no lock, and behind each lock that is taken some thread can go on. -/
theorem no_circle_of_scheduler_locks (roles : τ → Role) {s : Threads τ Lock}
    (reached : Threads.Reachable (fun t => (roles t).code) s) :
    (∀ t, ¬ Relation.TransGen s.WaitsFor t t) ∧
      (∀ t, s.AtWait t → ∀ l, s.owner l ≠ some t) ∧
      (∀ t l, s.owner l = some t →
        ∃ u, Relation.ReflTransGen s.WaitsFor t u ∧ s.CanMove u) := by
  have fits : ∀ t, ((roles t).code).Has order [] [] := fun t => (roles t).code_has
  refine ⟨?_, ?_, ?_⟩
  · intro t
    exact Threads.acyclic fits reached t
  · intro t waits l owned
    exact Threads.patient_of_atWait fits reached waits owned
  · intro t l owned
    apply Threads.leads_to_mover fits reached _ owned
    intro k patient
    exact patient.elim

end

/-- One thread has taken the lock of the scheduler, and another one waits for it. -/
theorem no_circle_of_scheduler_locks_contended :
    ∃ s : Threads Bool Lock, s.WaitsFor false true ∧
      (∀ t, ¬ Relation.TransGen s.WaitsFor t t) ∧
      (∀ t, s.AtWait t → ∀ l, s.owner l ≠ some t) ∧
      (∀ t l, s.owner l = some t →
        ∃ u, Relation.ReflTransGen s.WaitsFor t u ∧ s.CanMove u) := by
  let roles : Bool → Role
    | true => .waitMemoryWriteConfirmation
    | false => .waitConfirmationThread 0
  obtain ⟨s, run, contended⟩ := OsModel.Lib.Run.exists_of_exec Threads.step (fun _ _ => True)
    [(true, 0), (true, 0), (true, 0), (true, 0), (false, 0), (false, 0)]
    (Threads.start fun t => (roles t).code)
    (fun s => s.owner .schedulerMutex = some true ∧
      (s.todo false).head = some (.lock .schedulerMutex))
    (by decide)
  simp only [decide_eq_true_eq] at contended
  have waits : s.WaitsFor false true := ⟨.schedulerMutex, contended.2, contended.1⟩
  exact ⟨s, waits, no_circle_of_scheduler_locks roles ⟨_, run⟩⟩

end OsModel.KernelScheduler.Locks
