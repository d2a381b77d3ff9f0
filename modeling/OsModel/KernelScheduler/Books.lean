import OsModel.KernelScheduler.Ownership
import OsModel.KernelScheduler.Records

/-!
What the handlers do to the mutexes and to the priorities.

The `Books` are the mutexes, `list_mutexes` and the `owned_mutexes` of the processes; the
`ledger` of a state is all this with `list_processes` and the priorities. `MUTEX_CREATE`,
`MUTEX_LOCK` and `MUTEX_UNLOCK` write it, and so does the creation of a process; every other
step leaves it as it is (`step_ledger`).
-/

namespace OsModel.KernelScheduler

/-- What the records say about mutexes. -/
@[ext]
structure Books where
  mutex : String → Mutex
  listMutexes : List String
  owned : UInt32 → List String

def State.books {ι : Type} (s : State ι) : Books where
  mutex := s.mutex
  listMutexes := s.listMutexes
  owned pid := (s.process pid).ownedMutexes

@[simp]
theorem books_mutex {ι : Type} (s : State ι) : s.books.mutex = s.mutex := rfl

@[simp]
theorem books_listMutexes {ι : Type} (s : State ι) : s.books.listMutexes = s.listMutexes := rfl

namespace Books

variable (b : Books)

def setMutex (name : String) (f : Mutex → Mutex) : Books :=
  { b with mutex := Function.update b.mutex name (f (b.mutex name)) }

/-- A write to the `owned_mutexes` of a process. -/
def setOwned (pid : UInt32) (f : List String → List String) : Books :=
  { b with owned := Function.update b.owned pid (f (b.owned pid)) }

def create (name : String) : Books :=
  { b.setMutex name fun _ => ⟨false, none, []⟩ with listMutexes := b.listMutexes ++ [name] }

/-- A process takes a mutex. -/
def acquire (name : String) (pid : UInt32) : Books :=
  (b.setMutex name fun m => { m with isLocked := true, lockedBy := some pid }).setOwned pid
    (· ++ [name])

/-- A process comes to wait for a mutex. -/
def wait (name : String) (pid : UInt32) : Books :=
  b.setMutex name fun m => { m with waitingProcesses := m.waitingProcesses ++ [pid] }

/-- A process gives up a mutex, and the first process that waits for it takes it. -/
def release (name : String) (pid : UInt32) : Books :=
  let b' := b.setOwned pid (·.erase name)
  match (b.mutex name).waitingProcesses with
  | [] => b'.setMutex name fun m => { m with isLocked := false, lockedBy := none }
  | next :: rest =>
      (b'.setMutex name fun _ => ⟨true, some next, rest⟩).setOwned next (· ++ [name])

end Books

variable {ι : Type} {config : Config} {s s' : State ι} {pid : UInt32}

theorem books_of_ledger (same : s'.ledger = s.ledger) : s'.books = s.books :=
  congrArg (fun l : Ledger => (⟨l.mutex, l.listMutexes, l.owned⟩ : Books)) same

/-! ### What leaves the ledger as it is -/

@[simp]
theorem ledger_processSetState (state : ProcessState) :
    (processSetState s pid state).ledger = s.ledger :=
  ledger_of_records (records_processSetState state)

@[simp]
theorem ledger_finishBlock : (finishBlock config s pid).ledger = s.ledger :=
  ledger_of_records records_finishBlock

@[simp]
theorem ledger_blockProcess : (blockProcess s pid).ledger = s.ledger :=
  ledger_of_records records_blockProcess

@[simp]
theorem ledger_requestIo (ioType : IoType) (request : IoRequest) :
    (requestIo s ioType request).ledger = s.ledger := by
  unfold requestIo
  split <;> rfl

theorem ledger_handleNextOperation (io : Nat) (ioType : IoType) :
    (handleNextOperation s io ioType).ledger = s.ledger := by
  unfold handleNextOperation
  split <;> rfl

theorem ledger_stdoutWaitMemoryRead (value : String) :
    (stdoutWaitMemoryRead s pid value).ledger = s.ledger := by
  have ended : (processSetState s pid .exit).ledger = s.ledger := ledger_processSetState .exit
  unfold stdoutWaitMemoryRead
  dsimp only
  rw [ledger_requestIo]
  split
  · exact ended
  · rfl

theorem ledger_waitMemoryWriteConfirmation :
    (waitMemoryWriteConfirmation config s pid).ledger = s.ledger :=
  ledger_finishBlock.trans (ledger_setProcess rfl rfl rfl)

theorem ledger_ioFinishProcess (io : Nat) : (ioFinishProcess config s pid io).ledger = s.ledger := by
  unfold ioFinishProcess
  split
  · exact ledger_finishBlock
  · rfl

theorem ledger_memAllocSyscallManager (segmentId segmentSize : UInt32) :
    (memAllocSyscallManager s pid segmentId segmentSize).ledger = s.ledger :=
  ledger_of_records (records_memAllocSyscallManager segmentId segmentSize)

theorem ledger_memFreeSyscallManager (segmentId : UInt32) :
    (memFreeSyscallManager s pid segmentId).ledger = s.ledger :=
  ledger_of_records (records_memFreeSyscallManager segmentId)

theorem ledger_handleIoMemoryWrite (writeSuccesful : Bool) :
    (handleIoMemoryWrite s pid writeSuccesful).ledger = s.ledger := by
  have ended : (processSetState s pid .exit).ledger = s.ledger := ledger_processSetState .exit
  unfold handleIoMemoryWrite
  split
  · exact ledger_setProcess rfl rfl rfl
  · exact ended

/-! ### Priorities are not in the books -/

@[simp]
theorem books_processSetPriority (newPriority : UInt8) :
    (processSetPriority s pid newPriority).books = s.books :=
  Books.ext rfl rfl (field_setProcess Process.ownedMutexes rfl)

@[simp]
theorem books_requeueWithPriority (newPriority : UInt8) :
    (requeueWithPriority config s pid newPriority).books = s.books := by
  have written : (processSetPriority (removeProcessFromReadyQueue config s pid) pid
      newPriority).books = s.books := books_processSetPriority newPriority
  unfold requeueWithPriority
  split
  · exact written
  · exact books_processSetPriority newPriority

@[simp]
theorem books_inheritPriority (owner : Option UInt32) :
    (inheritPriority config s pid owner).books = s.books := by
  cases owner with
  | none => rfl
  | some owner =>
      simp only [inheritPriority]
      split
      · exact books_requeueWithPriority _
      · rfl

@[simp]
theorem books_restorePriority : (restorePriority config s pid).books = s.books := by
  unfold restorePriority
  dsimp only
  split
  · exact books_requeueWithPriority _
  · rfl

/-! ### CPUs -/

variable [DecidableEq ι] {cpu : ι}

theorem ledger_sendPidToExecute (cpu : Option ι) :
    (sendPidToExecute s pid cpu).ledger = s.ledger :=
  ledger_of_records (records_sendPidToExecute cpu)

@[simp]
theorem books_sendPidToExecute (cpu : Option ι) :
    (sendPidToExecute s pid cpu).books = s.books := books_of_ledger (ledger_sendPidToExecute cpu)

theorem ledger_sleepSyscallManager (sleepTime : UInt32) :
    (sleepSyscallManager s pid cpu sleepTime).ledger = s.ledger :=
  (ledger_requestIo _ _).trans ledger_blockProcess

theorem ledger_stdinSyscallManager (physicalAddress toRead : UInt32) :
    (stdinSyscallManager s pid cpu physicalAddress toRead).ledger = s.ledger := by
  have ended : (processSetState (removeFromExec s pid) pid .exit).ledger = s.ledger :=
    ledger_processSetState .exit
  have blocked : (blockProcess s pid).ledger = s.ledger := ledger_blockProcess
  unfold stdinSyscallManager
  split
  · exact ended
  · exact (ledger_requestIo _ _).trans blocked

theorem ledger_stdoutSyscallManager (physicalAddress toRead : UInt32) :
    (stdoutSyscallManager s pid cpu physicalAddress toRead).ledger = s.ledger :=
  ledger_blockProcess (s := s)

theorem ledger_unknownMutex : (unknownMutex s pid cpu).ledger = s.ledger :=
  ledger_of_records records_unknownMutex

theorem ledger_endProcess : (endProcess s pid cpu).ledger = s.ledger :=
  ledger_of_records records_endProcess

omit [DecidableEq ι] in
theorem ledger_handleIo (io : Nat) (request : IoRequest) (value : String) :
    (handleIo config s io request value).ledger = s.ledger := by
  unfold handleIo
  dsimp only
  split
  · exact (ledger_handleNextOperation io _).trans (ledger_ioFinishProcess io)
  · exact (ledger_handleNextOperation io _).trans (ledger_ioFinishProcess io)
  · split
    · rfl
    · exact ledger_handleNextOperation io _

theorem ledger_handleMemory (message : FromMemory) :
    (handleMemory config s message).ledger = s.ledger := by
  cases message with
  | processCreate => exact ledger_of_records records_waitProcessCreateConfirmation
  | segmentResult => exact ledger_of_records (records_handleSegmentResult _)
  | ioMemoryRead => exact ledger_stdoutWaitMemoryRead _
  | ioMemoryWrite => exact ledger_handleIoMemoryWrite _
  | swapOut => exact ledger_of_records (records_waitConfirmationSwapOut _)
  | swapIn => exact ledger_of_records (records_waitConfirmationSwapIn _)
  | memoryUpdate => exact ledger_of_records records_requestSwapIn
  | compactionRequest | compactionFinished | corruptedMemory => rfl

/-! ### Steps -/

/-- What a step is, as far as the ledger goes. -/
inductive LedgerStep (config : Config) (s : State ι) (a : Action ι) (t : State ι) : Prop where
  /-- The ledger stays as it is. -/
  | keep (acts : ∀ cpu, a ≠ .handleCpu cpu) (same : t.ledger = s.ledger)
  /-- The first process is created. -/
  | create {path : String} {priority : UInt8} (acts : a = .process0 path)
      (created : longTermScheduler s path priority = some t)
  /-- A message of a CPU is handled. -/
  | handle {cpu : ι} {message : ToScheduler} {rest : List ToScheduler} (acts : a = .handleCpu cpu)
      (next : (s.cpu cpu).toScheduler = message :: rest)
      (handled : handleCpu config (s.setCpu cpu fun c => { c with toScheduler := rest }) cpu
        message = some t)

theorem step_ledger {a : Action ι} {t : State ι} (taken : step config s a = some t) :
    LedgerStep config s a t := by
  cases a with
  | process0 path =>
      simp only [step] at taken
      split at taken
      · exact .create rfl taken
      · cases taken
  | handleCpu cpu =>
      simp only [step] at taken
      split at taken
      · cases taken
      · rename_i message rest next
        exact .handle rfl next taken
  | connectIo io ioType =>
      simp only [step] at taken
      split at taken
      · obtain rfl := Option.some.inj taken
        exact .keep (by simp) (ledger_handleNextOperation io ioType)
      · cases taken
  | handleIo io value =>
      simp only [step] at taken
      split at taken
      · cases taken
      · obtain rfl := Option.some.inj taken
        exact .keep (by simp) (ledger_handleIo io _ value)
  | disconnectIo io =>
      simp only [step] at taken
      split at taken
      · obtain rfl := Option.some.inj taken
        exact .keep (by simp) rfl
      · cases taken
  | written pid =>
      simp only [step] at taken
      split at taken
      · obtain rfl := Option.some.inj taken
        exact .keep (by simp) ledger_waitMemoryWriteConfirmation
      · cases taken
  | memory st =>
      obtain ⟨memory, -, rfl⟩ := Option.map_eq_some_iff.mp taken
      exact .keep (by simp) rfl
  | handleMemory =>
      simp only [step] at taken
      split at taken
      · cases taken
      · obtain rfl := Option.some.inj taken
        exact .keep (by simp) (ledger_handleMemory _)
  | tick | connectCpu | cpu | disconnectCpu | confirm | wake | schedule | quantum | suspend
  | compaction => exact .keep (by simp) (ledger_of_records (step_records taken trivial))

end OsModel.KernelScheduler
