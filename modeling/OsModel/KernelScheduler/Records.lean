import OsModel.KernelScheduler.Handlers

/-!
The records that most steps leave as they are.

The `Ledger` of a state is what its records say about mutexes and priorities, and its
`IoBooks` are what they say about requests for IO: the devices, the lists of them, the
pending requests, the `STDIN` operations that are being read, and the memory accesses that
Kernel Memory has for them. What a handler does to the states, the CPUs, the queues and the
lists of processes touches neither (`records_…`), and so does a whole step that is `Calm`.
-/

namespace OsModel.KernelScheduler

/-! ### Mutexes and priorities -/

/-- The part of the records that mutexes and priorities are about. -/
@[ext]
structure Ledger where
  mutex : String → Mutex
  listMutexes : List String
  listProcesses : List UInt32
  owned : UInt32 → List String
  basePriority : UInt32 → UInt8
  effectivePriority : UInt32 → UInt8

def State.ledger {ι : Type} (s : State ι) : Ledger where
  mutex := s.mutex
  listMutexes := s.listMutexes
  listProcesses := s.listProcesses
  owned pid := (s.process pid).ownedMutexes
  basePriority pid := (s.process pid).basePriority
  effectivePriority pid := (s.process pid).effectivePriority

/-! ### IO -/

/-- The access that a message asks for, and the operation it belongs to: `STDOUT` reads
the memory, `STDIN` writes it. -/
def ToMemory.access : ToMemory → Option (UInt32 × IoType)
  | .ioMemoryRead pid _ _ => some (pid, .stdout)
  | .ioMemoryWrite pid _ _ _ => some (pid, .stdin)
  | _ => none

/-- The access that a message answers. -/
def FromMemory.access : FromMemory → Option (UInt32 × IoType)
  | .ioMemoryRead pid _ => some (pid, .stdout)
  | .ioMemoryWrite pid _ => some (pid, .stdin)
  | _ => none

/-- The accesses that are under way. -/
def Memory.accesses (m : Memory) : List (UInt32 × IoType) :=
  m.toMemory.filterMap ToMemory.access ++ m.fromMemory.filterMap FromMemory.access

/-- What the records say about IO; `written` is `memory_request_sem`. -/
@[ext]
structure IoBooks where
  io : Nat → Io
  listIo : IoType → List Nat
  pendingRequestIo : IoType → List IoRequest
  pendingIoStdinReading : List PendingStdin
  accesses : List (UInt32 × IoType)
  written : UInt32 → ℕ

def State.ioBooks {ι : Type} (s : State ι) : IoBooks where
  io := s.io
  listIo := s.listIo
  pendingRequestIo := s.pendingRequestIo
  pendingIoStdinReading := s.pendingIoStdinReading
  accesses := s.memory.accesses
  written pid := (s.process pid).memoryRequestSem

/-- Both. -/
def State.records {ι : Type} (s : State ι) : Ledger × IoBooks := (s.ledger, s.ioBooks)

variable {ι : Type} {config : Config} {s s' : State ι} {pid : UInt32}

theorem ledger_of_records (same : s'.records = s.records) : s'.ledger = s.ledger :=
  congrArg Prod.fst same

theorem ioBooks_of_records (same : s'.records = s.records) : s'.ioBooks = s.ioBooks :=
  congrArg Prod.snd same

/-! ### Processes -/

theorem field_setProcess {α : Type} (field : Process ι → α) {f : Process ι → Process ι}
    (same : field (f (s.process pid)) = field (s.process pid)) :
    (fun other => field ((s.setProcess pid f).process other)) =
      fun other => field (s.process other) := by
  funext other
  by_cases eq : other = pid
  · subst eq
    simpa using same
  · rw [setProcess_of_ne s eq]

theorem ledger_setProcess {f : Process ι → Process ι}
    (owned : (f (s.process pid)).ownedMutexes = (s.process pid).ownedMutexes)
    (base : (f (s.process pid)).basePriority = (s.process pid).basePriority)
    (effective : (f (s.process pid)).effectivePriority = (s.process pid).effectivePriority) :
    (s.setProcess pid f).ledger = s.ledger :=
  Ledger.ext rfl rfl rfl (field_setProcess Process.ownedMutexes owned)
    (field_setProcess Process.basePriority base)
    (field_setProcess Process.effectivePriority effective)

theorem records_setProcess {f : Process ι → Process ι}
    (owned : (f (s.process pid)).ownedMutexes = (s.process pid).ownedMutexes)
    (base : (f (s.process pid)).basePriority = (s.process pid).basePriority)
    (effective : (f (s.process pid)).effectivePriority = (s.process pid).effectivePriority)
    (written : (f (s.process pid)).memoryRequestSem = (s.process pid).memoryRequestSem) :
    (s.setProcess pid f).records = s.records :=
  Prod.ext (ledger_setProcess owned base effective)
    (IoBooks.ext rfl rfl rfl rfl rfl (field_setProcess Process.memoryRequestSem written))

theorem records_sendMemory {message : ToMemory} (quiet : message.access = none) :
    (s.sendMemory message).records = s.records := by
  refine Prod.ext rfl (IoBooks.ext rfl rfl rfl rfl ?_ rfl)
  simp [State.records, State.ioBooks, State.sendMemory, Memory.accesses, quiet]

theorem records_processSetState (state : ProcessState) :
    (processSetState s pid state).records = s.records := records_setProcess rfl rfl rfl rfl

theorem records_processSetCpu (cpu : Option ι) : (processSetCpu s pid cpu).records = s.records :=
  records_setProcess rfl rfl rfl rfl

theorem records_makeReady : (makeReady config s pid).records = s.records := by
  show (processSetState s pid .ready).records = s.records
  exact records_processSetState .ready

theorem records_finishBlock : (finishBlock config s pid).records = s.records := by
  have woken : (processSetReady s pid).records = s.records := records_processSetState _
  unfold finishBlock
  dsimp only
  split
  · exact woken
  · exact woken

theorem records_blockProcess : (blockProcess s pid).records = s.records := by
  show ((removeFromExec s pid).setProcess pid fun p =>
    { p with state := .block, cpu := none, startBlockTime := s.now }).records = s.records
  exact records_setProcess rfl rfl rfl rfl

theorem records_requestSegment {message : ToMemory} (quiet : message.access = none) :
    (requestSegment s pid message).records = s.records :=
  (records_sendMemory quiet).trans (records_setProcess rfl rfl rfl rfl)

theorem records_memAllocSyscallManager (segmentId segmentSize : UInt32) :
    (memAllocSyscallManager s pid segmentId segmentSize).records = s.records := by
  unfold memAllocSyscallManager
  split
  · exact records_requestSegment rfl
  · rfl

theorem records_memFreeSyscallManager (segmentId : UInt32) :
    (memFreeSyscallManager s pid segmentId).records = s.records := by
  unfold memFreeSyscallManager
  split
  · exact records_requestSegment rfl
  · rfl

theorem records_waitProcessCreateConfirmation :
    (waitProcessCreateConfirmation config s pid).records = s.records := by
  have ready : (makeReady config s pid).records = s.records := records_makeReady
  unfold waitProcessCreateConfirmation
  split
  · exact ready
  · rfl

theorem records_suspensionScan (pids : List UInt32) (s : State ι) :
    (suspensionScan config pids s).2.2.records = s.records := by
  induction pids generalizing s with
  | nil => rfl
  | cons pid rest ih =>
      unfold suspensionScan
      split
      · exact (ih _).trans (records_processSetState .suspBlock)
      · exact ih s

theorem records_suspensionManager : (suspensionManager config s).records = s.records := by
  have swaps : ∀ (pids : List UInt32) (s : State ι),
      (pids.foldl (fun s pid => s.sendMemory (.swapOut pid)) s).records = s.records := by
    intro pids
    induction pids with
    | nil => intro s; rfl
    | cons pid rest ih => intro s; exact (ih _).trans (records_sendMemory rfl)
  unfold suspensionManager
  split
  · exact (swaps _ _).trans (records_suspensionScan s.blockProcesses s)
  · rfl

theorem records_waitConfirmationSwapOut (ok : Bool) :
    (waitConfirmationSwapOut config s pid ok).records = s.records := by
  have ready : (makeReady config s pid).records = s.records := records_makeReady
  have blocked : (s.setProcess pid fun p =>
      { p with state := .block, startBlockTime := s.now }).records = s.records :=
    records_setProcess rfl rfl rfl rfl
  unfold waitConfirmationSwapOut
  split
  · split
    · exact ready
    · exact blocked
    · rfl
    · rfl
    · rfl
  · rfl

theorem records_requestSwapIn : (requestSwapIn s).records = s.records := by
  unfold requestSwapIn
  dsimp only
  split
  · rfl
  · exact records_sendMemory rfl

theorem records_waitConfirmationSwapIn (pids : List UInt32) :
    (waitConfirmationSwapIn config s pids).records = s.records := by
  have one : ∀ (s : State ι) (pid : UInt32), (swappedIn config s pid).records = s.records := by
    intro s pid
    have ready : ∀ suspendedProcesses,
        (makeReady config { s with suspendedProcesses } pid).records = s.records := by
      intro suspendedProcesses
      exact records_makeReady
    have blocked : (s.setProcess pid fun p =>
        { p with state := .block, startBlockTime := s.now }).records = s.records :=
      records_setProcess rfl rfl rfl rfl
    unfold swappedIn
    split
    · dsimp only
      split
      · exact ready _
      · exact blocked
      · rfl
    · rfl
  have all : ∀ (pids : List UInt32) (s : State ι),
      (pids.foldl (swappedIn config) s).records = s.records := by
    intro pids
    induction pids with
    | nil => intro s; rfl
    | cons pid rest ih => intro s; exact (ih _).trans (one s pid)
  unfold waitConfirmationSwapIn
  dsimp only
  split
  · exact all pids s
  · exact all pids s

/-! ### CPUs -/

variable [DecidableEq ι] {cpu : ι}

theorem records_sendPidToExecute (cpu : Option ι) :
    (sendPidToExecute s pid cpu).records = s.records := by
  obtain ⟨cpus, sent⟩ := sendPidToExecute_eq s pid cpu
  rw [sent]
  rfl

theorem records_sendProcessEvict {reason : InterruptReason} {evictor : Evictor} {cpu : Option ι}
    (sent : sendProcessEvict s reason evictor cpu = some s') : s'.records = s.records := by
  obtain ⟨cpu, -, -, -, rfl⟩ := sendProcessEvict_some sent
  rfl

theorem records_evictProcess (cpu : Option ι) (reason : InterruptReason) :
    (evictProcess s cpu reason).records = s.records := by
  unfold evictProcess
  cases sent : sendProcessEvict s reason .handleState cpu with
  | none => rfl
  | some s' => exact records_sendProcessEvict sent

theorem records_waitConfirmationThreadAndHandleState :
    (waitConfirmationThreadAndHandleState config s cpu).records = s.records := by
  unfold waitConfirmationThreadAndHandleState
  dsimp only
  split
  · rfl
  · rename_i pid _
    have left : (processSetCpu (removeFromExec (s.setCpu cpu Cpu.confirmed) pid) pid none).records =
        s.records := records_processSetCpu none
    split
    · exact left
    · exact (@records_makeReady ι config _ pid).trans left

theorem records_evictAllProcesses (reason : InterruptReason) (pids : List UInt32) (s : State ι) :
    (evictAllProcesses reason pids s).2.records = s.records :=
  evictAllProcesses_rule (R := fun s t => t.records = s.records) (fun _ => rfl)
    (fun sent rest => rest.trans (records_sendProcessEvict sent)) pids s

theorem records_handleEvicted : (handleEvicted config s cpu).records = s.records := by
  unfold handleEvicted
  split
  · rfl
  · rename_i pid _
    have left : (processSetCpu (removeFromExec s pid) pid none).records = s.records :=
      records_processSetCpu none
    have start : ∀ s : State ι,
        (addProcessAtStartOfReadyQueue config s pid).records = s.records := by
      intro s
      unfold addProcessAtStartOfReadyQueue
      split <;> rfl
    dsimp only
    split
    · exact left
    · exact (start _).trans ((records_processSetState .ready).trans left)

theorem records_unknownMutex : (unknownMutex s pid cpu).records = s.records :=
  (records_sendMemory rfl).trans
    (records_processSetState (s := removeFromExec (makeAvailable s cpu) pid) .exit)

theorem records_endProcess : (endProcess s pid cpu).records = s.records := by
  have sent : ∀ s : State ι, (s.sendMemory (.processEnd pid)).records = s.records :=
    fun s => records_sendMemory rfl
  have ended : (s.setProcess pid fun p => { p with state := .exit, cpu := none }).records =
      s.records := records_setProcess rfl rfl rfl rfl
  unfold endProcess
  dsimp only
  split
  · exact (sent _).trans ended
  · exact sent (makeAvailable s cpu)

theorem records_terminateProcess : (terminateProcess config s pid cpu).records = s.records := by
  have sent : ∀ s : State ι, (s.sendMemory (.processEnd pid)).records = s.records :=
    fun s => records_sendMemory rfl
  have ended : (s.setProcess pid fun p => { p with state := .exit, cpu := none }).records =
      s.records := records_setProcess rfl rfl rfl rfl
  exact (sent _).trans ended

theorem records_handleSegmentResult (result : SegmentResult) :
    (handleSegmentResult config s pid result).records = s.records := by
  have settled : (s.setProcess pid fun p => { p with pendingMemorySyscall := false }).records =
      s.records := records_setProcess rfl rfl rfl rfl
  unfold handleSegmentResult
  split
  · dsimp only
    split
    · split
      · split
        · exact (@records_makeReady ι config _ pid).trans settled
        · exact settled
      · have sent : ∀ s : State ι, (s.sendMemory (.processEnd pid)).records = s.records :=
          fun s => records_sendMemory rfl
        exact (sent _).trans ((records_processSetState .exit).trans settled)
    · split
      · exact (records_sendPidToExecute _).trans settled
      · exact records_terminateProcess.trans settled
  · rfl

theorem records_shortTermTurn : (shortTermTurn config s).records = s.records := by
  have preempted : ∀ pid, (preempt config s pid).records = s.records := by
    intro pid
    unfold preempt
    split
    · split
      · rfl
      · split
        · exact records_evictProcess _ _
        · rfl
    · rfl
  unfold shortTermTurn
  split
  · rename_i pid cpu _ _
    have launched : (s.setProcess pid fun p =>
        { p with
          state := .exec
          cpu := some cpu
          startExecTime :=
            if config.schedulerAlgorithm = .fifo then p.startExecTime else s.now }).records =
          s.records := records_setProcess rfl rfl rfl rfl
    exact (records_sendPidToExecute _).trans launched
  · exact preempted _
  · rfl

theorem records_handleCpuDisconnection :
    (handleCpuDisconnection config s cpu).records = s.records := by
  unfold handleCpuDisconnection
  dsimp only
  split
  · rfl
  · rename_i pid _
    have left : (s.setProcess pid fun p =>
        { p with state := .ready, cpu := none, startExecTime := 0 }).records = s.records :=
      records_setProcess rfl rfl rfl rfl
    exact left

theorem records_stepCompaction {i : Nat} {st : CompactionStep}
    (taken : stepCompaction config s i st = some s') : s'.records = s.records := by
  cases st with
  | evictAll =>
      simp only [stepCompaction] at taken
      split at taken
      · obtain rfl := Option.some.inj taken
        exact records_evictAllProcesses _ s.execProcesses s
      · cases taken
  | handleEvicted =>
      simp only [stepCompaction] at taken
      split at taken
      · split at taken
        · obtain rfl := Option.some.inj taken
          exact records_handleEvicted
        · cases taken
      · cases taken
  | compactionReady =>
      simp only [stepCompaction] at taken
      split at taken
      · have sent : (s.sendMemory .compactionReady).records = s.records := records_sendMemory rfl
        obtain rfl := Option.some.inj taken
        exact sent
      · cases taken
  | reopen =>
      simp only [stepCompaction] at taken
      split at taken
      · split at taken
        · obtain rfl := Option.some.inj taken
          rfl
        · cases taken
      · cases taken

/-! ### Steps -/

/-- The steps that touch neither: no message of a CPU, of a device or of Kernel Memory is
handled, and no device comes or goes. -/
def Action.Calm : Action ι → Prop
  | .tick | .connectCpu _ | .cpu .. | .disconnectCpu _ | .confirm _ | .wake | .schedule
  | .quantum _ | .suspend | .compaction .. => True
  | _ => False

theorem step_records {a : Action ι} {t : State ι} (taken : step config s a = some t)
    (calm : a.Calm) : t.records = s.records := by
  cases a with
  | tick =>
      obtain rfl := Option.some.inj taken
      rfl
  | connectCpu cpu =>
      simp only [step] at taken
      split at taken
      · obtain rfl := Option.some.inj taken
        rfl
      · cases taken
  | cpu cpu st =>
      obtain ⟨c, -, rfl⟩ := Option.map_eq_some_iff.mp taken
      rfl
  | disconnectCpu cpu =>
      simp only [step] at taken
      split at taken
      · obtain rfl := Option.some.inj taken
        exact records_handleCpuDisconnection
      · cases taken
  | confirm cpu =>
      simp only [step] at taken
      split at taken
      · obtain rfl := Option.some.inj taken
        exact records_waitConfirmationThreadAndHandleState
      · cases taken
  | wake =>
      simp only [step] at taken
      split at taken
      · obtain rfl := Option.some.inj taken
        rfl
      · cases taken
  | schedule =>
      simp only [step] at taken
      split at taken
      · obtain rfl := Option.some.inj taken
        exact records_shortTermTurn
      · cases taken
  | quantum pid =>
      simp only [step] at taken
      split at taken
      · obtain rfl := Option.some.inj taken
        exact records_evictProcess _ _
      · cases taken
  | suspend =>
      obtain rfl := Option.some.inj taken
      exact records_suspensionManager
  | compaction i st => exact records_stepCompaction taken
  | process0 | handleCpu | connectIo | handleIo | disconnectIo | written | memory | handleMemory =>
      exact absurd calm id

end OsModel.KernelScheduler
