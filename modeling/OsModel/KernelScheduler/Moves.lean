import OsModel.KernelScheduler.Board
import OsModel.KernelScheduler.ReadyQueues

/-!
The handlers make moves.

* `step_moves`: a step changes the board by moves, about what the step is about.
* `Runs.keeps`: what moves keep, a run keeps.
-/

namespace OsModel.KernelScheduler

variable {ι : Type}

/-! ### The board of a state -/

/-- What the board says of a process. -/
def Process.holder (p : Process ι) (executing : ℕ) : Holder ι :=
  ⟨p.state, p.cpu, p.pendingMemorySyscall, executing⟩

/-- What the board says of a CPU. -/
def Cpu.desk (c : Cpu) : Desk := ⟨c.connection, c.isAvailable, c.isEvicting, c.inFlight⟩

def State.board (s : State ι) : Board ι where
  process pid := (s.process pid).holder (s.execProcesses.count pid)
  listProcesses := s.listProcesses
  cpu cpu := (s.cpu cpu).desk
  listCpu := s.listCpu
  suspendedProcesses := s.suspendedProcesses
  memory := s.memory

variable {s s' : State ι} {pid : UInt32}

theorem board_setProcess (s : State ι) (pid : UInt32) (f : Process ι → Process ι) :
    (s.setProcess pid f).board =
      s.board.setProcess pid ((f (s.process pid)).holder (s.execProcesses.count pid)) := by
  refine Board.ext (funext fun other => ?_) rfl rfl rfl rfl rfl
  simp only [State.board, State.setProcess, Board.process_setProcess, Function.update_apply]
  split
  · rename_i eq
    rw [eq]
  · rfl

theorem board_setProcess_view {f : Process ι → Process ι}
    (same : (f (s.process pid)).view = (s.process pid).view) :
    (s.setProcess pid f).board = s.board := by
  have holder : (f (s.process pid)).holder (s.execProcesses.count pid) = s.board.process pid := by
    simp only [Process.view, Prod.mk.injEq] at same
    simp [State.board, Process.holder, same]
  rw [board_setProcess, holder]
  exact Board.ext (Function.update_eq_self ..) rfl rfl rfl rfl rfl

theorem board_removeFromExec (s : State ι) (pid : UInt32) :
    (removeFromExec s pid).board =
      s.board.setProcess pid ((s.process pid).holder (s.execProcesses.count pid - 1)) := by
  refine Board.ext (funext fun other => ?_) rfl rfl rfl rfl rfl
  simp only [State.board, removeFromExec, Board.process_setProcess]
  split
  · rename_i eq
    rw [eq, List.count_erase_self]
  · rename_i ne
    rw [List.count_erase_of_ne ne]

@[simp]
theorem Board.setProcess_setProcess (b : Board ι) (p q : Holder ι) :
    (b.setProcess pid p).setProcess pid q = b.setProcess pid q := by
  simp [Board.setProcess]

@[simp]
theorem board_setReadyQueue (i : Nat) (queue : List UInt32) :
    (s.setReadyQueue i queue).board = s.board := rfl

@[simp]
theorem board_addProcessToReadyQueue (config : Config) :
    (addProcessToReadyQueue config s pid).board = s.board := rfl

@[simp]
theorem board_addProcessAtStartOfReadyQueue (config : Config) :
    (addProcessAtStartOfReadyQueue config s pid).board = s.board := by
  unfold addProcessAtStartOfReadyQueue
  split <;> rfl

@[simp]
theorem board_removeProcessFromReadyQueue (config : Config) :
    (removeProcessFromReadyQueue config s pid).board = s.board := rfl

@[simp]
theorem board_postShortTerm : s.postShortTerm.board = s.board := rfl

@[simp]
theorem board_sendMemory (message : ToMemory) :
    (s.sendMemory message).board = s.board.send message := rfl

@[simp]
theorem board_setMutex (name : String) (f : Mutex → Mutex) :
    (s.setMutex name f).board = s.board := rfl

@[simp]
theorem board_setIo (io : Nat) (f : Io → Io) : (s.setIo io f).board = s.board := rfl

theorem board_requeueWithPriority (config : Config) (newPriority : UInt8) :
    (requeueWithPriority config s pid newPriority).board = s.board := by
  have written : ∀ s : State ι, (processSetPriority s pid newPriority).board = s.board := by
    intro s
    have holder : ({ s.process pid with effectivePriority := newPriority } : Process ι).holder
        (s.execProcesses.count pid) = s.board.process pid := rfl
    rw [processSetPriority, board_setProcess, holder]
    exact Board.ext (Function.update_eq_self ..) rfl rfl rfl rfl rfl
  unfold requeueWithPriority
  split
  · rw [board_addProcessToReadyQueue, written, board_removeProcessFromReadyQueue]
  · exact written s

variable [DecidableEq ι] {config : Config} {m : UInt32 → Mode} {about : About ι} {cpu : ι}

theorem board_setCpu (s : State ι) (cpu : ι) (f : Cpu → Cpu) :
    (s.setCpu cpu f).board = s.board.setCpu cpu (f (s.cpu cpu)).desk := by
  refine Board.ext rfl rfl (funext fun other => ?_) rfl rfl rfl
  simp only [State.board, State.setCpu, Board.cpu_setCpu, Function.update_apply]
  split <;> rfl

/-! ### Orders to the CPUs -/

theorem sendPidToExecute_moves (cpu : Option ι) :
    Moves m about s.board (sendPidToExecute s pid cpu).board := by
  cases cpu with
  | none => exact .refl
  | some cpu =>
      simp only [sendPidToExecute]
      split
      · exact .refl
      · rename_i calm
        split
        · have more : ∀ other,
              ({ s.cpu cpu with toCpu := (s.cpu cpu).toCpu ++ [.processExecute pid] } :
                Cpu).inFlight.count other =
                  (s.cpu cpu).inFlight.count other + if other = pid then 1 else 0 := by
            intro other
            simp only [Cpu.inFlight, List.filterMap_append, List.filterMap_cons, ToCpu.pid,
              List.filterMap_nil, List.count_append, Lib.count_cons_eq, List.count_nil]
            omega
          rw [board_setCpu]
          exact .single (.execute (by simpa [State.board, Cpu.desk] using calm) more)
        · exact .refl

theorem sendProcessEvict_moves {reason : InterruptReason} {evictor : Evictor} {cpu : Option ι}
    (sent : sendProcessEvict s reason evictor cpu = some s') :
    Moves m about s.board s'.board := by
  obtain ⟨cpu, -, calm, connected, rfl⟩ := sendProcessEvict_some sent
  have desk : ({ s.cpu cpu with
      isEvicting := true
      evictor := some evictor
      toCpu := (s.cpu cpu).toCpu ++ [.processEvict reason] } : Cpu).desk =
        { (s.cpu cpu).desk with isEvicting := true } := by
    simp [Cpu.desk, Cpu.inFlight, ToCpu.pid, List.filterMap_cons]
  rw [board_setCpu, desk]
  exact .single (.order connected calm)

theorem evictProcess_moves {reason : InterruptReason} {cpu : Option ι} :
    Moves m about s.board (evictProcess s cpu reason).board := by
  unfold evictProcess
  cases sent : sendProcessEvict s reason .handleState cpu with
  | none => exact .refl
  | some s' => exact sendProcessEvict_moves sent

theorem evictAllProcesses_moves {reason : InterruptReason} (pids : List UInt32) :
    Moves m about s.board (evictAllProcesses reason pids s).2.board :=
  evictAllProcesses_rule (R := fun s t : State ι => Moves m about s.board t.board)
    (fun _ => .refl) (fun sent rest => (sendProcessEvict_moves sent).trans rest) pids s

/-! ### Processes -/

/-- A process that blocks gives back its CPU. -/
theorem blockProcess_moves (subject : about.subject = some pid)
    (executed : (s.process pid).state = .exec) (has : (s.process pid).cpu = some cpu) :
    Moves m about s.board (makeAvailable (blockProcess s pid) cpu).board := by
  have blocked : (blockProcess s pid).board = s.board.setProcess pid
      ⟨.block, none, (s.process pid).pendingMemorySyscall, s.execProcesses.count pid - 1⟩ := by
    have same : (blockProcess s pid).board = ((removeFromExec s pid).setProcess pid fun p =>
      { p with state := .block, cpu := none, startBlockTime := s.now }).board := rfl
    rw [same, board_setProcess, board_removeFromExec, Board.setProcess_setProcess]
    simp [removeFromExec, Process.holder]
  rw [makeAvailable, board_setCpu, blocked]
  exact .single (.release subject executed has (.inl rfl))

omit [DecidableEq ι] in
/-- A process that ends leaves its CPU. -/
theorem board_exit (s : State ι) (pid : UInt32) :
    (removeFromExec (s.setProcess pid fun p => { p with state := .exit, cpu := none }) pid).board =
      s.board.setProcess pid
        ⟨.exit, none, (s.process pid).pendingMemorySyscall, s.execProcesses.count pid - 1⟩ := by
  rw [board_removeFromExec, board_setProcess, Board.setProcess_setProcess, setProcess_self]
  rfl

omit [DecidableEq ι] in
/-- A process changes its state. -/
theorem board_processSetState (s : State ι) (pid : UInt32) (state : ProcessState) :
    (processSetState s pid state).board =
      s.board.setProcess pid { s.board.process pid with state } := by
  rw [processSetState, board_setProcess]
  rfl

theorem makeReady_moves (config : Config) (known : pid ∈ s.listProcesses) (free : (s.process pid).cpu = none)
    (turn : Turn (m pid) about.swaps (s.process pid).state .ready) :
    Moves m about s.board (makeReady config s pid).board := by
  rw [makeReady, board_addProcessToReadyQueue, board_processSetState]
  exact .single (.turn known free turn)

theorem finishBlock_moves (known : pid ∈ s.listProcesses) (free : (s.process pid).cpu = none)
    (waits : (s.process pid).Waits (m pid)) :
    Moves m about s.board (finishBlock config s pid).board := by
  have turn : Turn (m pid) about.swaps (s.process pid).state
      (if (s.process pid).state = .suspBlock then .suspReady else .ready) := by
    rcases waits with state | state | ⟨ends, state⟩ <;> rw [state]
    · exact .woken
    · exact .wokenSuspended
    · exact .revived ends
  have written : Moves m about s.board (processSetReady s pid).board := by
    rw [processSetReady, board_processSetState]
    exact .single (.turn known free turn)
  unfold finishBlock
  dsimp only
  split <;> exact written

/-- The end of a process that leaves its CPU. -/
theorem endProcess_moves (known : pid ∈ s.listProcesses) (subject : about.subject = some pid)
    (executed : (s.process pid).state = .exec) (has : (s.process pid).cpu = some cpu) :
    Moves m about s.board (endProcess s pid cpu).board := by
  have ended : Moves m about s.board
      (makeAvailable (removeFromExec
        (s.setProcess pid fun p => { p with state := .exit, cpu := none }) pid) cpu).board := by
    rw [makeAvailable, board_setCpu, board_exit]
    exact .single (.release subject executed has (.inr rfl))
  unfold endProcess
  rw [if_pos known, board_postShortTerm, board_sendMemory]
  refine ended.tail (.send False.elim fun other eq => ?_)
  obtain rfl := ToMemory.processEnd.inj eq
  simp [State.board, makeAvailable, removeFromExec, Process.holder]

/-- The end of a process that keeps its CPU. -/
theorem unknownMutex_moves (keeps : (m pid).keepsCpu) (subject : about.subject = some pid)
    (executed : (s.process pid).state = .exec) (has : (s.process pid).cpu = some cpu) :
    Moves m about s.board (unknownMutex s pid cpu).board := by
  have ended : Moves m about s.board
      (processSetState (removeFromExec (makeAvailable s cpu) pid) pid .exit).board := by
    rw [board_processSetState, board_removeFromExec, makeAvailable, board_setCpu]
    simp only [Board.process_setProcess, if_true, Board.setProcess_setProcess]
    exact .single (.keep keeps subject executed has)
  unfold unknownMutex
  rw [board_postShortTerm, board_sendMemory]
  refine ended.tail (.send False.elim fun other eq => ?_)
  obtain rfl := ToMemory.processEnd.inj eq
  simp [State.board, Process.holder]

/-! ### Mutexes -/

omit [DecidableEq ι] in
@[simp]
theorem board_mutexCreate (name : String) : (mutexCreate s name).board = s.board := by
  unfold mutexCreate
  split <;> rfl

omit [DecidableEq ι] in
@[simp]
theorem board_ownMutexes (f : List String → List String) :
    (s.setProcess pid fun p => { p with ownedMutexes := f p.ownedMutexes }).board = s.board :=
  board_setProcess_view rfl

omit [DecidableEq ι] in
theorem board_inheritPriority (owner : Option UInt32) :
    (inheritPriority config s pid owner).board = s.board := by
  cases owner with
  | none => rfl
  | some owner =>
      simp only [inheritPriority]
      split
      · exact board_requeueWithPriority config _
      · rfl

omit [DecidableEq ι] in
theorem board_restorePriority : (restorePriority config s pid).board = s.board := by
  unfold restorePriority
  dsimp only
  split
  · exact board_requeueWithPriority config _
  · rfl

theorem board_makeAvailable (s : State ι) (cpu : ι) :
    (makeAvailable s cpu).board =
      s.board.setCpu cpu { s.board.cpu cpu with isAvailable := true } := by
  rw [makeAvailable, board_setCpu]
  rfl

theorem mutexLock_moves {name : String} (subject : about.subject = some pid)
    (executed : (s.process pid).state = .exec) (has : (s.process pid).cpu = some cpu) :
    Moves m about s.board (mutexLock config s name pid).board := by
  unfold mutexLock
  simp only [has]
  split
  · have same : ((s.setMutex name fun mutex =>
        { mutex with isLocked := true, lockedBy := some pid }).setProcess pid fun p =>
          { p with ownedMutexes := p.ownedMutexes ++ [name] }).board = s.board :=
      board_ownMutexes (s := s.setMutex name _) (· ++ [name])
    have sent : Moves m about _ (sendPidToExecute ((s.setMutex name fun mutex =>
        { mutex with isLocked := true, lockedBy := some pid }).setProcess pid fun p =>
          { p with ownedMutexes := p.ownedMutexes ++ [name] }) pid (some cpu)).board :=
      sendPidToExecute_moves (some cpu)
    rwa [same] at sent
  · split
    · exact sendPidToExecute_moves (some cpu)
    · rw [board_postShortTerm, board_makeAvailable, board_inheritPriority, ← board_makeAvailable]
      exact blockProcess_moves (s := s.setMutex name _) subject executed has

theorem handOver_moves {name : String} {place : UInt32 → Option (Place ι)}
    (inv : Inv config m none s place) : Moves m about s.board (handOver config s name).board := by
  unfold handOver
  split
  · exact .refl
  · rename_i next rest waiting
    obtain ⟨⟨waits, unassigned, -⟩, known, -⟩ := inv.takeMutex
      (f := fun _ => ⟨true, some next, rest⟩) waiting rfl
    have finished : Moves m about _ (finishBlock config
        ((s.setMutex name fun _ => ⟨true, some next, rest⟩).setProcess next fun p =>
          { p with ownedMutexes := p.ownedMutexes ++ [name] }) next).board :=
      finishBlock_moves known (by simpa using unassigned) (by simpa [Process.Waits] using waits)
    rw [board_ownMutexes (· ++ [name]), board_setMutex] at finished
    dsimp only
    split <;> exact finished

theorem mutexUnlock_moves {name : String} {place : UInt32 → Option (Place ι)}
    (inv : Inv config m (some pid) s place)
    (fits : Fits config (m pid) (some (.cpu cpu)) (s.process pid)) (known : pid ∈ s.listProcesses) :
    Moves m about s.board (mutexUnlock config s name pid).board := by
  obtain ⟨executing, assigned, settled⟩ := fits
  unfold mutexUnlock
  split
  · dsimp only
    rw [assigned]
    obtain ⟨place₁, sent⟩ := inv.sendPidToExecute executing assigned settled known
    obtain ⟨place₂, restored⟩ := (sent.ownMutexes pid (·.erase name)).restorePriority pid
    have handed : Moves m about _ (handOver config (restorePriority config
        ((sendPidToExecute s pid (some cpu)).setProcess pid fun p =>
          { p with ownedMutexes := p.ownedMutexes.erase name }) pid) name).board :=
      handOver_moves restored
    rw [board_restorePriority, board_ownMutexes (·.erase name)] at handed
    exact (sendPidToExecute_moves (some cpu)).trans handed
  · exact .refl

/-! ### IO -/

omit [DecidableEq ι] in
@[simp]
theorem board_requestIo (ioType : IoType) (request : IoRequest) :
    (requestIo s ioType request).board = s.board := by
  unfold requestIo
  split <;> rfl

omit [DecidableEq ι] in
@[simp]
theorem board_handleNextOperation (io : Nat) (ioType : IoType) :
    (handleNextOperation s io ioType).board = s.board := by
  unfold handleNextOperation
  split <;> rfl

theorem stdinSyscallManager_moves {physicalAddress toRead : UInt32}
    (subject : about.subject = some pid) (executed : (s.process pid).state = .exec)
    (has : (s.process pid).cpu = some cpu) (keeps : toRead = 0 → (m pid).keepsCpu)
    (loses : toRead = 0 → (s.cpu cpu).isEvicting = false → (m pid).losesCpu) :
    Moves m about s.board (stdinSyscallManager s pid cpu physicalAddress toRead).board := by
  unfold stdinSyscallManager
  split
  · rename_i empty
    have ended : Moves m about s.board (processSetState (removeFromExec s pid) pid .exit).board := by
      rw [board_processSetState, board_removeFromExec]
      simp only [Board.process_setProcess, if_true, Board.setProcess_setProcess]
      exact .single (.lose (keeps empty) (loses empty) subject executed has)
    rw [board_sendMemory]
    refine ended.tail (.send False.elim fun other eq => ?_)
    obtain rfl := ToMemory.processEnd.inj eq
    simp [State.board, Process.holder]
  · rw [board_requestIo]
    exact blockProcess_moves subject executed has

theorem ioFinishProcess_moves {io : Nat} (known : pid ∈ s.listProcesses)
    (free : (s.process pid).cpu = none) (waits : (s.process pid).Waits (m pid)) :
    Moves m about s.board (ioFinishProcess config s pid io).board := by
  unfold ioFinishProcess
  rw [if_pos known, board_postShortTerm, board_setIo]
  exact finishBlock_moves known free waits

theorem handleIo_moves {io : Nat} {request : IoRequest} {value : String}
    (known : request.pid ∈ s.listProcesses) (free : (s.process request.pid).cpu = none)
    (waits : (s.process request.pid).Waits (m request.pid)) :
    Moves m about s.board (handleIo config s io request value).board := by
  unfold handleIo
  dsimp only
  split
  · rw [board_handleNextOperation]
    exact ioFinishProcess_moves known free waits
  · rw [board_handleNextOperation]
    exact ioFinishProcess_moves known free waits
  · split
    · exact .refl
    · rw [board_handleNextOperation, board_setIo, board_sendMemory]
      exact .single (.send False.elim (by simp))

/-! ### Kernel Memory -/

theorem requestSegment_moves {message : ToMemory} (subject : about.subject = some pid)
    (executed : (s.process pid).state = .exec) (asks : message.request = some (pid, .segment)) :
    Moves m about s.board (requestSegment s pid message).board := by
  have settled : Moves m about s.board
      (s.setProcess pid fun p => { p with pendingMemorySyscall := true }).board := by
    rw [board_setProcess]
    exact .single (.settle subject executed)
  unfold requestSegment
  rw [board_sendMemory]
  refine settled.tail (.send ?_ ?_)
  · intro swaps
    cases message <;> simp [ToMemory.request, ToMemory.Swaps] at asks swaps
  · rintro other rfl
    simp [ToMemory.request] at asks

theorem memAllocSyscallManager_moves {segmentId segmentSize : UInt32}
    (subject : about.subject = some pid) (executed : (s.process pid).state = .exec) :
    Moves m about s.board (memAllocSyscallManager s pid segmentId segmentSize).board := by
  unfold memAllocSyscallManager
  split
  · exact requestSegment_moves subject executed rfl
  · exact .refl

theorem memFreeSyscallManager_moves {segmentId : UInt32} (subject : about.subject = some pid)
    (executed : (s.process pid).state = .exec) :
    Moves m about s.board (memFreeSyscallManager s pid segmentId).board := by
  unfold memFreeSyscallManager
  split
  · exact requestSegment_moves subject executed rfl
  · exact .refl

theorem terminateProcess_moves (subject : about.subject = some pid)
    (executed : (s.process pid).state = .exec) (has : (s.process pid).cpu = some cpu) :
    Moves m about s.board (terminateProcess config s pid cpu).board := by
  have ended : Moves m about s.board
      ((removeProcessFromReadyQueue config
        (removeFromExec (s.setProcess pid fun p => { p with state := .exit, cpu := none }) pid)
        pid).setCpu cpu fun c => { c with isAvailable := c.isAvailable || !c.isEvicting }).board := by
    rw [board_setCpu, board_removeProcessFromReadyQueue, board_exit]
    exact .single (.terminate subject executed has)
  unfold terminateProcess
  rw [board_postShortTerm, board_sendMemory]
  refine ended.tail (.send False.elim fun other eq => ?_)
  obtain rfl := ToMemory.processEnd.inj eq
  simp [State.board, Process.holder, removeProcessFromReadyQueue, State.setReadyQueue,
    removeFromExec]

theorem handleSegmentResult_moves {result : SegmentResult} (known : pid ∈ s.listProcesses)
    (subject : about.subject = some pid) (executed : (s.process pid).state = .exec) :
    Moves m about s.board (handleSegmentResult config s pid result).board := by
  have settled : Moves m about s.board
      (s.setProcess pid fun p => { p with pendingMemorySyscall := false }).board := by
    rw [board_setProcess]
    exact .single (.settle subject executed)
  unfold handleSegmentResult
  rw [if_pos known]
  dsimp only
  split
  · rename_i free
    split
    · rw [board_postShortTerm, makeReady, board_addProcessToReadyQueue,
        board_processSetState]
      refine settled.tail (.resume subject ?_ ?_ (.inl rfl) (.inl rfl))
      · simpa [State.board, Process.holder] using executed
      · simpa [State.board, Process.holder] using free
    · rw [board_postShortTerm, board_sendMemory, board_removeFromExec, board_processSetState]
      simp only [Board.setProcess_setProcess, processSetState_self]
      refine (settled.tail (.resume subject ?_ ?_ (.inr rfl) (.inr rfl))).tail
        (.send False.elim fun other eq => ?_)
      · simpa [State.board, Process.holder] using executed
      · simpa [State.board, Process.holder] using free
      · obtain rfl := ToMemory.processEnd.inj eq
        simp
  · rename_i cpu has
    split
    · exact settled.trans (sendPidToExecute_moves (some cpu))
    · refine settled.trans (terminateProcess_moves subject ?_ ?_)
      · simpa using executed
      · simpa using has

theorem failed_moves (known : pid ∈ s.listProcesses) (free : (s.process pid).cpu = none)
    (waits : (s.process pid).Waits (m pid)) :
    Moves m about s.board ((processSetState s pid .exit).sendMemory (.processEnd pid)).board := by
  rw [board_sendMemory, board_processSetState]
  refine Relation.ReflTransGen.tail (.single (.turn known free (.failed waits)))
    (.send False.elim fun other eq => ?_)
  obtain rfl := ToMemory.processEnd.inj eq
  simp

theorem stdoutWaitMemoryRead_moves {value : String} (known : pid ∈ s.listProcesses)
    (free : (s.process pid).cpu = none) (waits : (s.process pid).Waits (m pid)) :
    Moves m about s.board (stdoutWaitMemoryRead s pid value).board := by
  unfold stdoutWaitMemoryRead
  rw [board_requestIo]
  split
  · exact failed_moves known free waits
  · exact .refl

theorem handleIoMemoryWrite_moves {writeSuccesful : Bool} (known : pid ∈ s.listProcesses)
    (free : (s.process pid).cpu = none) (waits : (s.process pid).Waits (m pid)) :
    Moves m about s.board (handleIoMemoryWrite s pid writeSuccesful).board := by
  unfold handleIoMemoryWrite
  split
  · rw [board_setProcess_view rfl]
  · exact failed_moves known free waits

theorem waitMemoryWriteConfirmation_moves (known : pid ∈ s.listProcesses)
    (free : (s.process pid).cpu = none) (waits : (s.process pid).Waits (m pid)) :
    Moves m about s.board (waitMemoryWriteConfirmation config s pid).board := by
  have finished : Moves m about _ (finishBlock config
      (s.setProcess pid fun p => { p with memoryRequestSem := p.memoryRequestSem - 1 }) pid).board :=
    finishBlock_moves known (by simpa using free) (by simpa [Process.Waits] using waits)
  rw [board_setProcess_view rfl] at finished
  exact finished

/-! ### Syscalls -/

theorem handleSyscall_moves {syscall : Syscall} {place : UInt32 → Option (Place ι)}
    (inv : Inv config m (some pid) s place)
    (fits : Fits config (m pid) (some (.cpu cpu)) (s.process pid)) (known : pid ∈ s.listProcesses)
    (subject : about.subject = some pid) (keeps : syscall.KeepsCpu s → (m pid).keepsCpu)
    (loses : syscall.LosesCpu → (s.cpu cpu).isEvicting = false → (m pid).losesCpu) :
    Moves m about s.board (handleSyscall config s cpu pid syscall).board := by
  obtain ⟨executed, has, settled⟩ := fits
  cases syscall with
  | processEnd | segmentationFault => exact endProcess_moves known subject executed has
  | mutexCreate name =>
      have sent : Moves m about _ (sendPidToExecute (mutexCreate s name) pid (some cpu)).board :=
        sendPidToExecute_moves (some cpu)
      rwa [board_mutexCreate] at sent
  | mutexLock name =>
      simp only [handleSyscall, if_pos known]
      split
      · exact mutexLock_moves subject executed has
      · rename_i absent
        exact unknownMutex_moves (keeps absent) subject executed has
  | mutexUnlock name =>
      simp only [handleSyscall, if_pos known]
      split
      · exact mutexUnlock_moves inv ⟨executed, has, settled⟩ known
      · rename_i absent
        exact unknownMutex_moves (keeps absent) subject executed has
  | sleep sleepTime =>
      simp only [handleSyscall, if_pos known, sleepSyscallManager, board_requestIo]
      exact blockProcess_moves subject executed has
  | stdin physicalAddress toRead =>
      simp only [handleSyscall, if_pos known]
      exact stdinSyscallManager_moves subject executed has keeps loses
  | stdout physicalAddress toRead =>
      simp only [handleSyscall, if_pos known, stdoutSyscallManager, board_sendMemory]
      exact (blockProcess_moves subject executed has).tail (.send False.elim (by simp))
  | memAlloc segmentId segmentSize => exact memAllocSyscallManager_moves subject executed
  | memFree segmentId => exact memFreeSyscallManager_moves subject executed

theorem longTermScheduler_moves {path : String} {priority : UInt8}
    {place : UInt32 → Option (Place ι)} (inv : Inv config m none s place)
    (created : longTermScheduler s path priority = some s') : Moves m about s.board s'.board := by
  simp only [longTermScheduler] at created
  split at created
  · simp at created
  · rename_i fresh
    obtain rfl := Option.some.inj created
    have free : (s.process s.currentMaxPid).cpu = none := by
      by_contra has
      exact fresh (inv.assigned _ has)
    have made : Moves m about s.board
        { (s.setProcess s.currentMaxPid fun _ => createProcess priority).board with
          listProcesses := s.listProcesses ++ [s.currentMaxPid] } := by
      rw [board_setProcess]
      exact .single (.create fresh free)
    exact made.tail (.send False.elim (by simp) : Move m about _ (Board.send _ (.processCreate _ path)))

/-! ### Evictions and connections -/

/-- A CPU whose messages are read, or lost. -/
theorem setCpu_flow {f : Cpu → Cpu}
    (connection : (f (s.cpu cpu)).connection = (s.cpu cpu).connection)
    (isAvailable : (f (s.cpu cpu)).isAvailable = (s.cpu cpu).isAvailable)
    (isEvicting : (f (s.cpu cpu)).isEvicting = (s.cpu cpu).isEvicting)
    (less : ∀ other, (f (s.cpu cpu)).inFlight.count other ≤ (s.cpu cpu).inFlight.count other) :
    Moves m about s.board (s.setCpu cpu f).board := by
  have desk : (f (s.cpu cpu)).desk =
      { s.board.cpu cpu with inFlight := (f (s.cpu cpu)).inFlight } := by
    simp [Cpu.desk, State.board, connection, isAvailable, isEvicting]
  rw [board_setCpu, desk]
  exact .single (.flow less)

theorem handleCpu_moves {message : ToScheduler} {rest : List ToScheduler}
    {place : UInt32 → Option (Place ι)} (inv : Inv config m none s place)
    (next : (s.cpu cpu).toScheduler = message :: rest)
    (subject : ∀ pid syscall, message = .syscall pid syscall → about.subject = some pid)
    (allowed : message.Allowed m s cpu)
    (handled : handleCpu config (s.setCpu cpu fun c => { c with toScheduler := rest }) cpu message =
      some s') : Moves m about s.board s'.board := by
  have read : Moves m about s.board
      (s.setCpu cpu fun c => { c with toScheduler := rest }).board := by
    refine setCpu_flow rfl rfl rfl fun other => ?_
    cases message <;> simp [Cpu.inFlight, next, ToScheduler.pid, List.filterMap_cons,
      Lib.count_cons_eq]
  cases message with
  | processCreate priority path =>
      have connected : (s.cpu cpu).connection = .connected := by
        by_contra gone
        simp [((inv.staged cpu).gone gone).2.2] at next
      have stage := (inv.staged cpu).stage connected
      rw [next] at stage
      have inv' : Inv config m none (s.setCpu cpu fun c => { c with toScheduler := rest }) place :=
        inv.setCpu cpu _ (fun _ => ⟨fun _ => stage.handle (by simp), absurd connected⟩) fun pid => by
          simp [Cpu.inFlight, next, ToScheduler.pid, List.filterMap_cons]
      exact read.trans (longTermScheduler_moves inv' handled)
  | syscall pid stop =>
      obtain rfl := Option.some.inj handled
      obtain ⟨fits, known, taken⟩ := inv.takeSyscall next
      obtain ⟨keeps, loses⟩ := allowed
      refine read.trans (handleSyscall_moves taken fits known (subject pid stop rfl) keeps ?_)
      intro lost calm
      exact loses lost (by simpa using calm)
  | confirmation =>
      obtain rfl := Option.some.inj handled
      exact read.trans (setCpu_flow rfl rfl rfl fun other => by simp [Cpu.inFlight])

theorem getProcessFromCpu_none {place : UInt32 → Option (Place ι)} {hand : Option UInt32}
    (inv : Inv config m hand s place) (none : getProcessFromCpu s cpu = none) (pid : UInt32) :
    (s.process pid).cpu ≠ some cpu := by
  intro has
  have other := List.find?_eq_none.mp none pid (inv.assigned pid (by simp [has]))
  simp [has] at other

/-- A process with a CPU is `EXEC`, or has ended. -/
theorem Inv.executed {place : UInt32 → Option (Place ι)} (inv : Inv config m none s place)
    (has : (s.process pid).cpu = some cpu) :
    (s.process pid).state = .exec ∨ (m pid).keepsCpu ∧ (s.process pid).state = .exit := by
  have fits := inv.fit pid
  rcases there : place pid with _ | (_ | _ | _ | _ | _ | (_ | _ | _)) <;> rw [there] at fits <;>
    simp [Fits, has] at fits
  · exact fits.2.2
  · exact .inl fits.1
  · exact .inl fits.1

omit [DecidableEq ι] in
/-- A process loses its CPU. -/
theorem board_unassign (s : State ι) (pid : UInt32) :
    (processSetCpu (removeFromExec s pid) pid none).board =
      s.board.setProcess pid
        { s.board.process pid with
          cpu := none
          executing := (s.board.process pid).executing - 1 } := by
  rw [processSetCpu, board_setProcess, board_removeFromExec, Board.setProcess_setProcess]
  simp [State.board, Process.holder, removeFromExec]

/-- The eviction of a process that waits for a segment. -/
theorem Move.evict_pending {b : Board ι} (ended : about.cpu = some cpu)
    (connected : (b.cpu cpu).connection = .connected) (has : (b.process pid).cpu = some cpu)
    (executed : (b.process pid).state = .exec ∨ (m pid).keepsCpu ∧ (b.process pid).state = .exit)
    (pending : (b.process pid).pending = true) :
    Move m about b
      ((b.setProcess pid
        { b.process pid with
          cpu := none
          executing := (b.process pid).executing - 1 }).setCpu cpu
        { b.cpu cpu with isAvailable := true, isEvicting := false }) := by
  have move := Move.evict ended connected has executed
  rwa [if_pos pending] at move

/-- The eviction of a process that waits for nothing. -/
theorem Move.evict_settled {b : Board ι} (ended : about.cpu = some cpu)
    (connected : (b.cpu cpu).connection = .connected) (has : (b.process pid).cpu = some cpu)
    (executed : (b.process pid).state = .exec ∨ (m pid).keepsCpu ∧ (b.process pid).state = .exit)
    (settled : (b.process pid).pending = false) :
    Move m about b
      ((b.setProcess pid
        { b.process pid with
          state := .ready
          cpu := none
          executing := (b.process pid).executing - 1 }).setCpu cpu
        { b.cpu cpu with isAvailable := true, isEvicting := false }) := by
  have move := Move.evict ended connected has executed
  rwa [if_neg (by simp [settled])] at move

theorem waitConfirmationThreadAndHandleState_moves {place : UInt32 → Option (Place ι)}
    (inv : Inv config m none s place) (ended : about.cpu = some cpu)
    (connected : (s.cpu cpu).connection = .connected) :
    Moves m about s.board (waitConfirmationThreadAndHandleState config s cpu).board := by
  unfold waitConfirmationThreadAndHandleState
  split
  · rename_i none
    rw [board_postShortTerm, board_setCpu]
    exact .single (.confirm ended connected (getProcessFromCpu_none inv none))
  · rename_i pid found
    obtain ⟨-, has⟩ := getProcessFromCpu_some found
    dsimp only
    rw [board_postShortTerm]
    split
    · rename_i pending
      rw [board_unassign, board_setCpu]
      exact .single (.evict_pending ended connected has (inv.executed has) pending)
    · rename_i settled
      rw [makeReady, board_addProcessToReadyQueue, board_processSetState, board_unassign,
        board_setCpu, Board.setProcess_setProcess, Board.process_setProcess, if_pos rfl]
      exact .single (.evict_settled ended connected has (inv.executed has)
        (eq_false_of_ne_true settled))

theorem handleEvicted_moves {place : UInt32 → Option (Place ι)}
    (inv : Inv config m none s place) (ended : about.cpu = some cpu)
    (connected : (s.cpu cpu).connection = .connected) :
    Moves m about s.board (handleEvicted config s cpu).board := by
  unfold handleEvicted
  split
  · exact setCpu_flow rfl rfl rfl fun other => Nat.le_refl _
  · rename_i pid found
    obtain ⟨-, has⟩ := getProcessFromCpu_some found
    dsimp only
    split
    · rename_i pending
      rw [board_setCpu, board_unassign]
      exact .single (.evict_pending ended connected has (inv.executed has) pending)
    · rename_i settled
      have same : (addProcessAtStartOfReadyQueue config
          (processSetState (processSetCpu (removeFromExec s pid) pid none) pid .ready) pid).cpu =
            s.cpu := by
        unfold addProcessAtStartOfReadyQueue
        split <;> rfl
      rw [board_setCpu, same, board_addProcessAtStartOfReadyQueue, board_processSetState,
        board_unassign, Board.setProcess_setProcess, Board.process_setProcess, if_pos rfl]
      exact .single (.evict_settled ended connected has (inv.executed has)
        (eq_false_of_ne_true settled))

theorem handleCpuDisconnection_moves {place : UInt32 → Option (Place ι)}
    (inv : Inv config m none s place) (ended : about.cpu = some cpu)
    (noMessages : (s.cpu cpu).toScheduler = [])
    (settled : ∀ pid ∈ getProcessFromCpu s cpu, (s.process pid).pendingMemorySyscall = false) :
    Moves m about s.board (handleCpuDisconnection config s cpu).board := by
  have desk : ({ s.cpu cpu with connection := .closed, toCpu := [], running := none } : Cpu).desk =
      { s.board.cpu cpu with connection := .closed, inFlight := [] } := by
    simp [Cpu.desk, State.board, Cpu.inFlight, noMessages]
  unfold handleCpuDisconnection
  split
  · rename_i none
    have closed : Moves m about s.board
        { (s.setCpu cpu fun c =>
            { c with connection := .closed, toCpu := [], running := .none }).board with
          listCpu := s.listCpu.erase cpu } := by
      rw [board_setCpu, desk]
      exact .single (.gone ended (getProcessFromCpu_none inv none))
    exact closed
  · rename_i pid found
    obtain ⟨-, has⟩ := getProcessFromCpu_some found
    have closed : Moves m about s.board
        { ((removeFromExec
            (addProcessToReadyQueue config
              (s.setProcess pid fun p => { p with state := .ready, cpu := none, startExecTime := 0 })
              pid) pid).setCpu cpu fun c =>
            { c with connection := .closed, toCpu := [], running := none }).board with
          listCpu := s.listCpu.erase cpu } := by
      rw [board_setCpu, board_removeFromExec, board_addProcessToReadyQueue, board_setProcess,
        Board.setProcess_setProcess]
      have process : ((addProcessToReadyQueue config
          (s.setProcess pid fun p => { p with state := .ready, cpu := none, startExecTime := 0 })
          pid).process pid) = { s.process pid with state := .ready, cpu := none, startExecTime := 0 } :=
        Function.update_self ..
      rw [process]
      have same : ((removeFromExec
          (addProcessToReadyQueue config
            (s.setProcess pid fun p => { p with state := .ready, cpu := none, startExecTime := 0 })
            pid) pid).cpu cpu) = s.cpu cpu := rfl
      rw [same, desk]
      exact .single (.goneWith ended has (inv.executed has) (settled pid found))
    exact closed

/-! ### The schedulers -/

omit [DecidableEq ι] in
/-- A process is added to `exec_processes`. -/
theorem board_addToExec (s : State ι) (pid : UInt32)
    (same : s'.execProcesses = s.execProcesses) :
    ({ s' with execProcesses := s.execProcesses ++ [pid] } : State ι).board =
      s'.board.setProcess pid ((s'.process pid).holder (s.execProcesses.count pid + 1)) := by
  refine Board.ext (funext fun other => ?_) rfl rfl rfl rfl rfl
  simp only [State.board, Board.process_setProcess, Lib.count_concat, same]
  split
  · rename_i eq
    rw [eq]
  · rfl

theorem dispatch_moves {place : UInt32 → Option (Place ι)} (inv : Inv config m none s place)
    (ready : (s.process pid).state = .ready) (listed : cpu ∈ s.listCpu)
    (available : (s.cpu cpu).isAvailable = true) (calm : (s.cpu cpu).isEvicting = false) :
    Moves m about s.board (dispatch config s pid cpu).board := by
  obtain ⟨⟨-, free, -⟩, -, -⟩ := inv.removeProcessFromReadyQueue ready
  unfold dispatch
  refine Relation.ReflTransGen.trans ?_ (sendPidToExecute_moves (some cpu))
  rw [board_addToExec s pid]
  · rw [board_setProcess, Board.setProcess_setProcess, board_setCpu,
      board_removeProcessFromReadyQueue, setProcess_self]
    exact .single (.launch ready free listed available calm)
  · rfl

theorem shortTermTurn_moves {place : UInt32 → Option (Place ι)}
    (inv : Inv config m none s place) : Moves m about s.board (shortTermTurn config s).board := by
  unfold shortTermTurn
  split
  · rename_i pid cpu next found
    obtain ⟨available, calm⟩ : (s.cpu cpu).isAvailable = true ∧ (s.cpu cpu).isEvicting = false := by
      simpa using List.find?_some found
    exact dispatch_moves inv (getNextProcessToExecute_ready next) (List.mem_of_find?_eq_some found)
      available calm
  · have preempted : ∀ pid, Moves m about s.board (preempt config s pid).board := by
      intro pid
      unfold preempt
      split
      · split
        · exact .refl
        · split
          · exact evictProcess_moves
          · exact .refl
      · exact .refl
    exact preempted _
  · exact .refl

/-! ### Suspension -/

/-- Only a process that is `EXEC`, or has ended, has a CPU. -/
theorem Inv.free {place : UInt32 → Option (Place ι)} (inv : Inv config m none s place)
    (unexecuted : (s.process pid).state ≠ .exec) (unended : (s.process pid).state ≠ .exit) :
    (s.process pid).cpu = none := by
  by_contra has
  obtain ⟨cpu, has⟩ := Option.ne_none_iff_exists'.mp has
  rcases inv.executed has with executed | ⟨-, ended⟩
  · exact unexecuted executed
  · exact unended ended

omit [DecidableEq ι] in
theorem known_of_state (fresh : s.board.Fresh) (state : (s.process pid).state ≠ .new) :
    pid ∈ s.listProcesses := by
  by_contra unknown
  exact state (fresh pid unknown)

theorem suspensionScan_moves {place : UInt32 → Option (Place ι)} (swap : about.swaps)
    (pids : List UInt32) (inv : Inv config m none s place) (fresh : s.board.Fresh) :
    Moves m about s.board (suspensionScan config pids s).2.2.board := by
  induction pids generalizing s with
  | nil => exact .refl
  | cons pid rest ih =>
      simp only [suspensionScan]
      split
      · rename_i expired
        have state : (s.process pid).state = .block := expired.1
        have known : pid ∈ s.listProcesses := known_of_state fresh (by simp [state])
        have free : (s.process pid).cpu = none := inv.free (by simp [state]) (by simp [state])
        have turn : Turn (m pid) about.swaps (s.process pid).state .suspBlock := by
          rw [state]
          exact .suspended swap
        have first : Move m about s.board (processSetState s pid .suspBlock).board := by
          rw [board_processSetState]
          exact .turn known free turn
        exact .head first (ih (inv.setWaiting _ (.inl state) (.inr rfl) rfl rfl rfl)
          (first.fresh fresh))
      · exact ih inv fresh

theorem sendSwapOuts_moves (swap : about.swaps) (pids : List UInt32) :
    Moves m about s.board (pids.foldl (fun s pid => s.sendMemory (.swapOut pid)) s).board := by
  induction pids generalizing s with
  | nil => exact .refl
  | cons pid rest ih =>
      have first : Move m about s.board (s.sendMemory (.swapOut pid)).board :=
        .send (fun _ => swap) (by simp)
      exact .head first ih

theorem suspensionManager_moves {place : UInt32 → Option (Place ι)} (swap : about.swaps)
    (inv : Inv config m none s place) (fresh : s.board.Fresh) :
    Moves m about s.board (suspensionManager config s).board := by
  unfold suspensionManager
  split
  · have scanned : Moves m about s.board (suspensionScan config s.blockProcesses s).2.2.board :=
      suspensionScan_moves swap s.blockProcesses inv fresh
    dsimp only
    exact scanned.trans (sendSwapOuts_moves
      (s := { (suspensionScan config s.blockProcesses s).2.2 with
        blockProcesses := (suspensionScan config s.blockProcesses s).1 }) swap _)
  · exact .refl

theorem waitConfirmationSwapOut_moves {place : UInt32 → Option (Place ι)} {ok : Bool}
    (swap : about.swaps) (inv : Inv config m none s place) :
    Moves m about s.board (waitConfirmationSwapOut config s pid ok).board := by
  unfold waitConfirmationSwapOut
  split
  · rename_i known
    split
    · rename_i state
      obtain ⟨-, free, -⟩ := inv.place_suspReady state
      refine makeReady_moves config known free ?_
      rw [state]
      exact .swappedInReady swap
    · rename_i state
      have free : (s.process pid).cpu = none := inv.free (by simp [state]) (by simp [state])
      have blocked : Moves m about s.board (s.setProcess pid fun p =>
          { p with state := .block, startBlockTime := s.now }).board := by
        rw [board_setProcess]
        refine .single (.turn known free ?_)
        exact (congrArg (Turn (m pid) about.swaps · .block) state).mpr (.swappedIn swap)
      exact blocked
    · exact .single (.suspended swap)
    · exact .single (.suspended swap)
    · exact .refl
  · exact .refl

theorem requestSwapIn_moves (swap : about.swaps) :
    Moves m about s.board (requestSwapIn s).board := by
  unfold requestSwapIn
  dsimp only
  split
  · exact .refl
  · exact .single (.send (fun _ => swap) (by simp))

theorem swappedIn_moves {place : UInt32 → Option (Place ι)} (swap : about.swaps)
    (inv : Inv config m none s place) (pid : UInt32) :
    Moves m about s.board (swappedIn config s pid).board := by
  unfold swappedIn
  split
  · rename_i known
    have removed : Moves m about s.board
        ({ s with suspendedProcesses := s.suspendedProcesses.erase pid } : State ι).board :=
      .single (.suspended swap)
    dsimp only
    split
    · rename_i state
      obtain ⟨-, free, -⟩ := inv.place_suspReady state
      refine removed.trans (makeReady_moves config known free ?_)
      show Turn (m pid) about.swaps (s.process pid).state .ready
      rw [state]
      exact .swappedInReady swap
    · rename_i state
      have free : (s.process pid).cpu = none := inv.free (by simp [state]) (by simp [state])
      have blocked : Moves m about s.board (({ s with
          suspendedProcesses := s.suspendedProcesses.erase pid } : State ι).setProcess pid fun p =>
            { p with state := .block, startBlockTime := s.now }).board := by
        rw [board_setProcess]
        refine removed.tail (.turn known free ?_)
        exact (congrArg (Turn (m pid) about.swaps · .block) state).mpr (.swappedIn swap)
      exact blocked
    · exact removed
  · exact .refl

theorem waitConfirmationSwapIn_moves {place : UInt32 → Option (Place ι)} (swap : about.swaps)
    (inv : Inv config m none s place) (pids : List UInt32) :
    Moves m about s.board (waitConfirmationSwapIn config s pids).board := by
  have swapped : Moves m about s.board (pids.foldl (swappedIn config) s).board := by
    induction pids generalizing s place with
    | nil => exact .refl
    | cons pid rest ih =>
        obtain ⟨place', first⟩ := inv.swappedIn pid
        exact (swappedIn_moves swap inv pid).trans (ih first)
  unfold waitConfirmationSwapIn
  dsimp only
  split <;> exact swapped

/-! ### Kernel Memory -/

theorem handleMemory_moves {message : FromMemory} {rest : List FromMemory}
    {place : UInt32 → Option (Place ι)} (inv : Inv config m none s place)
    (next : s.memory.fromMemory = message :: rest)
    (subject : ∀ pid segmentId result, message = .segmentResult pid segmentId result →
      about.subject = some pid)
    (swap : message.Swaps → about.swaps) :
    Moves m about s.board
      (handleMemory config { s with memory.fromMemory := rest } message).board := by
  have read : Moves m about s.board ({ s with memory.fromMemory := rest } : State ι).board :=
    .single (.read swap next)
  refine read.trans ?_
  cases message with
  | processCreate pid =>
      obtain ⟨⟨state, free, -⟩, known, -⟩ := inv.takeAnswer next rfl
      simp only [handleMemory, waitProcessCreateConfirmation]
      rw [if_pos known]
      refine makeReady_moves config known free ?_
      show Turn (m pid) about.swaps (s.process pid).state .ready
      rw [state]
      exact .created
  | segmentResult pid segmentId result =>
      obtain ⟨⟨executed, -⟩, known, -⟩ := inv.takeAnswer next rfl
      exact handleSegmentResult_moves known (subject pid segmentId result rfl) executed
  | ioMemoryRead pid value =>
      obtain ⟨⟨waits, free, -⟩, known, -⟩ := inv.takeAnswer next rfl
      exact stdoutWaitMemoryRead_moves known free waits
  | ioMemoryWrite pid writeSuccesful =>
      obtain ⟨⟨waits, free, -⟩, known, -⟩ := inv.takeAnswer next rfl
      exact handleIoMemoryWrite_moves known free waits
  | swapOut pid ok => exact waitConfirmationSwapOut_moves (swap trivial) (inv.readQuiet next rfl)
  | swapIn pids => exact waitConfirmationSwapIn_moves (swap trivial) (inv.readQuiet next rfl) pids
  | memoryUpdate newSize => exact requestSwapIn_moves (swap trivial)
  | compactionRequest | compactionFinished | corruptedMemory => exact .refl

/-! ### Compaction -/

/-- The CPU whose confirmation a compaction thread handles. -/
def Compaction.handles : Compaction ι → Option ι
  | .evicting _ (cpu :: _) => some cpu
  | _ => none

theorem stepCompaction_moves {i : Nat} {st : CompactionStep} {place : UInt32 → Option (Place ι)}
    (inv : Inv config m none s place)
    (ended : st = .handleEvicted → about.cpu = s.compactions[i]?.bind Compaction.handles)
    (taken : stepCompaction config s i st = some s') : Moves m about s.board s'.board := by
  cases st with
  | evictAll =>
      simp only [stepCompaction] at taken
      split at taken
      · rename_i reason _
        obtain rfl := Option.some.inj taken
        have evicted : Moves m about s.board
            (evictAllProcesses reason s.execProcesses s).2.board :=
          evictAllProcesses_moves s.execProcesses
        exact evicted
      · simp at taken
  | handleEvicted =>
      simp only [stepCompaction] at taken
      split at taken
      · rename_i reason cpu rest evicting
        split at taken
        · rename_i waits
          obtain rfl := Option.some.inj taken
          have handled : Moves m about s.board (handleEvicted config s cpu).board := by
            refine handleEvicted_moves inv ?_ waits.1
            rw [ended rfl, evicting]
            rfl
          exact handled
        · simp at taken
      · simp at taken
  | compactionReady =>
      simp only [stepCompaction] at taken
      split at taken
      · obtain rfl := Option.some.inj taken
        have sent : Move m about s.board (s.sendMemory .compactionReady).board :=
          .send False.elim (by simp)
        exact .single sent
      · simp at taken
  | reopen =>
      simp only [stepCompaction] at taken
      split at taken
      · split at taken
        · obtain rfl := Option.some.inj taken
          exact .refl
        · simp at taken
      · simp at taken

/-! ### Steps -/

/-- The process that a message from a CPU is about. -/
def ToScheduler.subject : ToScheduler → Option UInt32
  | .syscall pid _ => some pid
  | .processCreate .. | .confirmation => none

/-- What a message of Kernel Memory is about. -/
def FromMemory.concerns : FromMemory → About ι
  | .segmentResult pid _ _ => ⟨some pid, none, false⟩
  | .swapOut .. | .swapIn _ | .memoryUpdate _ => ⟨none, none, true⟩
  | _ => ⟨none, none, false⟩

/-- What a step is about. -/
def Action.concerns (s : State ι) : Action ι → About ι
  | .handleCpu cpu => ⟨(s.cpu cpu).toScheduler.head?.bind ToScheduler.subject, none, false⟩
  | .confirm cpu | .disconnectCpu cpu => ⟨none, some cpu, false⟩
  | .handleMemory =>
      match s.memory.fromMemory with
      | [] => ⟨none, none, false⟩
      | message :: _ => message.concerns
  | .suspend => ⟨none, none, true⟩
  | .compaction i .handleEvicted => ⟨none, s.compactions[i]?.bind Compaction.handles, false⟩
  | _ => ⟨none, none, false⟩

/-- Every step makes moves. -/
theorem step_moves {a : Action ι} {place : UInt32 → Option (Place ι)}
    (inv : Inv config m none s place) (fresh : s.board.Fresh) (allowed : Allowed m s a)
    (taken : step config s a = some s') : Moves m (a.concerns s) s.board s'.board := by
  cases a with
  | tick =>
      obtain rfl := Option.some.inj taken
      exact .refl
  | process0 path =>
      simp only [step] at taken
      split at taken
      · exact longTermScheduler_moves inv taken
      · simp at taken
  | connectCpu cpu =>
      simp only [step] at taken
      split at taken
      · rename_i absent
        obtain rfl := Option.some.inj taken
        have come : Moves m ((Action.connectCpu cpu).concerns s) s.board
            { (s.setCpu cpu fun _ => .create).board with listCpu := s.listCpu ++ [cpu] } := by
          rw [board_setCpu]
          exact .single (.come absent)
        exact come
      · simp at taken
  | cpu cpu st =>
      obtain ⟨c, stepped, rfl⟩ := Option.map_eq_some_iff.mp taken
      obtain ⟨-, same, lost, perm, -⟩ := (inv.staged cpu).step stepped
      refine setCpu_flow ?_ ?_ ?_ fun other => ?_
      · rw [same]
      · rw [same]
      · rw [same]
      · rw [perm.count_eq other, List.count_append]
        exact Nat.le_add_left _ _
  | handleCpu cpu =>
      simp only [step] at taken
      split at taken
      · simp at taken
      · rename_i message rest next
        refine handleCpu_moves inv next (fun pid syscall eq => ?_) (allowed _ (by rw [next]; rfl))
          taken
        subst eq
        simp [Action.concerns, next, ToScheduler.subject]
  | disconnectCpu cpu =>
      simp only [step] at taken
      split at taken
      · rename_i gone
        obtain rfl := Option.some.inj taken
        exact handleCpuDisconnection_moves inv rfl gone.2 allowed
      · simp at taken
  | confirm cpu =>
      simp only [step] at taken
      split at taken
      · rename_i waits
        obtain rfl := Option.some.inj taken
        exact waitConfirmationThreadAndHandleState_moves inv rfl waits.1
      · simp at taken
  | wake =>
      simp only [step] at taken
      split at taken
      · obtain rfl := Option.some.inj taken
        exact .refl
      · simp at taken
  | schedule =>
      simp only [step] at taken
      split at taken
      · obtain rfl := Option.some.inj taken
        exact shortTermTurn_moves inv
      · simp at taken
  | quantum pid =>
      simp only [step] at taken
      split at taken
      · obtain rfl := Option.some.inj taken
        exact evictProcess_moves
      · simp at taken
  | suspend =>
      obtain rfl := Option.some.inj taken
      exact suspensionManager_moves rfl inv fresh
  | connectIo io ioType =>
      simp only [step] at taken
      split at taken
      · obtain rfl := Option.some.inj taken
        rw [board_handleNextOperation]
        exact .refl
      · simp at taken
  | handleIo io value =>
      simp only [step] at taken
      split at taken
      · simp at taken
      · rename_i request rest next
        obtain rfl := Option.some.inj taken
        obtain ⟨⟨waits, free, -⟩, known, -⟩ := inv.takeDevice next
        have handled : Moves m ((Action.handleIo io value).concerns s) _
            (handleIo config (s.setIo io fun d => { d with requests := rest }) io request
              value).board :=
          handleIo_moves known free waits
        exact handled
  | disconnectIo io =>
      simp only [step] at taken
      split at taken
      · obtain rfl := Option.some.inj taken
        exact .refl
      · simp at taken
  | written pid =>
      simp only [step] at taken
      split at taken
      · rename_i waits
        obtain rfl := Option.some.inj taken
        obtain ⟨⟨waits, free, -⟩, known, -⟩ := inv.takeWritten waits.2
        have written : Moves m ((Action.written pid).concerns s) _
            (waitMemoryWriteConfirmation config
              { s with writeThreads := s.writeThreads.erase pid } pid).board :=
          waitMemoryWriteConfirmation_moves known free waits
        exact written
      · simp at taken
  | memory st =>
      obtain ⟨memory, stepped, rfl⟩ := Option.map_eq_some_iff.mp taken
      exact .single (.answer stepped)
  | handleMemory =>
      simp only [step] at taken
      split at taken
      · simp at taken
      · rename_i message rest next
        obtain rfl := Option.some.inj taken
        have about : Action.concerns s .handleMemory = message.concerns := by
          simp only [Action.concerns, next]
        rw [about]
        refine handleMemory_moves inv next ?_ ?_
        · rintro pid segmentId result rfl
          rfl
        · intro swaps
          cases message <;> first | rfl | exact absurd swaps id
  | compaction i st =>
      refine stepCompaction_moves inv (fun handles => ?_) taken
      subst handles
      rfl

/-- The process of a result is `EXEC`, and waits for it. -/
theorem Inv.segmentResult {segmentId : UInt32} {result : SegmentResult} {rest : List FromMemory}
    {place : UInt32 → Option (Place ι)} (inv : Inv config m none s place)
    (next : s.memory.fromMemory = .segmentResult pid segmentId result :: rest) :
    place pid = some (.memory .segment) ∧ pid ∈ s.listProcesses ∧
      (s.process pid).state = .exec := by
  have asked : 0 < s.tokens pid (.memory .segment) := by
    refine Nat.lt_of_lt_of_le (List.count_pos_iff.mpr ?_) (Nat.le_add_right _ _)
    refine List.mem_append_right _ (List.mem_filterMap.mpr ?_)
    exact ⟨.segmentResult pid segmentId result, by simp [next], rfl⟩
  have there := inv.located.place_eq asked
  have fits := inv.fit pid
  rw [there] at fits
  exact ⟨there, inv.known pid (by simp [there]), fits.1⟩

/-- The process of a syscall is on its way from a CPU, and that of a result waits for it. -/
theorem Inv.place_of_subject {a : Action ι} {place : UInt32 → Option (Place ι)}
    (inv : Inv config m none s place) (subject : (a.concerns s).subject = some pid) :
    (∃ cpu, place pid = some (.cpu cpu)) ∨ place pid = some (.memory .segment) := by
  cases a with
  | handleCpu cpu =>
      obtain ⟨message, next, about⟩ := Option.bind_eq_some_iff.mp subject
      cases message with
      | syscall pid' syscall =>
          obtain rfl := Option.some.inj about
          refine .inl ⟨cpu, inv.located.place_eq (List.count_pos_iff.mpr ?_)⟩
          refine List.mem_append_right _ (List.mem_filterMap.mpr ?_)
          exact ⟨_, List.mem_of_mem_head? next, rfl⟩
      | processCreate | confirmation => simp [ToScheduler.subject] at about
  | handleMemory =>
      simp only [Action.concerns] at subject
      split at subject
      · simp at subject
      · rename_i message rest next
        cases message with
        | segmentResult pid' segmentId result =>
            obtain rfl := Option.some.inj subject
            exact .inr (inv.segmentResult next).1
        | processCreate | ioMemoryRead | ioMemoryWrite | swapOut | swapIn | memoryUpdate
        | compactionRequest | compactionFinished | corruptedMemory =>
            simp [FromMemory.concerns] at subject
  | compaction i st => cases st <;> simp [Action.concerns] at subject
  | tick | process0 | connectCpu | cpu | disconnectCpu | confirm | wake | schedule | quantum
  | suspend | connectIo | handleIo | disconnectIo | written | memory =>
      simp [Action.concerns] at subject

/-- It is `EXEC`. -/
theorem Inv.executing_of_subject {a : Action ι} {place : UInt32 → Option (Place ι)}
    (inv : Inv config m none s place) (subject : (a.concerns s).subject = some pid) :
    (s.process pid).state = .exec := by
  have fits := inv.fit pid
  rcases inv.place_of_subject subject with ⟨cpu, there⟩ | there
  · rw [there] at fits
    exact fits.1
  · rw [there] at fits
    exact fits.1

/-- What is known of every state of a run. -/
def Runs (config : Config) (m : UInt32 → Mode) (s : State ι) : Prop :=
  (∃ place, Inv config m none s place) ∧ s.board.Fresh

theorem initial_runs : Runs config m (initial : State ι) := ⟨⟨_, initial_inv⟩, fun _ _ => rfl⟩

/-- What moves keep, a run keeps. -/
theorem Runs.keeps {as : List (Action ι)} {P : Board ι → Prop}
    (keeps : ∀ {about b b'}, Move m about b b' → b.Fresh → P b → P b') (runs : Runs config m s)
    (start : P s.board) (run : Lib.Run (step config) (Allowed m) s as s') :
    Runs config m s' ∧ P s'.board := by
  have step : ∀ {s : State ι} {a : Action ι} {s' : State ι}, Runs config m s ∧ P s.board →
      Allowed m s a → step config s a = some s' → Runs config m s' ∧ P s'.board := by
    rintro s a s' ⟨⟨⟨place, inv⟩, fresh⟩, holds⟩ allowed taken
    have moves := step_moves inv fresh allowed taken
    have kept := moves.keeps (P := fun b => b.Fresh ∧ P b)
      (fun move both => ⟨move.fresh both.1, keeps move both.1 both.2⟩) ⟨fresh, holds⟩
    exact ⟨⟨step_inv inv allowed taken, kept.1⟩, kept.2⟩
  exact run.invariant step ⟨runs, start⟩

end OsModel.KernelScheduler
