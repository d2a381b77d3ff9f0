import OsModel.KernelScheduler.Records

/-!
What the handlers do to the requests for IO.

The operations on `IoBooks` are what the managers of the devices do to them. A request is
sent, waits and is taken, and a device comes and goes; `step_ioStep` says of every step
which of these it does.
-/

namespace OsModel.KernelScheduler

/-! ### Books -/

namespace IoBooks

variable (b : IoBooks)

/-- A device after a step. -/
def setIo (io : Nat) (f : Io → Io) : IoBooks :=
  { b with io := Function.update b.io io (f (b.io io)) }

/-- A request is sent to a device. -/
def send (io : Nat) (request : IoRequest) : IoBooks :=
  b.setIo io fun d => { d with isAvailable := false, requests := d.requests ++ [request] }

/-- A request goes to an available device, or waits for one. -/
def request (ioType : IoType) (request : IoRequest) : IoBooks :=
  match (b.listIo ioType).find? fun io => (b.io io).isAvailable with
  | some io => b.send io request
  | none =>
      { b with
        pendingRequestIo :=
          Function.update b.pendingRequestIo ioType (b.pendingRequestIo ioType ++ [request]) }

/-- The next request that waits goes to the device. -/
def next (io : Nat) (ioType : IoType) : IoBooks :=
  match b.pendingRequestIo ioType with
  | [] => b
  | request :: rest =>
      { b with pendingRequestIo := Function.update b.pendingRequestIo ioType rest }.send io request

def readStdin (e : PendingStdin) : IoBooks :=
  { b with pendingIoStdinReading := b.pendingIoStdinReading ++ [e] }

def connect (io : Nat) (ioType : IoType) : IoBooks :=
  { b.setIo io fun _ => ⟨ioType, .connected, true, []⟩ with
    listIo := Function.update b.listIo ioType (b.listIo ioType ++ [io]) }

/-- A device goes, with its requests. -/
def disconnect (io : Nat) : IoBooks :=
  { b.setIo io fun d => { d with connection := .closed, requests := [] } with
    listIo := Function.update b.listIo (b.io io).ioType ((b.listIo (b.io io).ioType).erase io) }

/-- `memory_request_sem` after a step. -/
def setWritten (pid : UInt32) (n : ℕ) : IoBooks :=
  { b with written := Function.update b.written pid n }

@[simp]
theorem setIo_self (io : Nat) (f : Io → Io) : (b.setIo io f).io io = f (b.io io) :=
  Function.update_self ..

@[simp]
theorem setIo_of_ne {io other : Nat} (ne : other ≠ io) (f : Io → Io) :
    (b.setIo io f).io other = b.io other :=
  Function.update_of_ne ne ..

end IoBooks

variable {ι : Type} {config : Config} {s s' : State ι} {pid : UInt32}

/-! ### What writes the books -/

theorem ioBooks_requestIo (ioType : IoType) (request : IoRequest) :
    (requestIo s ioType request).ioBooks = s.ioBooks.request ioType request := by
  unfold requestIo IoBooks.request getAvailableIoType
  have same : (s.ioBooks.listIo ioType).find? (fun io => (s.ioBooks.io io).isAvailable) =
      (s.listIo ioType).find? fun io => (s.io io).isAvailable := rfl
  rw [same]
  cases (s.listIo ioType).find? fun io => (s.io io).isAvailable with
  | none => rfl
  | some io => rfl

theorem ioBooks_handleNextOperation (io : Nat) (ioType : IoType) :
    (handleNextOperation s io ioType).ioBooks = s.ioBooks.next io ioType := by
  unfold handleNextOperation IoBooks.next
  have same : s.ioBooks.pendingRequestIo ioType = s.pendingRequestIo ioType := rfl
  rw [same]
  cases s.pendingRequestIo ioType with
  | nil => rfl
  | cons request rest => rfl

/-- A semaphore of a process is written. -/
theorem ioBooks_setProcess_written {f : Process ι → Process ι} :
    (s.setProcess pid f).ioBooks =
      s.ioBooks.setWritten pid (f (s.process pid)).memoryRequestSem := by
  refine IoBooks.ext rfl rfl rfl rfl rfl (funext fun other => ?_)
  show ((s.setProcess pid f).process other).memoryRequestSem =
    Function.update s.ioBooks.written pid (f (s.process pid)).memoryRequestSem other
  by_cases eq : other = pid
  · subst eq
    rw [setProcess_self, Function.update_self]
  · rw [setProcess_of_ne s eq, Function.update_of_ne eq]
    rfl

/-! ### What leaves the books as they are -/

theorem ioBooks_setProcess {f : Process ι → Process ι}
    (same : (f (s.process pid)).memoryRequestSem = (s.process pid).memoryRequestSem) :
    (s.setProcess pid f).ioBooks = s.ioBooks := by
  rw [ioBooks_setProcess_written, same]
  exact IoBooks.ext rfl rfl rfl rfl rfl (Function.update_eq_self ..)

theorem ioBooks_sendMemory {message : ToMemory} (quiet : message.access = none) :
    (s.sendMemory message).ioBooks = s.ioBooks :=
  ioBooks_of_records (records_sendMemory quiet)

theorem ioBooks_processSetState (state : ProcessState) :
    (processSetState s pid state).ioBooks = s.ioBooks :=
  ioBooks_of_records (records_processSetState state)

theorem ioBooks_finishBlock : (finishBlock config s pid).ioBooks = s.ioBooks :=
  ioBooks_of_records records_finishBlock

theorem ioBooks_blockProcess : (blockProcess s pid).ioBooks = s.ioBooks :=
  ioBooks_of_records records_blockProcess

theorem ioBooks_requeueWithPriority (newPriority : UInt8) :
    (requeueWithPriority config s pid newPriority).ioBooks = s.ioBooks := by
  have written : (processSetPriority (removeProcessFromReadyQueue config s pid) pid
      newPriority).ioBooks = s.ioBooks := ioBooks_setProcess rfl
  unfold requeueWithPriority
  split
  · exact written
  · exact ioBooks_setProcess rfl

theorem ioBooks_inheritPriority (owner : Option UInt32) :
    (inheritPriority config s pid owner).ioBooks = s.ioBooks := by
  cases owner with
  | none => rfl
  | some owner =>
      simp only [inheritPriority]
      split
      · exact ioBooks_requeueWithPriority _
      · rfl

theorem ioBooks_restorePriority : (restorePriority config s pid).ioBooks = s.ioBooks := by
  unfold restorePriority
  dsimp only
  split
  · exact ioBooks_requeueWithPriority _
  · rfl

theorem ioBooks_mutexCreate (name : String) : (mutexCreate s name).ioBooks = s.ioBooks := by
  unfold mutexCreate
  split
  · rfl
  · rfl

theorem ioBooks_handOver (name : String) : (handOver config s name).ioBooks = s.ioBooks := by
  unfold handOver
  split
  · rfl
  · rename_i next rest _
    have owns : ((s.setMutex name fun _ => ⟨true, some next, rest⟩).setProcess next fun p =>
        { p with ownedMutexes := p.ownedMutexes ++ [name] }).ioBooks = s.ioBooks :=
      ioBooks_setProcess rfl
    have finished := (@ioBooks_finishBlock ι config _ next).trans owns
    dsimp only
    split
    · exact finished
    · exact finished

variable [DecidableEq ι] {cpu : ι}

theorem ioBooks_sendPidToExecute (cpu : Option ι) :
    (sendPidToExecute s pid cpu).ioBooks = s.ioBooks :=
  ioBooks_of_records (records_sendPidToExecute cpu)

theorem ioBooks_mutexLock (name : String) : (mutexLock config s name pid).ioBooks = s.ioBooks := by
  have owns : ((s.setMutex name fun m => { m with isLocked := true, lockedBy := some pid }).setProcess
      pid fun p => { p with ownedMutexes := p.ownedMutexes ++ [name] }).ioBooks = s.ioBooks :=
    ioBooks_setProcess rfl
  have waits : (blockProcess (s.setMutex name fun m =>
      { m with waitingProcesses := m.waitingProcesses ++ [pid] }) pid).ioBooks = s.ioBooks :=
    ioBooks_blockProcess
  unfold mutexLock
  dsimp only
  split
  · exact (ioBooks_sendPidToExecute _).trans owns
  · split
    · exact ioBooks_sendPidToExecute _
    · split
      · exact (ioBooks_inheritPriority _).trans waits
      · exact (ioBooks_inheritPriority _).trans waits

theorem ioBooks_mutexUnlock (name : String) :
    (mutexUnlock config s name pid).ioBooks = s.ioBooks := by
  unfold mutexUnlock
  split
  · exact (ioBooks_handOver name).trans (ioBooks_restorePriority.trans
      ((ioBooks_setProcess rfl).trans (ioBooks_sendPidToExecute _)))
  · rfl

/-! ### Steps -/

/-- The syscall that a step handles, with its process. -/
def Action.handles (s : State ι) : Action ι → Option (UInt32 × Syscall)
  | .handleCpu cpu =>
      match (s.cpu cpu).toScheduler with
      | .syscall pid syscall :: _ => some (pid, syscall)
      | _ => none
  | _ => none

omit [DecidableEq ι] in
theorem longTermScheduler_eq_some {path : String} {priority : UInt8}
    (created : longTermScheduler s path priority = some s') :
    s.currentMaxPid ∉ s.listProcesses ∧ (s'.process s.currentMaxPid).state = .new ∧
      s'.ioBooks = s.ioBooks.setWritten s.currentMaxPid 0 := by
  unfold longTermScheduler at created
  dsimp only at created
  split at created
  · cases created
  · rename_i fresh
    obtain rfl := Option.some.inj created
    have written : (s.setProcess s.currentMaxPid fun _ => createProcess priority).ioBooks =
        s.ioBooks.setWritten s.currentMaxPid 0 := ioBooks_setProcess_written
    have sent : ((s.setProcess s.currentMaxPid fun _ => createProcess priority).sendMemory
        (.processCreate s.currentMaxPid path)).ioBooks = _ := ioBooks_sendMemory rfl
    refine ⟨fresh, ?_, sent.trans written⟩
    show ((s.setProcess s.currentMaxPid fun _ => createProcess priority).process
      s.currentMaxPid).state = .new
    rw [setProcess_self]
    rfl

/-- What a step is, as far as IO goes. -/
inductive IoStep (config : Config) (s : State ι) (a : Action ι) (t : State ι) : Prop where
  /-- The books stay as they are. -/
  | keep (quiet : a.handles s = none) (same : t.ioBooks = s.ioBooks)
  /-- A process is created. -/
  | create {pid : UInt32} (quiet : a.handles s = none) (fresh : pid ∉ s.listProcesses)
      (new : (t.process pid).state = .new) (same : t.ioBooks = s.ioBooks.setWritten pid 0)
  /-- A syscall is handled. -/
  | handle {cpu : ι} {pid : UInt32} {syscall : Syscall} {rest : List ToScheduler}
      (acts : a = .handleCpu cpu) (next : (s.cpu cpu).toScheduler = .syscall pid syscall :: rest)
      (handled : t = handleSyscall config (s.setCpu cpu fun c => { c with toScheduler := rest })
        cpu pid syscall)
  /-- A device connects. -/
  | connect {io : Nat} {ioType : IoType} (quiet : a.handles s = none)
      (absent : (s.io io).connection = .absent)
      (moved : t.ioBooks = (s.ioBooks.connect io ioType).next io ioType)
  /-- A device answers. -/
  | answer {io : Nat} {value : String} {request : IoRequest} {rest : List IoRequest}
      (acts : a = .handleIo io value) (next : (s.io io).requests = request :: rest)
      (handled : t = handleIo config (s.setIo io fun d => { d with requests := rest }) io request
        value)
  /-- A device goes. -/
  | disconnect {io : Nat} (acts : a = .disconnectIo io)
      (moved : t.ioBooks = s.ioBooks.disconnect io)
  /-- A `wait_memory_write_confirmation` goes on. -/
  | written {pid : UInt32} (acts : a = .written pid)
      (handled : t = waitMemoryWriteConfirmation config
        { s with writeThreads := s.writeThreads.erase pid } pid)
  /-- Kernel Memory does something. -/
  | serve {st : MemoryStep} {memory : Memory} (acts : a = .memory st)
      (taken : s.memory.step st = some memory) (handled : t = { s with memory })
  /-- What a `STDOUT` reads comes from Kernel Memory. -/
  | read {pid : UInt32} {value : String} {rest : List FromMemory} (acts : a = .handleMemory)
      (next : s.memory.fromMemory = .ioMemoryRead pid value :: rest)
      (handled : t = stdoutWaitMemoryRead { s with memory.fromMemory := rest } pid value)
  /-- Kernel Memory has written what a `STDIN` reads. -/
  | wrote {pid : UInt32} {ok : Bool} {rest : List FromMemory} (acts : a = .handleMemory)
      (next : s.memory.fromMemory = .ioMemoryWrite pid ok :: rest)
      (handled : t = handleIoMemoryWrite { s with memory.fromMemory := rest } pid ok)

omit [DecidableEq ι] in
/-- A message that answers no access is read. -/
theorem ioBooks_read {message : FromMemory} {rest : List FromMemory}
    (next : s.memory.fromMemory = message :: rest) (quiet : message.access = none) :
    { s with memory.fromMemory := rest }.ioBooks = s.ioBooks := by
  refine IoBooks.ext rfl rfl rfl rfl ?_ rfl
  simp [State.ioBooks, Memory.accesses, next, quiet]

theorem handleMemory_ioStep {message : FromMemory} {rest : List FromMemory}
    (next : s.memory.fromMemory = message :: rest) :
    IoStep config s .handleMemory
      (handleMemory config { s with memory.fromMemory := rest } message) := by
  cases message with
  | processCreate pid =>
      exact .keep rfl ((ioBooks_of_records records_waitProcessCreateConfirmation).trans
        (ioBooks_read next rfl))
  | segmentResult pid segmentId result =>
      exact .keep rfl ((ioBooks_of_records (records_handleSegmentResult _)).trans
        (ioBooks_read next rfl))
  | ioMemoryRead pid value => exact .read rfl next rfl
  | ioMemoryWrite pid ok => exact .wrote rfl next rfl
  | swapOut pid ok =>
      exact .keep rfl ((ioBooks_of_records (records_waitConfirmationSwapOut _)).trans
        (ioBooks_read next rfl))
  | swapIn pids =>
      exact .keep rfl ((ioBooks_of_records (records_waitConfirmationSwapIn _)).trans
        (ioBooks_read next rfl))
  | memoryUpdate newSize =>
      exact .keep rfl ((ioBooks_of_records records_requestSwapIn).trans (ioBooks_read next rfl))
  | compactionRequest => exact .keep rfl (ioBooks_read next rfl)
  | compactionFinished => exact .keep rfl (ioBooks_read next rfl)
  | corruptedMemory => exact .keep rfl (ioBooks_read next rfl)

theorem handleCpu_ioStep {message : ToScheduler} {rest : List ToScheduler}
    (next : (s.cpu cpu).toScheduler = message :: rest)
    (handled : handleCpu config (s.setCpu cpu fun c => { c with toScheduler := rest }) cpu message =
      some s') : IoStep config s (.handleCpu cpu) s' := by
  cases message with
  | processCreate priority path =>
      obtain ⟨fresh, new, same⟩ := longTermScheduler_eq_some handled
      exact .create (by simp [Action.handles, next]) fresh new same
  | syscall pid syscall =>
      obtain rfl := Option.some.inj handled
      exact .handle rfl next rfl
  | confirmation =>
      obtain rfl := Option.some.inj handled
      exact .keep (by simp [Action.handles, next]) rfl

theorem step_ioStep {a : Action ι} {t : State ι} (taken : step config s a = some t) :
    IoStep config s a t := by
  cases a with
  | process0 path =>
      simp only [step] at taken
      split at taken
      · obtain ⟨fresh, new, same⟩ := longTermScheduler_eq_some taken
        exact .create rfl fresh new same
      · cases taken
  | handleCpu cpu =>
      simp only [step] at taken
      split at taken
      · cases taken
      · rename_i message rest next
        exact handleCpu_ioStep next taken
  | connectIo io ioType =>
      simp only [step] at taken
      split at taken
      · rename_i absent
        obtain rfl := Option.some.inj taken
        exact .connect rfl absent (ioBooks_handleNextOperation io ioType)
      · cases taken
  | handleIo io value =>
      simp only [step] at taken
      split at taken
      · cases taken
      · rename_i request rest next
        obtain rfl := Option.some.inj taken
        exact .answer rfl next rfl
  | disconnectIo io =>
      simp only [step] at taken
      split at taken
      · obtain rfl := Option.some.inj taken
        exact .disconnect rfl rfl
      · cases taken
  | written pid =>
      simp only [step] at taken
      split at taken
      · obtain rfl := Option.some.inj taken
        exact .written rfl rfl
      · cases taken
  | memory st =>
      obtain ⟨memory, stepped, rfl⟩ := Option.map_eq_some_iff.mp taken
      exact .serve rfl stepped rfl
  | handleMemory =>
      simp only [step] at taken
      split at taken
      · cases taken
      · rename_i message rest next
        obtain rfl := Option.some.inj taken
        exact handleMemory_ioStep next
  | tick | connectCpu | cpu | disconnectCpu | confirm | wake | schedule | quantum | suspend
  | compaction => exact .keep rfl (ioBooks_of_records (step_records taken trivial))

end OsModel.KernelScheduler
