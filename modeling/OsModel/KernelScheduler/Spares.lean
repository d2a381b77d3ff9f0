import OsModel.KernelScheduler.QueuePlacement

/-!
What becomes of a process before it is in a ready queue.

Such a process is not run, so it makes no syscalls; it has no mutex and waits for none. Every
handler spares it (`Spares`): it gets no CPU, keeps its priority and its mutexes, and is put into
no ready queue but that of its priority.

* `step_spares`: so does every step, but for the one that creates it.
-/

namespace OsModel.KernelScheduler

open Lib

variable {ι : Type} {config : Config} {s t u : State ι} {pid other : UInt32}

/-! ### Processes that are not run -/

/-- Nothing is under way that could run the process, and it has nothing to do with a mutex. -/
structure Unscheduled (s : State ι) (pid : UInt32) : Prop where
  cpu : (s.process pid).cpu = none
  flight : ∀ c, pid ∉ (s.cpu c).inFlight
  waiting : ∀ name, pid ∉ (s.mutex name).waitingProcesses
  owned : (s.process pid).ownedMutexes = []

/-- A change that leaves a process without a CPU as it is, but for its state, and that puts it
into no ready queue but its own. -/
structure Spares (config : Config) (pid : UInt32) (s t : State ι) : Prop where
  cpu : (s.process pid).cpu = none → (t.process pid).cpu = none
  priority : (t.process pid).effectivePriority = (s.process pid).effectivePriority
  owned : (t.process pid).ownedMutexes = (s.process pid).ownedMutexes
  flight : ∀ c, pid ∈ (t.cpu c).inFlight → pid ∈ (s.cpu c).inFlight
  waiting : ∀ name, pid ∈ (t.mutex name).waitingProcesses → pid ∈ (s.mutex name).waitingProcesses
  queue : ∀ i, pid ∈ t.readyQueue i →
    pid ∈ s.readyQueue i ∨ i = queueIndex config (t.process pid)

/-- The next process is in one of the ready queues. -/
theorem getNextProcessToExecute_mem (next : getNextProcessToExecute config s = some pid) :
    ∃ i < config.queueAlgorithmsCount, pid ∈ s.readyQueue i := by
  have first := (Option.filter_eq_some_iff.mp next).1
  cases algorithm : config.schedulerAlgorithm with
  | cmn =>
      rw [algorithm] at first
      obtain ⟨i, lt, here⟩ := List.exists_of_findSome?_eq_some first
      exact ⟨i, List.mem_range.mp lt, List.mem_of_head? here⟩
  | fifo | rr =>
      rw [algorithm] at first
      refine ⟨0, ?_, List.mem_of_head? first⟩
      rw [Config.queueAlgorithmsCount, algorithm]
      exact Nat.zero_lt_one

namespace Spares

theorem refl (s : State ι) : Spares config pid s s :=
  ⟨id, rfl, rfl, fun _ => id, fun _ => id, fun _ => .inl⟩

theorem trans (first : Spares config pid s t) (second : Spares config pid t u) :
    Spares config pid s u where
  cpu free := second.cpu (first.cpu free)
  priority := second.priority.trans first.priority
  owned := second.owned.trans first.owned
  flight c mem := first.flight c (second.flight c mem)
  waiting name mem := first.waiting name (second.waiting name mem)
  queue i mem := by
    rcases second.queue i mem with before | new
    · rcases first.queue i before with old | new
      · exact .inl old
      · exact .inr (new.trans (queueIndex_congr second.priority).symm)
    · exact .inr new

/-- What is about neither of the records. -/
theorem congr (spares : Spares config pid s t) (process : u.process = t.process)
    (cpu : u.cpu = t.cpu) (mutex : u.mutex = t.mutex) (queue : u.readyQueue = t.readyQueue) :
    Spares config pid s u := by
  constructor
  · rw [process]
    exact spares.cpu
  · rw [process]
    exact spares.priority
  · rw [process]
    exact spares.owned
  · rw [cpu]
    exact spares.flight
  · rw [mutex]
    exact spares.waiting
  · rw [process, queue]
    exact spares.queue

/-- The record of a process is written, and keeps its priority and its mutexes. -/
theorem setProcess (s : State ι) (other : UInt32) {f : Process ι → Process ι}
    (cpu : (s.process other).cpu = none → (f (s.process other)).cpu = none)
    (priority : (f (s.process other)).effectivePriority = (s.process other).effectivePriority)
    (owned : (f (s.process other)).ownedMutexes = (s.process other).ownedMutexes) :
    Spares config pid s (s.setProcess other f) := by
  refine ⟨?_, ?_, ?_, fun _ => id, fun _ => id, fun _ => .inl⟩
  · intro free
    by_cases same : pid = other
    · subst same
      rw [setProcess_self]
      exact cpu free
    · rw [setProcess_of_ne _ same]
      exact free
  · by_cases same : pid = other
    · subst same
      rw [setProcess_self, priority]
    · rw [setProcess_of_ne _ same]
  · by_cases same : pid = other
    · subst same
      rw [setProcess_self, owned]
    · rw [setProcess_of_ne _ same]

/-- The record of another process is written. -/
theorem setOther (s : State ι) (ne : pid ≠ other) (f : Process ι → Process ι) :
    Spares config pid s (s.setProcess other f) := by
  refine ⟨?_, ?_, ?_, fun _ => id, fun _ => id, fun _ => .inl⟩
  · rw [setProcess_of_ne _ ne]
    exact id
  · rw [setProcess_of_ne _ ne]
  · rw [setProcess_of_ne _ ne]

theorem setReadyQueue (s : State ι) (i : Nat) {queue : List UInt32}
    (entries : pid ∈ queue → pid ∈ s.readyQueue i ∨ i = queueIndex config (s.process pid)) :
    Spares config pid s (s.setReadyQueue i queue) := by
  refine ⟨id, rfl, rfl, fun _ => id, fun _ => id, fun j mem => ?_⟩
  by_cases same : j = i
  · subst same
    rw [setReadyQueue_self] at mem
    exact entries mem
  · rw [setReadyQueue_of_ne same] at mem
    exact .inl mem

theorem setMutex (s : State ι) (name : String) {f : Mutex → Mutex}
    (waiting : pid ∈ (f (s.mutex name)).waitingProcesses →
      pid ∈ (s.mutex name).waitingProcesses) : Spares config pid s (s.setMutex name f) := by
  refine ⟨id, rfl, rfl, fun _ => id, fun there mem => ?_, fun _ => .inl⟩
  by_cases same : there = name
  · subst same
    rw [setMutex_self] at mem
    exact waiting mem
  · rwa [setMutex_of_ne _ same] at mem

theorem setCpu [DecidableEq ι] (s : State ι) (cpu : ι) {f : Cpu → Cpu}
    (flight : pid ∈ (f (s.cpu cpu)).inFlight → pid ∈ (s.cpu cpu).inFlight) :
    Spares config pid s (s.setCpu cpu f) := by
  refine ⟨id, rfl, rfl, fun c mem => ?_, fun _ => id, fun _ => .inl⟩
  by_cases same : c = cpu
  · subst same
    rw [setCpu_self] at mem
    exact flight mem
  · rwa [setCpu_of_ne _ same] at mem

/-! ### Processes and queues -/

theorem processSetState (s : State ι) (other : UInt32) (state : ProcessState) :
    Spares config pid s (processSetState s other state) := setProcess s other id rfl rfl

theorem addProcessToReadyQueue (s : State ι) (other : UInt32) :
    Spares config pid s (addProcessToReadyQueue config s other) := by
  refine setReadyQueue s _ fun mem => ?_
  rcases List.mem_append.mp mem with old | new
  · exact .inl old
  · obtain rfl := List.mem_singleton.mp new
    exact .inr rfl

theorem addProcessAtStartOfReadyQueue (s : State ι) (other : UInt32) :
    Spares config pid s (addProcessAtStartOfReadyQueue config s other) := by
  unfold KernelScheduler.addProcessAtStartOfReadyQueue
  dsimp only
  split
  · refine setReadyQueue s _ fun mem => ?_
    rcases List.mem_cons.mp mem with rfl | old
    · exact .inr rfl
    · exact .inl old
  · exact addProcessToReadyQueue s other

theorem removeProcessFromReadyQueue (s : State ι) (other : UInt32) :
    Spares config pid s (removeProcessFromReadyQueue config s other) :=
  setReadyQueue s _ fun mem => .inl (List.mem_of_mem_erase mem)

theorem makeReady (s : State ι) (other : UInt32) :
    Spares config pid s (makeReady config s other) :=
  (processSetState s other .ready).trans (addProcessToReadyQueue _ other)

theorem finishBlock (s : State ι) (other : UInt32) :
    Spares config pid s (finishBlock config s other) := by
  have woken : Spares config pid s { processSetReady s other with
      blockProcesses := s.blockProcesses.erase other } :=
    (processSetState s other _).congr rfl rfl rfl rfl
  unfold KernelScheduler.finishBlock
  dsimp only
  split
  · exact woken.trans (addProcessToReadyQueue _ other)
  · exact woken

theorem removeFromExec (s : State ι) (other : UInt32) :
    Spares config pid s (removeFromExec s other) := (refl s).congr rfl rfl rfl rfl

theorem blockProcess (s : State ι) (other : UInt32) :
    Spares config pid s (blockProcess s other) := by
  have blocked : Spares config pid s ((KernelScheduler.removeFromExec s other).setProcess other
      fun p => { p with state := .block, cpu := none, startBlockTime := s.now }) :=
    (removeFromExec s other).trans (setProcess _ other (fun _ => rfl) rfl rfl)
  exact blocked.congr rfl rfl rfl rfl

/-- The priority of another process is changed. -/
theorem requeueWithPriority (s : State ι) (ne : pid ≠ other) (newPriority : UInt8) :
    Spares config pid s (requeueWithPriority config s other newPriority) := by
  unfold KernelScheduler.requeueWithPriority
  split
  · exact ((removeProcessFromReadyQueue s other).trans (setOther _ ne _)).trans
      (addProcessToReadyQueue _ other)
  · exact setOther s ne _

theorem inheritPriority (s : State ι) (other : UInt32) {owner : Option UInt32}
    (unowned : owner ≠ some pid) : Spares config pid s (inheritPriority config s other owner) := by
  unfold KernelScheduler.inheritPriority
  split
  · exact refl s
  · split
    · refine requeueWithPriority s ?_ _
      rintro rfl
      exact unowned rfl
    · exact refl s

theorem restorePriority (s : State ι) (ne : pid ≠ other) :
    Spares config pid s (restorePriority config s other) := by
  unfold KernelScheduler.restorePriority
  dsimp only
  split
  · exact requeueWithPriority s ne _
  · exact refl s

/-- A process leaves its CPU. -/
theorem leaveCpu (s : State ι) (other : UInt32) :
    Spares config pid s (processSetCpu (KernelScheduler.removeFromExec s other) other none) :=
  (removeFromExec s other).trans (setProcess _ other (fun _ => rfl) rfl rfl)

/-! ### CPUs -/

variable [DecidableEq ι]

theorem makeAvailable (s : State ι) (cpu : ι) : Spares config pid s (makeAvailable s cpu) :=
  setCpu s cpu id

theorem confirmed (s : State ι) (cpu : ι) : Spares config pid s (s.setCpu cpu Cpu.confirmed) :=
  setCpu s cpu id

/-- An order to execute goes to the CPU of another process. -/
theorem sendPidToExecute (s : State ι) (ne : pid ≠ other) (cpu : Option ι) :
    Spares config pid s (sendPidToExecute s other cpu) := by
  unfold KernelScheduler.sendPidToExecute
  split
  · exact refl s
  · split
    · exact refl s
    · split
      · refine setCpu s _ fun mem => ?_
        simpa [Cpu.inFlight, ToCpu.pid, List.filterMap_append, ne] using mem
      · exact refl s

theorem sendProcessEvict {reason : InterruptReason} {evictor : Evictor} {cpu : Option ι}
    (sent : sendProcessEvict s reason evictor cpu = some t) : Spares config pid s t := by
  obtain ⟨c, -, -, -, rfl⟩ := sendProcessEvict_some sent
  refine setCpu s c fun mem => ?_
  simpa [Cpu.inFlight, ToCpu.pid, List.filterMap_append] using mem

theorem evictProcess (s : State ι) (cpu : Option ι) (reason : InterruptReason) :
    Spares config pid s (evictProcess s cpu reason) := by
  unfold KernelScheduler.evictProcess
  cases sent : KernelScheduler.sendProcessEvict s reason .handleState cpu with
  | none => exact refl s
  | some s' => exact sendProcessEvict sent

theorem evictAllProcesses (reason : InterruptReason) (pids : List UInt32) (s : State ι) :
    Spares config pid s (evictAllProcesses reason pids s).2 :=
  evictAllProcesses_rule (R := Spares config pid) refl
    (fun sent rest => (sendProcessEvict sent).trans rest) pids s

theorem waitConfirmationThreadAndHandleState (s : State ι) (cpu : ι) :
    Spares config pid s (waitConfirmationThreadAndHandleState config s cpu) := by
  have handled : Spares config pid s (s.setCpu cpu Cpu.confirmed) := confirmed s cpu
  unfold KernelScheduler.waitConfirmationThreadAndHandleState
  dsimp only
  split
  · exact handled.congr rfl rfl rfl rfl
  · rename_i other _
    have left := handled.trans (leaveCpu (s.setCpu cpu Cpu.confirmed) other)
    split
    · exact left.congr rfl rfl rfl rfl
    · exact (left.trans (makeReady _ other)).congr rfl rfl rfl rfl

theorem handleEvicted (s : State ι) (cpu : ι) :
    Spares config pid s (handleEvicted config s cpu) := by
  unfold KernelScheduler.handleEvicted
  split
  · exact setCpu s cpu id
  · rename_i other _
    have left : Spares config pid s _ := leaveCpu s other
    dsimp only
    split
    · exact left.trans (confirmed _ cpu)
    · exact ((left.trans (processSetState _ other .ready)).trans
        (addProcessAtStartOfReadyQueue _ other)).trans (confirmed _ cpu)

theorem handleCpuDisconnection (s : State ι) (cpu : ι) :
    Spares config pid s (handleCpuDisconnection config s cpu) := by
  have close : ∀ u : State ι, Spares config pid u
      (u.setCpu cpu fun c => { c with connection := .closed, toCpu := [], running := none }) := by
    intro u
    refine setCpu u cpu fun mem => ?_
    rw [Cpu.inFlight, List.mem_append]
    exact .inr (by simpa [Cpu.inFlight] using mem)
  unfold KernelScheduler.handleCpuDisconnection
  dsimp only
  split
  · exact (close s).congr rfl rfl rfl rfl
  · rename_i other _
    have back : Spares config pid s (KernelScheduler.removeFromExec
        (KernelScheduler.addProcessToReadyQueue config
          (s.setProcess other fun p => { p with state := .ready, cpu := none, startExecTime := 0 })
          other) other) :=
      ((setProcess s other (fun _ => rfl) rfl rfl).trans
        (addProcessToReadyQueue _ other)).congr rfl rfl rfl rfl
    exact (back.trans (close _)).congr rfl rfl rfl rfl

/-- A CPU hands on what it has, and takes nothing else. -/
theorem stepCpu {st : CpuStep} {c : Cpu} {cpu : ι} (taken : (s.cpu cpu).step st = some c) :
    Spares config pid s (s.setCpu cpu fun _ => c) := by
  refine setCpu s cpu fun mem => ?_
  cases st with
  | execute =>
      simp only [Cpu.step] at taken
      split at taken
      · rename_i other rest toCpu running
        obtain rfl := Option.some.inj taken
        simpa [Cpu.inFlight, ToCpu.pid, toCpu, running, or_comm, or_left_comm, or_assoc] using mem
      · cases taken
  | initProc priority path =>
      simp only [Cpu.step] at taken
      split at taken
      · cases taken
      · obtain rfl := Option.some.inj taken
        simpa [Cpu.inFlight, ToScheduler.pid, List.filterMap_append] using mem
  | stop syscall =>
      simp only [Cpu.step] at taken
      split at taken
      · cases taken
      · rename_i other running
        obtain rfl := Option.some.inj taken
        simpa [Cpu.inFlight, ToScheduler.pid, List.filterMap_append, running, or_comm,
          or_left_comm, or_assoc] using mem
  | evict =>
      simp only [Cpu.step] at taken
      split at taken
      · rename_i reason rest toCpu
        obtain rfl := Option.some.inj taken
        simp only [Cpu.inFlight, ToCpu.pid, ToScheduler.pid, toCpu, List.filterMap_append,
          List.filterMap_cons, List.mem_append] at mem ⊢
        tauto
      · cases taken

/-- Any process may be dispatched but one that is in no ready queue. -/
theorem shortTermTurn (unqueued : ∀ i < config.queueAlgorithmsCount, pid ∉ s.readyQueue i) :
    Spares config pid s (shortTermTurn config s) := by
  have preempted : ∀ other, Spares config pid s (preempt config s other) := by
    intro other
    unfold preempt
    split
    · split
      · exact refl s
      · split
        · exact evictProcess s _ _
        · exact refl s
    · exact refl s
  unfold KernelScheduler.shortTermTurn
  split
  · rename_i next cpu found _
    have ne : pid ≠ next := by
      rintro rfl
      obtain ⟨i, lt, queued⟩ := getNextProcessToExecute_mem found
      exact unqueued i lt queued
    have assigned : Spares config pid s ((KernelScheduler.removeProcessFromReadyQueue config s
        next).setCpu cpu fun c => { c with isAvailable := false }) :=
      (removeProcessFromReadyQueue s next).trans (setCpu _ cpu id)
    have launched : Spares config pid s _ := assigned.trans (setOther _ ne fun p =>
      { p with
        state := .exec
        cpu := some cpu
        startExecTime :=
          if config.schedulerAlgorithm = .fifo then p.startExecTime else s.now })
    unfold dispatch
    refine trans ?_ (sendPidToExecute _ ne _)
    exact launched.congr rfl rfl rfl rfl
  · exact (preempted _).congr rfl rfl rfl rfl
  · exact (refl s).congr rfl rfl rfl rfl

/-! ### Syscalls of other processes -/

theorem mutexLock (s : State ι) (ne : pid ≠ other) {name : String}
    (unowned : (s.mutex name).lockedBy ≠ some pid) :
    Spares config pid s (mutexLock config s name other) := by
  unfold KernelScheduler.mutexLock
  dsimp only
  split
  · have locked : Spares config pid s (s.setMutex name fun m =>
        { m with isLocked := true, lockedBy := some other }) := setMutex s name id
    exact (locked.trans (setOther _ ne _)).trans (sendPidToExecute _ ne _)
  · split
    · exact sendPidToExecute s ne _
    · have waits : Spares config pid s (s.setMutex name fun m =>
          { m with waitingProcesses := m.waitingProcesses ++ [other] }) := by
        refine setMutex s name fun mem => ?_
        simpa [ne] using mem
      have blocked : Spares config pid s _ :=
        (waits.trans (blockProcess _ other)).trans (inheritPriority _ other unowned)
      split
      · exact blocked.congr rfl rfl rfl rfl
      · exact (blocked.trans (makeAvailable _ _)).congr rfl rfl rfl rfl

omit [DecidableEq ι] in
theorem handOver (s : State ι) {name : String}
    (stranger : pid ∉ (s.mutex name).waitingProcesses) :
    Spares config pid s (handOver config s name) := by
  unfold KernelScheduler.handOver
  split
  · exact setMutex s name id
  · rename_i next rest waiting
    rw [waiting, List.mem_cons, not_or] at stranger
    have handed : Spares config pid s (s.setMutex name fun _ => ⟨true, some next, rest⟩) :=
      setMutex s name fun mem => absurd mem stranger.2
    have owned : Spares config pid s _ :=
      (handed.trans (setOther _ stranger.1 fun p =>
        { p with ownedMutexes := p.ownedMutexes ++ [name] })).trans (finishBlock _ next)
    dsimp only
    split
    · exact owned.congr rfl rfl rfl rfl
    · exact owned

theorem mutexUnlock (s : State ι) (ne : pid ≠ other) {name : String}
    (stranger : ∀ there, pid ∉ (s.mutex there).waitingProcesses) :
    Spares config pid s (mutexUnlock config s name other) := by
  unfold KernelScheduler.mutexUnlock
  split
  · dsimp only
    have released : Spares config pid s _ :=
      (sendPidToExecute s ne (s.process other).cpu).trans
        (setOther _ ne fun p => { p with ownedMutexes := p.ownedMutexes.erase name })
    have restored := released.trans (restorePriority _ ne)
    exact restored.trans (handOver _ fun mem => stranger name (restored.waiting name mem))
  · exact refl s

/-! ### IO and memory -/

omit [DecidableEq ι] in
theorem requestIo (s : State ι) (ioType : IoType) (request : IoRequest) :
    Spares config pid s (requestIo s ioType request) := by
  unfold KernelScheduler.requestIo
  split
  · exact (refl s).congr rfl rfl rfl rfl
  · exact (refl s).congr rfl rfl rfl rfl

omit [DecidableEq ι] in
theorem handleNextOperation (s : State ι) (io : Nat) (ioType : IoType) :
    Spares config pid s (handleNextOperation s io ioType) := by
  unfold KernelScheduler.handleNextOperation
  split
  · exact refl s
  · exact (refl s).congr rfl rfl rfl rfl

omit [DecidableEq ι] in
theorem ioFinishProcess (s : State ι) (other : UInt32) (io : Nat) :
    Spares config pid s (ioFinishProcess config s other io) := by
  unfold KernelScheduler.ioFinishProcess
  split
  · have finished : Spares config pid s _ := finishBlock s other
    generalize KernelScheduler.finishBlock config s other = u at finished ⊢
    exact finished.congr rfl rfl rfl rfl
  · exact refl s

omit [DecidableEq ι] in
theorem handleIo (s : State ι) (io : Nat) (request : IoRequest) (value : String) :
    Spares config pid s (handleIo config s io request value) := by
  have finished : Spares config pid s _ :=
    (ioFinishProcess s request.pid io).trans (handleNextOperation _ io (s.io io).ioType)
  unfold KernelScheduler.handleIo
  dsimp only
  split
  · exact finished
  · exact finished
  · split
    · exact refl s
    · refine trans ?_ (handleNextOperation _ io _)
      exact (refl s).congr rfl rfl rfl rfl

omit [DecidableEq ι] in
theorem stdoutWaitMemoryRead (s : State ι) (other : UInt32) (value : String) :
    Spares config pid s (stdoutWaitMemoryRead s other value) := by
  have ended : Spares config pid s (if value = "" then
      (KernelScheduler.processSetState s other .exit).sendMemory (.processEnd other) else s) := by
    split
    · exact (processSetState s other .exit).congr rfl rfl rfl rfl
    · exact refl s
  exact ended.trans (requestIo _ _ _)

omit [DecidableEq ι] in
theorem handleIoMemoryWrite (s : State ι) (other : UInt32) (writeSuccesful : Bool) :
    Spares config pid s (handleIoMemoryWrite s other writeSuccesful) := by
  unfold KernelScheduler.handleIoMemoryWrite
  split
  · exact setProcess s other id rfl rfl
  · exact (processSetState s other .exit).congr rfl rfl rfl rfl

omit [DecidableEq ι] in
theorem waitMemoryWriteConfirmation (s : State ι) (other : UInt32) :
    Spares config pid s (waitMemoryWriteConfirmation config s other) := by
  have taken : Spares config pid s (s.setProcess other fun p =>
      { p with memoryRequestSem := p.memoryRequestSem - 1 }) := setProcess s other id rfl rfl
  exact (taken.trans (finishBlock _ other)).congr rfl rfl rfl rfl

omit [DecidableEq ι] in
theorem requestSegment (s : State ι) (other : UInt32) (message : ToMemory) :
    Spares config pid s (requestSegment s other message) := by
  have pending : Spares config pid s (s.setProcess other fun p =>
      { p with pendingMemorySyscall := true }) := setProcess s other id rfl rfl
  exact pending.congr rfl rfl rfl rfl

/-- The record of a process that has ended. -/
theorem terminateProcess (s : State ι) (other : UInt32) (cpu : ι) :
    Spares config pid s (terminateProcess config s other cpu) := by
  have ended : Spares config pid s (s.setProcess other fun p =>
      { p with state := .exit, cpu := none }) := setProcess s other (fun _ => rfl) rfl rfl
  have removed := ((ended.trans (removeFromExec _ other)).trans
    (removeProcessFromReadyQueue _ other)).trans (setCpu _ cpu (f := fun c =>
      { c with isAvailable := c.isAvailable || !c.isEvicting }) id)
  exact removed.congr rfl rfl rfl rfl

/-- A result goes to a process without a CPU, or to another process. -/
theorem handleSegmentResult (s : State ι) (other : UInt32) (result : SegmentResult)
    (free : (s.process pid).cpu = none) :
    Spares config pid s (handleSegmentResult config s other result) := by
  have settled : Spares config pid s (s.setProcess other fun p =>
      { p with pendingMemorySyscall := false }) := setProcess s other id rfl rfl
  unfold KernelScheduler.handleSegmentResult
  split
  · dsimp only
    split
    · split
      · split
        · exact (settled.trans (makeReady _ other)).congr rfl rfl rfl rfl
        · exact settled
      · exact ((settled.trans (processSetState _ other .exit)).trans
          (removeFromExec _ other)).congr rfl rfl rfl rfl
    · rename_i cpu has
      have ne : pid ≠ other := by
        rintro rfl
        rw [free] at has
        cases has
      split
      · exact settled.trans (sendPidToExecute _ ne _)
      · exact settled.trans (terminateProcess _ other cpu)
  · exact refl s

theorem endProcess (s : State ι) (other : UInt32) (cpu : ι) :
    Spares config pid s (endProcess s other cpu) := by
  have ended : Spares config pid s (if other ∈ s.listProcesses then
      KernelScheduler.removeFromExec
        (s.setProcess other fun p => { p with state := .exit, cpu := none }) other
      else s) := by
    split
    · exact (setProcess s other (fun _ => rfl) rfl rfl).trans (removeFromExec _ other)
    · exact refl s
  exact (ended.trans (makeAvailable _ cpu)).congr rfl rfl rfl rfl

theorem unknownMutex (s : State ι) (other : UInt32) (cpu : ι) :
    Spares config pid s (unknownMutex s other cpu) :=
  (((makeAvailable s cpu).trans (removeFromExec _ other)).trans
    (processSetState _ other .exit)).congr rfl rfl rfl rfl

omit [DecidableEq ι] in
theorem mutexCreate (s : State ι) (name : String) : Spares config pid s (mutexCreate s name) := by
  unfold KernelScheduler.mutexCreate
  split
  · exact refl s
  · have created : Spares config pid s (s.setMutex name fun _ => ⟨false, none, []⟩) :=
      setMutex s name fun mem => absurd mem List.not_mem_nil
    exact created.congr rfl rfl rfl rfl

/-- A syscall of another process. -/
theorem handleSyscall (s : State ι) (ne : pid ≠ other) (cpu : ι) (syscall : Syscall)
    (unowned : ∀ name, (s.mutex name).lockedBy ≠ some pid)
    (stranger : ∀ name, pid ∉ (s.mutex name).waitingProcesses) :
    Spares config pid s (handleSyscall config s cpu other syscall) := by
  have blocked : Spares config pid s _ := (blockProcess s other).trans (makeAvailable _ cpu)
  cases syscall with
  | processEnd | segmentationFault => exact endProcess s other cpu
  | mutexCreate name =>
      simp only [KernelScheduler.handleSyscall]
      exact (mutexCreate s name).trans (sendPidToExecute _ ne _)
  | mutexLock name =>
      simp only [KernelScheduler.handleSyscall]
      split
      · split
        · exact mutexLock s ne (unowned _)
        · exact unknownMutex s other cpu
      · exact refl s
  | mutexUnlock name =>
      simp only [KernelScheduler.handleSyscall]
      split
      · split
        · exact mutexUnlock s ne stranger
        · exact unknownMutex s other cpu
      · exact refl s
  | sleep sleepTime =>
      simp only [KernelScheduler.handleSyscall]
      split
      · exact blocked.trans (requestIo _ _ _)
      · exact refl s
  | stdin physicalAddress toRead =>
      simp only [KernelScheduler.handleSyscall]
      split
      · unfold stdinSyscallManager
        dsimp only
        split
        · exact ((removeFromExec s other).trans
            (processSetState _ other .exit)).congr rfl rfl rfl rfl
        · refine trans ?_ (requestIo _ _ _)
          exact blocked.congr rfl rfl rfl rfl
      · exact refl s
  | stdout physicalAddress toRead =>
      simp only [KernelScheduler.handleSyscall]
      split
      · exact blocked.congr rfl rfl rfl rfl
      · exact refl s
  | memAlloc segmentId segmentSize =>
      simp only [KernelScheduler.handleSyscall, memAllocSyscallManager]
      split
      · exact requestSegment s other _
      · exact refl s
  | memFree segmentId =>
      simp only [KernelScheduler.handleSyscall, memFreeSyscallManager]
      split
      · exact requestSegment s other _
      · exact refl s

/-! ### Suspension -/

omit [DecidableEq ι] in
theorem suspensionScan (config' : Config) (pids : List UInt32) (s : State ι) :
    Spares config pid s (suspensionScan config' pids s).2.2 := by
  induction pids generalizing s with
  | nil => exact refl s
  | cons other rest ih =>
      unfold KernelScheduler.suspensionScan
      split
      · exact (processSetState s other .suspBlock).trans (ih _)
      · exact ih s

omit [DecidableEq ι] in
theorem suspensionManager (s : State ι) : Spares config pid s (suspensionManager config s) := by
  have swaps : ∀ (pids : List UInt32) (s : State ι),
      Spares config pid s (pids.foldl (fun s pid => s.sendMemory (.swapOut pid)) s) := by
    intro pids
    induction pids with
    | nil => exact refl
    | cons other rest ih =>
        intro s
        refine trans ?_ (ih _)
        exact (refl s).congr rfl rfl rfl rfl
  unfold KernelScheduler.suspensionManager
  split
  · refine trans ?_ (swaps _ _)
    exact (suspensionScan config s.blockProcesses s).congr rfl rfl rfl rfl
  · exact refl s

omit [DecidableEq ι] in
/-- A process goes on to wait. -/
theorem waitAgain (s : State ι) (other : UInt32) :
    Spares config pid s
      (s.setProcess other fun p => { p with state := .block, startBlockTime := s.now }) :=
  setProcess s other id rfl rfl

omit [DecidableEq ι] in
theorem waitConfirmationSwapOut (s : State ι) (other : UInt32) (ok : Bool) :
    Spares config pid s (waitConfirmationSwapOut config s other ok) := by
  unfold KernelScheduler.waitConfirmationSwapOut
  split
  · split
    · exact (makeReady s other).congr rfl rfl rfl rfl
    · exact (waitAgain s other).congr rfl rfl rfl rfl
    · exact (refl s).congr rfl rfl rfl rfl
    · exact (refl s).congr rfl rfl rfl rfl
    · exact refl s
  · exact refl s

omit [DecidableEq ι] in
theorem waitConfirmationSwapIn (pids : List UInt32) (s : State ι) :
    Spares config pid s (waitConfirmationSwapIn config s pids) := by
  have one : ∀ (s : State ι) (other : UInt32), Spares config pid s (swappedIn config s other) := by
    intro s other
    unfold swappedIn
    split
    · dsimp only
      split
      · refine trans ?_ (makeReady _ other)
        exact (refl s).congr rfl rfl rfl rfl
      · exact (waitAgain s other).congr rfl rfl rfl rfl
      · exact (refl s).congr rfl rfl rfl rfl
    · exact refl s
  have all : ∀ (pids : List UInt32) (s : State ι),
      Spares config pid s (pids.foldl (swappedIn config) s) := by
    intro pids
    induction pids with
    | nil => exact refl
    | cons other rest ih =>
        intro s
        exact (one s other).trans (ih _)
  unfold KernelScheduler.waitConfirmationSwapIn
  dsimp only
  split
  · exact (all pids s).congr rfl rfl rfl rfl
  · exact all pids s

theorem handleMemory (s : State ι) (message : FromMemory) (free : (s.process pid).cpu = none) :
    Spares config pid s (handleMemory config s message) := by
  cases message with
  | processCreate other =>
      simp only [KernelScheduler.handleMemory, waitProcessCreateConfirmation]
      split
      · exact (makeReady s other).congr rfl rfl rfl rfl
      · exact refl s
  | segmentResult other segmentId result => exact handleSegmentResult s other result free
  | ioMemoryRead other value => exact stdoutWaitMemoryRead s other value
  | ioMemoryWrite other writeSuccesful => exact handleIoMemoryWrite s other writeSuccesful
  | swapOut other ok => exact waitConfirmationSwapOut s other ok
  | swapIn pids => exact waitConfirmationSwapIn pids s
  | memoryUpdate newSize =>
      simp only [KernelScheduler.handleMemory, requestSwapIn]
      split
      · exact refl s
      · exact (refl s).congr rfl rfl rfl rfl
  | compactionRequest | compactionFinished | corruptedMemory =>
      exact (refl s).congr rfl rfl rfl rfl

theorem stepCompaction {i : Nat} {st : CompactionStep}
    (taken : stepCompaction config s i st = some t) : Spares config pid s t := by
  cases st with
  | evictAll =>
      simp only [KernelScheduler.stepCompaction] at taken
      split at taken
      · obtain rfl := Option.some.inj taken
        exact (evictAllProcesses _ s.execProcesses s).congr rfl rfl rfl rfl
      · cases taken
  | handleEvicted =>
      simp only [KernelScheduler.stepCompaction] at taken
      split at taken
      · split at taken
        · obtain rfl := Option.some.inj taken
          exact (handleEvicted s _).congr rfl rfl rfl rfl
        · cases taken
      · cases taken
  | compactionReady =>
      simp only [KernelScheduler.stepCompaction] at taken
      split at taken
      · obtain rfl := Option.some.inj taken
        exact (refl s).congr rfl rfl rfl rfl
      · cases taken
  | reopen =>
      simp only [KernelScheduler.stepCompaction] at taken
      split at taken
      · split at taken
        · obtain rfl := Option.some.inj taken
          exact (refl s).congr rfl rfl rfl rfl
        · cases taken
      · cases taken

omit [DecidableEq ι] in
/-- Another process is created. -/
theorem longTermScheduler {path : String} {priority : UInt8}
    (created : longTermScheduler s path priority = some t) (ne : pid ≠ s.currentMaxPid) :
    Spares config pid s t := by
  unfold KernelScheduler.longTermScheduler at created
  dsimp only at created
  split at created
  · cases created
  · obtain rfl := Option.some.inj created
    have entered : Spares config pid s (s.setProcess s.currentMaxPid fun _ =>
        createProcess priority) := setOther s ne _
    exact entered.congr rfl rfl rfl rfl

end Spares

/-! ### Steps -/

section Steps

variable {path : String} {priority : UInt8}

theorem Unscheduled.spared (alone : Unscheduled s pid) (spares : Spares config pid s t) :
    Unscheduled t pid where
  cpu := spares.cpu alone.cpu
  flight c mem := alone.flight c (spares.flight c mem)
  waiting name mem := alone.waiting name (spares.waiting name mem)
  owned := spares.owned.trans alone.owned

/-- The record of the process that is created. -/
theorem process_longTermScheduler (created : longTermScheduler s path priority = some t) :
    s.currentMaxPid ∉ s.listProcesses ∧ s.currentMaxPid ∈ t.listProcesses ∧
      t.process s.currentMaxPid = createProcess priority ∧
      t.cpu = s.cpu ∧ t.mutex = s.mutex := by
  unfold longTermScheduler at created
  dsimp only at created
  split at created
  · cases created
  · rename_i fresh
    obtain rfl := Option.some.inj created
    exact ⟨fresh, List.mem_append_right _ List.mem_cons_self, Function.update_self .., rfl, rfl⟩

theorem Unscheduled.created (alone : Unscheduled s s.currentMaxPid)
    (created : longTermScheduler s path priority = some t) : Unscheduled t s.currentMaxPid := by
  obtain ⟨-, -, process, cpu, mutex⟩ := process_longTermScheduler created
  constructor
  · rw [process]
    rfl
  · rw [cpu]
    exact alone.flight
  · rw [mutex]
    exact alone.waiting
  · rw [process]
    rfl

variable [DecidableEq ι]

/-- A step spares a process that is not run and in no ready queue, or creates it. -/
theorem step_spares {a : Action ι} (alone : Unscheduled s pid)
    (unqueued : ∀ i < config.queueAlgorithmsCount, pid ∉ s.readyQueue i)
    (unowned : ∀ name, (s.mutex name).lockedBy ≠ some pid)
    (taken : step config s a = some t) :
    Spares config pid s t ∨ (pid ∉ s.listProcesses ∧ Unscheduled t pid) := by
  have create : ∀ {u : State ι} {path : String} {priority : UInt8}, Spares config pid s u →
      u.listProcesses = s.listProcesses → longTermScheduler u path priority = some t →
        Spares config pid s t ∨ (pid ∉ s.listProcesses ∧ Unscheduled t pid) := by
    intro u path priority before same created
    by_cases new : pid = u.currentMaxPid
    · subst new
      refine .inr ⟨?_, (alone.spared before).created created⟩
      rw [← same]
      exact (process_longTermScheduler created).1
    · exact .inl (before.trans (Spares.longTermScheduler created new))
  cases a with
  | process0 path =>
      simp only [step] at taken
      split at taken
      · exact create (.refl s) rfl taken
      · cases taken
  | handleCpu cpu =>
      simp only [step] at taken
      split at taken
      · cases taken
      · rename_i message rest queue
        have read : Spares config pid s
            (s.setCpu cpu fun c => { c with toScheduler := rest }) := by
          refine Spares.setCpu s cpu fun mem => ?_
          simp only [Cpu.inFlight, queue, List.mem_append] at mem ⊢
          refine mem.imp_right fun later => ?_
          rw [List.filterMap_cons]
          split
          · exact later
          · exact List.mem_cons_of_mem _ later
        cases message with
        | processCreate priority path => exact create read rfl taken
        | confirmation =>
            obtain rfl := Option.some.inj taken
            exact .inl (read.trans (Spares.setCpu _ cpu id))
        | syscall other syscall =>
            obtain rfl := Option.some.inj taken
            have ne : pid ≠ other := by
              rintro rfl
              refine alone.flight cpu ?_
              rw [Cpu.inFlight, queue]
              simp [ToScheduler.pid]
            exact .inl (read.trans (Spares.handleSyscall _ ne cpu syscall unowned alone.waiting))
  | tick =>
      obtain rfl := Option.some.inj taken
      exact .inl ((Spares.refl s).congr rfl rfl rfl rfl)
  | connectCpu cpu =>
      simp only [step] at taken
      split at taken
      · obtain rfl := Option.some.inj taken
        have connected : Spares config pid s (s.setCpu cpu fun _ => .create) :=
          Spares.setCpu s cpu fun mem => absurd mem (by simp [Cpu.create, Cpu.absent, Cpu.inFlight])
        exact .inl (connected.congr rfl rfl rfl rfl)
      · cases taken
  | cpu cpu st =>
      obtain ⟨c, stepped, rfl⟩ := Option.map_eq_some_iff.mp taken
      exact .inl (Spares.stepCpu stepped)
  | disconnectCpu cpu =>
      simp only [step] at taken
      split at taken
      · obtain rfl := Option.some.inj taken
        exact .inl (Spares.handleCpuDisconnection s cpu)
      · cases taken
  | confirm cpu =>
      simp only [step] at taken
      split at taken
      · obtain rfl := Option.some.inj taken
        exact .inl (Spares.waitConfirmationThreadAndHandleState s cpu)
      · cases taken
  | wake =>
      simp only [step] at taken
      split at taken
      · obtain rfl := Option.some.inj taken
        exact .inl ((Spares.refl s).congr rfl rfl rfl rfl)
      · cases taken
  | schedule =>
      simp only [step] at taken
      split at taken
      · obtain rfl := Option.some.inj taken
        exact .inl (Spares.shortTermTurn unqueued)
      · cases taken
  | quantum other =>
      simp only [step] at taken
      split at taken
      · obtain rfl := Option.some.inj taken
        exact .inl (Spares.evictProcess s _ _)
      · cases taken
  | suspend =>
      obtain rfl := Option.some.inj taken
      exact .inl (Spares.suspensionManager s)
  | connectIo io ioType =>
      simp only [step] at taken
      split at taken
      · obtain rfl := Option.some.inj taken
        refine .inl (Spares.trans ?_ (Spares.handleNextOperation _ io ioType))
        exact (Spares.refl s).congr rfl rfl rfl rfl
      · cases taken
  | handleIo io value =>
      simp only [step] at taken
      split at taken
      · cases taken
      · obtain rfl := Option.some.inj taken
        refine .inl (Spares.trans ?_ (Spares.handleIo _ io _ value))
        exact (Spares.refl s).congr rfl rfl rfl rfl
  | disconnectIo io =>
      simp only [step] at taken
      split at taken
      · obtain rfl := Option.some.inj taken
        exact .inl ((Spares.refl s).congr rfl rfl rfl rfl)
      · cases taken
  | written other =>
      simp only [step] at taken
      split at taken
      · obtain rfl := Option.some.inj taken
        refine .inl (Spares.trans ?_ (Spares.waitMemoryWriteConfirmation _ other))
        exact (Spares.refl s).congr rfl rfl rfl rfl
      · cases taken
  | memory st =>
      obtain ⟨memory, -, rfl⟩ := Option.map_eq_some_iff.mp taken
      exact .inl ((Spares.refl s).congr rfl rfl rfl rfl)
  | handleMemory =>
      simp only [step] at taken
      split at taken
      · cases taken
      · rename_i message rest _
        obtain rfl := Option.some.inj taken
        have read : Spares config pid s { s with memory.fromMemory := rest } :=
          (Spares.refl s).congr rfl rfl rfl rfl
        exact .inl (read.trans (Spares.handleMemory _ message alone.cpu))
  | compaction i st => exact .inl (Spares.stepCompaction taken)

end Steps

end OsModel.KernelScheduler
