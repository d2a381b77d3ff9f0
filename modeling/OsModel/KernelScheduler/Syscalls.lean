import OsModel.KernelScheduler.Moves

/-!
What becomes of a process that stops with a syscall.

`Accounted` says that somebody goes on with the process. Two handlers forget it when its
CPU is not being evicted: `MUTEX_UNLOCK` of a mutex that the process does not have, and
`MEM_ALLOC` of nothing (`Syscall.Strands`).

* `syscall_accounted`: after every syscall the process is accounted for if and only if its
  CPU is being evicted or the syscall is none of these.
-/

namespace OsModel.KernelScheduler

open Lib

variable {ι : Type}

/-- The process waits for a mutex, for an IO device or for Kernel Memory. -/
def Recorded (s : State ι) (pid : UInt32) : Prop :=
  (∃ name ∈ s.listMutexes, pid ∈ (s.mutex name).waitingProcesses) ∨
    (∃ ioType, ∃ request ∈ s.pendingRequestIo ioType, request.pid = pid) ∨
    (∃ ioType, ∃ io ∈ s.listIo ioType, ∃ request ∈ (s.io io).requests, request.pid = pid) ∨
    ∃ message ∈ s.memory.toMemory, message.request = some (pid, .access)

/-- The process is sent to its CPU again, or the CPU is being evicted; or it is blocked
and waits; or it has asked for a segment; or it has ended. -/
def Accounted (s : State ι) (cpu : ι) (pid : UInt32) : Prop :=
  .processExecute pid ∈ (s.cpu cpu).toCpu ∨ (s.cpu cpu).isEvicting = true ∨
    (s.process pid).state = .block ∧ Recorded s pid ∨
    (∃ message ∈ s.memory.toMemory, message.request = some (pid, .segment)) ∨
    (s.process pid).state = .exit

/-- The syscall of the process is one that its handler does nothing for. -/
def Syscall.Strands (s : State ι) (pid : UInt32) : Syscall → Prop
  | .mutexUnlock name => ∃ mutex ∈ getMutexByName s name, (s.mutex mutex).lockedBy ≠ some pid
  | .memAlloc _ segmentSize => segmentSize = 0
  | _ => False

/-! ### What the managers leave as it is -/

section Frames

variable {config : Config} {s : State ι} {pid : UInt32}

theorem cpu_requeueWithPriority (newPriority : UInt8) :
    (requeueWithPriority config s pid newPriority).cpu = s.cpu := by
  unfold requeueWithPriority
  split <;> rfl

theorem cpu_restorePriority : (restorePriority config s pid).cpu = s.cpu := by
  unfold restorePriority
  dsimp only
  split
  · exact cpu_requeueWithPriority _
  · rfl

theorem cpu_finishBlock : (finishBlock config s pid).cpu = s.cpu := by
  unfold finishBlock
  dsimp only
  split <;> rfl

theorem cpu_handOver [DecidableEq ι] (name : String) : (handOver config s name).cpu = s.cpu := by
  unfold handOver
  split
  · rfl
  · dsimp only
    split
    · exact cpu_finishBlock
    · exact cpu_finishBlock

theorem mutex_inheritPriority (owner : Option UInt32) :
    (inheritPriority config s pid owner).mutex = s.mutex ∧
      (inheritPriority config s pid owner).listMutexes = s.listMutexes := by
  cases owner with
  | none => exact ⟨rfl, rfl⟩
  | some owner =>
      simp only [inheritPriority, requeueWithPriority]
      split
      · split <;> exact ⟨rfl, rfl⟩
      · exact ⟨rfl, rfl⟩

theorem state_inheritPriority (owner : Option UInt32) (other : UInt32) :
    ((inheritPriority config s pid owner).process other).state = (s.process other).state := by
  have same : (inheritPriority config s pid owner).board = s.board := board_inheritPriority owner
  exact congrArg (fun b : Board ι => (b.process other).state) same

theorem process_requestIo (ioType : IoType) (request : IoRequest) :
    (requestIo s ioType request).process = s.process := by
  unfold requestIo
  split <;> rfl

theorem requestIo_recorded (ioType : IoType) (request : IoRequest) :
    Recorded (requestIo s ioType request) request.pid := by
  unfold requestIo
  split
  · rename_i io found
    refine .inr (.inr (.inl ⟨ioType, io, List.mem_of_find?_eq_some found, request, ?_, rfl⟩))
    simp [State.postShortTerm, ioProcessSend]
  · refine .inr (.inl ⟨ioType, request, ?_, rfl⟩)
    simp [State.postShortTerm]

end Frames

variable [DecidableEq ι] {config : Config} {s s' : State ι} {place : UInt32 → Option (Place ι)}
  {pid : UInt32} {cpu : ι} {syscall : Syscall}

/-- A process is sent to a connected CPU that is not being evicted. -/
theorem sendPidToExecute_sent (connected : (s.cpu cpu).connection = .connected)
    (calm : (s.cpu cpu).isEvicting = false) :
    .processExecute pid ∈ ((sendPidToExecute s pid (some cpu)).cpu cpu).toCpu := by
  simp [sendPidToExecute, connected, calm]

/-! ### Each syscall -/

theorem mutexLock_accounted {name : String} (listed : name ∈ s.listMutexes)
    (has : (s.process pid).cpu = some cpu) (connected : (s.cpu cpu).connection = .connected)
    (calm : (s.cpu cpu).isEvicting = false) : Accounted (mutexLock config s name pid) cpu pid := by
  unfold mutexLock
  simp only [has]
  split
  · left
    exact sendPidToExecute_sent connected calm
  · split
    · left
      exact sendPidToExecute_sent connected calm
    · right; right; left
      constructor
      · show ((inheritPriority config _ pid _).process pid).state = .block
        rw [state_inheritPriority, process_blockProcess]
      · left
        refine ⟨name, ?_, ?_⟩
        · show name ∈ (inheritPriority config _ pid _).listMutexes
          rw [(mutex_inheritPriority _).2]
          exact listed
        · show pid ∈ ((inheritPriority config _ pid _).mutex name).waitingProcesses
          rw [(mutex_inheritPriority _).1]
          have same : ∀ s : State ι, (blockProcess s pid).mutex = s.mutex := fun _ => rfl
          rw [same, setMutex_self]
          exact List.mem_append_right _ (List.mem_singleton.mpr rfl)

theorem mutexUnlock_accounted {name : String} (owner : (s.mutex name).lockedBy = some pid)
    (has : (s.process pid).cpu = some cpu) (connected : (s.cpu cpu).connection = .connected)
    (calm : (s.cpu cpu).isEvicting = false) :
    Accounted (mutexUnlock config s name pid) cpu pid := by
  unfold mutexUnlock
  rw [if_pos owner, has]
  left
  dsimp only
  rw [cpu_handOver, cpu_restorePriority]
  exact sendPidToExecute_sent connected calm

theorem unknownMutex_accounted : Accounted (unknownMutex s pid cpu) cpu pid := by
  right; right; right; right
  simp [unknownMutex]

theorem stdinSyscallManager_accounted {physicalAddress toRead : UInt32} :
    Accounted (stdinSyscallManager s pid cpu physicalAddress toRead) cpu pid := by
  unfold stdinSyscallManager
  split
  · right; right; right; right
    simp
  · right; right; left
    constructor
    · simp [process_requestIo]
    · exact requestIo_recorded .stdin (.numeric pid toRead)

/-- A syscall of a process whose CPU is not being evicted, and that is not forgotten. -/
theorem handleSyscall_accounted (known : pid ∈ s.listProcesses)
    (has : (s.process pid).cpu = some cpu) (connected : (s.cpu cpu).connection = .connected)
    (calm : (s.cpu cpu).isEvicting = false) (minded : ¬syscall.Strands s pid) :
    Accounted (handleSyscall config s cpu pid syscall) cpu pid := by
  cases syscall with
  | processEnd | segmentationFault =>
      right; right; right; right
      simp [handleSyscall, endProcess, known, removeFromExec]
  | mutexCreate name =>
      left
      have same : (mutexCreate s name).cpu = s.cpu := by
        unfold mutexCreate
        split <;> rfl
      apply sendPidToExecute_sent
      · rw [same, connected]
      · rw [same, calm]
  | mutexLock name =>
      simp only [handleSyscall, if_pos known]
      split
      · rename_i found
        exact mutexLock_accounted (getMutexByName_mem found) has connected calm
      · exact unknownMutex_accounted
  | mutexUnlock name =>
      simp only [handleSyscall, if_pos known]
      split
      · rename_i mutex found
        have owner : (s.mutex mutex).lockedBy = some pid := by
          by_contra other
          exact minded ⟨mutex, found, other⟩
        exact mutexUnlock_accounted owner has connected calm
      · exact unknownMutex_accounted
  | sleep sleepTime =>
      simp only [handleSyscall, if_pos known]
      right; right; left
      constructor
      · simp [sleepSyscallManager, process_requestIo]
      · exact requestIo_recorded .sleep (.numeric pid sleepTime)
  | stdin physicalAddress toRead =>
      simp only [handleSyscall, if_pos known]
      exact stdinSyscallManager_accounted
  | stdout physicalAddress toRead =>
      simp only [handleSyscall, if_pos known]
      right; right; left
      constructor
      · simp [stdoutSyscallManager]
      · right; right; right
        refine ⟨.ioMemoryRead pid physicalAddress toRead, ?_, rfl⟩
        simp [stdoutSyscallManager, State.sendMemory]
  | memAlloc segmentId segmentSize =>
      right; right; right; left
      refine ⟨.segmentCreate pid segmentId segmentSize, ?_, rfl⟩
      have asks : pid ∈ s.listProcesses ∧ segmentSize ≠ 0 := ⟨known, minded⟩
      simp [handleSyscall, memAllocSyscallManager, asks, requestSegment, State.sendMemory]
  | memFree segmentId =>
      right; right; right; left
      refine ⟨.segmentDelete pid segmentId, ?_, rfl⟩
      simp [handleSyscall, memFreeSyscallManager, known, requestSegment, State.sendMemory]

/-- A syscall that is forgotten leaves everything as it is. -/
theorem handleSyscall_strands (config : Config) (cpu : ι) (known : pid ∈ s.listProcesses)
    (strands : syscall.Strands s pid) :
    handleSyscall config s cpu pid syscall = s := by
  cases syscall with
  | mutexUnlock name =>
      obtain ⟨mutex, found, other⟩ := strands
      have found : getMutexByName s name = some mutex := found
      simp only [handleSyscall, if_pos known, found, mutexUnlock, if_neg other]
  | memAlloc segmentId segmentSize =>
      have empty : segmentSize = 0 := strands
      simp [handleSyscall, memAllocSyscallManager, empty]
  | processEnd | segmentationFault | mutexCreate | mutexLock | sleep | stdin | stdout | memFree =>
      exact absurd strands id

/-- A CPU that is being evicted still is after a syscall. -/
theorem Move.evicting {m : UInt32 → Mode} {about : About ι} {b b' : Board ι} (move : Move m about b b')
    (other : about.cpu ≠ some cpu) (connected : (b.cpu cpu).connection ≠ .absent)
    (evicting : (b.cpu cpu).isEvicting = true) :
    (b'.cpu cpu).connection ≠ .absent ∧ (b'.cpu cpu).isEvicting = true := by
  cases move <;> grind

/-- A process that has just stopped with a syscall is under way only with it. -/
theorem Inv.not_accounted {m : UInt32 → Mode} {rest : List ToScheduler} (inv : Inv config m none s place)
    (next : (s.cpu cpu).toScheduler = .syscall pid syscall :: rest)
    (calm : (s.cpu cpu).isEvicting = false) :
    ¬Accounted (s.setCpu cpu fun c => { c with toScheduler := rest }) cpu pid := by
  obtain ⟨⟨executing, -, -⟩, -, taken⟩ := inv.takeSyscall next
  have nowhere := taken.nowhere pid rfl
  rintro (order | evicting | ⟨blocked, -⟩ | ⟨message, sent, asks⟩ | ended)
  · have none := List.count_eq_zero.mp (taken.located.held_eq_zero nowhere (.cpu cpu))
    refine none (List.mem_append_left _ (List.mem_append_left _ ?_))
    exact List.mem_filterMap.mpr ⟨_, order, rfl⟩
  · simp [calm] at evicting
  · simp [executing] at blocked
  · have none := taken.located.held_eq_zero nowhere (.memory .segment)
    simp only [State.tokens, reduceCtorEq, if_false, Nat.add_zero] at none
    refine List.count_eq_zero.mp none (List.mem_append_left _ (List.mem_append_left _ ?_))
    exact List.mem_filterMap.mpr ⟨message, sent, asks⟩
  · simp [executing] at ended

/-- While no CPU disconnects whose process waits for a segment, the process of a syscall
is accounted for after its handler if and only if its CPU is being evicted, or the syscall
is neither a `MUTEX_UNLOCK` of a mutex that the process does not have nor a `MEM_ALLOC` of
size zero. -/
theorem syscall_accounted {as : List (Action ι)} {rest : List ToScheduler}
    (run : Run (step config) (Allowed fun _ => .any) initial as s)
    (next : (s.cpu cpu).toScheduler = .syscall pid syscall :: rest)
    (taken : step config s (.handleCpu cpu) = some s') :
    Accounted s' cpu pid ↔ (s.cpu cpu).isEvicting = true ∨ ¬syscall.Strands s pid := by
  obtain ⟨place, inv⟩ := Inv.of_run run
  obtain ⟨fits, known, read⟩ := inv.takeSyscall next
  have connected : (s.cpu cpu).connection = .connected := by
    by_contra gone
    simp [((inv.staged cpu).gone gone).2.2] at next
  simp only [step, next] at taken
  obtain rfl := Option.some.inj taken
  by_cases evicting : (s.cpu cpu).isEvicting = true
  · have moves : Moves (fun _ => .any) ⟨some pid, none, false⟩ _ (handleSyscall config
        (s.setCpu cpu fun c => { c with toScheduler := rest }) cpu pid syscall).board :=
      handleSyscall_moves read fits known rfl (fun _ => rfl) fun _ _ => rfl
    have still := moves.keeps
      (P := fun b => (b.cpu cpu).connection ≠ .absent ∧ (b.cpu cpu).isEvicting = true)
      (fun move both => move.evicting (Option.some_ne_none cpu).symm both.1 both.2)
      ⟨by simp [State.board, Cpu.desk, connected], by simpa [State.board, Cpu.desk] using evicting⟩
    exact iff_of_true (.inr (.inl still.2)) (.inl evicting)
  · have calm : (s.cpu cpu).isEvicting = false := by simpa using evicting
    rw [or_iff_right evicting]
    have strands_iff : syscall.Strands (s.setCpu cpu fun c => { c with toScheduler := rest }) pid ↔
        syscall.Strands s pid := by
      cases syscall <;> exact Iff.rfl
    constructor
    · intro accounted strands
      have forgotten := handleSyscall_strands config cpu
        (s := s.setCpu cpu fun c => { c with toScheduler := rest }) known (strands_iff.mpr strands)
      rw [forgotten] at accounted
      exact inv.not_accounted next calm accounted
    · intro minded
      refine handleSyscall_accounted known fits.2.1 ?_ ?_ (mt strands_iff.mp minded)
      · rw [setCpu_self]
        exact connected
      · rw [setCpu_self]
        exact calm

/-- A process creates a mutex, and is sent to its CPU. -/
theorem syscall_accounted_of_mutex_create :
    ∃ s s' : State ℕ, step fifo s (.handleCpu 0) = some s' ∧ Accounted s' 0 0 := by
  obtain ⟨s, run, stopped⟩ := Run.exists_of_exec (step fifo) (Allowed fun _ => .any)
    (started ++ [.cpu 0 (.stop (.mutexCreate "m"))]) initial
    (fun s => decide ((s.cpu 0).toScheduler = [.syscall 0 (.mutexCreate "m")])) (by decide)
  have next := of_decide_eq_true stopped
  have taken : ∃ s', step fifo s (.handleCpu 0) = some s' := by
    simp only [step, next]
    exact ⟨_, rfl⟩
  obtain ⟨s', taken⟩ := taken
  exact ⟨s, s', taken, (syscall_accounted run next taken).mpr (.inr id)⟩

/-- A process asks for a segment of size zero, and nobody goes on with it. -/
theorem syscall_stranded :
    ∃ as s s', Run (step fifo) (fun _ _ => True) (initial : State ℕ) as s ∧
      (s.cpu 0).toScheduler = [.syscall 0 (.memAlloc 0 0)] ∧
        step fifo s (.handleCpu 0) = some s' ∧ (s'.process 0).state = .exec ∧
          ¬Accounted s' 0 0 := by
  obtain ⟨s, run, stopped⟩ := Run.exists_of_exec (step fifo) (fun _ _ => True)
    (started ++ [.cpu 0 (.stop (.memAlloc 0 0))]) initial
    (fun s : State ℕ => decide ((s.cpu 0).toScheduler = [.syscall 0 (.memAlloc 0 0)]) &&
      (step fifo s (.handleCpu 0)).any fun s' : State ℕ => decide ((s'.process 0).state = .exec ∧
        (s'.cpu 0).isEvicting = false ∧ (s'.cpu 0).toCpu = [] ∧ s'.memory.toMemory = []))
    (by decide)
  obtain ⟨next, stranded⟩ := Bool.and_eq_true_iff.mp stopped
  obtain ⟨s', taken, stranded⟩ := (Option.any_eq_true _ _).mp stranded
  obtain ⟨executing, calm, noOrder, noMessage⟩ := of_decide_eq_true stranded
  refine ⟨_, s, s', run, of_decide_eq_true next, taken, executing, ?_⟩
  simp [Accounted, executing, calm, noOrder, noMessage]

end OsModel.KernelScheduler
