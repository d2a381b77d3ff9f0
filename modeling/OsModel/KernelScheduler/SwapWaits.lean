import OsModel.KernelScheduler.Records
import OsModel.KernelScheduler.Suspension

/-!
Which processes wait for a `SWAP_IN`.

A process waits for one when it is `SUSP_READY` and its `SWAP_OUT` has been confirmed; either
of the two may come last. `Frame` is what a handler does to the processes that are suspended
and to the connection to Kernel Memory.

* `step_frame`: a step that neither suspends anyone nor handles a message of Kernel Memory
  sends, and makes no process `SUSP_READY` but the one that it wakes.
* `requestSwapIn_asks`, `waitConfirmationSwapIn_frame`: `MEMORY_UPDATE` asks for every process
  that waits, and those that an answer to `SWAP_IN` names do not wait any more.
-/

namespace OsModel.KernelScheduler

variable {ι : Type}

/-! ### Waiting -/

/-- The process waits for a `SWAP_IN`. -/
def State.Awaits (s : State ι) (pid : UInt32) : Prop :=
  pid ∈ s.suspendedProcesses ∧ (s.process pid).state = .suspReady

instance (s : State ι) (pid : UInt32) : Decidable (s.Awaits pid) :=
  inferInstanceAs (Decidable (_ ∧ _))

/-- The process for which a step ends what it waits for. -/
def State.woken (s : State ι) : Action ι → Option UInt32
  | .handleIo io _ =>
      match (s.io io).ioType with
      | .stdin => none
      | .sleep | .stdout => (s.io io).requests.head?.map IoRequest.pid
  | .written pid => some pid
  | .handleCpu cpu =>
      match (s.cpu cpu).toScheduler.head? with
      | some (.syscall pid (.mutexUnlock name)) =>
          (getMutexByName s name).bind fun mutex =>
            if (s.mutex mutex).lockedBy = some pid then (s.mutex mutex).waitingProcesses.head?
            else none
      | _ => none
  | _ => none

/-- The process whose `SWAP_OUT` a step confirms. -/
def State.swappedOut (s : State ι) : Action ι → Option UInt32
  | .handleMemory =>
      match s.memory.fromMemory.head? with
      | some (.swapOut pid true) => some pid
      | _ => none
  | _ => none

/-- The process has what it needs to wait for a `SWAP_IN`, up to this step. -/
def State.BeginsToWait (s : State ι) (a : Action ι) (pid : UInt32) : Prop :=
  s.woken a = some pid ∧ pid ∈ s.suspendedProcesses ∧ (s.process pid).state = .suspBlock ∨
    s.swappedOut a = some pid ∧ (s.process pid).state = .suspReady

instance (s : State ι) (a : Action ι) (pid : UInt32) : Decidable (s.BeginsToWait a pid) :=
  inferInstanceAs (Decidable (_ ∨ _))

/-- The message is a `SWAP_IN` of the process. -/
def ToMemory.asksFor (pid : UInt32) : ToMemory → Bool
  | .swapIn pids => pids.contains pid
  | _ => false

/-- The message is a `MEMORY_UPDATE`, for which every process that waits is asked for, or
brings the process back. -/
def FromMemory.bringsBack (pid : UInt32) : FromMemory → Bool
  | .memoryUpdate _ => true
  | .swapIn pids => pids.contains pid
  | _ => false

/-! ### Frames -/

/-- What the suspension of processes is about. -/
structure Suspensions where
  state : UInt32 → ProcessState
  listProcesses : List UInt32
  suspendedProcesses : List UInt32
  memory : Memory

def State.suspensions (s : State ι) : Suspensions where
  state pid := (s.process pid).state
  listProcesses := s.listProcesses
  suspendedProcesses := s.suspendedProcesses
  memory := s.memory

theorem suspensions_of_board {s s' : State ι} (same : s'.board = s.board) :
    s'.suspensions = s.suspensions := by
  have view (t : State ι) : t.suspensions = ⟨fun pid => (t.board.process pid).state,
      t.board.listProcesses, t.board.suspendedProcesses, t.board.memory⟩ := rfl
  rw [view, view, same]

/-- On the connection messages are sent to Kernel Memory, and nothing else happens. -/
def Memory.Sends (m m' : Memory) : Prop :=
  ∃ sent, m' = { m with toMemory := m.toMemory ++ sent }

theorem Memory.Sends.refl (m : Memory) : m.Sends m := ⟨[], by rw [List.append_nil]⟩

/-- Messages are sent to Kernel Memory, and no process becomes suspended, or ready while it is
suspended, but the one that is woken. -/
structure Frame (woken : Option UInt32) (b b' : Suspensions) : Prop where
  memory : b.memory.Sends b'.memory
  listProcesses : b.listProcesses ⊆ b'.listProcesses
  suspendedProcesses : b'.suspendedProcesses = b.suspendedProcesses
  state : ∀ pid, (b'.state pid).isSuspended = true →
    b'.state pid = b.state pid ∨ woken = some pid ∧ b.state pid = .suspBlock

namespace Frame

variable {woken : Option UInt32} {b c d : Suspensions}

theorem refl (woken : Option UInt32) (b : Suspensions) : Frame woken b b :=
  ⟨Memory.Sends.refl _, List.Subset.refl _, rfl, fun _ _ => .inl rfl⟩

theorem of_eq (same : c = b) : Frame woken b c := same ▸ refl woken b

theorem trans (first : Frame woken b c) (second : Frame woken c d) : Frame woken b d := by
  obtain ⟨sent, memory⟩ := first.memory
  obtain ⟨more, memory'⟩ := second.memory
  refine ⟨⟨sent ++ more, ?_⟩, List.Subset.trans first.listProcesses second.listProcesses,
    second.suspendedProcesses.trans first.suspendedProcesses, fun pid suspended => ?_⟩
  · rw [memory', memory, List.append_assoc]
  · rcases second.state pid suspended with same | ⟨woke, blocked⟩
    · rw [same] at suspended ⊢
      exact first.state pid suspended
    · have before := first.state pid (by rw [blocked]; rfl)
      rw [blocked] at before
      rcases before with before | ⟨-, before⟩
      · exact .inr ⟨woke, before.symm⟩
      · exact .inr ⟨woke, before⟩

end Frame

/-! ### Handlers -/

section Handlers

variable {config : Config} {s : State ι} {pid : UInt32} {woken : Option UInt32}

theorem frame_setProcess {f : Process ι → Process ι}
    (leaves : (f (s.process pid)).state = (s.process pid).state ∨
      (f (s.process pid)).state.isSuspended = false) :
    Frame woken s.suspensions (s.setProcess pid f).suspensions := by
  refine ⟨Memory.Sends.refl _, List.Subset.refl _, rfl, fun other suspended => ?_⟩
  simp only [State.suspensions] at suspended ⊢
  by_cases same : other = pid
  · subst same
    rw [setProcess_self] at suspended ⊢
    rcases leaves with leaves | leaves
    · exact .inl leaves
    · rw [leaves] at suspended
      cases suspended
  · exact .inl (by rw [setProcess_of_ne s same])

theorem frame_sendMemory (message : ToMemory) :
    Frame woken s.suspensions (s.sendMemory message).suspensions :=
  ⟨⟨[message], rfl⟩, List.Subset.refl _, rfl, fun _ _ => .inl rfl⟩

theorem frame_processSetState (state : ProcessState) (leaves : state.isSuspended = false) :
    Frame woken s.suspensions (processSetState s pid state).suspensions :=
  frame_setProcess (.inr leaves)

theorem frame_makeReady (config : Config) :
    Frame woken s.suspensions (makeReady config s pid).suspensions :=
  frame_processSetState .ready rfl

/-- The process that is woken becomes `SUSP_READY` or `READY`. -/
theorem frame_finishBlock :
    Frame (some pid) s.suspensions (finishBlock config s pid).suspensions := by
  have set : Frame (some pid) s.suspensions (processSetReady s pid).suspensions := by
    refine ⟨Memory.Sends.refl _, List.Subset.refl _, rfl, fun other suspended => ?_⟩
    simp only [State.suspensions, processSetReady] at suspended ⊢
    by_cases same : other = pid
    · subst same
      rw [processSetState_self] at suspended ⊢
      by_cases blocked : (s.process other).state = .suspBlock
      · exact .inr ⟨rfl, blocked⟩
      · rw [if_neg blocked] at suspended
        cases suspended
    · exact .inl (by rw [processSetState_of_ne s same])
  unfold finishBlock
  dsimp only
  split
  · exact set
  · exact set

theorem frame_blockProcess : Frame woken s.suspensions (blockProcess s pid).suspensions :=
  frame_setProcess (s := removeFromExec s pid)
    (f := fun p => { p with state := .block, cpu := none, startBlockTime := s.now }) (.inr rfl)

theorem frame_requestSegment (message : ToMemory) :
    Frame woken s.suspensions (requestSegment s pid message).suspensions :=
  (frame_setProcess (.inl rfl)).trans (frame_sendMemory message)

theorem suspensions_inheritPriority (owner : Option UInt32) :
    (inheritPriority config s pid owner).suspensions = s.suspensions :=
  suspensions_of_board (board_inheritPriority owner)

theorem suspensions_requestIo (ioType : IoType) (request : IoRequest) :
    (requestIo s ioType request).suspensions = s.suspensions :=
  suspensions_of_board (board_requestIo ioType request)

theorem suspensions_handleNextOperation (io : Nat) (ioType : IoType) :
    (handleNextOperation s io ioType).suspensions = s.suspensions :=
  suspensions_of_board (board_handleNextOperation io ioType)

/-- The mutex goes to the first process that waits for it, which is woken. -/
theorem frame_handOver (name : String) (next : (s.mutex name).waitingProcesses.head? = woken) :
    Frame woken s.suspensions (handOver config s name).suspensions := by
  unfold handOver
  cases waiting : (s.mutex name).waitingProcesses with
  | nil => exact .refl ..
  | cons first rest =>
      obtain rfl : woken = some first := by rw [← next, waiting]; rfl
      have owned : Frame (some first) s.suspensions (finishBlock config
          ((s.setMutex name fun _ => ⟨true, some first, rest⟩).setProcess first fun p =>
            { p with ownedMutexes := p.ownedMutexes ++ [name] }) first).suspensions :=
        (frame_setProcess (s := s.setMutex name _) (.inl rfl)).trans frame_finishBlock
      dsimp only
      split
      · exact owned
      · exact owned

theorem mutex_restorePriority : (restorePriority config s pid).mutex = s.mutex := by
  unfold restorePriority requeueWithPriority
  dsimp only
  split
  · split <;> rfl
  · rfl

theorem frame_exit (s : State ι) (pid : UInt32) :
    Frame woken s.suspensions ((processSetState s pid .exit).sendMemory
      (.processEnd pid)).suspensions :=
  (frame_processSetState _ rfl).trans (frame_sendMemory _)

theorem frame_longTermScheduler {s' : State ι} {path : String} {priority : UInt8}
    (taken : longTermScheduler s path priority = some s') :
    Frame woken s.suspensions s'.suspensions := by
  simp only [longTermScheduler] at taken
  split at taken
  · cases taken
  · obtain rfl := Option.some.inj taken
    have sent : Frame woken s.suspensions ((s.setProcess s.currentMaxPid fun _ =>
        createProcess priority).sendMemory (.processCreate s.currentMaxPid path)).suspensions :=
      (frame_setProcess (.inr rfl)).trans (frame_sendMemory _)
    exact ⟨sent.memory, List.subset_append_left _ _, rfl, sent.state⟩

theorem frame_ioFinishProcess {io : Nat} :
    Frame (some pid) s.suspensions (ioFinishProcess config s pid io).suspensions := by
  unfold ioFinishProcess
  split
  · have finished : Frame (some pid) s.suspensions _ := @frame_finishBlock _ config s pid
    generalize finishBlock config s pid = u at finished ⊢
    exact finished
  · exact .refl ..

theorem frame_waitProcessCreateConfirmation :
    Frame woken s.suspensions (waitProcessCreateConfirmation config s pid).suspensions := by
  unfold waitProcessCreateConfirmation
  split
  · exact frame_makeReady config
  · exact .refl ..

theorem frame_stdoutWaitMemoryRead (value : String) :
    Frame woken s.suspensions (stdoutWaitMemoryRead s pid value).suspensions := by
  unfold stdoutWaitMemoryRead
  dsimp only
  rw [suspensions_requestIo]
  split
  · exact frame_exit s pid
  · exact .refl ..

theorem frame_handleIoMemoryWrite (writeSuccesful : Bool) :
    Frame woken s.suspensions (handleIoMemoryWrite s pid writeSuccesful).suspensions := by
  unfold handleIoMemoryWrite
  split
  · exact frame_setProcess (.inl rfl)
  · exact frame_exit s pid

theorem suspensions_addProcessAtStartOfReadyQueue :
    (addProcessAtStartOfReadyQueue config s pid).suspensions = s.suspensions := by
  unfold addProcessAtStartOfReadyQueue
  split <;> rfl

theorem frame_handleIo {io : Nat} {request : IoRequest} {value : String}
    (next : (s.io io).ioType ≠ .stdin → woken = some request.pid) :
    Frame woken s.suspensions (handleIo config s io request value).suspensions := by
  cases ioType : (s.io io).ioType with
  | sleep | stdout =>
      obtain rfl := next (by rw [ioType]; decide)
      simp only [handleIo, ioType]
      exact frame_ioFinishProcess.trans (.of_eq (suspensions_handleNextOperation io _))
  | stdin =>
      simp only [handleIo, ioType]
      split
      · exact .refl ..
      · rename_i pending _
        refine Frame.trans ?_ (.of_eq (suspensions_handleNextOperation io _))
        exact frame_sendMemory (s := { s with
          pendingIoStdinReading := s.pendingIoStdinReading.erase pending
          writeThreads := s.writeThreads ++ [request.pid] }) _

/-! ### The medium-term scheduler -/

/-- One pass of `suspension_manager`. -/
theorem suspensionManager_frame (config : Config) (s : State ι) :
    s.memory.Sends (suspensionManager config s).memory ∧
      (suspensionManager config s).listProcesses = s.listProcesses ∧
      (suspensionManager config s).suspendedProcesses = s.suspendedProcesses ∧
      ∀ pid, ((suspensionManager config s).process pid).state = .suspReady →
        (s.process pid).state = .suspReady := by
  unfold suspensionManager
  split
  · obtain ⟨memory, list⟩ := suspensionScan_frame config s.blockProcesses s
    dsimp only
    rw [sendSwapOuts]
    refine ⟨⟨_, by rw [memory]⟩, ?_, list, fun pid ready => ?_⟩
    · have same : (suspensionScan config s.blockProcesses s).2.2.records = s.records :=
        records_suspensionScan s.blockProcesses s
      exact congrArg (fun records => records.1.listProcesses) same
    · obtain ⟨-, same⟩ | ⟨-, -, blocked⟩ := suspensionScan_state config pid s.blockProcesses s
      · exact same ▸ ready
      · have ready : ((suspensionScan config s.blockProcesses s).2.2.process pid).state =
            .suspReady := ready
        rw [blocked] at ready
        cases ready
  · exact ⟨Memory.Sends.refl _, rfl, rfl, fun _ ready => ready⟩

/-- A `SWAP_OUT` that is confirmed puts its process into `suspended_processes`. -/
theorem waitConfirmationSwapOut_frame (config : Config) (s : State ι) (pid : UInt32) (ok : Bool) :
    (waitConfirmationSwapOut config s pid ok).memory = s.memory ∧
      (waitConfirmationSwapOut config s pid ok).listProcesses = s.listProcesses ∧
      (∀ other ∈ (waitConfirmationSwapOut config s pid ok).suspendedProcesses,
        other ∈ s.suspendedProcesses ∨ other = pid ∧ ok = true ∧ pid ∈ s.listProcesses) ∧
      ∀ other, ((waitConfirmationSwapOut config s pid ok).process other).state = .suspReady →
        (s.process other).state = .suspReady := by
  have left (f : Process ι → Process ι) (leaves : (f (s.process pid)).state ≠ .suspReady)
      (other : UInt32) (ready : ((s.setProcess pid f).process other).state = .suspReady) :
      (s.process other).state = .suspReady := by
    by_cases same : other = pid
    · subst same
      rw [setProcess_self] at ready
      exact absurd ready leaves
    · rwa [setProcess_of_ne s same] at ready
  unfold waitConfirmationSwapOut
  split
  · rename_i known
    have confirmed : ∀ other ∈ s.suspendedProcesses ++ [pid],
        other ∈ s.suspendedProcesses ∨ other = pid ∧ true = true ∧ pid ∈ s.listProcesses := by
      intro other mem
      rcases List.mem_append.mp mem with before | last
      · exact .inl before
      · exact .inr ⟨List.mem_singleton.mp last, rfl, known⟩
    split
    · exact ⟨rfl, rfl, fun _ mem => .inl mem, left (fun p => { p with state := .ready }) (by simp)⟩
    · exact ⟨rfl, rfl, fun _ mem => .inl mem,
        left (fun p => { p with state := .block, startBlockTime := s.now }) (by simp)⟩
    · exact ⟨rfl, rfl, confirmed, fun _ ready => ready⟩
    · exact ⟨rfl, rfl, confirmed, fun _ ready => ready⟩
    · exact ⟨rfl, rfl, fun _ mem => .inl mem, fun _ ready => ready⟩
  · exact ⟨rfl, rfl, fun _ mem => .inl mem, fun _ ready => ready⟩

theorem frame_requestSwapIn (s : State ι) :
    Frame woken s.suspensions (requestSwapIn s).suspensions := by
  unfold requestSwapIn
  dsimp only
  split
  · exact .refl ..
  · exact frame_sendMemory _

/-- `MEMORY_UPDATE` asks for every process that waits. -/
theorem requestSwapIn_asks (awaits : s.Awaits pid) :
    ∃ message ∈ (requestSwapIn s).memory.toMemory, message.asksFor pid = true := by
  have mem : pid ∈ sortProcessesByPriority s
      (s.suspendedProcesses.filter fun pid => (s.process pid).state == .suspReady) := by
    rw [sortProcessesByPriority, List.mem_insertionSort, List.mem_filter]
    exact ⟨awaits.1, beq_iff_eq.mpr awaits.2⟩
  simp only [requestSwapIn]
  rw [if_neg (List.ne_nil_of_mem mem)]
  exact ⟨_, List.mem_append_right _ (List.mem_singleton_self _), List.contains_iff_mem.mpr mem⟩

theorem swappedIn_frame (config : Config) (s : State ι) (first : UInt32) :
    (swappedIn config s first).memory = s.memory ∧
      (swappedIn config s first).listProcesses = s.listProcesses ∧
      (swappedIn config s first).suspendedProcesses ⊆ s.suspendedProcesses ∧
      ∀ pid, ((swappedIn config s first).process pid).state = .suspReady →
        (s.process pid).state = .suspReady ∧ (pid = first → pid ∉ s.listProcesses) := by
  have back (f : Process ι → Process ι) (leaves : (f (s.process first)).state ≠ .suspReady)
      (pid : UInt32) (ready : ((s.setProcess first f).process pid).state = .suspReady) :
      (s.process pid).state = .suspReady ∧ (pid = first → pid ∉ s.listProcesses) := by
    by_cases same : pid = first
    · subst same
      rw [setProcess_self] at ready
      exact absurd ready leaves
    · rw [setProcess_of_ne s same] at ready
      exact ⟨ready, fun eq => absurd eq same⟩
  unfold swappedIn
  split
  · dsimp only
    split
    · exact ⟨rfl, rfl, List.erase_subset, back (fun p => { p with state := .ready }) (by simp)⟩
    · exact ⟨rfl, rfl, List.erase_subset,
        back (fun p => { p with state := .block, startBlockTime := s.now }) (by simp)⟩
    · rename_i other _
      refine ⟨rfl, rfl, List.erase_subset, fun pid ready => ⟨ready, ?_⟩⟩
      rintro rfl
      exact absurd ready other
  · rename_i unknown
    exact ⟨rfl, rfl, List.Subset.refl _, fun pid ready => ⟨ready, fun eq => eq ▸ unknown⟩⟩

/-- The processes that an answer to `SWAP_IN` names do not wait any more. -/
theorem waitConfirmationSwapIn_frame (config : Config) (s : State ι) (pids : List UInt32) :
    (waitConfirmationSwapIn config s pids).memory = s.memory ∧
      (waitConfirmationSwapIn config s pids).listProcesses = s.listProcesses ∧
      (waitConfirmationSwapIn config s pids).suspendedProcesses ⊆ s.suspendedProcesses ∧
      ∀ pid, ((waitConfirmationSwapIn config s pids).process pid).state = .suspReady →
        (s.process pid).state = .suspReady ∧ (pid ∈ pids → pid ∉ s.listProcesses) := by
  have folded : ∀ s : State ι, (pids.foldl (swappedIn config) s).memory = s.memory ∧
      (pids.foldl (swappedIn config) s).listProcesses = s.listProcesses ∧
      (pids.foldl (swappedIn config) s).suspendedProcesses ⊆ s.suspendedProcesses ∧
      ∀ pid, ((pids.foldl (swappedIn config) s).process pid).state = .suspReady →
        (s.process pid).state = .suspReady ∧ (pid ∈ pids → pid ∉ s.listProcesses) := by
    induction pids with
    | nil => exact fun s => ⟨rfl, rfl, List.Subset.refl _, fun pid ready => ⟨ready, by simp⟩⟩
    | cons first rest ih =>
        intro s
        obtain ⟨memory, list, fewer, ready⟩ := swappedIn_frame config s first
        obtain ⟨memory', list', fewer', ready'⟩ := ih (swappedIn config s first)
        refine ⟨memory'.trans memory, list'.trans list, List.Subset.trans fewer' fewer,
          fun pid still => ?_⟩
        obtain ⟨between, later⟩ := ready' pid still
        obtain ⟨before, now⟩ := ready pid between
        refine ⟨before, fun mem => ?_⟩
        rcases List.mem_cons.mp mem with same | mem
        · exact now same
        · exact list ▸ later mem
  unfold waitConfirmationSwapIn
  dsimp only
  split
  · exact folded s
  · exact folded s

/-! ### CPUs -/

variable [DecidableEq ι] {cpu : ι}

theorem suspensions_sendPidToExecute (cpu : Option ι) :
    (sendPidToExecute s pid cpu).suspensions = s.suspensions := by
  obtain ⟨cpus, sent⟩ := sendPidToExecute_eq s pid cpu
  rw [sent]
  rfl

theorem suspensions_sendProcessEvict {s' : State ι} {reason : InterruptReason} {evictor : Evictor}
    {cpu : Option ι} (sent : sendProcessEvict s reason evictor cpu = some s') :
    s'.suspensions = s.suspensions := by
  obtain ⟨cpu, -, -, -, rfl⟩ := sendProcessEvict_some sent
  rfl

theorem suspensions_evictProcess (cpu : Option ι) (reason : InterruptReason) :
    (evictProcess s cpu reason).suspensions = s.suspensions := by
  unfold evictProcess
  cases sent : sendProcessEvict s reason .handleState cpu with
  | none => rfl
  | some s' => exact suspensions_sendProcessEvict sent

theorem suspensions_evictAllProcesses (reason : InterruptReason) (pids : List UInt32)
    (s : State ι) :
    (evictAllProcesses reason pids s).2.suspensions = s.suspensions :=
  evictAllProcesses_rule (R := fun s t => t.suspensions = s.suspensions) (fun _ => rfl)
    (fun sent rest => rest.trans (suspensions_sendProcessEvict sent)) pids s

/-! ### Syscalls -/

theorem frame_mutexLock (name : String) :
    Frame woken s.suspensions (mutexLock config s name pid).suspensions := by
  unfold mutexLock
  dsimp only
  split
  · have owned : Frame woken s.suspensions ((s.setMutex name fun m =>
        { m with isLocked := true, lockedBy := some pid }).setProcess pid fun p =>
          { p with ownedMutexes := p.ownedMutexes ++ [name] }).suspensions :=
      frame_setProcess (s := s.setMutex name _)
        (f := fun p => { p with ownedMutexes := p.ownedMutexes ++ [name] }) (.inl rfl)
    exact owned.trans (.of_eq (suspensions_sendPidToExecute _))
  · split
    · exact .of_eq (suspensions_sendPidToExecute _)
    · have blocked : Frame woken s.suspensions (inheritPriority config (blockProcess
          (s.setMutex name fun m => { m with waitingProcesses := m.waitingProcesses ++ [pid] }) pid)
          pid (s.mutex name).lockedBy).suspensions :=
        (frame_blockProcess (s := s.setMutex name _)).trans
          (.of_eq (suspensions_inheritPriority _))
      split
      · exact blocked
      · exact blocked

theorem frame_mutexUnlock (name : String)
    (next : (s.mutex name).lockedBy = some pid → (s.mutex name).waitingProcesses.head? = woken) :
    Frame woken s.suspensions (mutexUnlock config s name pid).suspensions := by
  unfold mutexUnlock
  split
  · rename_i owner
    obtain ⟨cpus, sent⟩ := sendPidToExecute_eq s pid (s.process pid).cpu
    simp only [sent]
    have released : Frame woken s.suspensions (restorePriority config
        (({ s with cpu := cpus } : State ι).setProcess pid fun p =>
          { p with ownedMutexes := p.ownedMutexes.erase name }) pid).suspensions :=
      (frame_setProcess (s := { s with cpu := cpus })
        (f := fun p => { p with ownedMutexes := p.ownedMutexes.erase name }) (.inl rfl)).trans
          (.of_eq (suspensions_of_board board_restorePriority))
    refine released.trans (frame_handOver name ?_)
    rw [mutex_restorePriority]
    exact next owner
  · exact .refl ..

theorem frame_endProcess : Frame woken s.suspensions (endProcess s pid cpu).suspensions := by
  unfold endProcess
  dsimp only
  split
  · have ended : Frame woken s.suspensions
        (s.setProcess pid fun p => { p with state := .exit, cpu := none }).suspensions :=
      frame_setProcess (.inr rfl)
    exact ended.trans (frame_sendMemory _)
  · exact frame_sendMemory (s := makeAvailable s cpu) _

theorem frame_unknownMutex : Frame woken s.suspensions (unknownMutex s pid cpu).suspensions :=
  frame_exit (removeFromExec (makeAvailable s cpu) pid) pid

theorem frame_stdinSyscallManager (physicalAddress toRead : UInt32) :
    Frame woken s.suspensions
      (stdinSyscallManager s pid cpu physicalAddress toRead).suspensions := by
  unfold stdinSyscallManager
  split
  · exact frame_exit (removeFromExec s pid) pid
  · dsimp only
    rw [suspensions_requestIo]
    exact frame_blockProcess

theorem frame_handleSyscall {syscall : Syscall}
    (next : ∀ name mutex, syscall = .mutexUnlock name → getMutexByName s name = some mutex →
      (s.mutex mutex).lockedBy = some pid → (s.mutex mutex).waitingProcesses.head? = woken) :
    Frame woken s.suspensions (handleSyscall config s cpu pid syscall).suspensions := by
  cases syscall with
  | processEnd | segmentationFault => exact frame_endProcess
  | mutexCreate name =>
      refine .of_eq ((suspensions_sendPidToExecute _).trans ?_)
      exact suspensions_of_board (board_mutexCreate name)
  | mutexLock name =>
      simp only [handleSyscall]
      split
      · split
        · exact frame_mutexLock _
        · exact frame_unknownMutex
      · exact .refl ..
  | mutexUnlock name =>
      simp only [handleSyscall]
      split
      · split
        · rename_i mutex found
          exact frame_mutexUnlock mutex (next name mutex rfl found)
        · exact frame_unknownMutex
      · exact .refl ..
  | sleep sleepTime =>
      simp only [handleSyscall]
      split
      · rw [sleepSyscallManager, suspensions_requestIo]
        exact frame_blockProcess
      · exact .refl ..
  | stdin physicalAddress toRead =>
      simp only [handleSyscall]
      split
      · exact frame_stdinSyscallManager physicalAddress toRead
      · exact .refl ..
  | stdout physicalAddress toRead =>
      simp only [handleSyscall]
      split
      · exact frame_blockProcess.trans
          (frame_sendMemory (s := makeAvailable (blockProcess s pid) cpu) _)
      · exact .refl ..
  | memAlloc segmentId segmentSize =>
      simp only [handleSyscall, memAllocSyscallManager]
      split
      · exact frame_requestSegment _
      · exact .refl ..
  | memFree segmentId =>
      simp only [handleSyscall, memFreeSyscallManager]
      split
      · exact frame_requestSegment _
      · exact .refl ..

/-! ### The other handlers -/

theorem frame_handleCpuDisconnection :
    Frame woken s.suspensions (handleCpuDisconnection config s cpu).suspensions := by
  unfold handleCpuDisconnection
  dsimp only
  split
  · exact .refl ..
  · rename_i pid _
    have left : Frame woken s.suspensions (s.setProcess pid _).suspensions :=
      frame_setProcess (f := fun p => { p with state := .ready, cpu := none, startExecTime := 0 })
        (.inr rfl)
    generalize s.setProcess pid _ = u at left ⊢
    exact left

theorem frame_terminateProcess :
    Frame woken s.suspensions (terminateProcess config s pid cpu).suspensions := by
  have ended : Frame woken s.suspensions (s.setProcess pid _).suspensions :=
    frame_setProcess (f := fun p => { p with state := .exit, cpu := none }) (.inr rfl)
  unfold terminateProcess
  generalize s.setProcess pid _ = u at ended ⊢
  exact ended.trans (frame_sendMemory _)

theorem frame_handleSegmentResult (result : SegmentResult) :
    Frame woken s.suspensions (handleSegmentResult config s pid result).suspensions := by
  have settled : Frame woken s.suspensions
      (s.setProcess pid fun p => { p with pendingMemorySyscall := false }).suspensions :=
    frame_setProcess (.inl rfl)
  unfold handleSegmentResult
  split
  · dsimp only
    split
    · split
      · split
        · exact settled.trans (frame_makeReady config)
        · exact settled
      · exact settled.trans (frame_exit _ pid)
    · split
      · exact settled.trans (.of_eq (suspensions_sendPidToExecute _))
      · exact settled.trans frame_terminateProcess
  · exact .refl ..

theorem frame_waitConfirmationThreadAndHandleState :
    Frame woken s.suspensions
      (waitConfirmationThreadAndHandleState config s cpu).suspensions := by
  unfold waitConfirmationThreadAndHandleState
  dsimp only
  split
  · exact .refl ..
  · rename_i pid _
    have left : Frame woken s.suspensions (processSetCpu (removeFromExec
        (s.setCpu cpu Cpu.confirmed) pid) pid none).suspensions :=
      frame_setProcess (s := removeFromExec (s.setCpu cpu Cpu.confirmed) pid) (.inl rfl)
    split
    · exact left
    · exact left.trans (frame_makeReady config)

theorem frame_handleEvicted :
    Frame woken s.suspensions (handleEvicted config s cpu).suspensions := by
  unfold handleEvicted
  split
  · exact .refl ..
  · rename_i pid _
    have left : Frame woken s.suspensions
        (processSetCpu (removeFromExec s pid) pid none).suspensions :=
      frame_setProcess (s := removeFromExec s pid) (.inl rfl)
    dsimp only
    split
    · exact left
    · exact (left.trans (frame_processSetState .ready rfl)).trans
        (.of_eq suspensions_addProcessAtStartOfReadyQueue)

theorem frame_shortTermTurn :
    Frame woken s.suspensions (shortTermTurn config s).suspensions := by
  have preempted : ∀ pid, (preempt config s pid).suspensions = s.suspensions := by
    intro pid
    unfold preempt
    split
    · split
      · rfl
      · split
        · exact suspensions_evictProcess _ _
        · rfl
    · rfl
  unfold shortTermTurn
  split
  · rename_i pid cpu _ _
    unfold dispatch
    dsimp only
    rw [suspensions_sendPidToExecute]
    exact frame_setProcess (s := (removeProcessFromReadyQueue config s pid).setCpu cpu fun c =>
        { c with isAvailable := false })
      (f := fun p =>
        { p with
          state := .exec
          cpu := some cpu
          startExecTime :=
            if config.schedulerAlgorithm = .fifo then p.startExecTime else s.now }) (.inr rfl)
  · exact .of_eq (preempted _)
  · exact .refl ..

theorem frame_stepCompaction {s' : State ι} {i : Nat} {st : CompactionStep}
    (taken : stepCompaction config s i st = some s') :
    Frame woken s.suspensions s'.suspensions := by
  cases st with
  | evictAll =>
      simp only [stepCompaction] at taken
      split at taken
      · obtain rfl := Option.some.inj taken
        exact .of_eq (suspensions_evictAllProcesses _ s.execProcesses s)
      · cases taken
  | handleEvicted =>
      simp only [stepCompaction] at taken
      split at taken
      · split at taken
        · obtain rfl := Option.some.inj taken
          exact frame_handleEvicted
        · cases taken
      · cases taken
  | compactionReady =>
      simp only [stepCompaction] at taken
      split at taken
      · obtain rfl := Option.some.inj taken
        exact frame_sendMemory .compactionReady
      · cases taken
  | reopen =>
      simp only [stepCompaction] at taken
      split at taken
      · split at taken
        · obtain rfl := Option.some.inj taken
          exact .refl ..
        · cases taken
      · cases taken

theorem frame_handleMemory {message : FromMemory}
    (swapOut : ∀ pid ok, message ≠ .swapOut pid ok) (swapIn : ∀ pids, message ≠ .swapIn pids)
    (update : ∀ newSize, message ≠ .memoryUpdate newSize) :
    Frame woken s.suspensions (handleMemory config s message).suspensions := by
  cases message with
  | processCreate pid => exact frame_waitProcessCreateConfirmation
  | segmentResult pid segmentId result => exact frame_handleSegmentResult result
  | ioMemoryRead pid value => exact frame_stdoutWaitMemoryRead value
  | ioMemoryWrite pid writeSuccesful => exact frame_handleIoMemoryWrite writeSuccesful
  | swapOut pid ok => exact absurd rfl (swapOut pid ok)
  | swapIn pids => exact absurd rfl (swapIn pids)
  | memoryUpdate newSize => exact absurd rfl (update newSize)
  | compactionRequest | compactionFinished | corruptedMemory => exact .refl ..

/-! ### Steps -/

/-- A step of the scheduler that handles no message of Kernel Memory and suspends nobody. -/
theorem step_frame {a : Action ι} {t : State ι} (taken : step config s a = some t)
    (noSuspend : a ≠ .suspend) (noMessage : a ≠ .handleMemory) (own : ∀ st, a ≠ .memory st) :
    Frame (s.woken a) s.suspensions t.suspensions := by
  cases a with
  | tick =>
      obtain rfl := Option.some.inj taken
      exact .refl ..
  | process0 path =>
      simp only [step] at taken
      split at taken
      · exact frame_longTermScheduler taken
      · cases taken
  | connectCpu cpu =>
      simp only [step] at taken
      split at taken
      · obtain rfl := Option.some.inj taken
        exact .refl ..
      · cases taken
  | cpu cpu st =>
      obtain ⟨c, -, rfl⟩ := Option.map_eq_some_iff.mp taken
      exact .refl ..
  | handleCpu cpu =>
      cases queue : (s.cpu cpu).toScheduler with
      | nil => simp [step, queue] at taken
      | cons message rest =>
          simp only [step, queue] at taken
          cases message with
          | processCreate priority path =>
              exact frame_longTermScheduler
                (s := s.setCpu cpu fun c => { c with toScheduler := rest }) taken
          | syscall pid syscall =>
              obtain rfl := Option.some.inj taken
              refine frame_handleSyscall
                (s := s.setCpu cpu fun c => { c with toScheduler := rest }) ?_
              rintro name mutex rfl found owner
              have found : getMutexByName s name = some mutex := found
              have owner : (s.mutex mutex).lockedBy = some pid := owner
              simp only [State.woken, queue, List.head?_cons, found, Option.bind_some, if_pos owner]
              rfl
          | confirmation =>
              obtain rfl := Option.some.inj taken
              exact .refl ..
  | disconnectCpu cpu =>
      simp only [step] at taken
      split at taken
      · obtain rfl := Option.some.inj taken
        exact frame_handleCpuDisconnection
      · cases taken
  | confirm cpu =>
      simp only [step] at taken
      split at taken
      · obtain rfl := Option.some.inj taken
        exact frame_waitConfirmationThreadAndHandleState
      · cases taken
  | wake =>
      simp only [step] at taken
      split at taken
      · obtain rfl := Option.some.inj taken
        exact .refl ..
      · cases taken
  | schedule =>
      simp only [step] at taken
      split at taken
      · obtain rfl := Option.some.inj taken
        exact frame_shortTermTurn
      · cases taken
  | quantum pid =>
      simp only [step] at taken
      split at taken
      · obtain rfl := Option.some.inj taken
        exact .of_eq (suspensions_evictProcess _ _)
      · cases taken
  | suspend => exact absurd rfl noSuspend
  | connectIo io ioType =>
      simp only [step] at taken
      split at taken
      · obtain rfl := Option.some.inj taken
        exact .of_eq (suspensions_handleNextOperation io ioType)
      · cases taken
  | handleIo io value =>
      cases queue : (s.io io).requests with
      | nil => simp [step, queue] at taken
      | cons request rest =>
          simp only [step, queue, Option.some.injEq] at taken
          subst taken
          refine frame_handleIo (s := s.setIo io fun d => { d with requests := rest }) ?_
          intro other
          have same : ((s.setIo io fun d => { d with requests := rest }).io io).ioType =
              (s.io io).ioType := by simp [State.setIo]
          rw [same] at other
          simp only [State.woken]
          cases ioType : (s.io io).ioType with
          | stdin => exact absurd ioType other
          | sleep | stdout => simp [queue]
  | disconnectIo io =>
      simp only [step] at taken
      split at taken
      · obtain rfl := Option.some.inj taken
        exact .refl ..
      · cases taken
  | written pid =>
      simp only [step] at taken
      split at taken
      · obtain rfl := Option.some.inj taken
        exact (frame_setProcess (s := { s with writeThreads := s.writeThreads.erase pid })
          (.inl rfl)).trans frame_finishBlock
      · cases taken
  | memory st => exact absurd rfl (own st)
  | handleMemory => exact absurd rfl noMessage
  | compaction i st => exact frame_stepCompaction taken

end Handlers

end OsModel.KernelScheduler
