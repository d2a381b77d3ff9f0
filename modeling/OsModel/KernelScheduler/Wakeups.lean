import OsModel.KernelScheduler.ReadyQueues

/-!
No wake-up of the short-term scheduler is lost.

What the short-term scheduler would do something about is a process that is `READY` and a
CPU that is free for it. A handler after which there is more of either signals
`short_term_scheduler_sem`, or else leaves both as they are (`Calm`). Two signals come later:
`STDOUT` frees a CPU and signals when Kernel Memory has answered, and a compaction frees
CPUs and signals at its end.

* `step_tended`: what a handler does.
* `step_shut`: while a compaction is under way, nothing is scheduled.
-/

namespace OsModel.KernelScheduler

open Lib

section Handlers

variable {ι : Type} {config : Config} {s t u : State ι} {pid : UInt32} {hand : Option UInt32}

/-! ### What the short-term scheduler looks at -/

/-- A CPU that a process can be sent to. -/
def State.Free (s : State ι) (cpu : ι) : Prop :=
  cpu ∈ s.listCpu ∧ (s.cpu cpu).isAvailable = true ∧ (s.cpu cpu).isEvicting = false

/-- The bytes that a process writes to `STDOUT` have been asked for. -/
def Memory.Reading (m : Memory) : Prop :=
  (∃ pid physicalAddress size, .ioMemoryRead pid physicalAddress size ∈ m.toMemory) ∨
    ∃ pid value, .ioMemoryRead pid value ∈ m.fromMemory

/-- A compaction thread that has begun to evict. -/
def Compaction.Begun : Compaction ι → Prop
  | .requested _ => False
  | .evicting .. | .ready => True

/-- A compaction is under way. -/
def State.Compacting (s : State ι) : Prop := ∃ compaction ∈ s.compactions, compaction.Begun

/-- The CPU is marked as being evicted, and nobody waits for it. -/
def Cpu.Stuck (c : Cpu) : Prop := c.isEvicting = true ∧ c.evictor = none

/-- From `s` to `t` the compactions neither begin nor end, and no eviction is given up. -/
structure Gate (s t : State ι) : Prop where
  canSchedule : t.canSchedule = s.canSchedule
  compacting : t.Compacting ↔ s.Compacting
  stuck : ∀ cpu, (t.cpu cpu).Stuck → (s.cpu cpu).Stuck

namespace Gate

theorem refl (s : State ι) : Gate s s := ⟨rfl, .rfl, fun _ => id⟩

theorem trans (first : Gate s t) (second : Gate t u) : Gate s u where
  canSchedule := second.canSchedule.trans first.canSchedule
  compacting := second.compacting.trans first.compacting
  stuck cpu := first.stuck cpu ∘ second.stuck cpu

theorem of_eq (canSchedule : t.canSchedule = s.canSchedule)
    (compactions : t.compactions = s.compactions) (cpu : t.cpu = s.cpu) : Gate s t := by
  refine ⟨canSchedule, ?_, ?_⟩
  · unfold State.Compacting
    rw [compactions]
  · rw [cpu]
    exact fun _ => id

theorem setCpu [DecidableEq ι] (cpu : ι) (f : Cpu → Cpu)
    (stuck : (f (s.cpu cpu)).Stuck → (s.cpu cpu).Stuck) : Gate s (s.setCpu cpu f) := by
  refine ⟨rfl, .rfl, fun other => ?_⟩
  by_cases eq : other = cpu
  · subst eq
    rw [setCpu_self]
    exact stuck
  · rw [setCpu_of_ne s eq]
    exact id

end Gate

theorem gate_makeAvailable [DecidableEq ι] {cpu : ι} : Gate s (makeAvailable s cpu) :=
  .setCpu cpu _ id

/-- From `s` to `t` no process becomes `READY` or `EXEC`, no eviction ends and no signal is
lost. The process in `hand` may get another priority. -/
structure Still (hand : Option UInt32) (s t : State ι) : Prop where
  gate : Gate s t
  sem : s.shortTermSchedulerSem ≤ t.shortTermSchedulerSem
  inRound : s.inRound = true → t.inRound = true
  ready : ∀ pid, (t.process pid).state = .ready → (s.process pid).state = .ready
  exec : ∀ pid, (t.process pid).state = .exec → (s.process pid).state = .exec
  rank : ∀ pid, hand ≠ some pid →
    (t.process pid).state = .ready ∨ (t.process pid).state = .exec →
    (t.process pid).effectivePriority = (s.process pid).effectivePriority
  evicted : ∀ cpu ∈ s.listCpu, (s.cpu cpu).evictor ≠ none →
    cpu ∈ t.listCpu ∧ (t.cpu cpu).evictor ≠ none

/-- Besides, no CPU becomes free, and the answers that are to come are still to come. -/
structure Calm (hand : Option UInt32) (s t : State ι) : Prop extends Still hand s t where
  free : ∀ cpu, t.Free cpu → s.Free cpu
  reading : s.memory.Reading → t.memory.Reading

/-- What `Calm` reads. -/
def State.work (s : State ι) :=
  (s.shortTermSchedulerSem, s.inRound, s.canSchedule, s.process, s.cpu, s.listCpu, s.memory,
    s.compactions)

theorem Still.trans (first : Still hand s t) (second : Still hand t u) : Still hand s u where
  gate := first.gate.trans second.gate
  sem := first.sem.trans second.sem
  inRound := second.inRound ∘ first.inRound
  ready pid := first.ready pid ∘ second.ready pid
  exec pid := first.exec pid ∘ second.exec pid
  rank pid other now := by
    rw [second.rank pid other now]
    exact first.rank pid other (now.imp (second.ready pid) (second.exec pid))
  evicted cpu listed waits := by
    obtain ⟨listed, waits⟩ := first.evicted cpu listed waits
    exact second.evicted cpu listed waits

namespace Calm

theorem refl (s : State ι) : Calm hand s s where
  gate := .refl s
  sem := le_refl _
  inRound := id
  ready _ := id
  exec _ := id
  rank _ _ _ := rfl
  evicted _ listed waits := ⟨listed, waits⟩
  free _ := id
  reading := id

theorem trans (first : Calm hand s t) (second : Calm hand t u) : Calm hand s u where
  toStill := first.toStill.trans second.toStill
  free cpu := first.free cpu ∘ second.free cpu
  reading := second.reading ∘ first.reading

theorem of_work (same : t.work = s.work) : Calm hand s t := by
  simp only [State.work, Prod.mk.injEq] at same
  obtain ⟨sem, inRound, canSchedule, process, cpu, listCpu, memory, compactions⟩ := same
  constructor
  · constructor
    · exact .of_eq canSchedule compactions cpu
    · exact sem.ge
    · rw [inRound]
      exact id
    · rw [process]
      exact fun _ => id
    · rw [process]
      exact fun _ => id
    · rw [process]
      exact fun _ _ _ => rfl
    · rw [cpu, listCpu]
      exact fun _ => And.intro
  · unfold State.Free
    rw [cpu, listCpu]
    exact fun _ => id
  · rw [memory]
    exact id

/-- A record is written, and the process does not become `READY` or `EXEC`. -/
theorem setProcess (f : Process ι → Process ι)
    (keeps : (f (s.process pid)).state = .ready ∨ (f (s.process pid)).state = .exec →
      (f (s.process pid)).state = (s.process pid).state ∧ (hand ≠ some pid →
        (f (s.process pid)).effectivePriority = (s.process pid).effectivePriority)) :
    Calm hand s (s.setProcess pid f) := by
  have state : ∀ other state, state = .ready ∨ state = .exec →
      ((s.setProcess pid f).process other).state = state → (s.process other).state = state := by
    intro other state either now
    by_cases eq : other = pid
    · subst eq
      rw [setProcess_self] at now
      rw [← now] at either
      rw [← (keeps either).1]
      exact now
    · rwa [setProcess_of_ne s eq] at now
  refine { (refl s : Calm hand s s) with
    gate := .of_eq rfl rfl rfl, ready := ?_, exec := ?_, rank := ?_ }
  · exact fun other => state other _ (.inl rfl)
  · exact fun other => state other _ (.inr rfl)
  · intro other free now
    by_cases eq : other = pid
    · subst eq
      rw [setProcess_self] at now ⊢
      exact (keeps now).2 free
    · rw [setProcess_of_ne s eq]

/-- Neither the state nor the priority is written. -/
theorem note (f : Process ι → Process ι)
    (state : (f (s.process pid)).state = (s.process pid).state)
    (rank : (f (s.process pid)).effectivePriority = (s.process pid).effectivePriority) :
    Calm hand s (s.setProcess pid f) :=
  setProcess f fun _ => ⟨state, fun _ => rank⟩

/-- A process is now neither `READY` nor `EXEC`. -/
theorem stop (f : Process ι → Process ι) (unready : (f (s.process pid)).state ≠ .ready)
    (stopped : (f (s.process pid)).state ≠ .exec) : Calm hand s (s.setProcess pid f) :=
  setProcess f fun either => (either.elim unready stopped).elim

/-- A message to Kernel Memory. -/
theorem sendMemory (s : State ι) (message : ToMemory) : Calm hand s (s.sendMemory message) := by
  refine { (refl s : Calm hand s s) with
    gate := .of_eq rfl rfl rfl, reading := fun reading => ?_ }
  rcases reading with ⟨pid, physicalAddress, size, asked⟩ | answered
  · exact .inl ⟨pid, physicalAddress, size, List.mem_append_left _ asked⟩
  · exact .inr answered

/-- Something happens to a CPU, which does not become free, and of which no eviction ends. -/
theorem setCpu [DecidableEq ι] (cpu : ι) (f : Cpu → Cpu)
    (keeps : (f (s.cpu cpu)).isAvailable = true ∧ (f (s.cpu cpu)).isEvicting = false →
      (s.cpu cpu).isAvailable = true ∧ (s.cpu cpu).isEvicting = false)
    (flags : (f (s.cpu cpu)).isEvicting = (s.cpu cpu).isEvicting ∧
      (f (s.cpu cpu)).evictor = (s.cpu cpu).evictor ∨ (f (s.cpu cpu)).evictor ≠ none) :
    Calm hand s (s.setCpu cpu f) := by
  have gate : Gate s (s.setCpu cpu f) := by
    refine .setCpu cpu f ?_
    rintro ⟨evicting, nobody⟩
    rcases flags with ⟨same, evictor⟩ | waits
    · exact ⟨same ▸ evicting, evictor ▸ nobody⟩
    · exact absurd nobody waits
  refine { (refl s : Calm hand s s) with gate, evicted := ?_, free := ?_ }
  · intro other listed waits
    refine ⟨listed, ?_⟩
    by_cases eq : other = cpu
    · subst eq
      rw [setCpu_self]
      rcases flags with ⟨-, evictor⟩ | waits
      · rwa [evictor]
      · exact waits
    · rwa [setCpu_of_ne s eq]
  · rintro other ⟨listed, free⟩
    refine ⟨listed, ?_⟩
    by_cases eq : other = cpu
    · subst eq
      rw [setCpu_self] at free
      exact keeps free
    · rwa [setCpu_of_ne s eq] at free

end Calm

/-- After a handler the short-term scheduler is signalled, or has no more to do, or will be
signalled when an answer comes. -/
inductive Tended (hand : Option UInt32) (s t : State ι) : Prop where
  | signals (signalled : 0 < t.shortTermSchedulerSem) (gate : Gate s t)
  | calm (calm : Calm hand s t)
  | reads (still : Still hand s t) (reading : t.memory.Reading)

namespace Tended

theorem gate (tended : Tended hand s t) : Gate s t := by
  cases tended with
  | signals signalled gate => exact gate
  | calm calm => exact calm.gate
  | reads still reading => exact still.gate

theorem refl (s : State ι) : Tended hand s s := .calm (.refl s)

theorem of_work (same : t.work = s.work) : Tended hand s t := .calm (.of_work same)

theorem post (gate : Gate s t) : Tended hand s t.postShortTerm :=
  .signals (Nat.succ_pos _) (gate.trans (.of_eq rfl rfl rfl))

theorem after (calm : Calm hand s t) (tended : Tended hand t u) : Tended hand s u := by
  cases tended with
  | signals signalled gate => exact .signals signalled (calm.gate.trans gate)
  | calm calm' => exact .calm (calm.trans calm')
  | reads still reading => exact .reads (calm.toStill.trans still) reading

theorem followed (tended : Tended hand s t) (calm : Calm hand t u) : Tended hand s u := by
  cases tended with
  | signals signalled gate =>
      exact .signals (Nat.lt_of_lt_of_le signalled calm.sem) (gate.trans calm.gate)
  | calm calm' => exact .calm (calm'.trans calm)
  | reads still reading => exact .reads (still.trans calm.toStill) (calm.reading reading)

end Tended

/-! ### The managers -/

/-- A process gets another priority. -/
theorem calm_requeueWithPriority (newPriority : UInt8) :
    Calm (some pid) s (requeueWithPriority config s pid newPriority) := by
  have written : ∀ s : State ι, Calm (some pid) s (processSetPriority s pid newPriority) := by
    intro s
    exact Calm.setProcess (s := s) _ fun _ => ⟨rfl, fun other => absurd rfl other⟩
  unfold requeueWithPriority
  split
  · have queued : Calm (some pid) s (removeProcessFromReadyQueue config s pid) := .of_work rfl
    exact (queued.trans (written _)).trans (.of_work rfl)
  · exact written s

theorem calm_restorePriority : Calm (some pid) s (restorePriority config s pid) := by
  unfold restorePriority
  dsimp only
  split
  · exact calm_requeueWithPriority _
  · exact .refl s

/-- A process whose wait is over does not become `READY`, if it is not so afterwards. -/
theorem calm_finishBlock
    (unready : ((finishBlock config s pid).process pid).state ≠ .ready) :
    Calm hand s (finishBlock config s pid) := by
  unfold finishBlock at unready ⊢
  dsimp only at unready ⊢
  split
  · rename_i ready
    rw [if_pos ready] at unready
    exact absurd ready unready
  · rename_i other
    have suspended : (s.process pid).state = .suspBlock := by
      by_contra resident
      simp [processSetReady, resident] at other
    have woken : Calm hand s (processSetReady s pid) := by
      refine Calm.stop (fun p => { p with state := _ }) ?_ ?_
      · simp [suspended]
      · simp [suspended]
    exact woken.trans (.of_work rfl)

theorem gate_finishBlock : Gate s (finishBlock config s pid) := by
  unfold finishBlock
  dsimp only
  split <;> exact .of_eq rfl rfl rfl

theorem tended_handOver (name : String) : Tended hand s (handOver config s name) := by
  unfold handOver
  split
  · exact .of_work rfl
  · rename_i next rest waiting
    have given : Calm hand s ((s.setMutex name fun _ => ⟨true, some next, rest⟩).setProcess next
        fun p => { p with ownedMutexes := p.ownedMutexes ++ [name] }) :=
      Calm.trans (t := s.setMutex name fun _ => ⟨true, some next, rest⟩) (.of_work rfl)
        (Calm.note _ rfl rfl)
    dsimp only
    split
    · exact .post (given.gate.trans gate_finishBlock)
    · rename_i unready
      exact .calm (given.trans (calm_finishBlock unready))

/-- A request to a device is always followed by a signal. -/
theorem tended_requestIo (gate : Gate s t) (ioType : IoType) (request : IoRequest) :
    Tended hand s (requestIo t ioType request) := by
  unfold requestIo
  refine .post (gate.trans ?_)
  split <;> exact .of_eq rfl rfl rfl

theorem calm_handleNextOperation (io : Nat) (ioType : IoType) :
    Calm hand s (handleNextOperation s io ioType) := by
  unfold handleNextOperation
  split
  · exact .refl s
  · exact .of_work rfl

theorem tended_ioFinishProcess (io : Nat) : Tended hand s (ioFinishProcess config s pid io) := by
  unfold ioFinishProcess
  split
  · exact .post (gate_finishBlock.trans (.of_eq rfl rfl rfl))
  · exact .refl s

theorem tended_waitMemoryWriteConfirmation :
    Tended hand s (waitMemoryWriteConfirmation config s pid) :=
  .post (Gate.trans (t := s.setProcess pid _) (.of_eq rfl rfl rfl) gate_finishBlock)

theorem tended_stdoutWaitMemoryRead (gate : Gate s t) (value : String) :
    Tended hand s (stdoutWaitMemoryRead t pid value) := by
  unfold stdoutWaitMemoryRead
  dsimp only
  split
  · have ended : Gate t ((processSetState t pid .exit).sendMemory (.processEnd pid)) :=
      .of_eq rfl rfl rfl
    exact tended_requestIo (gate.trans ended) _ _
  · exact tended_requestIo gate _ _

theorem calm_requestSegment (message : ToMemory) : Calm hand s (requestSegment s pid message) :=
  (Calm.note (fun p => { p with pendingMemorySyscall := true }) rfl rfl).trans
    (.sendMemory _ message)

theorem calm_memAllocSyscallManager (segmentId segmentSize : UInt32) :
    Calm hand s (memAllocSyscallManager s pid segmentId segmentSize) := by
  unfold memAllocSyscallManager
  split
  · exact calm_requestSegment _
  · exact .refl s

theorem calm_memFreeSyscallManager (segmentId : UInt32) :
    Calm hand s (memFreeSyscallManager s pid segmentId) := by
  unfold memFreeSyscallManager
  split
  · exact calm_requestSegment _
  · exact .refl s

theorem calm_handleIoMemoryWrite (writeSuccesful : Bool) :
    Calm hand s (handleIoMemoryWrite s pid writeSuccesful) := by
  unfold handleIoMemoryWrite
  split
  · exact Calm.note _ rfl rfl
  · exact (Calm.stop (fun p => { p with state := .exit }) (by simp) (by simp)).trans
      (.sendMemory _ _)

/-! ### The schedulers -/

theorem calm_longTermScheduler {path : String} {priority : UInt8}
    (created : longTermScheduler s path priority = some t) : Calm hand s t := by
  unfold longTermScheduler at created
  dsimp only at created
  split at created
  · cases created
  · obtain rfl := Option.some.inj created
    have entered : Calm hand s ((s.setProcess s.currentMaxPid fun _ => createProcess priority).sendMemory
        (.processCreate s.currentMaxPid path)) :=
      (Calm.stop _ (by simp [createProcess]) (by simp [createProcess])).trans (.sendMemory _ _)
    exact entered.trans (.of_work rfl)

theorem tended_waitProcessCreateConfirmation :
    Tended hand s (waitProcessCreateConfirmation config s pid) := by
  unfold waitProcessCreateConfirmation
  split
  · exact .post (.of_eq rfl rfl rfl)
  · exact .refl s

theorem calm_suspensionScan (pids : List UInt32) (s : State ι) :
    Calm hand s (suspensionScan config pids s).2.2 := by
  induction pids generalizing s with
  | nil => exact .refl s
  | cons pid rest ih =>
      unfold suspensionScan
      split
      · have suspended : Calm hand s (processSetState s pid .suspBlock) :=
          Calm.stop _ (by simp) (by simp)
        exact suspended.trans (ih _)
      · exact ih s

theorem calm_sendMemory_foldl (pids : List UInt32) (s : State ι) (f : UInt32 → ToMemory) :
    Calm hand s (pids.foldl (fun s pid => s.sendMemory (f pid)) s) := by
  induction pids generalizing s with
  | nil => exact .refl s
  | cons pid rest ih => exact (Calm.sendMemory s _).trans (ih _)

theorem calm_suspensionManager : Calm hand s (suspensionManager config s) := by
  unfold suspensionManager
  split
  · have scanned : Calm hand s { (suspensionScan config s.blockProcesses s).2.2 with
        blockProcesses := (suspensionScan config s.blockProcesses s).1 } :=
      (calm_suspensionScan s.blockProcesses s).trans (.of_work rfl)
    exact scanned.trans (calm_sendMemory_foldl _ _ _)
  · exact .refl s

theorem tended_waitConfirmationSwapOut (ok : Bool) :
    Tended hand s (waitConfirmationSwapOut config s pid ok) := by
  unfold waitConfirmationSwapOut
  split
  · split
    · exact .post (.of_eq rfl rfl rfl)
    · have blocked : Calm hand s (s.setProcess pid fun p =>
          { p with state := .block, startBlockTime := s.now }) :=
        Calm.stop _ (by simp) (by simp)
      exact .calm (blocked.trans (.of_work rfl))
    · exact .of_work rfl
    · exact .of_work rfl
    · exact .refl s
  · exact .refl s

theorem calm_requestSwapIn : Calm hand s (requestSwapIn s) := by
  unfold requestSwapIn
  dsimp only
  split
  · exact .refl s
  · exact .sendMemory s _

/-- A process that is not `SUSP_READY` does not become `READY` when it is swapped in. -/
theorem calm_swappedIn (config : Config)
    (unready : ¬(pid ∈ s.listProcesses ∧ (s.process pid).state = .suspReady)) :
    Calm hand s (swappedIn config s pid) ∧ (swappedIn config s pid).listProcesses = s.listProcesses ∧
      ∀ other, ((swappedIn config s pid).process other).state = .suspReady →
        (s.process other).state = .suspReady := by
  unfold swappedIn
  split
  · rename_i known
    dsimp only
    split
    · rename_i ready
      exact absurd ⟨known, ready⟩ unready
    · have blocked : Calm hand s (s.setProcess pid fun p =>
          { p with state := .block, startBlockTime := s.now }) :=
        Calm.stop _ (by simp) (by simp)
      refine ⟨blocked.trans (.of_work rfl), rfl, fun other ready => ?_⟩
      by_cases eq : other = pid
      · subst eq
        simp [State.setProcess] at ready
      · simpa [State.setProcess, Function.update_of_ne eq] using ready
    · exact ⟨.of_work rfl, rfl, fun _ => id⟩
  · exact ⟨.refl s, rfl, fun _ => id⟩

theorem gate_swappedIn_foldl (pids : List UInt32) (s : State ι) :
    Gate s (pids.foldl (swappedIn config) s) := by
  induction pids generalizing s with
  | nil => exact .refl s
  | cons pid rest ih =>
      have swapped : Gate s (swappedIn config s pid) := by
        unfold swappedIn
        split
        · dsimp only
          split <;> exact .of_eq rfl rfl rfl
        · exact .refl s
      exact swapped.trans (ih _)

theorem calm_swappedIn_foldl (pids : List UInt32) (s : State ι)
    (unready : ∀ pid ∈ pids, ¬(pid ∈ s.listProcesses ∧ (s.process pid).state = .suspReady)) :
    Calm hand s (pids.foldl (swappedIn config) s) := by
  induction pids generalizing s with
  | nil => exact .refl s
  | cons pid rest ih =>
      obtain ⟨calm, known, states⟩ := calm_swappedIn config
        (unready pid List.mem_cons_self)
      refine calm.trans (ih _ fun other mem both => ?_)
      rw [known] at both
      exact unready other (List.mem_cons_of_mem _ mem) ⟨both.1, states other both.2⟩

theorem tended_waitConfirmationSwapIn (pids : List UInt32) :
    Tended hand s (waitConfirmationSwapIn config s pids) := by
  unfold waitConfirmationSwapIn
  dsimp only
  split
  · exact .post (gate_swappedIn_foldl pids s)
  · rename_i none
    refine .calm (calm_swappedIn_foldl pids s fun pid mem both => none ?_)
    exact List.any_eq_true.mpr ⟨pid, mem, decide_eq_true both⟩

variable [DecidableEq ι] {cpu : ι}

/-! ### Orders to the CPUs -/

theorem calm_sendPidToExecute (cpu : Option ι) : Calm hand s (sendPidToExecute s pid cpu) := by
  cases cpu with
  | none => exact .refl s
  | some cpu =>
      simp only [sendPidToExecute]
      split
      · exact .refl s
      · split
        · exact Calm.setCpu cpu _ id (.inl ⟨rfl, rfl⟩)
        · exact .refl s

theorem calm_sendProcessEvict {reason : InterruptReason} {evictor : Evictor} {cpu : Option ι}
    (sent : sendProcessEvict s reason evictor cpu = some t) : Calm hand s t := by
  obtain ⟨cpu, -, -, -, rfl⟩ := sendProcessEvict_some sent
  exact Calm.setCpu cpu _ (by simp) (.inr (by simp))

theorem calm_evictProcess (cpu : Option ι) (reason : InterruptReason) :
    Calm hand s (evictProcess s cpu reason) := by
  unfold evictProcess
  cases sent : sendProcessEvict s reason .handleState cpu with
  | none => exact .refl s
  | some s' => exact calm_sendProcessEvict sent

theorem calm_preempt : Calm hand s (preempt config s pid) := by
  unfold preempt
  split
  · split
    · exact .refl s
    · split
      · exact calm_evictProcess _ _
      · exact .refl s
  · exact .refl s

omit [DecidableEq ι] in
theorem gate_inheritPriority (owner : Option UInt32) :
    Gate s (inheritPriority config s pid owner) := by
  unfold inheritPriority
  split
  · exact .refl s
  · split
    · exact (calm_requeueWithPriority _).gate
    · exact .refl s

theorem tended_mutexLock (name : String) : Tended hand s (mutexLock config s name pid) := by
  unfold mutexLock
  dsimp only
  split
  · have taken : Calm hand s ((s.setMutex name fun m =>
        { m with isLocked := true, lockedBy := some pid }).setProcess pid fun p =>
          { p with ownedMutexes := p.ownedMutexes ++ [name] }) :=
      Calm.trans (t := s.setMutex name fun m => { m with isLocked := true, lockedBy := some pid })
        (.of_work rfl) (Calm.note _ rfl rfl)
    exact .calm (taken.trans (calm_sendPidToExecute _))
  · split
    · exact .calm (calm_sendPidToExecute _)
    · have waits : Gate s (blockProcess (s.setMutex name fun m =>
          { m with waitingProcesses := m.waitingProcesses ++ [pid] }) pid) := .of_eq rfl rfl rfl
      have inherits := waits.trans (@gate_inheritPriority _ config _ pid (s.mutex name).lockedBy)
      split
      · exact .post inherits
      · exact .post (inherits.trans gate_makeAvailable)

theorem tended_mutexUnlock (name : String) :
    Tended (some pid) s (mutexUnlock config s name pid) := by
  unfold mutexUnlock
  split
  · have released : Calm (some pid) s
        ((sendPidToExecute s pid (s.process pid).cpu).setProcess pid fun p =>
          { p with ownedMutexes := p.ownedMutexes.erase name }) :=
      (calm_sendPidToExecute _).trans (Calm.note _ rfl rfl)
    exact .after (released.trans calm_restorePriority) (tended_handOver name)
  · exact .refl s

theorem tended_terminateProcess : Tended hand s (terminateProcess config s pid cpu) := by
  have ended : Gate s (removeProcessFromReadyQueue config
      (removeFromExec (s.setProcess pid fun p => { p with state := .exit, cpu := none }) pid)
      pid) := .of_eq rfl rfl rfl
  have freed := ended.trans (.setCpu cpu
    (fun c => { c with isAvailable := c.isAvailable || !c.isEvicting }) id)
  exact .post (freed.trans (.of_eq rfl rfl rfl))

theorem tended_endProcess : Tended hand s (endProcess s pid cpu) := by
  unfold endProcess
  dsimp only
  split
  · have ended : Gate s (removeFromExec (s.setProcess pid fun p =>
        { p with state := .exit, cpu := none }) pid) := .of_eq rfl rfl rfl
    exact .post ((ended.trans gate_makeAvailable).trans (.of_eq rfl rfl rfl))
  · exact .post (Gate.trans gate_makeAvailable (.of_eq rfl rfl rfl))

theorem tended_unknownMutex : Tended hand s (unknownMutex s pid cpu) :=
  .post (Gate.trans gate_makeAvailable (.of_eq rfl rfl rfl))

theorem tended_handleSegmentResult (result : SegmentResult) :
    Tended hand s (handleSegmentResult config s pid result) := by
  have settled : Calm hand s (s.setProcess pid fun p => { p with pendingMemorySyscall := false }) :=
    Calm.note _ rfl rfl
  unfold handleSegmentResult
  split
  · dsimp only
    split
    · split
      · split
        · exact .post (.of_eq rfl rfl rfl)
        · exact .calm settled
      · exact .post (.of_eq rfl rfl rfl)
    · split
      · exact .calm (settled.trans (calm_sendPidToExecute _))
      · exact .after settled tended_terminateProcess
  · exact .refl s

omit [DecidableEq ι] in
theorem calm_blockProcess : Calm hand s (blockProcess s pid) := by
  have stopped : Calm hand (removeFromExec s pid)
      ((removeFromExec s pid).setProcess pid fun p =>
        { p with state := .block, cpu := none, startBlockTime := s.now }) :=
    Calm.stop _ (by simp) (by simp)
  have left : Calm hand s (removeFromExec s pid) := .of_work rfl
  exact (left.trans stopped).trans (.of_work rfl)

/-- A CPU becomes free. -/
theorem still_makeAvailable : Still hand s (makeAvailable s cpu) := by
  have calm : Calm hand s s := .refl s
  refine { calm.toStill with gate := gate_makeAvailable, evicted := fun other listed waits => ?_ }
  refine ⟨listed, ?_⟩
  by_cases eq : other = cpu
  · subst eq
    simpa [makeAvailable, State.setCpu] using waits
  · simpa [makeAvailable, State.setCpu, eq] using waits

/-- The process whose priority a syscall may lower. -/
def Syscall.ranks (pid : UInt32) : Syscall → Option UInt32
  | .mutexUnlock _ => some pid
  | _ => none

/-- What a syscall leads to; `STDOUT` frees a CPU before it signals. -/
theorem tended_handleSyscall (syscall : Syscall) :
    Tended (syscall.ranks pid) s (handleSyscall config s cpu pid syscall) := by
  cases syscall with
  | processEnd | segmentationFault => exact tended_endProcess
  | mutexCreate name =>
      have created : Calm none s (mutexCreate s name) := by
        unfold mutexCreate
        split
        · exact .refl s
        · exact .of_work rfl
      have sent : Calm none (mutexCreate s name)
          (sendPidToExecute (mutexCreate s name) pid (some cpu)) := calm_sendPidToExecute _
      exact .calm (created.trans sent)
  | mutexLock name =>
      simp only [handleSyscall]
      split
      · split
        · exact tended_mutexLock _
        · exact tended_unknownMutex
      · exact .refl s
  | mutexUnlock name =>
      simp only [handleSyscall]
      split
      · split
        · exact tended_mutexUnlock _
        · exact tended_unknownMutex
      · exact .refl s
  | sleep sleepTime =>
      simp only [handleSyscall]
      split
      · have blocked : Calm none s (blockProcess s pid) := calm_blockProcess
        have freed := blocked.gate.trans (@gate_makeAvailable _ _ _ cpu)
        exact tended_requestIo freed _ _
      · exact .refl s
  | stdin physicalAddress toRead =>
      simp only [handleSyscall]
      split
      · unfold stdinSyscallManager
        split
        · have ended : Calm none s (processSetState (removeFromExec s pid) pid .exit) :=
            Calm.trans (t := removeFromExec s pid) (.of_work rfl)
              (Calm.stop _ (by simp) (by simp))
          exact .calm (ended.trans (.sendMemory _ _))
        · have blocked : Calm none s (blockProcess s pid) := calm_blockProcess
          have freed := blocked.gate.trans (@gate_makeAvailable _ _ _ cpu)
          have noted : Gate s { makeAvailable (blockProcess s pid) cpu with
              pendingIoStdinReading :=
                s.pendingIoStdinReading ++ [⟨pid, physicalAddress, toRead⟩] } :=
            freed.trans (.of_eq rfl rfl rfl)
          exact tended_requestIo noted _ _
      · exact .refl s
  | stdout physicalAddress toRead =>
      simp only [handleSyscall]
      split
      · have blocked : Calm none s (blockProcess s pid) := calm_blockProcess
        have freed : Still none s (makeAvailable (blockProcess s pid) cpu) :=
          blocked.toStill.trans still_makeAvailable
        refine .reads (freed.trans (Calm.sendMemory _ _).toStill) (.inl ?_)
        exact ⟨pid, physicalAddress, toRead, List.mem_append_right _ List.mem_cons_self⟩
      · exact .refl s
  | memAlloc segmentId segmentSize => exact .calm (calm_memAllocSyscallManager _ _)
  | memFree segmentId => exact .calm (calm_memFreeSyscallManager _)

omit [DecidableEq ι] in
theorem tended_handleIo (io : Nat) (request : IoRequest) (value : String) :
    Tended hand s (handleIo config s io request value) := by
  unfold handleIo
  dsimp only
  split
  · exact (tended_ioFinishProcess io).followed (calm_handleNextOperation io _)
  · exact (tended_ioFinishProcess io).followed (calm_handleNextOperation io _)
  · split
    · exact .refl s
    · rename_i pending _
      have asked : Calm hand s (({ s with
          pendingIoStdinReading := s.pendingIoStdinReading.erase pending
          writeThreads := s.writeThreads ++ [request.pid] }.sendMemory
            (.ioMemoryWrite request.pid pending.physicalAddress pending.size value)).setIo io
              fun d => { d with isAvailable := true }) :=
        (Calm.trans (.of_work rfl) (.sendMemory _ _)).trans (.of_work rfl)
      exact .calm (asked.trans (calm_handleNextOperation io _))

theorem calm_evictAllProcesses (reason : InterruptReason) (pids : List UInt32) (s : State ι) :
    Calm hand s (evictAllProcesses reason pids s).2 :=
  evictAllProcesses_rule (R := fun s t : State ι => Calm hand s t) .refl
    (fun sent rest => (calm_sendProcessEvict sent).trans rest) pids s

theorem tended_handleMemory {message : FromMemory} {rest : List FromMemory}
    (next : s.memory.fromMemory = message :: rest) :
    Tended hand s (handleMemory config { s with memory.fromMemory := rest } message) := by
  have read : (∀ pid value, message ≠ .ioMemoryRead pid value) →
      Calm hand s { s with memory.fromMemory := rest } := by
    intro other
    have calm : Calm hand s s := .refl s
    refine { calm with gate := .of_eq rfl rfl rfl, reading := fun reading => ?_ }
    rcases reading with asked | ⟨pid, value, answered⟩
    · exact .inl asked
    · rw [next] at answered
      rcases List.mem_cons.mp answered with eq | later
      · exact absurd eq.symm (other pid value)
      · exact .inr ⟨pid, value, later⟩
  cases message with
  | processCreate pid => exact .after (read (by simp)) tended_waitProcessCreateConfirmation
  | segmentResult pid segmentId result =>
      exact .after (read (by simp)) (tended_handleSegmentResult result)
  | ioMemoryRead pid value =>
      have read : Gate s { s with memory.fromMemory := rest } := .of_eq rfl rfl rfl
      exact tended_stdoutWaitMemoryRead read value
  | ioMemoryWrite pid writeSuccesful =>
      exact .after (read (by simp)) (.calm (calm_handleIoMemoryWrite writeSuccesful))
  | swapOut pid ok => exact .after (read (by simp)) (tended_waitConfirmationSwapOut ok)
  | swapIn pids => exact .after (read (by simp)) (tended_waitConfirmationSwapIn pids)
  | memoryUpdate newSize => exact .after (read (by simp)) (.calm calm_requestSwapIn)
  | compactionRequest | corruptedMemory =>
      refine .after (read (by simp)) (.calm ?_)
      have calm : Calm hand { s with memory.fromMemory := rest } { s with memory.fromMemory := rest } :=
        .refl _
      refine { calm with gate := ⟨rfl, ⟨?_, ?_⟩, fun _ => id⟩ }
      · rintro ⟨compaction, mem, begun⟩
        rcases List.mem_append.mp mem with mem | mem
        · exact ⟨compaction, mem, begun⟩
        · rw [List.mem_singleton.mp mem] at begun
          cases begun
      · rintro ⟨compaction, mem, begun⟩
        exact ⟨compaction, List.mem_append_left _ mem, begun⟩
  | compactionFinished => exact .after (read (by simp)) (.calm (.of_work rfl))

omit [DecidableEq ι] in
/-- What Kernel Memory has sent stays sent. -/
theorem Memory.serve_fromMemory {m m' : Memory} {message : ToMemory} {answer : Answer}
    (taken : m.serve message answer = some m') {sent : FromMemory} (mem : sent ∈ m.fromMemory) :
    sent ∈ m'.fromMemory := by
  cases message with
  | processCreate pid path =>
      cases answer with
      | ok ok =>
          obtain rfl := Option.some.inj taken
          cases ok with
          | true => exact List.mem_append_left _ mem
          | false => exact mem
      | result | value | desuspended => cases taken
  | processEnd | segmentCreate | compactionReady =>
      obtain rfl := Option.some.inj taken
      exact mem
  | segmentDelete pid segmentId =>
      cases answer with
      | result result =>
          obtain rfl := Option.some.inj taken
          exact List.mem_append_left _ mem
      | ok | value | desuspended => cases taken
  | ioMemoryRead pid physicalAddress size =>
      cases answer with
      | value value =>
          obtain rfl := Option.some.inj taken
          exact List.mem_append_left _ mem
      | ok | result | desuspended => cases taken
  | ioMemoryWrite | swapOut =>
      cases answer with
      | ok ok =>
          obtain rfl := Option.some.inj taken
          exact List.mem_append_left _ mem
      | result | value | desuspended => cases taken
  | swapIn pids =>
      cases answer with
      | desuspended oks =>
          obtain rfl := Option.some.inj taken
          exact List.mem_append_left _ mem
      | ok | result | value => cases taken

omit [DecidableEq ι] in
/-- A step of Kernel Memory answers what it reads. -/
theorem Memory.Reading.step {m m' : Memory} {st : MemoryStep} (reading : m.Reading)
    (taken : m.step st = some m') : m'.Reading := by
  have send : ∀ {m : Memory} (message : FromMemory), m.Reading → (m.send message).Reading := by
    intro m message reading
    rcases reading with asked | ⟨pid, value, answered⟩
    · exact .inl asked
    · exact .inr ⟨pid, value, List.mem_append_left _ answered⟩
  cases st with
  | serve answer =>
      simp only [Memory.step] at taken
      split at taken
      · cases taken
      · rename_i message rest next
        have kept : ({ m with toMemory := rest } : Memory).Reading → m'.Reading := by
          intro reading
          rcases reading with ⟨pid, physicalAddress, size, asked⟩ | ⟨pid, value, answered⟩
          · refine .inl ⟨pid, physicalAddress, size, ?_⟩
            rw [serve_toMemory taken]
            exact asked
          · exact .inr ⟨pid, value, serve_fromMemory taken answered⟩
        rcases reading with ⟨pid, physicalAddress, size, asked⟩ | answered
        · rw [next] at asked
          rcases List.mem_cons.mp asked with rfl | later
          · cases answer with
            | value value =>
                obtain rfl := Option.some.inj taken
                exact .inr ⟨pid, value, List.mem_append_right _ List.mem_cons_self⟩
            | ok | result | desuspended => cases taken
          · exact kept (.inl ⟨pid, physicalAddress, size, later⟩)
        · exact kept (.inr answered)
  | segmentCreated i result =>
      simp only [Memory.step] at taken
      split at taken
      · cases taken
      · obtain rfl := Option.some.inj taken
        exact send _ reading
  | memoryUpdate | corruptedMemory =>
      obtain rfl := Option.some.inj taken
      exact send _ reading
  | compactionRequest =>
      simp only [Memory.step] at taken
      split at taken
      · cases taken
      · obtain rfl := Option.some.inj taken
        exact send _ reading
  | compactionFinished =>
      simp only [Memory.step] at taken
      split at taken
      · obtain rfl := Option.some.inj taken
        exact send _ reading
      · cases taken

/-! ### Steps -/

/-- The process whose priority a step may lower. -/
def Action.ranks (s : State ι) : Action ι → Option UInt32
  | .handleCpu cpu =>
      match (s.cpu cpu).toScheduler with
      | .syscall pid syscall :: _ => syscall.ranks pid
      | _ => none
  | _ => none

/-- The step is neither one of the short-term scheduler nor one of a compaction. -/
def Action.Ordinary : Action ι → Prop
  | .wake | .schedule | .compaction .. => False
  | _ => True

/-- What a step does, if it is not one of the short-term scheduler or of a compaction. -/
theorem step_tended {a : Action ι} (staged : ∀ cpu, (s.cpu cpu).Staged)
    (taken : step config s a = some t) (ordinary : a.Ordinary) : Tended (a.ranks s) s t := by
  cases a with
  | wake | schedule | compaction => exact ordinary.elim
  | tick =>
      obtain rfl := Option.some.inj taken
      exact .of_work rfl
  | process0 path =>
      simp only [step] at taken
      split at taken
      · exact .calm (calm_longTermScheduler taken)
      · cases taken
  | connectCpu cpu =>
      simp only [step] at taken
      split at taken
      · obtain rfl := Option.some.inj taken
        have created : Gate s (s.setCpu cpu fun _ => .create) :=
          .setCpu cpu _ fun stuck => absurd stuck.1 (by simp [Cpu.create, Cpu.absent])
        exact .signals (Nat.succ_pos _) (created.trans (.of_eq rfl rfl rfl))
      · cases taken
  | cpu cpu st =>
      obtain ⟨c, stepped, rfl⟩ := Option.map_eq_some_iff.mp taken
      obtain ⟨-, same, -⟩ := (staged cpu).step stepped
      refine .calm (Calm.setCpu cpu _ ?_ (.inl ⟨?_, ?_⟩))
      · rw [same]
        exact id
      · rw [same]
      · rw [same]
  | handleCpu cpu =>
      simp only [step] at taken
      split at taken
      · cases taken
      · rename_i message rest next
        have read : ∀ hand, Calm hand s (s.setCpu cpu fun c => { c with toScheduler := rest }) :=
          fun hand => Calm.setCpu cpu _ id (.inl ⟨rfl, rfl⟩)
        cases message with
        | processCreate priority path =>
            exact .calm ((read _).trans (calm_longTermScheduler taken))
        | confirmation =>
            obtain rfl := Option.some.inj taken
            exact .calm ((read _).trans (Calm.setCpu cpu _ id (.inl ⟨rfl, rfl⟩)))
        | syscall pid syscall =>
            obtain rfl := Option.some.inj taken
            have ranks : (Action.handleCpu cpu).ranks s = syscall.ranks pid := by
              simp [Action.ranks, next]
            rw [ranks]
            exact .after (read _) (tended_handleSyscall syscall)
  | disconnectCpu cpu =>
      simp only [step] at taken
      split at taken
      · obtain rfl := Option.some.inj taken
        refine .signals (Nat.succ_pos _) ?_
        have closed : ∀ u : State ι, Gate u (u.setCpu cpu fun c =>
            { c with connection := .closed, toCpu := [], running := none }) :=
          fun u => .setCpu cpu _ id
        unfold handleCpuDisconnection
        dsimp only
        split
        · exact (closed s).trans (.of_eq rfl rfl rfl)
        · rename_i pid _
          have freed : Gate s (removeFromExec (addProcessToReadyQueue config (s.setProcess pid
              fun p => { p with state := .ready, cpu := none, startExecTime := 0 }) pid) pid) :=
            .of_eq rfl rfl rfl
          exact (freed.trans (closed _)).trans (.of_eq rfl rfl rfl)
      · cases taken
  | confirm cpu =>
      simp only [step] at taken
      split at taken
      · obtain rfl := Option.some.inj taken
        have confirmed : Gate s (s.setCpu cpu Cpu.confirmed) :=
          .setCpu cpu _ fun stuck => absurd stuck.1 (by simp [Cpu.confirmed])
        unfold waitConfirmationThreadAndHandleState
        dsimp only
        split
        · exact .post confirmed
        · split
          · exact .post (confirmed.trans (.of_eq rfl rfl rfl))
          · exact .post (confirmed.trans (.of_eq rfl rfl rfl))
      · cases taken
  | quantum pid =>
      simp only [step] at taken
      split at taken
      · obtain rfl := Option.some.inj taken
        exact .calm (calm_evictProcess _ _)
      · cases taken
  | suspend =>
      obtain rfl := Option.some.inj taken
      exact .calm calm_suspensionManager
  | connectIo io ioType =>
      simp only [step] at taken
      split at taken
      · obtain rfl := Option.some.inj taken
        have listed : Calm none s { s.setIo io fun _ => ⟨ioType, .connected, true, []⟩ with
            listIo := Function.update s.listIo ioType (s.listIo ioType ++ [io]) } := .of_work rfl
        exact .calm (listed.trans (calm_handleNextOperation io ioType))
      · cases taken
  | handleIo io value =>
      simp only [step] at taken
      split at taken
      · cases taken
      · rename_i request rest next
        obtain rfl := Option.some.inj taken
        have read : Calm none s (s.setIo io fun d => { d with requests := rest }) := .of_work rfl
        exact .after read (tended_handleIo io request value)
  | disconnectIo io =>
      simp only [step] at taken
      split at taken
      · obtain rfl := Option.some.inj taken
        exact .of_work rfl
      · cases taken
  | written pid =>
      simp only [step] at taken
      split at taken
      · obtain rfl := Option.some.inj taken
        have read : Calm none s { s with writeThreads := s.writeThreads.erase pid } :=
          .of_work rfl
        exact .after read tended_waitMemoryWriteConfirmation
      · cases taken
  | memory st =>
      obtain ⟨memory, stepped, rfl⟩ := Option.map_eq_some_iff.mp taken
      have calm : Calm none s s := .refl s
      refine .calm { calm with gate := .of_eq rfl rfl rfl, reading := fun reading => ?_ }
      exact reading.step stepped
  | handleMemory =>
      simp only [step] at taken
      split at taken
      · cases taken
      · rename_i message rest next
        obtain rfl := Option.some.inj taken
        exact tended_handleMemory next

/-! ### The scheduler is shut while a compaction is under way -/

/-- Nothing is scheduled while a compaction is under way. -/
def Shut (s : State ι) : Prop := s.canSchedule = true → ¬s.Compacting

/-- A compaction ends only if no other one is under way. -/
def EndsAlone (s : State ι) (i : Nat) : CompactionStep → Prop
  | .reopen => ∀ other ∈ s.compactions.eraseIdx i, ¬other.Begun
  | .evictAll | .handleEvicted | .compactionReady => True

instance (s : State ι) (i : Nat) (st : CompactionStep) : Decidable (EndsAlone s i st) :=
  match st with
  | .reopen =>
      have : DecidablePred fun compaction : Compaction ι => ¬compaction.Begun := fun compaction =>
        match compaction with
        | .requested _ => .isTrue id
        | .evicting .. | .ready => .isFalse fun resting => resting trivial
      List.decidableBAll _ _
  | .evictAll | .handleEvicted | .compactionReady => .isTrue trivial

omit [DecidableEq ι] in
theorem Gate.shut (gate : Gate s t) (shut : Shut s) : Shut t := by
  intro opened compacting
  rw [gate.canSchedule] at opened
  exact shut opened (gate.compacting.mp compacting)

omit [DecidableEq ι] in
theorem Shut.of_closed (closed : s.canSchedule = false) : Shut s := by
  intro opened
  simp [closed] at opened

omit [DecidableEq ι] in
theorem Shut.closed {i : Nat} {compaction : Compaction ι} (shut : Shut s)
    (there : s.compactions[i]? = some compaction) (begun : compaction.Begun) :
    s.canSchedule = false := by
  by_contra opened
  rw [Bool.not_eq_false] at opened
  exact shut opened ⟨compaction, List.mem_of_getElem? there, begun⟩

theorem handleEvicted_canSchedule : (handleEvicted config s cpu).canSchedule = s.canSchedule := by
  unfold handleEvicted
  split
  · rfl
  · dsimp only
    split
    · rfl
    · unfold addProcessAtStartOfReadyQueue
      split <;> rfl

/-- During a compaction nothing is scheduled, and at its end the scheduler is signalled. -/
theorem stepCompaction_closed {i : Nat} {st : CompactionStep} (shut : Shut s)
    (taken : stepCompaction config s i st = some t) :
    t.canSchedule = false ∨ st = .reopen ∧ 0 < t.shortTermSchedulerSem := by
  cases st with
  | evictAll =>
      simp only [stepCompaction] at taken
      split at taken
      · obtain rfl := Option.some.inj taken
        exact .inl rfl
      · cases taken
  | handleEvicted =>
      simp only [stepCompaction] at taken
      split at taken
      · rename_i there
        split at taken
        · obtain rfl := Option.some.inj taken
          exact .inl (handleEvicted_canSchedule.trans (shut.closed there trivial))
        · cases taken
      · cases taken
  | compactionReady =>
      simp only [stepCompaction] at taken
      split at taken
      · rename_i there
        obtain rfl := Option.some.inj taken
        exact .inl (shut.closed there trivial)
      · cases taken
  | reopen =>
      simp only [stepCompaction] at taken
      split at taken
      · split at taken
        · obtain rfl := Option.some.inj taken
          exact .inr ⟨rfl, Nat.succ_pos _⟩
        · cases taken
      · cases taken

theorem stepCompaction_shut {i : Nat} {st : CompactionStep} (alone : EndsAlone s i st)
    (shut : Shut s) (taken : stepCompaction config s i st = some t) : Shut t := by
  rcases stepCompaction_closed shut taken with closed | ⟨rfl, -⟩
  · exact .of_closed closed
  · simp only [stepCompaction] at taken
    split at taken
    · split at taken
      · obtain rfl := Option.some.inj taken
        rintro - ⟨other, mem, begun⟩
        exact alone other mem begun
      · cases taken
    · cases taken

theorem gate_dispatch : Gate s (dispatch config s pid cpu) := by
  have sent : ∀ t : State ι, Gate s t → Gate s (sendPidToExecute t pid (some cpu)) := by
    intro t gate
    have calm : Calm none t (sendPidToExecute t pid (some cpu)) := calm_sendPidToExecute _
    exact gate.trans calm.gate
  have queued : Gate s (removeProcessFromReadyQueue config s pid) := .of_eq rfl rfl rfl
  have taken := queued.trans (.setCpu cpu (fun c => { c with isAvailable := false }) id)
  exact sent _ (taken.trans (.of_eq rfl rfl rfl))

theorem gate_shortTermTurn : Gate s (shortTermTurn config s) := by
  unfold shortTermTurn
  split
  · exact gate_dispatch
  · rename_i pid _ _
    have calm : Calm none s (preempt config s pid) := calm_preempt
    exact calm.gate.trans (.of_eq rfl rfl rfl)
  · exact .of_eq rfl rfl rfl

theorem step_shut {a : Action ι} (staged : ∀ cpu, (s.cpu cpu).Staged)
    (alone : ∀ i st, a = .compaction i st → EndsAlone s i st) (shut : Shut s)
    (taken : step config s a = some t) : Shut t := by
  cases a with
  | compaction i st => exact stepCompaction_shut (alone i st rfl) shut taken
  | wake =>
      simp only [step] at taken
      split at taken
      · obtain rfl := Option.some.inj taken
        exact Gate.shut (.of_eq rfl rfl rfl) shut
      · cases taken
  | schedule =>
      simp only [step] at taken
      split at taken
      · obtain rfl := Option.some.inj taken
        exact gate_shortTermTurn.shut shut
      · cases taken
  | tick | process0 | connectCpu | cpu | handleCpu | disconnectCpu | confirm | quantum | suspend
  | connectIo | handleIo | disconnectIo | written | memory | handleMemory =>
      exact (step_tended staged taken trivial).gate.shut shut

end Handlers

end OsModel.KernelScheduler
