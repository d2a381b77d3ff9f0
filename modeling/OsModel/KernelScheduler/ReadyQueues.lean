import OsModel.KernelScheduler.Coherence

/-!
The schedulers, the evictions and the other ends keep every process in one place.

* `step_inv`: so does every step, in which no CPU disconnects while its process waits
  for a segment. How else processes may end is a `Mode`.
* `ready_queue_coherent`: a process is in a ready queue if and only if it is `READY`, and
  then once; and `get_next_process_to_execute` finds one if there is one.
-/

namespace OsModel.KernelScheduler

open Lib

variable {ι : Type} [DecidableEq ι] {config : Config} {m : UInt32 → Mode} {s s' : State ι}
  {place : UInt32 → Option (Place ι)} {pid : UInt32} {cpu : ι}

/-! ### The process of a CPU -/

theorem getProcessFromCpu_some (found : getProcessFromCpu s cpu = some pid) :
    pid ∈ s.listProcesses ∧ (s.process pid).cpu = some cpu :=
  ⟨List.mem_of_find?_eq_some found, by simpa using List.find?_some found⟩

/-- A process with a CPU is there, waits for a segment, or is nowhere. -/
theorem Inv.place_of_cpu (inv : Inv config m none s place)
    (assigned : (s.process pid).cpu = some cpu) :
    (place pid = none ∧ (s.process pid).pendingMemorySyscall = false) ∨
      (place pid = some (.cpu cpu) ∧ (s.process pid).pendingMemorySyscall = false) ∨
      (place pid = some (.memory .segment) ∧ (s.process pid).pendingMemorySyscall = true) := by
  have fits := inv.fit pid
  rcases there : place pid with _ | (_ | other | _ | _ | _ | (_ | _ | _)) <;>
    rw [there] at fits <;> simp [Fits, assigned] at fits
  · exact .inl ⟨rfl, fits.2.1⟩
  · obtain ⟨-, rfl, settled⟩ := fits
    exact .inr (.inl ⟨rfl, settled⟩)
  · exact .inr (.inr ⟨rfl, fits.2⟩)

theorem Inv.not_at_cpu (inv : Inv config m none s place) (idle : (s.cpu cpu).inFlight = []) :
    place pid ≠ some (.cpu cpu) := by
  intro there
  have held := inv.located pid (.cpu cpu)
  simp [State.tokens, idle, there] at held

/-- The process of a CPU that has nothing left loses it, and waits for its segment. -/
theorem Inv.unassign_pending (inv : Inv config m none s place)
    (assigned : (s.process pid).cpu = some cpu)
    (pending : (s.process pid).pendingMemorySyscall = true) :
    Inv config m none (processSetCpu s pid none) place := by
  refine inv.write _ _ rfl (fun _ => ?_) (absurd rfl)
  have fits := inv.fit pid
  rcases inv.place_of_cpu assigned with ⟨-, settled⟩ | ⟨-, settled⟩ | ⟨there, -⟩
  · simp [settled] at pending
  · simp [settled] at pending
  · rw [there] at fits ⊢
    exact fits

/-- The process of a CPU that has nothing left loses it, and is in hand. -/
theorem Inv.unassign (inv : Inv config m none s place) (idle : (s.cpu cpu).inFlight = [])
    (assigned : (s.process pid).cpu = some cpu)
    (settled : (s.process pid).pendingMemorySyscall = false) :
    Inv config m (some pid) (processSetCpu s pid none) place := by
  rcases inv.place_of_cpu assigned with ⟨nowhere, -⟩ | ⟨there, -⟩ | ⟨-, pending⟩
  · exact (inv.lift nowhere).write _ _ rfl (absurd rfl) (absurd rfl)
  · exact absurd there (inv.not_at_cpu idle)
  · simp [settled] at pending

omit [DecidableEq ι] in
@[simp]
theorem processSetCpu_self (cpu : Option ι) :
    (processSetCpu s pid cpu).process pid = { s.process pid with cpu } := setProcess_self ..

theorem Inv.waitConfirmationThreadAndHandleState (inv : Inv config m none s place)
    (connected : (s.cpu cpu).connection = .connected) (posted : 0 < (s.cpu cpu).responseSem) :
    ∃ place', Inv config m none (waitConfirmationThreadAndHandleState config s cpu) place' := by
  obtain ⟨staged, idle⟩ := (inv.staged cpu).confirm connected posted
  have confirmed : Inv config m none (s.setCpu cpu Cpu.confirmed) place :=
    inv.setCpu cpu _ (fun _ => staged) fun _ => rfl
  have idle : ((s.setCpu cpu Cpu.confirmed).cpu cpu).inFlight = [] := by
    rw [setCpu_self]
    exact idle
  unfold KernelScheduler.waitConfirmationThreadAndHandleState
  split
  · exact ⟨place, confirmed.congr rfl⟩
  · rename_i pid found
    obtain ⟨known, assigned⟩ := getProcessFromCpu_some found
    dsimp only
    split
    · rename_i pending
      exact ⟨place, (confirmed.unassign_pending assigned pending).congr rfl⟩
    · rename_i settled
      have settled : (s.process pid).pendingMemorySyscall = false := by simpa using settled
      have free : Inv config m (some pid)
          (processSetCpu (removeFromExec (s.setCpu cpu Cpu.confirmed) pid) pid none) place :=
        (confirmed.unassign idle assigned settled).congr rfl
      obtain ⟨place', ready⟩ := free.makeReady (by simp) (by simpa [removeFromExec] using settled)
        known
      exact ⟨place', ready.congr rfl⟩

theorem Inv.handleEvicted (inv : Inv config m none s place)
    (connected : (s.cpu cpu).connection = .connected) (posted : 0 < (s.cpu cpu).responseSem) :
    ∃ place', Inv config m none (handleEvicted config s cpu) place' := by
  obtain ⟨-, idle⟩ := (inv.staged cpu).confirm connected posted
  unfold KernelScheduler.handleEvicted
  split
  · exact ⟨place, inv.setCpu cpu _ (fun staged => staged.unhandled connected posted) fun _ => rfl⟩
  · rename_i pid found
    obtain ⟨known, assigned⟩ := getProcessFromCpu_some found
    have confirm : ∀ {s' : State ι} {place' : UInt32 → Option (Place ι)},
        s'.cpu = s.cpu → Inv config m none s' place' →
        Inv config m none (s'.setCpu cpu Cpu.confirmed) place' := by
      intro s' place' same inv'
      have before : (s'.cpu cpu).connection = .connected ∧ 0 < (s'.cpu cpu).responseSem := by
        rw [same]
        exact ⟨connected, posted⟩
      exact inv'.setCpu cpu _ (fun staged => (staged.confirm before.1 before.2).1) fun _ => rfl
    dsimp only
    split
    · rename_i pending
      have free : Inv config m none (processSetCpu (removeFromExec s pid) pid none) place :=
        (inv.unassign_pending assigned pending).congr rfl
      exact ⟨place, confirm rfl free⟩
    · rename_i settled
      have settled : (s.process pid).pendingMemorySyscall = false := by simpa using settled
      have free : Inv config m (some pid) (processSetCpu (removeFromExec s pid) pid none) place :=
        (inv.unassign idle assigned settled).congr rfl
      have written : Inv config m (some pid)
          (processSetState (processSetCpu (removeFromExec s pid) pid none) pid .ready) place :=
        free.write _ _ rfl (absurd rfl) fun has => absurd (by simp) has
      obtain ⟨place', ready⟩ := written.addProcessAtStartOfReadyQueue (by simp) (by simp)
        (by simpa [removeFromExec] using settled) known
      refine ⟨place', confirm ?_ ready⟩
      unfold KernelScheduler.addProcessAtStartOfReadyQueue
      split <;> rfl

/-- What was sent to a CPU that goes is lost. -/
theorem Inv.closeCpu (inv : Inv config m none s place) (noMessages : (s.cpu cpu).toScheduler = []) :
    Inv config m none
      (s.setCpu cpu fun c => { c with connection := .closed, toCpu := [], running := none })
      fun pid => if place pid = some (.cpu cpu) then none else place pid := by
  have located := inv.located.clear (k := .cpu cpu)
    (fun b k ne => tokens_setCpu_of_ne
      (f := fun c => { c with connection := .closed, toCpu := [], running := none }) ne)
    fun b => by simp [tokens_setCpu_self, Cpu.inFlight, noMessages]
  refine inv.carry (.setCpu fun _ => Cpu.Staged.close noMessages) located ?_ (by simp) ?_
  · intro pid _
    have fits := inv.fit pid
    split
    · rename_i here
      rw [here] at fits
      obtain ⟨executing, -, settled⟩ := fits
      exact ⟨by simp [executing], settled, fun _ => .inl executing⟩
    · exact fits
  · intro pid there
    split at there
    · exact absurd rfl there
    · exact inv.known pid there

theorem Inv.handleCpuDisconnection (inv : Inv config m none s place)
    (noMessages : (s.cpu cpu).toScheduler = [])
    (settled : ∀ pid ∈ getProcessFromCpu s cpu, (s.process pid).pendingMemorySyscall = false) :
    ∃ place', Inv config m none (handleCpuDisconnection config s cpu) place' := by
  have closed := inv.closeCpu noMessages
  unfold KernelScheduler.handleCpuDisconnection
  split
  · exact ⟨_, closed.congr rfl⟩
  · rename_i pid found
    obtain ⟨known, assigned⟩ := getProcessFromCpu_some found
    have settled := settled pid found
    have nowhere : (if place pid = some (.cpu cpu) then none else place pid) = none := by
      rcases inv.place_of_cpu assigned with ⟨nowhere, -⟩ | ⟨there, -⟩ | ⟨-, pending⟩
      · simp [nowhere]
      · simp [there]
      · simp [settled] at pending
    have written := (closed.lift nowhere).write pid
      (fun p => { p with state := .ready, cpu := none, startExecTime := 0 }) rfl (absurd rfl)
      (absurd rfl)
    obtain ⟨place', ready⟩ := written.addProcessToReadyQueue (by simp) (by simp)
      (by simpa using settled) known
    exact ⟨place', ready.congr rfl⟩

/-! ### CPUs -/

theorem Inv.stepCpu {st : CpuStep} {c : Cpu} (inv : Inv config m none s place)
    (taken : (s.cpu cpu).step st = some c) :
    ∃ place', Inv config m none (s.setCpu cpu fun _ => c) place' := by
  obtain ⟨staged, -, lost, perm, -⟩ := (inv.staged cpu).step taken
  cases lost with
  | none => exact ⟨place, inv.setCpu cpu _ (fun _ => staged) fun pid => (perm.count_eq pid).symm⟩
  | some pid =>
      have adds : AddsToken (s.setCpu cpu fun _ => c).tokens s.tokens pid (.cpu cpu) :=
        .of_place (fun b k ne => (tokens_setCpu_of_ne ne).symm) fun b => by
          rw [tokens_setCpu_self]
          exact (perm.count_eq b).trans (count_cons_eq _ _ _)
      obtain ⟨⟨executing, -, settled⟩, -, lost⟩ := inv.take (.setCpu fun _ => staged) adds
      exact ⟨_, lost.drop ⟨by simp [executing], settled, fun _ => .inl executing⟩⟩

theorem Inv.createCpu (inv : Inv config m none s place)
    (absent : (s.cpu cpu).connection = .absent) :
    Inv config m none (s.setCpu cpu fun _ => .create) place := by
  refine inv.setCpu cpu _ (fun _ => Cpu.staged_create) fun pid => ?_
  rw [(inv.staged cpu).inFlight_gone (by simp [absent])]
  rfl

theorem setCpu_setCpu (f g : Cpu → Cpu) :
    (s.setCpu cpu f).setCpu cpu g = s.setCpu cpu fun c => g (f c) := by
  simp [State.setCpu]

theorem Inv.handleCpu {message : ToScheduler} {rest : List ToScheduler}
    (inv : Inv config m none s place) (next : (s.cpu cpu).toScheduler = message :: rest)
    (keeps : ∀ pid syscall, message = .syscall pid syscall → syscall.KeepsCpu s → (m pid).keepsCpu)
    (handled : handleCpu config (s.setCpu cpu fun c => { c with toScheduler := rest }) cpu message =
      some s') : ∃ place', Inv config m none s' place' := by
  have connected : (s.cpu cpu).connection = .connected := by
    by_contra gone
    simp [((inv.staged cpu).gone gone).2.2] at next
  have stage := (inv.staged cpu).stage connected
  rw [next] at stage
  cases message with
  | processCreate priority path =>
      have read : Inv config m none (s.setCpu cpu fun c => { c with toScheduler := rest }) place :=
        inv.setCpu cpu _ (fun _ => ⟨fun _ => stage.handle (by simp), absurd connected⟩) fun pid => by
          simp [Cpu.inFlight, next, ToScheduler.pid, List.filterMap_cons]
      exact read.longTermScheduler handled
  | syscall pid syscall =>
      obtain rfl := Option.some.inj handled
      obtain ⟨fits, known, taken⟩ := inv.takeSyscall next
      exact taken.handleSyscall fits known (keeps pid syscall rfl)
  | confirmation =>
      obtain rfl := Option.some.inj handled
      rw [setCpu_setCpu]
      refine ⟨place, inv.setCpu cpu _ (fun _ => ⟨fun _ => stage.post, absurd connected⟩) fun pid => ?_⟩
      simp [Cpu.inFlight, next, ToScheduler.pid, List.filterMap_cons]

/-! ### The short-term scheduler -/

omit [DecidableEq ι] in
theorem getNextProcessToExecute_ready (next : getNextProcessToExecute config s = some pid) :
    (s.process pid).state = .ready := by
  simpa using (Option.filter_eq_some_iff.mp next).2

theorem Inv.dispatch (inv : Inv config m none s place) (ready : (s.process pid).state = .ready) :
    ∃ place', Inv config m none (dispatch config s pid cpu) place' := by
  obtain ⟨⟨-, -, settled, -⟩, known, taken⟩ := inv.removeProcessFromReadyQueue ready
  have reserved := taken.setCpu cpu (fun c => { c with isAvailable := false })
    (fun staged => staged.available false) fun _ => rfl
  have written := reserved.write pid
    (fun p =>
      { p with
        state := .exec
        cpu := some cpu
        startExecTime := if config.schedulerAlgorithm = .fifo then p.startExecTime else s.now })
    rfl (absurd rfl) fun _ => known
  unfold KernelScheduler.dispatch
  refine Inv.sendPidToExecute (written.congr rfl) ?_ ?_ ?_ known
  · simp
  · simp
  · rw [setProcess_self]
    exact settled

theorem Inv.preempt (inv : Inv config m none s place) :
    Inv config m none (preempt config s pid) place := by
  unfold KernelScheduler.preempt
  split
  · split
    · exact inv
    · split
      · exact inv.evictProcess
      · exact inv
  · exact inv

theorem Inv.shortTermTurn (inv : Inv config m none s place) :
    ∃ place', Inv config m none (shortTermTurn config s) place' := by
  unfold KernelScheduler.shortTermTurn
  split
  · rename_i pid cpu next available
    exact inv.dispatch (getNextProcessToExecute_ready next)
  · exact ⟨place, inv.preempt.congr rfl⟩
  · exact ⟨place, inv.congr rfl⟩

/-! ### Suspension -/

/-- A process that is suspended, or no longer suspended, while it waits. -/
theorem Inv.setWaiting (inv : Inv config m none s place) (f : Process ι → Process ι)
    (waited : (s.process pid).state = .block ∨ (s.process pid).state = .suspBlock)
    (waits : (f (s.process pid)).state = .block ∨ (f (s.process pid)).state = .suspBlock)
    (cpu : (f (s.process pid)).cpu = (s.process pid).cpu)
    (pending : (f (s.process pid)).pendingMemorySyscall = (s.process pid).pendingMemorySyscall)
    (sem : (f (s.process pid)).memoryRequestSem = (s.process pid).memoryRequestSem) :
    Inv config m none (s.setProcess pid f) place := by
  refine inv.write pid f sem (fun _ => ?_) fun has => inv.assigned pid (cpu ▸ has)
  have fits := inv.fit pid
  rcases there : place pid with _ | (_ | _ | _ | _ | _ | (_ | _ | _))
  all_goals
    rw [there] at fits
    grind [Fits, Process.Waits]

/-- A process that is `SUSP_READY` is nowhere. -/
theorem Inv.place_suspReady (inv : Inv config m none s place)
    (state : (s.process pid).state = .suspReady) :
    place pid = none ∧ (s.process pid).cpu = none ∧
      (s.process pid).pendingMemorySyscall = false := by
  have fits := inv.fit pid
  rcases there : place pid with _ | (_ | _ | _ | _ | _ | (_ | _ | _)) <;> rw [there] at fits <;>
    simp [Fits, Process.Waits, state] at fits
  exact ⟨rfl, fits.2, fits.1⟩

theorem Inv.suspensionScan (pids : List UInt32) (inv : Inv config m none s place) :
    Inv config m none (suspensionScan config pids s).2.2 place := by
  induction pids generalizing s with
  | nil => exact inv
  | cons pid rest ih =>
      simp only [KernelScheduler.suspensionScan]
      split
      · rename_i expired
        exact ih (inv.setWaiting _ (.inl expired.1) (.inr rfl) rfl rfl rfl)
      · exact ih inv

theorem Inv.sendSwapOuts (pids : List UInt32) (inv : Inv config m none s place) :
    Inv config m none (pids.foldl (fun s pid => s.sendMemory (.swapOut pid)) s) place := by
  induction pids generalizing s with
  | nil => exact inv
  | cons pid rest ih => exact ih (inv.sendMemory (.swapOut pid) rfl)

theorem Inv.suspensionManager (inv : Inv config m none s place) :
    Inv config m none (suspensionManager config s) place := by
  unfold KernelScheduler.suspensionManager
  split
  · exact Inv.sendSwapOuts _ ((inv.suspensionScan s.blockProcesses).congr rfl)
  · exact inv

theorem Inv.waitConfirmationSwapOut {ok : Bool} (inv : Inv config m none s place) :
    ∃ place', Inv config m none (waitConfirmationSwapOut config s pid ok) place' := by
  unfold KernelScheduler.waitConfirmationSwapOut
  split
  · rename_i known
    split
    · rename_i state
      obtain ⟨nowhere, unassigned, settled⟩ := inv.place_suspReady state
      obtain ⟨place', ready⟩ := (inv.lift nowhere).makeReady unassigned settled known
      exact ⟨place', ready.congr rfl⟩
    · rename_i state
      exact ⟨place, (inv.setWaiting (fun p => { p with state := .block, startBlockTime := s.now })
        (.inr state) (.inl rfl) rfl rfl rfl).congr rfl⟩
    · exact ⟨place, inv.congr rfl⟩
    · exact ⟨place, inv.congr rfl⟩
    · exact ⟨place, inv⟩
  · exact ⟨place, inv⟩

theorem Inv.requestSwapIn (inv : Inv config m none s place) :
    Inv config m none (requestSwapIn s) place := by
  unfold KernelScheduler.requestSwapIn
  dsimp only
  split
  · exact inv
  · exact inv.sendMemory _ rfl

theorem Inv.swappedIn (inv : Inv config m none s place) (pid : UInt32) :
    ∃ place', Inv config m none (swappedIn config s pid) place' := by
  unfold KernelScheduler.swappedIn
  split
  · rename_i known
    have removed : Inv config m none
        { s with suspendedProcesses := s.suspendedProcesses.erase pid } place := inv.congr rfl
    dsimp only
    split
    · rename_i state
      obtain ⟨nowhere, unassigned, settled⟩ := inv.place_suspReady state
      exact (removed.lift nowhere).makeReady unassigned settled known
    · rename_i state
      exact ⟨place, (removed.setWaiting
        (fun p => { p with state := .block, startBlockTime := s.now }) (.inr state) (.inl rfl) rfl
        rfl rfl).congr rfl⟩
    · exact ⟨place, removed⟩
  · exact ⟨place, inv⟩

theorem Inv.waitConfirmationSwapIn (inv : Inv config m none s place) (pids : List UInt32) :
    ∃ place', Inv config m none (waitConfirmationSwapIn config s pids) place' := by
  have swapped : ∃ place', Inv config m none (pids.foldl (KernelScheduler.swappedIn config) s)
      place' := by
    induction pids generalizing s place with
    | nil => exact ⟨place, inv⟩
    | cons pid rest ih =>
        obtain ⟨place', first⟩ := inv.swappedIn pid
        exact ih first
  obtain ⟨place', swapped⟩ := swapped
  unfold KernelScheduler.waitConfirmationSwapIn
  dsimp only
  split
  · exact ⟨place', swapped.congr rfl⟩
  · exact ⟨place', swapped⟩

/-! ### Kernel Memory -/

/-- `kernel_memory_handler` reads a message that answers no request. -/
theorem Inv.readQuiet {message : FromMemory} {rest : List FromMemory}
    (inv : Inv config m none s place) (next : s.memory.fromMemory = message :: rest)
    (quiet : message.request = none) :
    Inv config m none { s with memory.fromMemory := rest } place := by
  refine inv.frame (.of_eq rfl rfl rfl rfl rfl) fun pid k => ?_
  cases k with
  | memory request => simp [State.tokens, Memory.requests, next, quiet]
  | ready | cpu | mutex | pending | device => rfl

theorem Inv.handleMemory {message : FromMemory} {rest : List FromMemory}
    (inv : Inv config m none s place) (next : s.memory.fromMemory = message :: rest)
    (ends : ∀ pid, message = .ioMemoryRead pid "" → (m pid).endsWaiting) :
    ∃ place', Inv config m none
      (handleMemory config { s with memory.fromMemory := rest } message) place' := by
  cases message with
  | processCreate pid => exact inv.waitProcessCreateConfirmation next
  | segmentResult pid segmentId result => exact inv.handleSegmentResult next
  | ioMemoryRead pid value => exact inv.stdoutWaitMemoryRead next fun empty => ends pid (empty ▸ rfl)
  | ioMemoryWrite pid writeSuccesful => exact inv.handleIoMemoryWrite next
  | swapOut pid ok => exact (inv.readQuiet next rfl).waitConfirmationSwapOut
  | swapIn pids => exact (inv.readQuiet next rfl).waitConfirmationSwapIn pids
  | memoryUpdate newSize => exact ⟨place, (inv.readQuiet next rfl).requestSwapIn⟩
  | compactionRequest | compactionFinished | corruptedMemory =>
      exact ⟨place, (inv.readQuiet next rfl).congr rfl⟩

theorem Inv.stepMemory {st : MemoryStep} {memory : Memory} (inv : Inv config m none s place)
    (taken : s.memory.step st = some memory) :
    ∃ place', Inv config m none { s with memory } place' := by
  obtain ⟨lost, perm⟩ := Memory.requests_step taken
  cases lost with
  | none =>
      refine ⟨place, inv.frame (.of_eq rfl rfl rfl rfl rfl) fun pid k => ?_⟩
      cases k with
      | memory request => simp [State.tokens, perm.count_eq (pid, request)]
      | ready | cpu | mutex | pending | device => rfl
  | some pid =>
      have kept : Kept s { s with memory } := .of_eq rfl rfl rfl rfl rfl
      have adds : AddsToken ({ s with memory } : State ι).tokens s.tokens pid (.memory .create) := by
        refine tokens_of_memory (fun b k out => ?_) (fun _ => rfl) perm.symm
        cases k with
        | memory request => exact absurd rfl (out request)
        | ready | cpu | mutex | pending | device => rfl
      obtain ⟨⟨state, unassigned, settled⟩, -, lost⟩ := inv.take kept adds
      exact ⟨_, lost.drop ⟨by simp [state], settled, fun has => absurd unassigned has⟩⟩

/-! ### Compaction -/

theorem Inv.evictAllProcesses {reason : InterruptReason} (pids : List UInt32)
    (inv : Inv config m none s place) :
    Inv config m none (evictAllProcesses reason pids s).2 place := by
  induction pids generalizing s with
  | nil => exact inv
  | cons pid rest ih =>
      simp only [KernelScheduler.evictAllProcesses]
      split
      · rename_i cpu s' _ sent
        exact ih (inv.sendProcessEvict sent)
      · exact ih inv

theorem Inv.stepCompaction {i : Nat} {st : CompactionStep} (inv : Inv config m none s place)
    (taken : stepCompaction config s i st = some s') : ∃ place', Inv config m none s' place' := by
  cases st with
  | evictAll =>
      simp only [KernelScheduler.stepCompaction] at taken
      split at taken
      · obtain rfl := Option.some.inj taken
        exact ⟨place, (inv.evictAllProcesses s.execProcesses).congr rfl⟩
      · simp at taken
  | handleEvicted =>
      simp only [KernelScheduler.stepCompaction] at taken
      split at taken
      · split at taken
        · rename_i waits
          obtain ⟨connected, -, posted⟩ := waits
          obtain rfl := Option.some.inj taken
          obtain ⟨place', handled⟩ := inv.handleEvicted connected posted
          exact ⟨place', handled.congr rfl⟩
        · simp at taken
      · simp at taken
  | compactionReady =>
      simp only [KernelScheduler.stepCompaction] at taken
      split at taken
      · obtain rfl := Option.some.inj taken
        exact ⟨place, (inv.sendMemory .compactionReady rfl).congr rfl⟩
      · simp at taken
  | reopen =>
      simp only [KernelScheduler.stepCompaction] at taken
      split at taken
      · split at taken
        · obtain rfl := Option.some.inj taken
          exact ⟨place, inv.congr rfl⟩
        · simp at taken
      · simp at taken

/-! ### Steps -/

/-- The syscall ends its process, and the CPU is not given back. -/
def Syscall.LosesCpu : Syscall → Prop
  | .stdin _ toRead => toRead = 0
  | _ => False

instance (syscall : Syscall) : Decidable (syscall.KeepsCpu s) :=
  match syscall with
  | .mutexLock name | .mutexUnlock name => inferInstanceAs (Decidable (getMutexByName s name = none))
  | .stdin _ toRead => inferInstanceAs (Decidable (toRead = 0))
  | .processEnd | .segmentationFault | .mutexCreate _ | .sleep _ | .stdout .. | .memAlloc ..
  | .memFree _ => .isFalse id

instance (syscall : Syscall) : Decidable syscall.LosesCpu :=
  match syscall with
  | .stdin _ toRead => inferInstanceAs (Decidable (toRead = 0))
  | .processEnd | .segmentationFault | .mutexCreate _ | .mutexLock _ | .mutexUnlock _ | .sleep _
  | .stdout .. | .memAlloc .. | .memFree _ => .isFalse id

/-- What the message of a CPU may lead to. -/
def ToScheduler.Allowed (m : UInt32 → Mode) (s : State ι) (cpu : ι) : ToScheduler → Prop
  | .syscall pid stop =>
      (stop.KeepsCpu s → (m pid).keepsCpu) ∧
        (stop.LosesCpu → (s.cpu cpu).isEvicting = false → (m pid).losesCpu)
  | .processCreate .. | .confirmation => True

/-- What a message of Kernel Memory may lead to. -/
def FromMemory.Allowed (m : UInt32 → Mode) : FromMemory → Prop
  | .ioMemoryRead pid value => value = "" → (m pid).endsWaiting
  | _ => True

instance (message : ToScheduler) : Decidable (message.Allowed m s cpu) :=
  match message with
  | .syscall pid stop =>
      inferInstanceAs (Decidable ((stop.KeepsCpu s → (m pid).keepsCpu) ∧
        (stop.LosesCpu → (s.cpu cpu).isEvicting = false → (m pid).losesCpu)))
  | .processCreate .. | .confirmation => .isTrue trivial

instance (message : FromMemory) : Decidable (message.Allowed m) :=
  match message with
  | .ioMemoryRead pid value =>
      inferInstanceAs (Decidable (value = "" → (m pid).endsWaiting))
  | .processCreate _ | .segmentResult .. | .ioMemoryWrite .. | .swapOut .. | .swapIn _
  | .memoryUpdate _ | .compactionRequest | .compactionFinished | .corruptedMemory => .isTrue trivial

/-- The steps of a run: a CPU does not disconnect while its process waits for a
segment, and the processes end as their modes say. -/
def Allowed (m : UInt32 → Mode) (s : State ι) : Action ι → Prop
  | .disconnectCpu cpu =>
      ∀ pid ∈ getProcessFromCpu s cpu, (s.process pid).pendingMemorySyscall = false
  | .handleCpu cpu => ∀ message ∈ (s.cpu cpu).toScheduler.head?, message.Allowed m s cpu
  | .handleMemory => ∀ message ∈ s.memory.fromMemory.head?, message.Allowed m
  | _ => True

instance (a : Action ι) : Decidable (Allowed m s a) :=
  match a with
  | .disconnectCpu _ => Option.decidableForallMem _
  | .handleCpu _ => Option.decidableForallMem _
  | .handleMemory => Option.decidableForallMem _
  | .tick | .process0 _ | .connectCpu _ | .cpu .. | .confirm _ | .wake | .schedule | .quantum _
  | .suspend | .connectIo .. | .handleIo .. | .disconnectIo _ | .written _ | .memory _
  | .compaction .. => .isTrue trivial

theorem initial_inv : Inv config m none (initial : State ι) fun _ => none where
  located pid k := by
    cases k <;> simp [State.tokens, initial, Cpu.inFlight, Cpu.absent, Memory.requests,
      createProcess]
  fits pid _ := by simp [Fits, initial, createProcess]
  nowhere := nofun
  known _ there := absurd rfl there
  assigned _ has := absurd rfl has
  staged _ := Cpu.staged_absent
  unlisted _ _ := rfl

/-- Every step keeps every process in one place. -/
theorem step_inv {a : Action ι} (inv : Inv config m none s place) (allowed : Allowed m s a)
    (taken : step config s a = some s') : ∃ place', Inv config m none s' place' := by
  cases a with
  | tick =>
      obtain rfl := Option.some.inj taken
      exact ⟨place, inv.congr rfl⟩
  | process0 path =>
      simp only [step] at taken
      split at taken
      · exact inv.longTermScheduler taken
      · simp at taken
  | connectCpu cpu =>
      simp only [step] at taken
      split at taken
      · rename_i absent
        obtain rfl := Option.some.inj taken
        exact ⟨place, (inv.createCpu absent).congr rfl⟩
      · simp at taken
  | cpu cpu st =>
      obtain ⟨c, stepped, rfl⟩ := Option.map_eq_some_iff.mp taken
      exact inv.stepCpu stepped
  | handleCpu cpu =>
      simp only [step] at taken
      split at taken
      · simp at taken
      · rename_i message rest next
        refine inv.handleCpu next (fun pid syscall eq => ?_) taken
        subst eq
        have allowed : (ToScheduler.syscall pid syscall).Allowed m s cpu :=
          allowed _ (by rw [next]; rfl)
        exact allowed.1
  | disconnectCpu cpu =>
      simp only [step] at taken
      split at taken
      · rename_i gone
        obtain rfl := Option.some.inj taken
        exact inv.handleCpuDisconnection gone.2 allowed
      · simp at taken
  | confirm cpu =>
      simp only [step] at taken
      split at taken
      · rename_i waits
        obtain ⟨connected, -, posted⟩ := waits
        obtain rfl := Option.some.inj taken
        exact inv.waitConfirmationThreadAndHandleState connected posted
      · simp at taken
  | wake =>
      simp only [step] at taken
      split at taken
      · obtain rfl := Option.some.inj taken
        exact ⟨place, inv.congr rfl⟩
      · simp at taken
  | schedule =>
      simp only [step] at taken
      split at taken
      · obtain rfl := Option.some.inj taken
        exact inv.shortTermTurn
      · simp at taken
  | quantum pid =>
      simp only [step] at taken
      split at taken
      · obtain rfl := Option.some.inj taken
        exact ⟨place, inv.evictProcess⟩
      · simp at taken
  | suspend =>
      obtain rfl := Option.some.inj taken
      exact ⟨place, inv.suspensionManager⟩
  | connectIo io ioType =>
      simp only [step] at taken
      split at taken
      · obtain rfl := Option.some.inj taken
        obtain ⟨place', connected⟩ := inv.clearIo io (fun _ => ⟨ioType, .connected, true, []⟩) rfl
        exact Inv.handleNextOperation (connected.congr rfl)
      · simp at taken
  | handleIo io value =>
      simp only [step] at taken
      split at taken
      · simp at taken
      · rename_i request rest next
        obtain rfl := Option.some.inj taken
        exact inv.handleIo next
  | disconnectIo io =>
      simp only [step] at taken
      split at taken
      · obtain rfl := Option.some.inj taken
        obtain ⟨place', gone⟩ := inv.clearIo io
          (fun d => { d with connection := .closed, requests := [] }) rfl
        exact ⟨place', gone.congr rfl⟩
      · simp at taken
  | written pid =>
      simp only [step] at taken
      split at taken
      · rename_i waits
        obtain rfl := Option.some.inj taken
        exact Inv.waitMemoryWriteConfirmation (inv.congr rfl) waits.2
      · simp at taken
  | memory st =>
      obtain ⟨memory, stepped, rfl⟩ := Option.map_eq_some_iff.mp taken
      exact inv.stepMemory stepped
  | handleMemory =>
      simp only [step] at taken
      split at taken
      · simp at taken
      · rename_i message rest next
        obtain rfl := Option.some.inj taken
        refine inv.handleMemory next fun pid eq => ?_
        subst eq
        have ends : (FromMemory.ioMemoryRead pid "").Allowed m := allowed _ (by rw [next]; rfl)
        exact ends rfl
  | compaction i st => exact inv.stepCompaction taken

/-- In every state of a run every process is in one place. -/
theorem Inv.of_run {as : List (Action ι)} (run : Run (step config) (Allowed m) initial as s) :
    ∃ place, Inv config m none s place := by
  have keeps : ∀ {s : State ι} {a : Action ι} {s' : State ι}, (∃ place, Inv config m none s place) →
      Allowed m s a → step config s a = some s' → ∃ place, Inv config m none s' place :=
    fun ⟨_, inv⟩ allowed taken => step_inv inv allowed taken
  exact run.invariant keeps ⟨_, initial_inv⟩

/-! ### Ready queues -/

/-- Processes may end in any way. -/
def Mode.any : Mode := ⟨true, true, true⟩

def State.readyQueues (config : Config) (s : State ι) : List UInt32 :=
  (List.range config.queueAlgorithmsCount).flatMap s.readyQueue

omit [DecidableEq ι] in
theorem queueIndex_congr {p q : Process ι} (same : p.effectivePriority = q.effectivePriority) :
    queueIndex config p = queueIndex config q := by
  unfold queueIndex
  rw [same]

omit [DecidableEq ι] in
theorem queueIndex_lt (p : Process ι) : queueIndex config p < config.queueAlgorithmsCount := by
  have hasQueue := config.hasQueue
  unfold queueIndex
  cases algorithm : config.schedulerAlgorithm with
  | fifo | rr => simp [Config.queueAlgorithmsCount, algorithm]
  | cmn =>
      have count : config.queueAlgorithmsCount = config.queueAlgorithms.length := by
        simp [Config.queueAlgorithmsCount, algorithm]
      dsimp only
      split
      · omega
      · omega

omit [DecidableEq ι] in
/-- Under `CMN` the queue of a priority, and the last one for those beyond. -/
theorem queueIndex_eq_min (cmn : config.schedulerAlgorithm = .cmn) (p : Process ι) :
    queueIndex config p = min p.effectivePriority.toNat (config.queueAlgorithmsCount - 1) := by
  unfold queueIndex
  rw [cmn]
  dsimp only
  split
  · omega
  · omega

/-- How often a process is in the queues `0`, …, `n - 1`. -/
theorem Inv.count_queues (inv : Inv config m none s place) (pid : UInt32) (n : ℕ) :
    ((List.range n).flatMap s.readyQueue).count pid =
      if (s.process pid).state = .ready ∧ queueIndex config (s.process pid) < n then 1 else 0 := by
  have fits := inv.fit pid
  induction n with
  | zero => simp
  | succ n ih =>
      have last : (s.readyQueue n).count pid =
          if (s.process pid).state = .ready ∧ queueIndex config (s.process pid) = n then 1
          else 0 := by
        have held : (s.readyQueue n).count pid = _ := inv.located pid (.ready n)
        rw [held]
        by_cases ready : (s.process pid).state = .ready
        · simp [inv.place_ready ready, ready]
        · have elsewhere : place pid ≠ some (.ready n) := by
            intro there
            rw [there] at fits
            exact ready fits.1
          simp [elsewhere, ready]
      rw [List.range_succ, List.flatMap_append, List.count_append, ih, List.flatMap_singleton, last]
      split <;> split <;> grind

theorem Inv.mem_readyQueue (inv : Inv config m none s place) {i : ℕ} (mem : pid ∈ s.readyQueue i) :
    (s.process pid).state = .ready := by
  have there : place pid = some (.ready i) := inv.located.place_eq (List.count_pos_iff.mpr mem)
  have fits := inv.fit pid
  rw [there] at fits
  exact fits.1

/-- A process of a ready queue is one that `get_next_process_to_execute` returns. -/
theorem Inv.filter_next (inv : Inv config m none s place) {i : Nat}
    (mem : pid ∈ s.readyQueue i) :
    (some pid).filter (fun pid => (s.process pid).state == .ready) = some pid := by
  simp [inv.mem_readyQueue mem]

/-- The first process of the queues that is asked for is `READY`. -/
theorem Inv.getNextProcessToExecute (inv : Inv config m none s place)
    (ready : (s.process pid).state = .ready) :
    ∃ next, getNextProcessToExecute config s = some next := by
  have queued : pid ∈ s.readyQueue (queueIndex config (s.process pid)) := by
    refine List.count_pos_iff.mp (?_ : 0 < s.tokens pid (.ready _))
    rw [inv.located pid, inv.place_ready ready, if_pos rfl]
    exact Nat.zero_lt_one
  have first : ((s.readyQueue (queueIndex config (s.process pid))).head?).isSome :=
    List.isSome_head?.mpr (List.ne_nil_of_mem queued)
  obtain ⟨next, head⟩ := Option.isSome_iff_exists.mp first
  unfold KernelScheduler.getNextProcessToExecute
  cases algorithm : config.schedulerAlgorithm with
  | fifo | rr =>
      have zero : queueIndex config (s.process pid) = 0 := by simp [queueIndex, algorithm]
      rw [zero] at head
      simp only [head]
      exact ⟨next, inv.filter_next (List.mem_of_head? head)⟩
  | cmn =>
      have some : ((List.range config.queueAlgorithmsCount).findSome? fun i =>
          (s.readyQueue i).head?).isSome := by
        have below := List.mem_range.mpr (@queueIndex_lt _ config (s.process pid))
        exact List.findSome?_isSome_iff.mpr ⟨_, below, first⟩
      obtain ⟨next, found⟩ := Option.isSome_iff_exists.mp some
      obtain ⟨i, -, head⟩ := List.exists_of_findSome?_eq_some found
      simp only [getHighestPriorityProcessFromReadyQueue, found]
      exact ⟨next, inv.filter_next (List.mem_of_head? head)⟩

/-- While no CPU disconnects whose process waits for a segment, a process is in the ready
queues if and only if it is `READY`, and then once; and when there is such a process,
`get_next_process_to_execute` finds one. -/
theorem ready_queue_coherent {as : List (Action ι)}
    (run : Run (step config) (Allowed fun _ => .any) initial as s) :
    (∀ pid, (s.readyQueues config).count pid = if (s.process pid).state = .ready then 1 else 0) ∧
      ((∃ pid, (s.process pid).state = .ready) →
        ∃ next, getNextProcessToExecute config s = some next) := by
  obtain ⟨place, inv⟩ := Inv.of_run run
  constructor
  · intro pid
    unfold State.readyQueues
    rw [inv.count_queues pid config.queueAlgorithmsCount]
    simp [queueIndex_lt]
  · rintro ⟨pid, ready⟩
    exact inv.getNextProcessToExecute ready

/-- The first process runs on the first CPU. -/
def started : List (Action ℕ) :=
  [.process0 "p0", .memory (.serve (.ok true)), .handleMemory, .connectCpu 0, .wake, .schedule,
    .cpu 0 .execute]

/-- It creates a second process, and goes with its CPU while it waits for nothing. -/
theorem ready_queue_coherent_of_disconnection :
    ∃ s : State ℕ, s.readyQueue 0 = [0] ∧
      ∀ pid, (s.readyQueues fifo).count pid = if (s.process pid).state = .ready then 1 else 0 := by
  obtain ⟨s, run, queued⟩ := Run.exists_of_exec (step fifo) (Allowed fun _ => .any)
    (started.append [.cpu 0 (.initProc 1 "p1"), .handleCpu 0, .disconnectCpu 0]) initial
    (fun s => decide (s.readyQueue 0 = [0])) (by decide)
  exact ⟨s, of_decide_eq_true queued, (ready_queue_coherent run).1⟩

/-- The CPU disconnects while its process waits for a segment: the process is `READY`,
and the result, which is an error, ends it in the ready queue, before a process that is
`READY`. -/
theorem ready_queue_blocked :
    ∃ as s, Run (step fifo) (fun _ _ => True) (initial : State ℕ) as s ∧
      (s.process 0).state = .exit ∧ s.readyQueue 0 = [0, 1] ∧ (s.process 1).state = .ready ∧
        getNextProcessToExecute fifo s = none := by
  obtain ⟨s, run, blocked⟩ := Run.exists_of_exec (step fifo) (fun _ _ => True)
    (started.append [.cpu 0 (.initProc 1 "p1"), .cpu 0 (.stop (.memAlloc 0 16)), .handleCpu 0,
      .handleCpu 0, .disconnectCpu 0, .memory (.serve (.ok true)), .handleMemory,
      .memory (.serve (.ok true)), .memory (.segmentCreated 0 .segmentNoSpace), .handleMemory])
    initial
    (fun s => decide ((s.process 0).state = .exit ∧ s.readyQueue 0 = [0, 1] ∧
      (s.process 1).state = .ready ∧ getNextProcessToExecute fifo s = none)) (by decide)
  exact ⟨_, s, run, of_decide_eq_true blocked⟩

end OsModel.KernelScheduler
