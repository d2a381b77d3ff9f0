import OsModel.KernelScheduler.Places
import OsModel.Lib.Run

/-!
Every handler keeps every process in one place.

Each handler takes the process it is about out of its place, writes its record, and puts
it into the next place. The lemmas here say so for one handler at a time; the steps of
the scheduler put them together.
-/

namespace OsModel.KernelScheduler

open Lib

variable {ι : Type} [DecidableEq ι] {config : Config} {m : UInt32 → Mode} {s s' : State ι}
  {place : UInt32 → Option (Place ι)} {pid : UInt32} {cpu : ι}

/-! ### Blocking and going on -/

/-- A process whose wait is over. -/
theorem Inv.finishBlock (inv : Inv config m (some pid) s place)
    (unassigned : (s.process pid).cpu = none)
    (settled : (s.process pid).pendingMemorySyscall = false) (known : pid ∈ s.listProcesses) :
    ∃ place', Inv config m none (finishBlock config s pid) place' := by
  have written : ∀ state blockProcesses, Inv config m (some pid)
      { processSetState s pid state with blockProcesses } place := by
    intro state blockProcesses
    have written := inv.write pid (fun p => { p with state }) rfl (absurd rfl)
      fun has => absurd has (by simp [unassigned])
    exact written.congr rfl
  obtain ⟨state, eq⟩ : ∃ state, processSetReady s pid = processSetState s pid state := ⟨_, rfl⟩
  unfold KernelScheduler.finishBlock
  rw [eq]
  dsimp only
  split
  · rename_i ready
    refine (written _ _).addProcessToReadyQueue ready ?_ ?_ known
    · simpa using unassigned
    · simpa using settled
  · rename_i unready
    refine ⟨place, (written _ _).drop ⟨unready, ?_, ?_⟩⟩
    · simpa using settled
    · simp [unassigned]

/-- A process that leaves its CPU and waits. -/
theorem Inv.blockProcess (inv : Inv config m (some pid) s place) :
    Inv config m (some pid) (blockProcess s pid) place := by
  have written := inv.write pid
    (fun p => { p with state := .block, cpu := none, startBlockTime := s.now })
    rfl (absurd rfl) fun has => absurd rfl has
  exact written.congr rfl

omit [DecidableEq ι] in
@[simp]
theorem process_blockProcess : (blockProcess s pid).process pid =
    { s.process pid with state := .block, cpu := none, startBlockTime := s.now } := by
  simp [blockProcess, removeFromExec]

/-- A process ends that leaves its CPU. -/
theorem Inv.exit (inv : Inv config m (some pid) s place)
    (settled : (s.process pid).pendingMemorySyscall = false) (execProcesses : List UInt32) :
    Inv config m none
      { s.setProcess pid fun p => { p with state := .exit, cpu := none } with execProcesses }
      place := by
  have written := inv.write pid (fun p => { p with state := .exit, cpu := none }) rfl (absurd rfl)
    fun has => absurd rfl has
  exact (written.drop ⟨by simp, by simpa using settled, by simp⟩).congr rfl

/-- A process ends and keeps what it has of a CPU. -/
theorem Inv.exitState (inv : Inv config m (some pid) s place)
    (settled : (s.process pid).pendingMemorySyscall = false)
    (keeps : (s.process pid).cpu ≠ none → (m pid).keepsCpu) :
    Inv config m none (processSetState s pid .exit) place := by
  have written := inv.write pid (fun p => { p with state := .exit }) rfl (absurd rfl)
    (inv.assigned pid)
  refine written.drop ⟨by simp, by simpa using settled, fun has => .inr ⟨keeps ?_, by simp⟩⟩
  simpa using has

/-! ### Mutexes -/

theorem Inv.mutexCreate {hand : Option UInt32} {name : String} (inv : Inv config m hand s place) :
    Inv config m hand (mutexCreate s name) place := by
  unfold KernelScheduler.mutexCreate
  split
  · exact inv
  · rename_i absent
    have unlisted : name ∉ s.listMutexes := fun mem => by
      have differs := List.find?_eq_none.mp absent name mem
      simp [stringEqualsIgnoreCase] at differs
    have empty := inv.unlisted name unlisted
    have fresh : Inv config m hand (s.setMutex name fun _ => ⟨false, none, []⟩) place :=
      inv.setMutex _ _ empty.symm
    refine fresh.frame ⟨fun _ => rfl, rfl, fun _ => id, fun before other out => ?_⟩
      fun b k => by cases k <;> rfl
    exact before other fun mem => out (List.mem_append_left _ mem)

theorem Inv.inheritPriority (inv : Inv config m none s place) (pid : UInt32)
    (owner : Option UInt32) :
    ∃ place', Inv config m none (inheritPriority config s pid owner) place' := by
  cases owner with
  | none => exact ⟨place, inv⟩
  | some owner =>
      simp only [KernelScheduler.inheritPriority]
      split
      · exact inv.requeueWithPriority _
      · exact ⟨place, inv⟩

/-- The lists a process has of its mutexes are not about where it is. -/
theorem Inv.ownMutexes {hand : Option UInt32} (inv : Inv config m hand s place)
    (pid : UInt32) (f : List String → List String) :
    Inv config m hand
      (s.setProcess pid fun p => { p with ownedMutexes := f p.ownedMutexes }) place :=
  inv.write _ _ rfl (fun out => (inv.fits pid out).congr rfl) (inv.assigned pid)

theorem Inv.mutexLock {name : String} (inv : Inv config m (some pid) s place)
    (fits : Fits config (m pid) (some (.cpu cpu)) (s.process pid)) (known : pid ∈ s.listProcesses)
    (listed : name ∈ s.listMutexes) :
    ∃ place', Inv config m none (mutexLock config s name pid) place' := by
  obtain ⟨executing, assigned, settled⟩ := fits
  unfold KernelScheduler.mutexLock
  simp only [assigned]
  split
  · refine Inv.sendPidToExecute ((inv.setMutex _ _ rfl).ownMutexes pid (· ++ [name])) ?_ ?_ ?_ known
    · simpa using executing
    · simpa using assigned
    · simpa using settled
  · split
    · exact inv.sendPidToExecute executing assigned settled known
    · have waiting : Inv config m none
          (KernelScheduler.blockProcess (s.setMutex name fun mutex =>
            { mutex with waitingProcesses := mutex.waitingProcesses ++ [pid] }) pid) _ :=
        (inv.blockProcess.putMutex listed (.inl (by simp)) (by simp) (by simpa using settled)
          known).congr rfl
      obtain ⟨place', inherited⟩ := waiting.inheritPriority pid (s.mutex name).lockedBy
      exact ⟨place', (inherited.makeAvailable cpu).congr rfl⟩

theorem Inv.restorePriority (inv : Inv config m none s place) (pid : UInt32) :
    ∃ place', Inv config m none (restorePriority config s pid) place' := by
  unfold KernelScheduler.restorePriority
  dsimp only
  split
  · exact inv.requeueWithPriority _
  · exact ⟨place, inv⟩

theorem Inv.handOver {name : String} (inv : Inv config m none s place) :
    ∃ place', Inv config m none (handOver config s name) place' := by
  unfold KernelScheduler.handOver
  split
  · rename_i free
    exact ⟨place, inv.setMutex _ _ rfl⟩
  · rename_i next rest waiting
    obtain ⟨⟨-, unassigned, settled⟩, known, taken⟩ := inv.takeMutex
      (f := fun _ => ⟨true, some next, rest⟩) waiting rfl
    obtain ⟨place', finished⟩ := (taken.ownMutexes next (· ++ [name])).finishBlock
      (by simpa using unassigned) (by simpa using settled) known
    dsimp only
    split
    · exact ⟨place', finished.congr rfl⟩
    · exact ⟨place', finished⟩

theorem Inv.mutexUnlock {name : String} (inv : Inv config m (some pid) s place)
    (fits : Fits config (m pid) (some (.cpu cpu)) (s.process pid)) (known : pid ∈ s.listProcesses) :
    ∃ place', Inv config m none (mutexUnlock config s name pid) place' := by
  obtain ⟨executing, assigned, settled⟩ := fits
  unfold KernelScheduler.mutexUnlock
  split
  · dsimp only
    rw [assigned]
    obtain ⟨place₁, sent⟩ := inv.sendPidToExecute executing assigned settled known
    obtain ⟨place₂, restored⟩ := (sent.ownMutexes pid (·.erase name)).restorePriority pid
    exact restored.handOver
  · exact ⟨place, inv.drop ⟨by simp [executing], settled, fun _ => .inl executing⟩⟩

/-! ### IO -/

theorem Inv.sleepSyscallManager {sleepTime : UInt32} (inv : Inv config m (some pid) s place)
    (settled : (s.process pid).pendingMemorySyscall = false) (known : pid ∈ s.listProcesses) :
    ∃ place', Inv config m none (sleepSyscallManager s pid cpu sleepTime) place' :=
  Inv.requestIo (.numeric pid sleepTime) (inv.blockProcess.makeAvailable cpu) .sleep
    (.inl (by simp [IoRequest.pid]))
    (by simp [IoRequest.pid])
    (by simpa [IoRequest.pid] using settled) known

theorem Inv.stdinSyscallManager {physicalAddress toRead : UInt32}
    (inv : Inv config m (some pid) s place)
    (settled : (s.process pid).pendingMemorySyscall = false) (known : pid ∈ s.listProcesses)
    (reads : toRead = 0 → (m pid).keepsCpu) :
    ∃ place', Inv config m none (stdinSyscallManager s pid cpu physicalAddress toRead) place' := by
  unfold KernelScheduler.stdinSyscallManager
  split
  · rename_i empty
    have ended : Inv config m none (processSetState (removeFromExec s pid) pid .exit) place :=
      (inv.exitState settled fun _ => reads empty).congr rfl
    exact ⟨place, ended.sendMemory _ rfl⟩
  · have blocked : Inv config m (some pid)
        { KernelScheduler.makeAvailable (KernelScheduler.blockProcess s pid) cpu with
          pendingIoStdinReading := s.pendingIoStdinReading ++ [⟨pid, physicalAddress, toRead⟩] }
        place :=
      (inv.blockProcess.makeAvailable cpu).congr rfl
    exact Inv.requestIo (.numeric pid toRead) blocked .stdin
      (.inl (by simp [IoRequest.pid]))
      (by simp [IoRequest.pid])
      (by simpa [IoRequest.pid] using settled) known

theorem Inv.stdoutSyscallManager {physicalAddress toRead : UInt32}
    (inv : Inv config m (some pid) s place)
    (settled : (s.process pid).pendingMemorySyscall = false) (known : pid ∈ s.listProcesses) :
    ∃ place', Inv config m none (stdoutSyscallManager s pid cpu physicalAddress toRead) place' := by
  refine ⟨_, (inv.blockProcess.makeAvailable cpu).putRequest _ rfl ⟨.inl ?_, ?_, ?_⟩ known⟩
  · simp
  · simp
  · simpa using settled

theorem Inv.ioFinishProcess (inv : Inv config m (some pid) s place) (io : Nat)
    (unassigned : (s.process pid).cpu = none)
    (settled : (s.process pid).pendingMemorySyscall = false) (known : pid ∈ s.listProcesses) :
    ∃ place', Inv config m none (ioFinishProcess config s pid io) place' := by
  unfold KernelScheduler.ioFinishProcess
  rw [if_pos known]
  obtain ⟨place', finished⟩ := inv.finishBlock unassigned settled known
  exact ⟨place', (finished.setIo io (fun d => { d with isAvailable := true }) rfl).congr rfl⟩

theorem Inv.handleIo {io : Nat} {request : IoRequest} {rest : List IoRequest} {value : String}
    (inv : Inv config m none s place) (next : (s.io io).requests = request :: rest) :
    ∃ place', Inv config m none
      (handleIo config (s.setIo io fun d => { d with requests := rest }) io request value)
      place' := by
  obtain ⟨⟨waits, unassigned, settled⟩, known, taken⟩ := inv.takeDevice next
  unfold KernelScheduler.handleIo
  dsimp only
  split
  · obtain ⟨place', finished⟩ := taken.ioFinishProcess io unassigned settled known
    exact finished.handleNextOperation
  · obtain ⟨place', finished⟩ := taken.ioFinishProcess io unassigned settled known
    exact finished.handleNextOperation
  · split
    · refine ⟨_, taken.drop ⟨?_, settled, fun has => absurd unassigned has⟩⟩
      rcases waits with state | state | ⟨-, state⟩
      all_goals
        simp [state]
    · rename_i pending found
      have written := Inv.putRequest (s := { s.setIo io fun d => { d with requests := rest } with
          pendingIoStdinReading := s.pendingIoStdinReading.erase pending
          writeThreads := s.writeThreads ++ [request.pid] })
        (taken.congr rfl)
        (.ioMemoryWrite request.pid pending.physicalAddress pending.size value) rfl
        ⟨waits, unassigned, settled⟩ known
      exact Inv.handleNextOperation
        (written.setIo io (fun d => { d with isAvailable := true }) rfl)

/-- What a device has is lost. -/
theorem Inv.clearIo (inv : Inv config m none s place) (io : Nat) (f : Io → Io)
    (empty : (f (s.io io)).requests = []) : ∃ place', Inv config m none (s.setIo io f) place' := by
  have others : ∀ b k, k ≠ .device io → (s.setIo io f).tokens b k = s.tokens b k := fun b k ne =>
    tokens_setIo_of_ne ne
  have gone : ∀ b, (s.setIo io f).tokens b (.device io) = 0 := fun b => by
    simp [State.tokens, empty]
  have located := inv.located.clear others gone
  refine ⟨_, inv.carry (.of_eq rfl rfl rfl rfl rfl) located ?_ (by simp) ?_⟩
  · intro pid _
    have fits := inv.fit pid
    split
    · rename_i here
      rw [here] at fits
      obtain ⟨waits, unassigned, settled⟩ := fits
      refine ⟨?_, settled, fun has => absurd unassigned has⟩
      rcases waits with state | state | ⟨-, state⟩ <;> simp [state]
    · exact fits
  · intro pid there
    split at there
    · exact absurd rfl there
    · exact inv.known pid there

/-! ### Kernel Memory -/

theorem Inv.requestSegment {message : ToMemory} (inv : Inv config m (some pid) s place)
    (asks : message.request = some (pid, .segment)) (executing : (s.process pid).state = .exec)
    (known : pid ∈ s.listProcesses) :
    ∃ place', Inv config m none (requestSegment s pid message) place' := by
  have written := inv.write pid (fun p => { p with pendingMemorySyscall := true }) rfl (absurd rfl)
    (inv.assigned pid)
  exact ⟨_, written.putRequest _ asks ⟨by simpa using executing, by simp⟩ known⟩

theorem Inv.memAllocSyscallManager {segmentId segmentSize : UInt32}
    (inv : Inv config m (some pid) s place) (executing : (s.process pid).state = .exec)
    (settled : (s.process pid).pendingMemorySyscall = false) (known : pid ∈ s.listProcesses) :
    ∃ place', Inv config m none (memAllocSyscallManager s pid segmentId segmentSize) place' := by
  unfold KernelScheduler.memAllocSyscallManager
  split
  · exact inv.requestSegment rfl executing known
  · exact ⟨place, inv.drop ⟨by simp [executing], settled, fun _ => .inl executing⟩⟩

theorem Inv.memFreeSyscallManager {segmentId : UInt32} (inv : Inv config m (some pid) s place)
    (executing : (s.process pid).state = .exec) (known : pid ∈ s.listProcesses) :
    ∃ place', Inv config m none (memFreeSyscallManager s pid segmentId) place' := by
  unfold KernelScheduler.memFreeSyscallManager
  rw [if_pos known]
  exact inv.requestSegment rfl executing known

theorem Inv.terminateProcess (inv : Inv config m (some pid) s place)
    (settled : (s.process pid).pendingMemorySyscall = false) :
    Inv config m none (terminateProcess config s pid cpu) place := by
  have written : Inv config m (some pid)
      (removeFromExec (s.setProcess pid fun p => { p with state := .exit, cpu := none }) pid)
      place :=
    (inv.write pid (fun p => { p with state := .exit, cpu := none }) rfl (absurd rfl)
      fun has => absurd rfl has).congr rfl
  unfold KernelScheduler.terminateProcess
  dsimp only
  rw [written.removeProcessFromReadyQueue_hand]
  have ended := (inv.exit settled (s.execProcesses.erase pid)).setCpu cpu
    (fun c => { c with isAvailable := c.isAvailable || !c.isEvicting })
    (fun staged => staged.available _) fun _ => rfl
  exact (Inv.sendMemory ended (.processEnd pid) rfl).congr rfl

theorem Inv.handleSegmentResult {segmentId : UInt32} {result : SegmentResult}
    {rest : List FromMemory} (inv : Inv config m none s place)
    (next : s.memory.fromMemory = .segmentResult pid segmentId result :: rest) :
    ∃ place', Inv config m none
      (handleSegmentResult config { s with memory.fromMemory := rest } pid result) place' := by
  obtain ⟨⟨executing, -⟩, known, taken⟩ := inv.takeAnswer next rfl
  have written := taken.write pid (fun p => { p with pendingMemorySyscall := false }) rfl
    (absurd rfl) (taken.assigned pid)
  unfold KernelScheduler.handleSegmentResult
  rw [if_pos known]
  dsimp only
  split
  · rename_i unassigned
    split
    · obtain ⟨place', ready⟩ := written.makeReady (by simpa using unassigned) (by simp) known
      exact ⟨place', ready.congr rfl⟩
    · have ended := written.exitState (by simp) fun has => absurd (by simpa using unassigned) has
      exact ⟨_, (Inv.sendMemory (ended.congr rfl) _ rfl).congr rfl⟩
  · rename_i cpu assigned
    split
    · exact written.sendPidToExecute (by simpa using executing) (by simpa using assigned) (by simp)
        known
    · exact ⟨_, written.terminateProcess (by simp)⟩

theorem Inv.stdoutWaitMemoryRead {value : String} {rest : List FromMemory}
    (inv : Inv config m none s place)
    (next : s.memory.fromMemory = .ioMemoryRead pid value :: rest)
    (ends : value = "" → (m pid).endsWaiting) :
    ∃ place', Inv config m none
      (stdoutWaitMemoryRead { s with memory.fromMemory := rest } pid value) place' := by
  obtain ⟨⟨waits, unassigned, settled⟩, known, taken⟩ := inv.takeAnswer next rfl
  unfold KernelScheduler.stdoutWaitMemoryRead
  dsimp only
  split
  · rename_i empty
    have written := taken.write pid (fun p => { p with state := .exit }) rfl (absurd rfl)
      fun has => absurd has (by simp [unassigned])
    exact Inv.requestIo (.string pid value) (Inv.sendMemory written _ rfl) .stdout
      (.inr (.inr ⟨ends empty, by simp [IoRequest.pid]⟩))
      (by simpa [IoRequest.pid] using unassigned) (by simpa [IoRequest.pid] using settled) known
  · exact Inv.requestIo (.string pid value) taken .stdout waits unassigned settled known

theorem Inv.handleIoMemoryWrite {writeSuccesful : Bool} {rest : List FromMemory}
    (inv : Inv config m none s place)
    (next : s.memory.fromMemory = .ioMemoryWrite pid writeSuccesful :: rest) :
    ∃ place', Inv config m none
      (handleIoMemoryWrite { s with memory.fromMemory := rest } pid writeSuccesful) place' := by
  obtain ⟨⟨waits, unassigned, settled⟩, known, taken⟩ := inv.takeAnswer next rfl
  unfold KernelScheduler.handleIoMemoryWrite
  split
  · exact taken.putWritten waits unassigned settled known
  · have ended := taken.exitState settled fun has => absurd unassigned has
    exact ⟨_, Inv.sendMemory ended _ rfl⟩

theorem Inv.waitProcessCreateConfirmation {rest : List FromMemory}
    (inv : Inv config m none s place)
    (next : s.memory.fromMemory = .processCreate pid :: rest) :
    ∃ place', Inv config m none
      (waitProcessCreateConfirmation config { s with memory.fromMemory := rest } pid) place' := by
  obtain ⟨⟨-, unassigned, settled⟩, known, taken⟩ := inv.takeAnswer next rfl
  unfold KernelScheduler.waitProcessCreateConfirmation
  rw [if_pos known]
  obtain ⟨place', ready⟩ := taken.makeReady unassigned settled known
  exact ⟨place', ready.congr rfl⟩

theorem Inv.waitMemoryWriteConfirmation (inv : Inv config m none s place)
    (posted : 0 < (s.process pid).memoryRequestSem) :
    ∃ place', Inv config m none (waitMemoryWriteConfirmation config s pid) place' := by
  obtain ⟨⟨-, unassigned, settled⟩, known, taken⟩ := inv.takeWritten posted
  obtain ⟨place', finished⟩ := taken.finishBlock (by simpa using unassigned)
    (by simpa using settled) known
  exact ⟨place', finished.congr rfl⟩

/-! ### Syscalls -/

theorem Inv.endProcess (inv : Inv config m (some pid) s place)
    (settled : (s.process pid).pendingMemorySyscall = false) (known : pid ∈ s.listProcesses) :
    Inv config m none (endProcess s pid cpu) place := by
  unfold KernelScheduler.endProcess
  rw [if_pos known]
  have ended : Inv config m none
      (removeFromExec (s.setProcess pid fun p => { p with state := .exit, cpu := none }) pid)
      place :=
    inv.exit settled (s.execProcesses.erase pid)
  exact ((ended.makeAvailable cpu).sendMemory (.processEnd pid) rfl).congr rfl

theorem Inv.unknownMutex (inv : Inv config m (some pid) s place)
    (settled : (s.process pid).pendingMemorySyscall = false) (keeps : (m pid).keepsCpu) :
    Inv config m none (unknownMutex s pid cpu) place := by
  have given : Inv config m (some pid) (removeFromExec (KernelScheduler.makeAvailable s cpu) pid)
      place :=
    (inv.makeAvailable cpu).congr rfl
  have ended := given.exitState settled fun _ => keeps
  exact (ended.sendMemory (.processEnd pid) rfl).congr rfl

/-- The syscall ends its process, which keeps its CPU. -/
def Syscall.KeepsCpu (s : State ι) : Syscall → Prop
  | .mutexLock name | .mutexUnlock name => getMutexByName s name = none
  | .stdin _ toRead => toRead = 0
  | _ => False

omit [DecidableEq ι] in
theorem getMutexByName_mem {name mutex : String} (found : getMutexByName s name = some mutex) :
    mutex ∈ s.listMutexes :=
  List.mem_of_find?_eq_some found

theorem Inv.handleSyscall {syscall : Syscall} (inv : Inv config m (some pid) s place)
    (fits : Fits config (m pid) (some (.cpu cpu)) (s.process pid)) (known : pid ∈ s.listProcesses)
    (keeps : syscall.KeepsCpu s → (m pid).keepsCpu) :
    ∃ place', Inv config m none (handleSyscall config s cpu pid syscall) place' := by
  obtain ⟨executing, assigned, settled⟩ := fits
  cases syscall with
  | processEnd | segmentationFault => exact ⟨place, inv.endProcess settled known⟩
  | mutexCreate name =>
      have process : (KernelScheduler.mutexCreate s name).process = s.process := by
        unfold KernelScheduler.mutexCreate
        split <;> rfl
      refine inv.mutexCreate.sendPidToExecute ?_ ?_ ?_ ?_
      · rw [process, executing]
      · rw [process, assigned]
      · rw [process, settled]
      · unfold KernelScheduler.mutexCreate
        split <;> exact known
  | mutexLock name =>
      simp only [KernelScheduler.handleSyscall, if_pos known]
      split
      · rename_i mutex found
        exact inv.mutexLock ⟨executing, assigned, settled⟩ known (getMutexByName_mem found)
      · rename_i absent
        exact ⟨place, inv.unknownMutex settled (keeps absent)⟩
  | mutexUnlock name =>
      simp only [KernelScheduler.handleSyscall, if_pos known]
      split
      · exact inv.mutexUnlock ⟨executing, assigned, settled⟩ known
      · rename_i absent
        exact ⟨place, inv.unknownMutex settled (keeps absent)⟩
  | sleep sleepTime =>
      simp only [KernelScheduler.handleSyscall, if_pos known]
      exact inv.sleepSyscallManager settled known
  | stdin physicalAddress toRead =>
      simp only [KernelScheduler.handleSyscall, if_pos known]
      exact inv.stdinSyscallManager settled known keeps
  | stdout physicalAddress toRead =>
      simp only [KernelScheduler.handleSyscall, if_pos known]
      exact inv.stdoutSyscallManager settled known
  | memAlloc segmentId segmentSize => exact inv.memAllocSyscallManager executing settled known
  | memFree segmentId => exact inv.memFreeSyscallManager executing known

/-! ### New processes -/

theorem Inv.listProcess (inv : Inv config m none s place) (pid : UInt32) :
    Inv config m none { s with listProcesses := s.listProcesses ++ [pid] } place where
  located := inv.located
  fits := inv.fits
  nowhere := inv.nowhere
  known other here := List.mem_append_left _ (inv.known other here)
  assigned other has := List.mem_append_left _ (inv.assigned other has)
  staged := inv.staged
  unlisted := inv.unlisted

theorem Inv.longTermScheduler {path : String} {priority : UInt8}
    (inv : Inv config m none s place) (created : longTermScheduler s path priority = some s') :
    ∃ place', Inv config m none s' place' := by
  simp only [KernelScheduler.longTermScheduler] at created
  split at created
  · simp at created
  · rename_i fresh
    obtain rfl := Option.some.inj created
    have nowhere : place s.currentMaxPid = none := by
      by_contra here
      exact fresh (inv.known _ here)
    have posted : (s.process s.currentMaxPid).memoryRequestSem = 0 := by
      have none := inv.located.held_eq_zero nowhere (.memory .access)
      simp only [State.tokens, if_true] at none
      omega
    have written := ((inv.listProcess s.currentMaxPid).lift nowhere).write s.currentMaxPid
      (fun _ => createProcess priority) posted.symm (absurd rfl) (absurd rfl)
    refine ⟨_, (written.putRequest (.processCreate s.currentMaxPid path) rfl ?_ ?_).congr rfl⟩
    · simp [Fits, createProcess]
    · exact List.mem_append_right _ (List.mem_singleton.mpr rfl)

end OsModel.KernelScheduler
