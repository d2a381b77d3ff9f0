import OsModel.Dispatch.State

/-!
The threads of the Kernel Scheduler, one critical section a step: the short-term
scheduler, the thread of each CPU, the threads that wait for the confirmation of
an eviction, the thread of Kernel Memory and the compaction threads; and what the
CPUs and Kernel Memory send them.

That a CPU confirms an eviction only after its process has stopped is assumed here: a
post of `sem_eviction_ready` that nobody has waited for lets the threads of a CPU
(`Cpu.Threads`) confirm the next eviction early, and no theorem connects the two.
-/

namespace OsModel.Dispatch

/-- How a mutex syscall finds the mutex: free or the caller's own; taken by
another process; not in `list_mutexes`; or not the caller's to unlock. -/
inductive MutexCase where
  | granted
  | taken
  | unknown
  | refused
  deriving DecidableEq, Repr

/-- What can happen next. -/
inductive Action (ι : Type) where
  /-- A CPU connects. -/
  | connect (cpu : ι)
  /-- `wait_process_create_confirmation`: a process is created. -/
  | created (pid : UInt32)
  /-- What a blocked process waits for is over, and it is in memory. -/
  | wake (pid : UInt32)
  /-- The short-term scheduler wakes up and reads `can_schedule`. -/
  | startRound
  /-- It assigns a CPU to a process, before `send_pid_to_execute`. -/
  | pick (pid : UInt32) (cpu : ι)
  /-- It finds no process or no CPU. -/
  | endRound
  /-- `send_pid_to_execute` reads `is_evicting`. -/
  | check (t : Thread ι)
  /-- `send_pid_to_execute` sends `PROCESS_EXECUTE`. -/
  | send (t : Thread ι)
  /-- A thread ends a process, or marks a CPU as available. -/
  | proceed (t : Thread ι)
  /-- `evict_process`, by the quantum or by a process of higher priority. -/
  | evict (cpu : ι)
  /-- It sends `PROCESS_EVICT`. -/
  | sendEvict (cpu : ι)
  /-- `wait_confirmation_thread_and_handle_state`, after `sem_wait`. -/
  | confirm (cpu : ι)
  /-- A CPU reads `PROCESS_EXECUTE`. -/
  | execute (cpu : ι)
  /-- The process on a CPU stops with a syscall. -/
  | stop (cpu : ι) (syscall : Syscall)
  /-- A CPU reads `PROCESS_EVICT`, stops its process if it has one, and confirms. -/
  | evicted (cpu : ι)
  /-- `cpu_handler` reads a syscall. -/
  | handle (cpu : ι) (mutex : MutexCase)
  /-- `cpu_handler` reads `CONFIRMATION`. -/
  | post (cpu : ι)
  /-- `handle_cpu_disconnection`. -/
  | disconnect (cpu : ι)
  /-- `SEGMENT_RESULT`. -/
  | segmentResult (pid : UInt32) (ok : Bool)
  /-- `COMPACTION_REQUEST`. -/
  | compactionRequest
  /-- A compaction thread runs `can_schedule_write(false)`. -/
  | close (i : Nat)
  /-- It reads `exec_processes` in `evict_all_processes`. -/
  | collect (i : Nat)
  /-- It runs the first half of `send_process_evict` for the next CPU. -/
  | mark (i : Nat)
  /-- It sends `PROCESS_EVICT` to the CPU. -/
  | sendEvictAll (i : Nat)
  /-- It handles the next confirmation. -/
  | await (i : Nat)
  /-- It sends `COMPACTION_READY`. -/
  | ready (i : Nat)
  /-- `COMPACTION_FINISHED`. -/
  | finished
  /-- A compaction thread runs `can_schedule_write(true)` and ends. -/
  | reopen (i : Nat)
  deriving DecidableEq, Repr

variable {ι : Type} [DecidableEq ι]

/-- A process leaves its CPU with a syscall that ends it
(`PROCESS_END`, `SEGMENTATION_FAULT`). -/
def endSyscall (s : State ι) (pid : UInt32) (cpu : ι) : State ι :=
  let s' := s.updateProcess pid fun p => { p with state := .exit, cpu := none }
  { s' with execProcesses := s.execProcesses.erase pid }.setCpu cpu
    { s.cpus cpu with isAvailable := true }

/-- A process leaves its CPU and waits; then the thread releases the CPU. -/
def blockSyscall (s : State ι) (t : Thread ι) (pid : UInt32) (cpu : ι) : State ι :=
  let s' := s.updateProcess pid fun p => { p with state := .block, cpu := none }
  { s' with execProcesses := s.execProcesses.erase pid }.setThread t (.release cpu)

/-- The first section of `send_pid_to_execute(pid, process->cpu)`, up to its
argument: without a CPU it returns at once. -/
def resume (s : State ι) (t : Thread ι) (pid : UInt32) : Option ι → State ι
  | none => s
  | some cpu => s.setThread t (.sendToExecute pid cpu false)

/-- A mutex that is not in `list_mutexes`: the CPU is available, then the process
ends. -/
def unknownMutex (s : State ι) (t : Thread ι) (pid : UInt32) (cpu : ι) : State ι :=
  (s.setCpu cpu { s.cpus cpu with isAvailable := true }).setThread t (.endProcess pid cpu)

/-- `mem_alloc_syscall_manager` and `mem_free_syscall_manager`. -/
def memorySyscall (s : State ι) (pid : UInt32) : State ι :=
  { s.updateProcess pid fun p => { p with pendingMemorySyscall := true } with
    memoryRequests := s.memoryRequests ++ [pid] }

/-- What `cpu_handler` does with a syscall of a process it knows. -/
def handleSyscall (s : State ι) (cpu : ι) (p : Process ι) (mutex : MutexCase) :
    Syscall → State ι
  | .processEnd | .segmentationFault => endSyscall s p.pid cpu
  | .mutexCreate => resume s (.cpuHandler cpu) p.pid (some cpu)
  | .mutexLock =>
      match mutex, p.cpu with
      | .granted, assigned => resume s (.cpuHandler cpu) p.pid assigned
      | .taken, some assigned => blockSyscall s (.cpuHandler cpu) p.pid assigned
      | .unknown, _ => unknownMutex s (.cpuHandler cpu) p.pid cpu
      | _, _ => s
  | .mutexUnlock =>
      match mutex with
      | .granted => resume s (.cpuHandler cpu) p.pid p.cpu
      | .unknown => unknownMutex s (.cpuHandler cpu) p.pid cpu
      | _ => s
  | .stdin toRead =>
      if toRead = 0 then
        { s.updateProcess p.pid fun p => { p with state := .exit } with
          execProcesses := s.execProcesses.erase p.pid }
      else blockSyscall s (.cpuHandler cpu) p.pid cpu
  | .sleep | .stdout => blockSyscall s (.cpuHandler cpu) p.pid cpu
  | .memAlloc segmentSize => if segmentSize = 0 then s else memorySyscall s p.pid
  | .memFree => memorySyscall s p.pid

/-- What a confirmed eviction does to the process that the CPU had. -/
def requeue (s : State ι) (p : Process ι) : State ι :=
  let s' := { s.updateProcess p.pid fun p => { p with cpu := none } with
    execProcesses := s.execProcesses.erase p.pid }
  if p.pendingMemorySyscall then s' else s'.makeReady p.pid

/-- The CPU after its eviction has been confirmed: `outstanding` is over. -/
def Cpu.confirmed (cpu : Cpu) (free : Bool) : Cpu :=
  { cpu with
    isAvailable := free || cpu.isAvailable
    isEvicting := !free && cpu.isEvicting
    responseSem := cpu.responseSem - 1
    evictor := none
    outstanding := [] }

/-- `handle_segment_result`, up to where it releases `scheduler_mutex`. -/
def handleSegmentResult (s : State ι) (p : Process ι) (ok : Bool) : State ι :=
  let s' := s.updateProcess p.pid fun p => { p with pendingMemorySyscall := false }
  match p.cpu with
  | some cpu =>
      s'.setThread .memoryHandler
        (if ok then .sendToExecute p.pid cpu false else .endProcess p.pid cpu)
  | none =>
      if ok then
        if p.state = .exec then s'.makeReady p.pid else s'
      else
        { s'.updateProcess p.pid fun p => { p with state := .exit } with
          execProcesses := s.execProcesses.erase p.pid }

def handleCpuDisconnection (s : State ι) (cpu : ι) : State ι :=
  let closed := s.setCpu cpu
    { s.cpus cpu with
      connection := .closed, toCpu := [], running := none, outstanding := [] }
  match getProcessFromCpu s cpu with
  | none => closed
  | some p =>
      { closed.updateProcess p.pid fun p => { p with state := .ready, cpu := none } with
        readyQueue := s.readyQueue ++ [p.pid]
        execProcesses := s.execProcesses.erase p.pid }

/-- The thread ends the process, or marks the CPU as available: `kernel_memory_handler`
takes the process out of every list and leaves alone a CPU that is being evicted. -/
def proceed (s : State ι) : Thread ι → Option (State ι)
  | .memoryHandler =>
      match s.threads .memoryHandler with
      | .endProcess pid cpu =>
          some ({ s.updateProcess pid fun p => { p with state := .exit, cpu := none } with
            execProcesses := s.execProcesses.erase pid
            readyQueue := s.readyQueue.erase pid }.setThread .memoryHandler (.release cpu))
      | .release cpu =>
          let now := s.cpus cpu
          some ((s.setCpu cpu { now with isAvailable := now.isAvailable || !now.isEvicting }).setThread
            .memoryHandler .idle)
      | _ => none
  | t =>
      match s.threads t with
      | .endProcess pid _ =>
          some ({ s.updateProcess pid fun p => { p with state := .exit } with
            execProcesses := s.execProcesses.erase pid }.setThread t .idle)
      | .release cpu =>
          some ((s.setCpu cpu { s.cpus cpu with isAvailable := true }).setThread t .idle)
      | _ => none

/-- Where a compaction thread is after a step. -/
def setCompaction (s : State ι) (i : Nat) (now : Compaction ι) : State ι :=
  { s with compactions := s.compactions.set i now }

/-- One step of the scheduler, a CPU or Kernel Memory. -/
def step (s : State ι) : Action ι → Option (State ι)
  | .connect cpu =>
      match (s.cpus cpu).connection with
      | .absent => some (s.setCpu cpu .create)
      | _ => none
  | .created pid =>
      match getProcessFromPid s pid with
      | some _ => none
      | none =>
          some { s with
            listProcesses := s.listProcesses ++ [⟨pid, .ready, none, false⟩]
            readyQueue := s.readyQueue ++ [pid] }
  | .wake pid =>
      match getProcessFromPid s pid with
      | some p => if p.state = .block then some (s.makeReady pid) else none
      | none => none
  | .startRound => if s.canSchedule && !s.inRound then some { s with inRound := true } else none
  | .pick pid cpu =>
      match getProcessFromPid s pid with
      | none => none
      | some p =>
          let now := s.cpus cpu
          if s.inRound ∧ s.threads .shortTerm = .idle ∧ pid ∈ s.readyQueue ∧ p.state = .ready ∧
              now.connection = .connected ∧ now.isAvailable ∧ !now.isEvicting then
            let s' := s.updateProcess pid fun p => { p with state := .exec, cpu := some cpu }
            some (({ s' with
              readyQueue := s.readyQueue.erase pid
              execProcesses := s.execProcesses ++ [pid] }.setCpu cpu
                { now with isAvailable := false }).setThread .shortTerm
                  (.sendToExecute pid cpu false))
          else none
  | .endRound =>
      if s.inRound ∧ s.threads .shortTerm = .idle then some { s with inRound := false } else none
  | .check t =>
      match s.threads t with
      | .sendToExecute pid cpu false =>
          some (s.setThread t
            (if (s.cpus cpu).isEvicting then .idle else .sendToExecute pid cpu true))
      | _ => none
  | .send t =>
      match s.threads t with
      | .sendToExecute pid cpu true =>
          let now := s.cpus cpu
          if now.connection = .connected then
            some ((s.setCpu cpu
              { now with
                toCpu := now.toCpu ++ [.processExecute pid]
                outstanding := now.outstanding ++ [pid] }).setThread t .idle)
          else some (s.setThread t .idle)
      | _ => none
  | .proceed t => proceed s t
  | .evict cpu =>
      let now := s.cpus cpu
      if now.connection = .connected then
        if now.isEvicting then some s
        else some (s.setCpu cpu { now with isEvicting := true, evictor := some ⟨false, false⟩ })
      else none
  | .sendEvict cpu =>
      let now := s.cpus cpu
      if now.connection = .connected ∧ now.evictor = some ⟨false, false⟩ then
        some (s.setCpu cpu
          { now with toCpu := now.toCpu ++ [.processEvict], evictor := some ⟨false, true⟩ })
      else none
  | .confirm cpu =>
      let now := s.cpus cpu
      if now.connection = .connected ∧ now.evictor = some ⟨false, true⟩ ∧ 0 < now.responseSem then
        let s' := s.setCpu cpu (now.confirmed true)
        match getProcessFromCpu s cpu with
        | none => some s'
        | some p => some (requeue s' p)
      else none
  | .execute cpu =>
      let now := s.cpus cpu
      match now.toCpu, now.running with
      | .processExecute pid :: rest, none =>
          some (s.setCpu cpu { now with toCpu := rest, running := some pid })
      | _, _ => none
  | .stop cpu syscall =>
      let now := s.cpus cpu
      match now.running with
      | none => none
      | some pid =>
          some (s.setCpu cpu
            { now with
              running := none
              toScheduler := now.toScheduler ++ [.syscall pid syscall] })
  | .evicted cpu =>
      let now := s.cpus cpu
      match now.toCpu with
      | .processEvict :: rest =>
          some (s.setCpu cpu
            { now with
              toCpu := rest
              running := none
              toScheduler := now.toScheduler ++ [.confirmation] })
      | _ => none
  | .handle cpu mutex =>
      let now := s.cpus cpu
      match s.threads (.cpuHandler cpu), now.toScheduler with
      | .idle, .syscall pid syscall :: rest =>
          let s' := s.setCpu cpu
            { now with toScheduler := rest, outstanding := now.outstanding.erase pid }
          match getProcessFromPid s pid with
          | none => some s'
          | some p => some (handleSyscall s' cpu p mutex syscall)
      | _, _ => none
  | .post cpu =>
      let now := s.cpus cpu
      match s.threads (.cpuHandler cpu), now.toScheduler with
      | .idle, .confirmation :: rest =>
          some (s.setCpu cpu
            { now with toScheduler := rest, responseSem := now.responseSem + 1 })
      | _, _ => none
  | .disconnect cpu =>
      let now := s.cpus cpu
      if now.connection = .connected ∧ s.threads (.cpuHandler cpu) = .idle ∧
          now.toScheduler = [] then
        some (handleCpuDisconnection s cpu)
      else none
  | .segmentResult pid ok =>
      if s.threads .memoryHandler = .idle ∧ pid ∈ s.memoryRequests then
        let s' := { s with memoryRequests := s.memoryRequests.erase pid }
        match getProcessFromPid s pid with
        | none => some s'
        | some p => some (handleSegmentResult s' p ok)
      else none
  | .compactionRequest => some { s with compactions := s.compactions ++ [.requested] }
  | .close i =>
      match s.compactions[i]? with
      | some .requested => some (setCompaction { s with canSchedule := false } i .closed)
      | _ => none
  | .collect i =>
      match s.compactions[i]? with
      | some .closed =>
          let cpus := s.execProcesses.filterMap fun pid =>
            (getProcessFromPid s pid).bind Process.cpu
          some (setCompaction s i (.evictAll cpus none []))
      | _ => none
  | .mark i =>
      match s.compactions[i]? with
      | some (.evictAll (cpu :: todo) none evicted) =>
          let now := s.cpus cpu
          if now.connection = .connected ∧ !now.isEvicting then
            some (setCompaction
              (s.setCpu cpu { now with isEvicting := true, evictor := some ⟨true, false⟩ })
              i (.evictAll todo (some cpu) evicted))
          else some (setCompaction s i (.evictAll todo none evicted))
      | _ => none
  | .sendEvictAll i =>
      match s.compactions[i]? with
      | some (.evictAll todo (some cpu) evicted) =>
          let now := s.cpus cpu
          let s' := setCompaction s i (.evictAll todo none (evicted ++ [cpu]))
          if now.connection = .connected then
            if now.evictor = some ⟨true, false⟩ then
              some (s'.setCpu cpu
                { now with toCpu := now.toCpu ++ [.processEvict], evictor := some ⟨true, true⟩ })
            else none
          else some s'
      | _ => none
  | .await i =>
      match s.compactions[i]? with
      | some (.evictAll [] none (cpu :: rest)) =>
          let now := s.cpus cpu
          if now.connection = .connected ∧ now.evictor = some ⟨true, true⟩ ∧
              0 < now.responseSem then
            match getProcessFromCpu s cpu with
            | none =>
                some (setCompaction (s.setCpu cpu (now.confirmed false)) i (.evictAll [] none rest))
            | some p =>
                some (setCompaction (requeue (s.setCpu cpu (now.confirmed true)) p) i
                  (.evictAll [] none rest))
          else none
      | _ => none
  | .ready i =>
      match s.compactions[i]? with
      | some (.evictAll [] none []) =>
          some (setCompaction { s with compacting := s.compacting + 1 } i .ready)
      | _ => none
  | .finished =>
      if 0 < s.compacting then
        some { s with
          compacting := s.compacting - 1
          compactionFinishedSem := s.compactionFinishedSem + 1 }
      else none
  | .reopen i =>
      match s.compactions[i]? with
      | some .ready =>
          if 0 < s.compactionFinishedSem then
            some { s with
              canSchedule := true
              compactionFinishedSem := s.compactionFinishedSem - 1
              compactions := s.compactions.eraseIdx i }
          else none
      | _ => none

/-- The scheduler as it starts: no CPU and no process. -/
def initial : State ι where
  listProcesses := []
  readyQueue := []
  execProcesses := []
  canSchedule := true
  inRound := false
  cpus := fun _ => .absent
  threads := fun _ => .idle
  memoryRequests := []
  compactions := []
  compacting := 0
  compactionFinishedSem := 0

end OsModel.Dispatch
