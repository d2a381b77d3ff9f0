import OsModel.Dispatch.Places
import OsModel.KernelScheduler.Ownership
import OsModel.Lib.Refinement

/-!
The handlers of the Kernel Scheduler as critical sections.

`KernelScheduler.step` takes a whole handler as one step, and `Dispatch.step` one critical
section of a thread. What a handler does is what some sections do, one after the other and with
nobody in between; which process and which CPU they pick, and how a mutex is found, is what the
handler has computed.

Here are what the sections see of the scheduler, and the handlers of its CPUs;
`System.SchedulerRefinement` has the other handlers, and runs.
-/

namespace OsModel.SchedulerSections

open Lib KernelScheduler

variable {ι : Type}

/-! ### What the sections see -/

/-- A process that waits may be in memory or suspended. One that is `NEW` is not seen. -/
def stateSeen : ProcessState → Option Dispatch.ProcessState
  | .new => none
  | .ready => some .ready
  | .exec => some .exec
  | .block | .suspBlock | .suspReady => some .block
  | .exit => some .exit

/-- The state of a process, its CPU, and whether it waits for a segment. -/
structure Record (ι : Type) where
  state : Dispatch.ProcessState
  cpu : Option ι
  pendingMemorySyscall : Bool

def recordSeen (p : Process ι) : Option (Record ι) :=
  (stateSeen p.state).map fun state => ⟨state, p.cpu, p.pendingMemorySyscall⟩

def connectionSeen : Connection → Dispatch.Connection
  | .absent => .absent
  | .connected => .connected
  | .closed => .closed

theorem connectionSeen_connected {connection : Connection} :
    connectionSeen connection = .connected ↔ connection = .connected := by
  cases connection <;> simp [connectionSeen]

def orderSeen : ToCpu → Dispatch.ToCpu
  | .processExecute pid => .processExecute pid
  | .processEvict _ => .processEvict

def syscallSeen : Syscall → Dispatch.Syscall
  | .processEnd => .processEnd
  | .segmentationFault => .segmentationFault
  | .mutexCreate _ => .mutexCreate
  | .mutexLock _ => .mutexLock
  | .mutexUnlock _ => .mutexUnlock
  | .sleep _ => .sleep
  | .stdin _ toRead => .stdin toRead
  | .stdout .. => .stdout
  | .memAlloc _ segmentSize => .memAlloc segmentSize
  | .memFree _ => .memFree

def messageSeen : ToScheduler → Option Dispatch.ToScheduler
  | .processCreate .. => none
  | .syscall pid syscall => some (.syscall pid (syscallSeen syscall))
  | .confirmation => some .confirmation

/-- A thread that waits has sent `PROCESS_EVICT`. -/
def evictorSeen : Evictor → Dispatch.Evictor
  | .handleState => ⟨false, true⟩
  | .all => ⟨true, true⟩

def cpuSeen (c : Cpu) (outstanding : List UInt32) : Dispatch.Cpu where
  connection := connectionSeen c.connection
  isAvailable := c.isAvailable
  isEvicting := c.isEvicting
  responseSem := c.responseSem
  evictor := c.evictor.map evictorSeen
  toCpu := c.toCpu.map orderSeen
  running := c.running
  toScheduler := c.toScheduler.filterMap messageSeen
  outstanding

theorem cpuSeen_connected {c : Cpu} {outstanding : List UInt32} :
    (cpuSeen c outstanding).connection = .connected ↔ c.connection = .connected :=
  connectionSeen_connected

theorem cpuSeen_waits {c : Cpu} {outstanding : List UInt32} {evictor : Evictor}
    (connected : c.connection = .connected) (waits : c.evictor = some evictor)
    (posted : 0 < c.responseSem) :
    (cpuSeen c outstanding).connection = .connected ∧
      (cpuSeen c outstanding).evictor = some (evictorSeen evictor) ∧
        0 < (cpuSeen c outstanding).responseSem :=
  ⟨cpuSeen_connected.mpr connected, by simp [cpuSeen, waits], posted⟩

theorem confirmed_cpuSeen (c : Cpu) (outstanding : List UInt32) :
    (cpuSeen c outstanding).confirmed true = cpuSeen c.confirmed [] := by
  simp [Dispatch.Cpu.confirmed, cpuSeen, Cpu.confirmed]

def compactionSeen : Compaction ι → Dispatch.Compaction ι
  | .requested _ => .requested
  | .evicting _ evicted => .evictAll [] none evicted
  | .ready => .ready

/-- `COMPACTION_READY` is sent, and `COMPACTION_FINISHED` has not been handled. -/
def compacting (m : Memory) : ℕ :=
  m.toMemory.count .compactionReady + m.compactionSem + m.fromMemory.count .compactionFinished

/-- What the sections see of the scheduler. -/
@[ext]
structure View (ι : Type) where
  record : UInt32 → Option (Record ι)
  execProcesses : List UInt32
  canSchedule : Bool
  inRound : Bool
  cpu : ι → Cpu
  compactions : List (Dispatch.Compaction ι)
  compacting : ℕ
  compactionFinishedSem : ℕ

def seen (s : State ι) : View ι where
  record pid := recordSeen (s.process pid)
  execProcesses := s.execProcesses
  canSchedule := s.canSchedule
  inRound := s.inRound
  cpu := s.cpu
  compactions := s.compactions.map compactionSeen
  compacting := compacting s.memory
  compactionFinishedSem := s.compactionFinishedSem

theorem record_seen {s : State ι} {pid : UInt32} {state : Dispatch.ProcessState}
    (seenAs : stateSeen (s.process pid).state = some state) :
    (seen s).record pid =
      some ⟨state, (s.process pid).cpu, (s.process pid).pendingMemorySyscall⟩ := by
  simp [seen, recordSeen, seenAs]

def View.setRecord (v : View ι) (pid : UInt32) (r : Option (Record ι)) : View ι :=
  { v with record := Function.update v.record pid r }

theorem View.record_setRecord (v : View ι) (pid other : UInt32) (r : Option (Record ι)) :
    (v.setRecord pid r).record other = if other = pid then r else v.record other :=
  Function.update_apply ..

theorem View.setRecord_setRecord (v : View ι) (pid : UInt32) (r r' : Option (Record ι)) :
    (v.setRecord pid r).setRecord pid r' = v.setRecord pid r' := by
  simp [View.setRecord]

def View.setCpu [DecidableEq ι] (v : View ι) (cpu : ι) (c : Cpu) : View ι :=
  { v with cpu := Function.update v.cpu cpu c }

/-! ### States that are related -/

/-- The records of a process agree, except that a process that ends while it waits goes on
waiting in the sections. -/
inductive Agrees : Option (Record ι) → Option (Dispatch.Process ι) → Prop where
  | unseen : Agrees none none
  | same (p : Dispatch.Process ι) : Agrees (some ⟨p.state, p.cpu, p.pendingMemorySyscall⟩) (some p)
  | ended {p : Dispatch.Process ι} (waits : p.state = .block) :
      Agrees (some ⟨.exit, p.cpu, p.pendingMemorySyscall⟩) (some p)

/-- The sections have what is seen of the scheduler. -/
structure Shows [DecidableEq ι] (v : View ι) (d : Dispatch.State ι) : Prop where
  pids : (d.listProcesses.map Dispatch.Process.pid).Nodup
  record : ∀ pid, Agrees (v.record pid) (Dispatch.getProcessFromPid d pid)
  ready : ∀ pid, pid ∈ d.readyQueue ↔ ∃ r, v.record pid = some r ∧ r.state = .ready
  readyOnce : d.readyQueue.Nodup
  requests : ∀ pid, pid ∈ d.memoryRequests ↔
    ∃ r, v.record pid = some r ∧ r.pendingMemorySyscall = true
  requestOnce : d.memoryRequests.Nodup
  execProcesses : d.execProcesses = v.execProcesses
  canSchedule : d.canSchedule = v.canSchedule
  inRound : d.inRound = v.inRound
  cpus : ∀ cpu, ∃ outstanding, d.cpus cpu = cpuSeen (v.cpu cpu) outstanding
  compactions : d.compactions = v.compactions
  compacting : d.compacting = v.compacting
  compactionFinishedSem : d.compactionFinishedSem = v.compactionFinishedSem

theorem Shows.told [DecidableEq ι] {s : State ι} {d : Dispatch.State ι} (shows : Shows (seen s) d)
    (cpu : ι) : ∃ outstanding, d.cpus cpu = cpuSeen (s.cpu cpu) outstanding :=
  shows.cpus cpu

/-- No thread is between two sections of a handler. -/
def Quiet (d : Dispatch.State ι) : Prop := ∀ t, d.threads t = .idle

/-! ### What is not seen -/

section Unseen

variable (s : State ι) {config : Config} {pid : UInt32}

theorem seen_setProcess (pid : UInt32) (f : Process ι → Process ι) :
    seen (s.setProcess pid f) = (seen s).setRecord pid (recordSeen (f (s.process pid))) := by
  refine View.ext (funext fun other => ?_) rfl rfl rfl rfl rfl rfl rfl
  simp only [seen, State.setProcess, View.setRecord, Function.update_apply]
  split <;> rfl

theorem seen_setProcess_same {f : Process ι → Process ι}
    (same : recordSeen (f (s.process pid)) = recordSeen (s.process pid)) :
    seen (s.setProcess pid f) = seen s := by
  rw [seen_setProcess, same]
  exact View.ext (Function.update_eq_self ..) rfl rfl rfl rfl rfl rfl rfl

@[simp]
theorem seen_addProcessToReadyQueue :
    seen (addProcessToReadyQueue config s pid) = seen s := rfl

@[simp]
theorem seen_addProcessAtStartOfReadyQueue :
    seen (addProcessAtStartOfReadyQueue config s pid) = seen s := by
  unfold addProcessAtStartOfReadyQueue
  split <;> rfl

@[simp]
theorem seen_removeProcessFromReadyQueue :
    seen (removeProcessFromReadyQueue config s pid) = seen s := rfl

@[simp]
theorem seen_postShortTerm : seen s.postShortTerm = seen s := rfl

@[simp]
theorem seen_setIo (io : Nat) (f : Io → Io) : seen (s.setIo io f) = seen s := rfl

theorem seen_sendMemory {message : ToMemory} (other : message ≠ .compactionReady) :
    seen (s.sendMemory message) = seen s := by
  have sent : (s.memory.toMemory ++ [message]).count .compactionReady =
      s.memory.toMemory.count .compactionReady := by
    rw [List.count_append, List.count_singleton, if_neg (by simpa using other), Nat.add_zero]
  refine View.ext rfl rfl rfl rfl rfl rfl ?_ rfl
  simp only [seen, compacting, State.sendMemory, sent]

theorem seen_processSetState {state : ProcessState}
    (same : stateSeen state = stateSeen (s.process pid).state) :
    seen (processSetState s pid state) = seen s :=
  seen_setProcess_same s (by simp [recordSeen, same])

theorem seen_processSetPriority (newPriority : UInt8) :
    seen (processSetPriority s pid newPriority) = seen s := seen_setProcess_same s rfl

@[simp]
theorem seen_requeueWithPriority (newPriority : UInt8) :
    seen (requeueWithPriority config s pid newPriority) = seen s := by
  unfold requeueWithPriority
  split
  · rw [seen_addProcessToReadyQueue, seen_processSetPriority, seen_removeProcessFromReadyQueue]
  · exact seen_processSetPriority s newPriority

@[simp]
theorem seen_inheritPriority [DecidableEq ι] (owner : Option UInt32) :
    seen (inheritPriority config s pid owner) = seen s := by
  cases owner with
  | none => rfl
  | some owner =>
      simp only [inheritPriority]
      split
      · exact seen_requeueWithPriority s _
      · rfl

@[simp]
theorem seen_restorePriority [DecidableEq ι] :
    seen (restorePriority config s pid) = seen s := by
  simp only [restorePriority]
  split
  · exact seen_requeueWithPriority s _
  · rfl

@[simp]
theorem seen_mutexCreate [DecidableEq ι] (name : String) :
    seen (mutexCreate s name) = seen s := by
  unfold mutexCreate
  split <;> rfl

@[simp]
theorem seen_requestIo [DecidableEq ι] (ioType : IoType) (request : IoRequest) :
    seen (requestIo s ioType request) = seen s := by
  unfold requestIo
  split <;> rfl

@[simp]
theorem seen_handleNextOperation [DecidableEq ι] (io : Nat) (ioType : IoType) :
    seen (handleNextOperation s io ioType) = seen s := by
  unfold handleNextOperation
  split <;> rfl

theorem seen_removeFromExec (pid : UInt32) :
    seen (removeFromExec s pid) =
      { seen s with execProcesses := s.execProcesses.erase pid } := rfl

theorem seen_setCpu [DecidableEq ι] (cpu : ι) (f : Cpu → Cpu) :
    seen (s.setCpu cpu f) = (seen s).setCpu cpu (f (s.cpu cpu)) := rfl

theorem seen_blockProcess (pid : UInt32) :
    seen (blockProcess s pid) =
      { (seen s).setRecord pid (some ⟨.block, none, (s.process pid).pendingMemorySyscall⟩) with
        execProcesses := s.execProcesses.erase pid } := by
  have written : seen (blockProcess s pid) =
      seen ((removeFromExec s pid).setProcess pid fun p =>
        { p with state := .block, cpu := none, startBlockTime := s.now }) := rfl
  rw [written, seen_setProcess]
  rfl

theorem seen_makeAvailable [DecidableEq ι] (cpu : ι) :
    seen (makeAvailable s cpu) =
      (seen s).setCpu cpu { (seen s).cpu cpu with isAvailable := true } := rfl

theorem seen_ownMutexes (f : List String → List String) :
    seen (s.setProcess pid fun p => { p with ownedMutexes := f p.ownedMutexes }) = seen s :=
  seen_setProcess_same s rfl

end Unseen

/-! ### Changes of related states -/

variable [DecidableEq ι]

section Changes

variable {v : View ι} {d : Dispatch.State ι} {r now : Record ι} {p : Dispatch.Process ι}
  {f : Dispatch.Process ι → Dispatch.Process ι} {pid : UInt32} {cpu : ι}

/-- A process that is seen is found, with its CPU. -/
theorem Shows.found (shows : Shows v d) (known : v.record pid = some r) :
    ∃ p, Dispatch.getProcessFromPid d pid = some p ∧ Agrees (some r) (some p) ∧ p.pid = pid := by
  have agrees := shows.record pid
  rw [known] at agrees
  cases found : Dispatch.getProcessFromPid d pid with
  | none =>
      rw [found] at agrees
      cases agrees
  | some p =>
      rw [found] at agrees
      exact ⟨p, rfl, agrees, Dispatch.pid_of_found found⟩

omit [DecidableEq ι] in
theorem Agrees.of_eq (state : p.state = r.state) (cpu : p.cpu = r.cpu)
    (pending : p.pendingMemorySyscall = r.pendingMemorySyscall) : Agrees (some r) (some p) := by
  obtain ⟨_, _, _⟩ := r
  subst state cpu pending
  exact .same p

omit [DecidableEq ι] in
theorem Agrees.assigned (agrees : Agrees (some r) (some p)) : p.cpu = r.cpu := by
  cases agrees <;> rfl

omit [DecidableEq ι] in
theorem Agrees.pending (agrees : Agrees (some r) (some p)) :
    p.pendingMemorySyscall = r.pendingMemorySyscall := by
  cases agrees <;> rfl

omit [DecidableEq ι] in
theorem Agrees.state (agrees : Agrees (some r) (some p)) (goes : r.state ≠ .exit) :
    p.state = r.state := by
  cases agrees with
  | same => rfl
  | ended => exact absurd rfl goes

/-- A record that is written, with the entries of its process. -/
theorem Shows.write (shows : Shows v d) (queue requests : List UInt32)
    (known : v.record pid = some r) (keeps : ∀ p, (f p).pid = p.pid)
    (agrees : ∀ p, Agrees (some r) (some p) → Agrees (some now) (some (f p)))
    (queueOnce : queue.Nodup)
    (queued : ∀ other, other ∈ queue ↔
      if other = pid then now.state = .ready else other ∈ d.readyQueue)
    (requestOnce : requests.Nodup)
    (requested : ∀ other, other ∈ requests ↔
      if other = pid then now.pendingMemorySyscall = true else other ∈ d.memoryRequests) :
    Shows (v.setRecord pid (some now))
      { d.updateProcess pid f with readyQueue := queue, memoryRequests := requests } where
  pids := by
    have same : (d.updateProcess pid f).listProcesses.map Dispatch.Process.pid =
        d.listProcesses.map Dispatch.Process.pid := map_updateFirst keeps _
    rw [same]
    exact shows.pids
  record other := by
    have found := Dispatch.getProcessFromPid_updateProcess (s := d) keeps pid other
    have written : Dispatch.getProcessFromPid { d.updateProcess pid f with
        readyQueue := queue, memoryRequests := requests } other =
        Dispatch.getProcessFromPid (d.updateProcess pid f) other := rfl
    rw [written, found, View.record_setRecord]
    split
    · obtain ⟨p, there, before, -⟩ := shows.found known
      rw [there]
      exact agrees p before
    · exact shows.record other
  ready other := by
    rw [queued, View.record_setRecord]
    split
    · simp
    · exact shows.ready other
  readyOnce := queueOnce
  requests other := by
    rw [requested, View.record_setRecord]
    split
    · simp
    · exact shows.requests other
  requestOnce := requestOnce
  execProcesses := shows.execProcesses
  canSchedule := shows.canSchedule
  inRound := shows.inRound
  cpus := shows.cpus
  compactions := shows.compactions
  compacting := shows.compacting
  compactionFinishedSem := shows.compactionFinishedSem

/-- A record is written, and the process stays where it is. -/
theorem Shows.rewrite (shows : Shows v d) (known : v.record pid = some r)
    (keeps : ∀ p, (f p).pid = p.pid)
    (agrees : ∀ p, Agrees (some r) (some p) → Agrees (some now) (some (f p)))
    (queued : now.state = .ready ↔ r.state = .ready)
    (requested : now.pendingMemorySyscall = r.pendingMemorySyscall) :
    Shows (v.setRecord pid (some now)) (d.updateProcess pid f) := by
  refine shows.write d.readyQueue d.memoryRequests known keeps agrees shows.readyOnce
    (fun other => ?_) shows.requestOnce fun other => ?_
  · split
    · rename_i here
      rw [here, shows.ready, known, queued]
      simp
    · rfl
  · split
    · rename_i here
      rw [here, shows.requests, known, requested]
      simp
    · rfl

/-- A process that becomes `READY` is queued. -/
theorem Shows.enqueue (shows : Shows v d) (known : v.record pid = some r)
    (keeps : ∀ p, (f p).pid = p.pid)
    (agrees : ∀ p, Agrees (some r) (some p) → Agrees (some now) (some (f p)))
    (unqueued : r.state ≠ .ready) (queued : now.state = .ready)
    (requested : now.pendingMemorySyscall = r.pendingMemorySyscall) :
    Shows (v.setRecord pid (some now))
      { d.updateProcess pid f with readyQueue := d.readyQueue ++ [pid] } := by
  have out : pid ∉ d.readyQueue := by
    rw [shows.ready, known]
    simpa using unqueued
  refine shows.write (d.readyQueue ++ [pid]) d.memoryRequests known keeps agrees ?_
    (fun other => ?_) shows.requestOnce fun other => ?_
  · rw [List.nodup_append_comm, List.singleton_append, List.nodup_cons]
    exact ⟨out, shows.readyOnce⟩
  · split
    · rename_i here
      simp [here, queued]
    · rename_i ne
      simp [ne]
  · split
    · rename_i here
      rw [here, shows.requests, known, requested]
      simp
    · rfl

/-- A process that is dispatched leaves its queue. -/
theorem Shows.dequeue (shows : Shows v d) (known : v.record pid = some r)
    (keeps : ∀ p, (f p).pid = p.pid)
    (agrees : ∀ p, Agrees (some r) (some p) → Agrees (some now) (some (f p)))
    (leaves : now.state ≠ .ready)
    (requested : now.pendingMemorySyscall = r.pendingMemorySyscall) :
    Shows (v.setRecord pid (some now))
      { d.updateProcess pid f with readyQueue := d.readyQueue.erase pid } := by
  refine shows.write (d.readyQueue.erase pid) d.memoryRequests known keeps agrees
    (shows.readyOnce.erase _) (fun other => ?_) shows.requestOnce fun other => ?_
  · rw [shows.readyOnce.mem_erase_iff]
    split
    · rename_i here
      simp [here, leaves]
    · rename_i ne
      simp [ne]
  · split
    · rename_i here
      rw [here, shows.requests, known, requested]
      simp
    · rfl

/-- A process asks for a segment. -/
theorem Shows.request (shows : Shows v d) (known : v.record pid = some r)
    (keeps : ∀ p, (f p).pid = p.pid)
    (agrees : ∀ p, Agrees (some r) (some p) → Agrees (some now) (some (f p)))
    (queued : now.state = .ready ↔ r.state = .ready)
    (unasked : r.pendingMemorySyscall = false) (asked : now.pendingMemorySyscall = true) :
    Shows (v.setRecord pid (some now))
      { d.updateProcess pid f with memoryRequests := d.memoryRequests ++ [pid] } := by
  have out : pid ∉ d.memoryRequests := by
    rw [shows.requests, known]
    simp [unasked]
  refine shows.write d.readyQueue (d.memoryRequests ++ [pid]) known keeps agrees shows.readyOnce
    (fun other => ?_) ?_ fun other => ?_
  · split
    · rename_i here
      rw [here, shows.ready, known, queued]
      simp
    · rfl
  · rw [List.nodup_append_comm, List.singleton_append, List.nodup_cons]
    exact ⟨out, shows.requestOnce⟩
  · split
    · rename_i here
      simp [here, asked]
    · rename_i ne
      simp [ne]

/-- The result for a process is handled, which may go on. -/
theorem Shows.answer (shows : Shows v d) (queue : List UInt32) (known : v.record pid = some r)
    (keeps : ∀ p, (f p).pid = p.pid)
    (agrees : ∀ p, Agrees (some r) (some p) → Agrees (some now) (some (f p)))
    (queueOnce : queue.Nodup)
    (queued : ∀ other, other ∈ queue ↔
      if other = pid then now.state = .ready else other ∈ d.readyQueue)
    (answered : now.pendingMemorySyscall = false) :
    Shows (v.setRecord pid (some now))
      { d.updateProcess pid f with
        readyQueue := queue, memoryRequests := d.memoryRequests.erase pid } := by
  refine shows.write queue (d.memoryRequests.erase pid) known keeps agrees queueOnce queued
    (shows.requestOnce.erase _) fun other => ?_
  rw [shows.requestOnce.mem_erase_iff]
  split
  · rename_i here
    simp [here, answered]
  · rename_i ne
    simp [ne]

theorem Shows.setCpu {c : Cpu} {outstanding : List UInt32} (shows : Shows v d) :
    Shows (v.setCpu cpu c) (d.setCpu cpu (cpuSeen c outstanding)) :=
  { shows with
    cpus := fun other => by
      simp only [View.setCpu, Dispatch.State.setCpu, Function.update_apply]
      split
      · exact ⟨_, rfl⟩
      · exact shows.cpus other }

/-- What changes at a CPU is not seen. -/
theorem Shows.setUnseen {c : Cpu} (shows : Shows v d)
    (same : ∀ outstanding, cpuSeen c outstanding = cpuSeen (v.cpu cpu) outstanding) :
    Shows (v.setCpu cpu c) d :=
  { shows with
    cpus := fun other => by
      obtain ⟨outstanding, told⟩ := shows.cpus other
      refine ⟨outstanding, ?_⟩
      simp only [View.setCpu, Function.update_apply]
      split
      · rename_i here
        rw [same, told, here]
      · exact told }

theorem Shows.setThread {t : Dispatch.Thread ι} {a : Dispatch.Activity ι} (shows : Shows v d) :
    Shows v (d.setThread t a) :=
  { shows with }

theorem Shows.setExec {pids : List UInt32} (shows : Shows v d) :
    Shows { v with execProcesses := pids } { d with execProcesses := pids } :=
  { shows with execProcesses := rfl }

end Changes

/-! ### Runs of sections -/

/-- What the CPUs do. -/
inductive Event (ι : Type) where
  | connect (cpu : ι)
  | execute (cpu : ι)
  | stop (cpu : ι) (syscall : Dispatch.Syscall)
  | evicted (cpu : ι)
  | disconnect (cpu : ι)

def handlerEvent : Action ι → Option (Event ι)
  | .connectCpu cpu => some (.connect cpu)
  | .cpu cpu .execute => some (.execute cpu)
  | .cpu cpu (.stop syscall) => some (.stop cpu (syscallSeen syscall))
  | .cpu cpu .evict => some (.evicted cpu)
  | .disconnectCpu cpu => some (.disconnect cpu)
  | _ => none

def sectionEvent : Dispatch.Action ι → Option (Event ι)
  | .connect cpu => some (.connect cpu)
  | .execute cpu => some (.execute cpu)
  | .stop cpu syscall => some (.stop cpu syscall)
  | .evicted cpu => some (.evicted cpu)
  | .disconnect cpu => some (.disconnect cpu)
  | _ => none

/-- Some sections, in which the CPUs do what is shown, lead to a state that has what is seen. -/
def Reaches (d : Dispatch.State ι) (shown : List (Event ι)) (v : View ι) : Prop :=
  ∃ bs d', Run Dispatch.step (fun _ _ => True) d bs d' ∧ bs.filterMap sectionEvent = shown ∧
    Shows v d' ∧ Quiet d'

section Reaches

variable {v v' : View ι} {d d' : Dispatch.State ι} {a : Dispatch.Action ι} {e : Event ι}
  {shown : List (Event ι)} {t : Dispatch.Thread ι} {now : Dispatch.Activity ι}

theorem Reaches.stay (shows : Shows v d) (quiet : Quiet d) : Reaches d [] v :=
  ⟨[], d, .refl d, rfl, shows, quiet⟩

theorem Reaches.step (taken : Dispatch.step d a = some d') (unseen : sectionEvent a = none)
    (more : Reaches d' shown v) : Reaches d shown v := by
  obtain ⟨bs, d'', run, events, related⟩ := more
  refine ⟨a :: bs, d'', (Run.single trivial taken).trans run, ?_, related⟩
  rw [List.filterMap_cons_none unseen, events]

theorem Reaches.visible (taken : Dispatch.step d a = some d') (visible : sectionEvent a = some e)
    (shows : Shows v d') (quiet : Quiet d') : Reaches d [e] v :=
  ⟨[a], d', .single trivial taken, List.filterMap_cons_some visible, shows, quiet⟩

theorem Reaches.trans (first : Reaches d [] v)
    (more : ∀ d', Shows v d' → Quiet d' → Reaches d' shown v') : Reaches d shown v' := by
  obtain ⟨bs, d', run, silent, shows, quiet⟩ := first
  obtain ⟨cs, d'', run', events, related⟩ := more d' shows quiet
  refine ⟨bs ++ cs, d'', run.trans run', ?_, related⟩
  rw [List.filterMap_append, silent, events, List.nil_append]

theorem setThread_setThread (now' : Dispatch.Activity ι) :
    (d.setThread t now).setThread t now' = d.setThread t now' := by
  simp [Dispatch.State.setThread]

theorem Quiet.setThread_idle (quiet : Quiet d) : d.setThread t .idle = d := by
  rw [Dispatch.State.setThread, ← quiet t, Function.update_eq_self]

theorem Quiet.done (quiet : Quiet d) : (d.setThread t now).setThread t .idle = d := by
  rw [setThread_setThread, quiet.setThread_idle]

theorem threads_setThread : (d.setThread t now).threads t = now := Function.update_self ..

end Reaches

/-! ### Orders to the CPUs -/

section Orders

variable {s : State ι} {d : Dispatch.State ι} {pid : UInt32} {cpu : ι} {t : Dispatch.Thread ι}

/-- `send_pid_to_execute` reads `is_evicting`, and then sends. -/
theorem sendPidToExecute_reaches (shows : Shows (seen s) d) (quiet : Quiet d) :
    Reaches (d.setThread t (.sendToExecute pid cpu false)) []
      (seen (sendPidToExecute s pid (some cpu))) := by
  obtain ⟨outstanding, told⟩ := shows.told cpu
  have check : Dispatch.step (d.setThread t (.sendToExecute pid cpu false)) (.check t) =
      some (d.setThread t
        (if (s.cpu cpu).isEvicting then .idle else .sendToExecute pid cpu true)) := by
    simp only [Dispatch.step, threads_setThread, setThread_setThread]
    simp only [Dispatch.State.setThread, told, cpuSeen]
  refine .step check rfl ?_
  by_cases evicting : (s.cpu cpu).isEvicting = true
  · -- The thread is done: a CPU that is being evicted is sent nothing.
    rw [if_pos evicting, quiet.setThread_idle, sendPidToExecute, if_pos evicting]
    exact .stay shows quiet
  · rw [if_neg evicting, sendPidToExecute, if_neg evicting]
    by_cases connected : (s.cpu cpu).connection = .connected
    · let sent := cpuSeen
        { s.cpu cpu with toCpu := (s.cpu cpu).toCpu ++ [.processExecute pid] }
        (outstanding ++ [pid])
      have done : ((d.setThread t (.sendToExecute pid cpu true)).setCpu cpu sent).setThread t
          .idle = d.setCpu cpu sent := Quiet.done (d := d.setCpu cpu sent) quiet
      have send : Dispatch.step (d.setThread t (.sendToExecute pid cpu true)) (.send t) =
          some (d.setCpu cpu sent) := by
        simp only [Dispatch.step, threads_setThread]
        rw [if_pos, ← done]
        · simp [Dispatch.State.setThread, told, sent, cpuSeen, orderSeen]
        · simp [Dispatch.State.setThread, told, cpuSeen, connected, connectionSeen]
      rw [if_pos connected]
      exact .step send rfl (.stay shows.setCpu quiet)
    · have send : Dispatch.step (d.setThread t (.sendToExecute pid cpu true)) (.send t) =
          some d := by
        simp only [Dispatch.step, threads_setThread, quiet.done]
        rw [if_neg]
        simpa [Dispatch.State.setThread, told, cpuSeen] using
          fun reached => connected (connectionSeen_connected.mp reached)
      rw [if_neg connected]
      exact .step send rfl (.stay shows quiet)

/-- `send_process_evict` marks the CPU, and then sends. -/
theorem evictProcess_reaches {cpu : Option ι} {reason : InterruptReason}
    (shows : Shows (seen s) d) (quiet : Quiet d) :
    Reaches d [] (seen (evictProcess s cpu reason)) := by
  unfold evictProcess
  cases sent : sendProcessEvict s reason .handleState cpu with
  | none => exact .stay shows quiet
  | some s' =>
      obtain ⟨cpu, rfl, calm, connected, rfl⟩ := sendProcessEvict_some sent
      obtain ⟨outstanding, told⟩ := shows.told cpu
      let marked : Dispatch.Cpu :=
        { cpuSeen (s.cpu cpu) outstanding with isEvicting := true, evictor := some ⟨false, false⟩ }
      have mark : Dispatch.step d (.evict cpu) = some (d.setCpu cpu marked) := by
        simp only [Dispatch.step, told]
        rw [if_pos (cpuSeen_connected.mpr connected), if_neg]
        simp [cpuSeen, calm]
      let told' := cpuSeen
        { s.cpu cpu with
          isEvicting := true
          evictor := some .handleState
          toCpu := (s.cpu cpu).toCpu ++ [.processEvict reason] } outstanding
      have send : Dispatch.step (d.setCpu cpu marked) (.sendEvict cpu) =
          some (d.setCpu cpu told') := by
        simp only [Dispatch.step, Dispatch.State.setCpu, Function.update_self,
          Function.update_idem]
        rw [if_pos ⟨connectionSeen_connected.mpr connected, rfl⟩]
        simp [marked, told', cpuSeen, evictorSeen, orderSeen]
      exact .step mark rfl (.step send rfl (.stay shows.setCpu quiet))

end Orders

/-! ### Processes that go on -/

section Ready

variable {s : State ι} {d : Dispatch.State ι} {config : Config}

omit [DecidableEq ι] in
/-- A process that waits is not one that has ended. -/
theorem blocked_of_waits {m : Mode} {p : Process ι} (ends : m.endsWaiting = false)
    (waits : p.Waits m) : p.state = .block ∨ p.state = .suspBlock := by
  rcases waits with blocked | suspended | ⟨ended, -⟩
  · exact .inl blocked
  · exact .inr suspended
  · rw [ends] at ended
    cases ended

/-- A process that waits becomes `READY`. -/
theorem makeReady_reaches (pid : UInt32) (shows : Shows (seen s) d) (quiet : Quiet d)
    (waits : stateSeen (s.process pid).state = some .block) :
    Reaches d [] (seen (makeReady config s pid)) := by
  have known := record_seen waits
  obtain ⟨p, found, agrees, same⟩ := shows.found known
  have wake : Dispatch.step d (.wake pid) = some (d.makeReady pid) := by
    simp only [Dispatch.step, found]
    rw [if_pos (agrees.state (by simp))]
  refine .step wake rfl (.stay ?_ quiet)
  rw [makeReady, seen_addProcessToReadyQueue, processSetState, seen_setProcess]
  refine shows.enqueue known (fun _ => rfl) (fun p before => ?_) (by simp) rfl rfl
  exact .of_eq rfl before.assigned before.pending

/-- What a process waits for is over: if it is suspended, the sections do nothing. -/
theorem finishBlock_reaches (pid : UInt32) (shows : Shows (seen s) d) (quiet : Quiet d)
    (waits : (s.process pid).state = .block ∨ (s.process pid).state = .suspBlock) :
    Reaches d [] (seen (finishBlock config s pid)) := by
  rcases waits with blocked | suspended
  · have ready : finishBlock config s pid =
        makeReady config { s with blockProcesses := s.blockProcesses.erase pid } pid := by
      simp [finishBlock, makeReady, processSetReady, processSetState, State.setProcess, blocked]
    rw [ready]
    exact makeReady_reaches (s := { s with blockProcesses := s.blockProcesses.erase pid }) pid
      shows quiet (by simp [blocked, stateSeen])
  · -- `SUSP_BLOCK` and `SUSP_READY` are both seen as waiting.
    have same : seen (finishBlock config s pid) = seen s := by
      have written : finishBlock config s pid =
          { processSetState s pid .suspReady with
            blockProcesses := s.blockProcesses.erase pid } := by
        simp [finishBlock, processSetReady, processSetState, State.setProcess, suspended]
      rw [written]
      exact seen_processSetState s (by rw [suspended]; rfl)
    rw [same]
    exact .stay shows quiet

end Ready

/-! ### Syscalls -/

section Syscalls

variable {s : State ι} {d : Dispatch.State ι} {config : Config} {pid : UInt32} {cpu : ι}
  {t : Dispatch.Thread ι}

/-- The process runs on the CPU. -/
structure OnCpu (s : State ι) (pid : UInt32) (cpu : ι) : Prop where
  listed : pid ∈ s.listProcesses
  state : (s.process pid).state = .exec
  cpu : (s.process pid).cpu = some cpu
  settled : (s.process pid).pendingMemorySyscall = false

omit [DecidableEq ι] in
theorem OnCpu.known (here : OnCpu s pid cpu) :
    (seen s).record pid = some ⟨.exec, some cpu, false⟩ := by
  have known := record_seen (congrArg stateSeen here.state)
  rwa [here.cpu, here.settled] at known

theorem endProcess_reaches (shows : Shows (seen s) d) (quiet : Quiet d) (here : OnCpu s pid cpu) :
    Reaches (Dispatch.endSyscall d pid cpu) [] (seen (endProcess s pid cpu)) := by
  obtain ⟨outstanding, told⟩ := shows.told cpu
  have ended : Dispatch.endSyscall d pid cpu =
      { d.updateProcess pid fun p => { p with state := .exit, cpu := none } with
        execProcesses := s.execProcesses.erase pid }.setCpu cpu
        (cpuSeen { s.cpu cpu with isAvailable := true } outstanding) := by
    rw [Dispatch.endSyscall, told, shows.execProcesses]
    rfl
  have left : seen (endProcess s pid cpu) =
      ({ (seen s).setRecord pid (some ⟨.exit, none, false⟩) with
        execProcesses := s.execProcesses.erase pid }).setCpu cpu
          { s.cpu cpu with isAvailable := true } := by
    rw [endProcess, if_pos here.listed, seen_postShortTerm, seen_sendMemory _ (by simp),
      makeAvailable, seen_setCpu, seen_removeFromExec, seen_setProcess]
    simp [recordSeen, stateSeen, here.settled]
    rfl
  rw [ended, left]
  refine .stay (Shows.setCpu (Shows.setExec (shows.rewrite here.known (fun _ => rfl)
    (fun p before => .of_eq rfl rfl ?_) (by simp) rfl))) quiet
  exact before.pending

/-- The process waits, and then the thread releases the CPU. -/
theorem blockProcess_reaches {handler : ι} (shows : Shows (seen s) d) (quiet : Quiet d)
    (here : OnCpu s pid cpu) :
    Reaches (Dispatch.blockSyscall d (.cpuHandler handler) pid cpu) []
      (seen (makeAvailable (blockProcess s pid) cpu)) := by
  obtain ⟨outstanding, told⟩ := shows.told cpu
  let blocked : Dispatch.State ι :=
    { d.updateProcess pid fun p => { p with state := .block, cpu := none } with
      execProcesses := s.execProcesses.erase pid }
  let released := cpuSeen { s.cpu cpu with isAvailable := true } outstanding
  have block : Dispatch.blockSyscall d (.cpuHandler handler) pid cpu =
      blocked.setThread (.cpuHandler handler) (.release cpu) := by
    rw [Dispatch.blockSyscall, shows.execProcesses]
    rfl
  have done : ((blocked.setThread (.cpuHandler handler) (.release cpu)).setCpu cpu
      released).setThread (.cpuHandler handler) .idle = blocked.setCpu cpu released :=
    Quiet.done (d := blocked.setCpu cpu released) quiet
  have release : Dispatch.step (blocked.setThread (.cpuHandler handler) (.release cpu))
      (.proceed (.cpuHandler handler)) = some (blocked.setCpu cpu released) := by
    have told : (blocked.setThread (.cpuHandler handler) (.release cpu)).cpus cpu =
        cpuSeen (s.cpu cpu) outstanding := told
    simp only [Dispatch.step, Dispatch.proceed, threads_setThread, told]
    exact congrArg some done
  have left : seen (makeAvailable (blockProcess s pid) cpu) =
      ({ (seen s).setRecord pid (some ⟨.block, none, false⟩) with
        execProcesses := s.execProcesses.erase pid }).setCpu cpu
          { s.cpu cpu with isAvailable := true } := by
    rw [seen_makeAvailable, seen_blockProcess, here.settled]
    rfl
  rw [block, left]
  refine .step release rfl (.stay (Shows.setCpu (Shows.setExec (shows.rewrite here.known
    (fun _ => rfl) (fun p before => .of_eq rfl rfl ?_) (by simp) rfl))) quiet)
  exact before.pending

/-- A segment is asked for. -/
theorem requestSegment_reaches {message : ToMemory} (shows : Shows (seen s) d) (quiet : Quiet d)
    (here : OnCpu s pid cpu) (other : message ≠ .compactionReady) :
    Reaches (Dispatch.memorySyscall d pid) [] (seen (requestSegment s pid message)) := by
  have asked : seen (requestSegment s pid message) =
      (seen s).setRecord pid (some ⟨.exec, some cpu, true⟩) := by
    rw [requestSegment, seen_sendMemory _ other, seen_setProcess]
    simp [recordSeen, stateSeen, here.state, here.cpu]
  rw [asked]
  refine .stay (shows.request here.known (fun _ => rfl) (fun p before => .of_eq ?_ ?_ rfl)
    (by simp) rfl rfl) quiet
  · exact before.state (by simp)
  · exact before.assigned

/-- A mutex is handed over, and the process that waited for it goes on. -/
theorem handOver_reaches {m : UInt32 → Mode} {place : UInt32 → Option (Place ι)} {name : String}
    (shows : Shows (seen s) d) (quiet : Quiet d) (inv : Inv config m none s place)
    (ends : ∀ pid, (m pid).endsWaiting = false) :
    Reaches d [] (seen (handOver config s name)) := by
  unfold handOver
  split
  · exact .stay shows quiet
  · rename_i next rest waiting
    obtain ⟨⟨waits, -, -⟩, -, -⟩ := inv.takeMutex
      (f := fun _ => ⟨true, some next, rest⟩) waiting rfl
    have owned : seen ((s.setMutex name fun _ => ⟨true, some next, rest⟩).setProcess next
        fun p => { p with ownedMutexes := p.ownedMutexes ++ [name] }) = seen s :=
      seen_ownMutexes (s.setMutex name fun _ => ⟨true, some next, rest⟩) (· ++ [name])
    rw [← owned] at shows
    have finished : Reaches d [] (seen (finishBlock config _ next)) :=
      finishBlock_reaches next shows quiet (by simpa using blocked_of_waits (ends next) waits)
    dsimp only
    split <;> exact finished

/-- A mutex is locked by a process that runs: it goes on, or waits. -/
theorem mutexLock_reaches {p : Dispatch.Process ι} {name : String} (shows : Shows (seen s) d)
    (quiet : Quiet d) (here : OnCpu s pid cpu) (same : p.pid = pid) (has : p.cpu = some cpu)
    (locked : String) :
    ∃ mutex, Reaches (Dispatch.handleSyscall d cpu p mutex (syscallSeen (.mutexLock locked))) []
      (seen (mutexLock config s name pid)) := by
  subst same
  unfold mutexLock
  simp only [here.cpu]
  split
  · refine ⟨.granted, ?_⟩
    have owned : seen ((s.setMutex name fun m =>
        { m with isLocked := true, lockedBy := some p.pid }).setProcess p.pid fun p =>
          { p with ownedMutexes := p.ownedMutexes ++ [name] }) = seen s :=
      seen_ownMutexes (s.setMutex name _) (· ++ [name])
    rw [← owned] at shows
    simp only [syscallSeen, Dispatch.handleSyscall, has, Dispatch.resume]
    exact sendPidToExecute_reaches shows quiet
  · split
    · refine ⟨.granted, ?_⟩
      simp only [syscallSeen, Dispatch.handleSyscall, has, Dispatch.resume]
      exact sendPidToExecute_reaches shows quiet
    · refine ⟨.taken, ?_⟩
      simp only [syscallSeen, Dispatch.handleSyscall, has]
      have blocked : Reaches (Dispatch.blockSyscall d (.cpuHandler cpu) p.pid cpu) [] _ :=
        blockProcess_reaches (s := s.setMutex name fun m =>
          { m with waitingProcesses := m.waitingProcesses ++ [p.pid] }) shows quiet
          ⟨here.listed, here.state, here.cpu, here.settled⟩
      rwa [seen_postShortTerm, seen_makeAvailable, seen_inheritPriority, ← seen_makeAvailable]

/-- A mutex is unlocked: the process goes on, and so may one that waits. -/
theorem mutexUnlock_reaches {m : UInt32 → Mode} {place : UInt32 → Option (Place ι)}
    {p : Dispatch.Process ι} {name : String} (shows : Shows (seen s) d) (quiet : Quiet d)
    (here : OnCpu s pid cpu) (inv : Inv config m (some pid) s place)
    (ends : ∀ pid, (m pid).endsWaiting = false) (same : p.pid = pid) (has : p.cpu = some cpu)
    (unlocked : String) :
    ∃ mutex, Reaches (Dispatch.handleSyscall d cpu p mutex (syscallSeen (.mutexUnlock unlocked)))
      [] (seen (mutexUnlock config s name pid)) := by
  subst same
  unfold mutexUnlock
  split
  · refine ⟨.granted, ?_⟩
    simp only [syscallSeen, Dispatch.handleSyscall, has, Dispatch.resume, here.cpu]
    obtain ⟨place₁, sent⟩ := inv.sendPidToExecute here.state here.cpu here.settled here.listed
    obtain ⟨place₂, restored⟩ := (sent.ownMutexes p.pid (·.erase name)).restorePriority p.pid
    refine (sendPidToExecute_reaches shows quiet).trans fun d' shows' quiet' => ?_
    refine handOver_reaches ?_ quiet' restored ends
    rwa [seen_restorePriority, seen_ownMutexes _ (·.erase name)]
  · refine ⟨.refused, ?_⟩
    exact .stay shows quiet

/-- A syscall is handled, and its thread has done all sections that follow. -/
theorem handleSyscall_reaches {m : UInt32 → Mode} {place : UInt32 → Option (Place ι)}
    {p : Dispatch.Process ι} {syscall : Syscall} (shows : Shows (seen s) d) (quiet : Quiet d)
    (here : OnCpu s pid cpu) (inv : Inv config m (some pid) s place)
    (ends : ∀ pid, (m pid).endsWaiting = false) (same : p.pid = pid) (has : p.cpu = some cpu)
    (leaves : ¬ syscall.KeepsCpu s) :
    ∃ mutex, Reaches (Dispatch.handleSyscall d cpu p mutex (syscallSeen syscall)) []
      (seen (handleSyscall config s cpu pid syscall)) := by
  cases syscall with
  | processEnd | segmentationFault =>
      subst same
      exact ⟨.granted, endProcess_reaches shows quiet here⟩
  | mutexCreate name =>
      subst same
      rw [← seen_mutexCreate s name] at shows
      exact ⟨.granted, sendPidToExecute_reaches shows quiet⟩
  | mutexLock name =>
      simp only [handleSyscall, if_pos here.listed]
      cases found : getMutexByName s name with
      | none => exact absurd found leaves
      | some mutex => exact mutexLock_reaches shows quiet here same has name
  | mutexUnlock name =>
      simp only [handleSyscall, if_pos here.listed]
      cases found : getMutexByName s name with
      | none => exact absurd found leaves
      | some mutex => exact mutexUnlock_reaches shows quiet here inv ends same has name
  | sleep sleepTime =>
      subst same
      refine ⟨.granted, ?_⟩
      simp only [handleSyscall, if_pos here.listed, sleepSyscallManager, seen_requestIo]
      exact blockProcess_reaches shows quiet here
  | stdin physicalAddress toRead =>
      subst same
      refine ⟨.granted, ?_⟩
      have reads : toRead ≠ 0 := leaves
      simp only [handleSyscall, if_pos here.listed, stdinSyscallManager, if_neg reads,
        seen_requestIo, syscallSeen, Dispatch.handleSyscall]
      exact blockProcess_reaches shows quiet here
  | stdout physicalAddress toRead =>
      subst same
      refine ⟨.granted, ?_⟩
      simp only [handleSyscall, if_pos here.listed, stdoutSyscallManager]
      rw [seen_sendMemory _ (by simp)]
      exact blockProcess_reaches shows quiet here
  | memAlloc segmentId segmentSize =>
      subst same
      refine ⟨.granted, ?_⟩
      simp only [handleSyscall, memAllocSyscallManager, syscallSeen, Dispatch.handleSyscall]
      by_cases empty : segmentSize = 0
      · rw [if_pos empty, if_neg fun asked => asked.2 empty]
        exact .stay shows quiet
      · rw [if_neg empty, if_pos ⟨here.listed, empty⟩]
        exact requestSegment_reaches shows quiet here (by simp)
  | memFree segmentId =>
      subst same
      refine ⟨.granted, ?_⟩
      simp only [handleSyscall, memFreeSyscallManager, if_pos here.listed]
      exact requestSegment_reaches shows quiet here (by simp)

end Syscalls

/-! ### CPUs -/

section Cpus

variable {s s' : State ι} {d : Dispatch.State ι} {config : Config} {m : UInt32 → Mode}
  {place : UInt32 → Option (Place ι)} {pid : UInt32} {cpu : ι}

omit [DecidableEq ι] in
/-- A process that is created is not seen until Kernel Memory has confirmed it. -/
theorem seen_longTermScheduler {path : String} {priority : UInt8}
    (fresh : ∀ pid, pid ∉ s.listProcesses → (s.process pid).state = .new)
    (taken : longTermScheduler s path priority = some s') : seen s' = seen s := by
  unfold longTermScheduler at taken
  dsimp only at taken
  split at taken
  · cases taken
  · rename_i new
    obtain rfl := Option.some.inj taken
    have state : (s.process s.currentMaxPid).state = .new := fresh _ new
    have written : seen (s.setProcess s.currentMaxPid fun _ => createProcess priority) = seen s :=
      seen_setProcess_same s (by simp [recordSeen, stateSeen, state, createProcess])
    exact (seen_sendMemory _ (by simp)).trans written

/-- `cpu_handler` reads a message. -/
theorem handleCpu_reaches {message : ToScheduler} {rest : List ToScheduler}
    (shows : Shows (seen s) d) (quiet : Quiet d) (inv : Inv config m none s place)
    (fresh : s.board.Fresh) (ends : ∀ pid, (m pid).endsWaiting = false)
    (next : (s.cpu cpu).toScheduler = message :: rest)
    (leaves : ∀ pid syscall, message = .syscall pid syscall → ¬ syscall.KeepsCpu s)
    (taken : handleCpu config (s.setCpu cpu fun c => { c with toScheduler := rest }) cpu message =
      some s') :
    Reaches d [] (seen s') := by
  obtain ⟨outstanding, told⟩ := shows.told cpu
  cases message with
  | processCreate priority path =>
      have unread : ∀ outstanding, cpuSeen { s.cpu cpu with toScheduler := rest } outstanding =
          cpuSeen (s.cpu cpu) outstanding := by
        intro outstanding
        simp only [cpuSeen, next]
        rw [List.filterMap_cons_none rfl]
      have same : seen s' = seen (s.setCpu cpu fun c => { c with toScheduler := rest }) :=
        seen_longTermScheduler fresh taken
      rw [same]
      exact .stay (shows.setUnseen unread) quiet
  | confirmation =>
      obtain rfl := Option.some.inj taken
      let posted := cpuSeen
        { s.cpu cpu with toScheduler := rest, responseSem := (s.cpu cpu).responseSem + 1 }
        outstanding
      have post : Dispatch.step d (.post cpu) = some (d.setCpu cpu posted) := by
        simp only [Dispatch.step, quiet (.cpuHandler cpu), told]
        simp [cpuSeen, next, messageSeen, posted]
      refine .step post rfl (.stay ?_ quiet)
      have handled : seen ((s.setCpu cpu fun c => { c with toScheduler := rest }).setCpu cpu
          fun c => { c with responseSem := c.responseSem + 1 }) =
          (seen s).setCpu cpu
            { s.cpu cpu with toScheduler := rest, responseSem := (s.cpu cpu).responseSem + 1 } := by
        rw [setCpu_setCpu, seen_setCpu]
      rw [handled]
      exact shows.setCpu
  | syscall pid syscall =>
      obtain rfl := Option.some.inj taken
      obtain ⟨fits, known, inHand⟩ := inv.takeSyscall next
      have here : OnCpu (s.setCpu cpu fun c => { c with toScheduler := rest }) pid cpu :=
        ⟨known, fits.1, fits.2.1, fits.2.2⟩
      let read := cpuSeen { s.cpu cpu with toScheduler := rest } (outstanding.erase pid)
      have shows' : Shows (seen (s.setCpu cpu fun c => { c with toScheduler := rest }))
          (d.setCpu cpu read) := shows.setCpu
      obtain ⟨p, found, agrees, same⟩ := shows.found here.known
      obtain ⟨mutex, reaches⟩ := handleSyscall_reaches shows' quiet here inHand
        ends same agrees.assigned (leaves pid syscall rfl)
      have handle : Dispatch.step d (.handle cpu mutex) =
          some (Dispatch.handleSyscall (d.setCpu cpu read) cpu p mutex (syscallSeen syscall)) := by
        simp only [Dispatch.step, quiet (.cpuHandler cpu), told]
        simp [cpuSeen, next, messageSeen, read, found]
      exact .step handle rfl reaches

/-- A process with a CPU is `EXEC`. -/
theorem executing_of_cpu (owned : s.board.Owned) (found : getProcessFromCpu s cpu = some pid) :
    (s.process pid).state = .exec :=
  owned.executing pid (by simp [State.board, Process.holder, (getProcessFromCpu_some found).2])

theorem known_of_cpu (owned : s.board.Owned) (found : getProcessFromCpu s cpu = some pid) :
    (seen s).record pid =
      some ⟨.exec, some cpu, (s.process pid).pendingMemorySyscall⟩ := by
  have known := record_seen (congrArg stateSeen (executing_of_cpu owned found))
  rwa [(getProcessFromCpu_some found).2] at known

/-- The process that a search by CPU finds is found by the sections. -/
theorem getProcessFromCpu_seen (cpu : ι) (shows : Shows (seen s) d)
    (inv : Inv config m none s place) (owned : s.board.Owned) :
    match getProcessFromCpu s cpu with
    | none => Dispatch.getProcessFromCpu d cpu = none
    | some pid => ∃ p, Dispatch.getProcessFromCpu d cpu = some p ∧
        Dispatch.getProcessFromPid d pid = some p ∧ p.pid = pid := by
  have on {q : Dispatch.Process ι} (found : Dispatch.getProcessFromCpu d cpu = some q) :
      Dispatch.getProcessFromPid d q.pid = some q ∧ (s.process q.pid).cpu = some cpu := by
    have there : Dispatch.getProcessFromPid d q.pid = some q :=
      find?_of_nodup shows.pids (List.mem_of_find?_eq_some found)
    have has : q.cpu = some cpu := by simpa using List.find?_some found
    have agrees := shows.record q.pid
    rw [there] at agrees
    cases known : (seen s).record q.pid with
    | none =>
        rw [known] at agrees
        cases agrees
    | some r =>
        rw [known] at agrees
        obtain ⟨state, -, same⟩ := Option.map_eq_some_iff.mp known
        refine ⟨there, ?_⟩
        rw [← has, agrees.assigned, ← same]
  cases found : getProcessFromCpu s cpu with
  | none =>
      cases search : Dispatch.getProcessFromCpu d cpu with
      | none => rfl
      | some q => exact absurd (on search).2 (getProcessFromCpu_none inv found q.pid)
  | some pid =>
      have has := (getProcessFromCpu_some found).2
      obtain ⟨p, there, agrees, same⟩ := shows.found (known_of_cpu owned found)
      cases search : Dispatch.getProcessFromCpu d cpu with
      | none =>
          have absent := List.find?_eq_none.mp search p (List.mem_of_find?_eq_some there)
          simp [agrees.assigned] at absent
      | some q =>
          obtain ⟨there', has'⟩ := on search
          have eq : q.pid = pid := owned.unique q.pid pid cpu has' has
          rw [eq, there] at there'
          obtain rfl := Option.some.inj there'
          exact ⟨p, rfl, there, same⟩

/-- A process leaves its CPU after an eviction. -/
theorem Shows.requeue {v : View ι} {p : Dispatch.Process ι} {pending : Bool} (shows : Shows v d)
    (known : v.record p.pid = some ⟨.exec, some cpu, pending⟩)
    (found : Dispatch.getProcessFromPid d p.pid = some p) :
    Shows { v.setRecord p.pid (some ⟨if pending then .exec else .ready, none, pending⟩) with
      execProcesses := v.execProcesses.erase p.pid } (Dispatch.requeue d p) := by
  have agrees := shows.record p.pid
  rw [known, found] at agrees
  have left : Shows { v.setRecord p.pid (some ⟨.exec, none, pending⟩) with
      execProcesses := v.execProcesses.erase p.pid }
      { d.updateProcess p.pid fun p => { p with cpu := none } with
        execProcesses := d.execProcesses.erase p.pid } := by
    rw [shows.execProcesses]
    refine Shows.setExec (shows.rewrite known (fun _ => rfl) (fun q before => .of_eq ?_ rfl ?_)
      (by simp) rfl)
    · exact before.state (by simp)
    · exact before.pending
  unfold Dispatch.requeue
  rw [agrees.pending]
  cases pending with
  | true => exact left
  | false =>
      have waits : ({ v.setRecord p.pid (some ⟨.exec, none, false⟩) with
          execProcesses := v.execProcesses.erase p.pid } : View ι).record p.pid =
          some ⟨.exec, none, false⟩ := (v.record_setRecord ..).trans (if_pos rfl)
      have ready : Shows (View.setRecord _ p.pid (some ⟨.ready, none, false⟩))
          (Dispatch.State.makeReady _ p.pid) :=
        left.enqueue waits (fun _ => rfl)
          (fun q before => .of_eq rfl before.assigned before.pending) (by simp) rfl rfl
      simp only [View.setRecord, Function.update_idem] at ready
      exact ready

omit [DecidableEq ι] in
theorem seen_leaveCpu (config : Config) (executing : (s.process pid).state = .exec) :
    seen (if (s.process pid).pendingMemorySyscall then
        processSetCpu (removeFromExec s pid) pid none
      else makeReady config (processSetCpu (removeFromExec s pid) pid none) pid) =
      { (seen s).setRecord pid
          (some ⟨if (s.process pid).pendingMemorySyscall then .exec else .ready, none,
            (s.process pid).pendingMemorySyscall⟩) with
        execProcesses := s.execProcesses.erase pid } := by
  split
  · rename_i pending
    rw [processSetCpu, seen_setProcess]
    simp [removeFromExec, recordSeen, executing, stateSeen, pending]
    rfl
  · rename_i settled
    rw [makeReady, seen_addProcessToReadyQueue, processSetState, seen_setProcess, processSetCpu,
      seen_setProcess, setProcess_self, View.setRecord_setRecord]
    simp [removeFromExec, recordSeen, stateSeen, settled]
    rfl

/-- A CPU does something. -/
theorem stepCpu_reaches {st : CpuStep} {c : Cpu} (shows : Shows (seen s) d) (quiet : Quiet d)
    (taken : (s.cpu cpu).step st = some c) :
    Reaches d (handlerEvent (.cpu cpu st)).toList (seen (s.setCpu cpu fun _ => c)) := by
  obtain ⟨outstanding, told⟩ := shows.told cpu
  have shows' : Shows (seen (s.setCpu cpu fun _ => c)) (d.setCpu cpu (cpuSeen c outstanding)) :=
    shows.setCpu
  cases st with
  | execute =>
      simp only [Cpu.step] at taken
      split at taken
      · rename_i pid rest toCpu running
        obtain rfl := Option.some.inj taken
        refine .visible (a := .execute cpu) ?_ rfl shows' quiet
        simp only [Dispatch.step, told]
        simp [cpuSeen, toCpu, running, orderSeen]
      · cases taken
  | initProc priority path =>
      simp only [Cpu.step] at taken
      split at taken
      · cases taken
      · obtain rfl := Option.some.inj taken
        refine .stay (shows.setUnseen fun outstanding => ?_) quiet
        simp [cpuSeen, messageSeen, seen]
  | stop syscall =>
      simp only [Cpu.step] at taken
      split at taken
      · cases taken
      · rename_i pid running
        obtain rfl := Option.some.inj taken
        refine .visible (a := .stop cpu (syscallSeen syscall)) ?_ rfl shows' quiet
        simp only [Dispatch.step, told]
        simp [cpuSeen, running, messageSeen]
  | evict =>
      simp only [Cpu.step] at taken
      split at taken
      · rename_i reason rest toCpu
        obtain rfl := Option.some.inj taken
        refine .visible (a := .evicted cpu) ?_ rfl shows' quiet
        simp only [Dispatch.step, told]
        simp [cpuSeen, toCpu, orderSeen, messageSeen]
      · cases taken

/-- A CPU connects. -/
theorem connectCpu_reaches (shows : Shows (seen s) d) (quiet : Quiet d)
    (absent : (s.cpu cpu).connection = .absent) :
    Reaches d [.connect cpu] (seen (s.setCpu cpu fun _ => .create)) := by
  obtain ⟨outstanding, told⟩ := shows.told cpu
  have connect : Dispatch.step d (.connect cpu) = some (d.setCpu cpu (cpuSeen .create [])) := by
    simp only [Dispatch.step, told]
    simp [cpuSeen, absent, connectionSeen, Cpu.create, Cpu.absent, Dispatch.Cpu.create,
      Dispatch.Cpu.absent]
  exact .visible connect rfl shows.setCpu quiet

/-- A CPU goes. -/
theorem handleCpuDisconnection_reaches (shows : Shows (seen s) d) (quiet : Quiet d)
    (inv : Inv config m none s place) (owned : s.board.Owned)
    (connected : (s.cpu cpu).connection = .connected) (read : (s.cpu cpu).toScheduler = []) :
    Reaches d [.disconnect cpu] (seen (handleCpuDisconnection config s cpu)) := by
  obtain ⟨outstanding, told⟩ := shows.told cpu
  have disconnect : Dispatch.step d (.disconnect cpu) =
      some (Dispatch.handleCpuDisconnection d cpu) := by
    simp only [Dispatch.step, told]
    rw [if_pos]
    exact ⟨cpuSeen_connected.mpr connected, quiet _, by simp [cpuSeen, read]⟩
  refine .visible disconnect rfl ?_ ?_
  · have search := getProcessFromCpu_seen cpu shows inv owned
    unfold Dispatch.handleCpuDisconnection handleCpuDisconnection
    rw [told]
    cases found : getProcessFromCpu s cpu with
    | none =>
        rw [found] at search
        rw [search]
        exact shows.setCpu
    | some pid =>
        rw [found] at search
        obtain ⟨p, search, there, rfl⟩ := search
        have known := known_of_cpu owned found
        have ready : Shows ((seen s).setRecord p.pid
            (some ⟨.ready, none, (s.process p.pid).pendingMemorySyscall⟩))
            { d.updateProcess p.pid fun p => { p with state := .ready, cpu := none } with
              readyQueue := d.readyQueue ++ [p.pid] } :=
          shows.enqueue known (fun _ => rfl) (fun q before => .of_eq rfl rfl before.pending)
            (by simp) rfl rfl
        have left : seen (removeFromExec (addProcessToReadyQueue config (s.setProcess p.pid fun p =>
            { p with state := .ready, cpu := none, startExecTime := 0 }) p.pid) p.pid) =
            { (seen s).setRecord p.pid
                (some ⟨.ready, none, (s.process p.pid).pendingMemorySyscall⟩) with
              execProcesses := s.execProcesses.erase p.pid } := by
          rw [seen_removeFromExec, seen_addProcessToReadyQueue, seen_setProcess]
          rfl
        have closed : Shows (View.setCpu { (seen s).setRecord p.pid
            (some ⟨.ready, none, (s.process p.pid).pendingMemorySyscall⟩) with
              execProcesses := s.execProcesses.erase p.pid } cpu
              { s.cpu cpu with connection := .closed, toCpu := [], running := none })
            (Dispatch.State.setCpu _ cpu (cpuSeen
              { s.cpu cpu with connection := .closed, toCpu := [], running := none } [])) :=
          Shows.setCpu (Shows.setExec ready)
        rw [search, shows.execProcesses]
        dsimp only
        rw [← left] at closed
        exact closed
  · unfold Dispatch.handleCpuDisconnection
    split <;> exact quiet

/-- A confirmed eviction is handled. -/
theorem waitConfirmation_reaches (shows : Shows (seen s) d) (quiet : Quiet d)
    (inv : Inv config m none s place) (owned : s.board.Owned)
    (connected : (s.cpu cpu).connection = .connected)
    (waits : (s.cpu cpu).evictor = some .handleState) (posted : 0 < (s.cpu cpu).responseSem) :
    Reaches d [] (seen (waitConfirmationThreadAndHandleState config s cpu)) := by
  obtain ⟨outstanding, told⟩ := shows.told cpu
  have search := getProcessFromCpu_seen cpu shows inv owned
  have confirmed : Shows (seen (s.setCpu cpu Cpu.confirmed))
      (d.setCpu cpu (cpuSeen (s.cpu cpu).confirmed [])) := shows.setCpu
  have reached : (d.cpus cpu).connection = .connected ∧ (d.cpus cpu).evictor = some ⟨false, true⟩ ∧
      0 < (d.cpus cpu).responseSem := told ▸ cpuSeen_waits connected waits posted
  have handled : (d.cpus cpu).confirmed true = cpuSeen (s.cpu cpu).confirmed [] :=
    told ▸ confirmed_cpuSeen ..
  unfold waitConfirmationThreadAndHandleState
  cases found : getProcessFromCpu s cpu with
  | none =>
      rw [found] at search
      have confirm : Dispatch.step d (.confirm cpu) =
          some (d.setCpu cpu (cpuSeen (s.cpu cpu).confirmed [])) := by
        simp only [Dispatch.step, handled, if_pos reached, search]
      exact .step confirm rfl (.stay confirmed quiet)
  | some pid =>
      rw [found] at search
      obtain ⟨p, search, there, rfl⟩ := search
      have confirm : Dispatch.step d (.confirm cpu) =
          some (Dispatch.requeue (d.setCpu cpu (cpuSeen (s.cpu cpu).confirmed [])) p) := by
        simp only [Dispatch.step, handled, if_pos reached, search]
      have known := known_of_cpu owned found
      refine .step confirm rfl (.stay ?_ ?_)
      · have executing : ((s.setCpu cpu Cpu.confirmed).process p.pid).state = .exec :=
          executing_of_cpu (s := s) owned found
        have left := seen_leaveCpu config executing
        have handled : seen (State.postShortTerm (if (s.process p.pid).pendingMemorySyscall then
            processSetCpu (removeFromExec (s.setCpu cpu Cpu.confirmed) p.pid) p.pid none
          else makeReady config
            (processSetCpu (removeFromExec (s.setCpu cpu Cpu.confirmed) p.pid) p.pid none) p.pid)) =
            _ := (seen_postShortTerm _).trans left
        exact handled ▸ confirmed.requeue known there
      · unfold Dispatch.requeue
        split <;> exact quiet

end Cpus

end OsModel.SchedulerSections
