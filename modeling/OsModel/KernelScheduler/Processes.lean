import OsModel.KernelScheduler.State

/-!
Processes, ready queues and orders to the CPUs (`kernel_scheduler/src/utils.c`).
-/

namespace OsModel.KernelScheduler

variable {ι : Type} (config : Config) (s : State ι)

/-! ### Processes -/

def processSetState (pid : UInt32) (state : ProcessState) : State ι :=
  s.setProcess pid fun p => { p with state }

@[simp]
theorem processSetState_self (pid : UInt32) (state : ProcessState) :
    (processSetState s pid state).process pid = { s.process pid with state } := setProcess_self ..

@[simp]
theorem processSetState_of_ne {pid other : UInt32} (ne : other ≠ pid) (state : ProcessState) :
    (processSetState s pid state).process other = s.process other := setProcess_of_ne s ne _

def processSetCpu (pid : UInt32) (cpu : Option ι) : State ι :=
  s.setProcess pid fun p => { p with cpu }

def processSetPriority (pid : UInt32) (newPriority : UInt8) : State ι :=
  s.setProcess pid fun p => { p with effectivePriority := newPriority }

def processSetReady (pid : UInt32) : State ι :=
  processSetState s pid (if (s.process pid).state = .suspBlock then .suspReady else .ready)

def getProcessFromCpu [DecidableEq ι] (cpu : ι) : Option UInt32 :=
  s.listProcesses.find? fun pid => decide ((s.process pid).cpu = some cpu)

/-- `get_lowest_priority_process`: the first of those with the greatest number. -/
def getLowestPriorityProcess : List UInt32 → Option UInt32
  | [] => none
  | pid :: rest =>
      some (rest.foldl (fun lowest current =>
        if (s.process lowest).effectivePriority < (s.process current).effectivePriority then current
        else lowest) pid)

theorem getLowestPriorityProcess_eq_argmax (pids : List UInt32) :
    getLowestPriorityProcess s pids =
      pids.argmax fun pid => (s.process pid).effectivePriority.toNat := by
  have loop (rest : List UInt32) (lowest : UInt32) :
      rest.foldl (List.argAux fun b c =>
          (s.process c).effectivePriority.toNat < (s.process b).effectivePriority.toNat)
        (some lowest) =
        some (rest.foldl (fun lowest current =>
          if (s.process lowest).effectivePriority < (s.process current).effectivePriority then
            current
          else lowest) lowest) := by
    induction rest generalizing lowest with
    | nil => rfl
    | cons current rest ih =>
        rw [List.foldl_cons, List.foldl_cons, ← ih]
        congr 1
        simp only [List.argAux, UInt8.lt_iff_toNat_lt]
        split <;> rfl
  cases pids with
  | nil => rfl
  | cons pid rest => exact (loop rest pid).symm

/-- `remove_process_from_list(exec_processes, process)`. -/
def removeFromExec (pid : UInt32) : State ι :=
  { s with execProcesses := s.execProcesses.erase pid }

/-! ### The ready queues -/

/-- The `queue_index` of a process: the queue of its priority, and the last one for
the priorities without a queue. Without `CMN` there is one queue. -/
def queueIndex (p : Process ι) : Nat :=
  match config.schedulerAlgorithm with
  | .cmn =>
      if config.queueAlgorithmsCount ≤ p.effectivePriority.toNat then config.queueAlgorithmsCount - 1
      else p.effectivePriority.toNat
  | _ => 0

/-- One ready queue after a step. -/
def State.setReadyQueue (i : Nat) (queue : List UInt32) : State ι :=
  { s with readyQueue := Function.update s.readyQueue i queue }

def addProcessToReadyQueue (pid : UInt32) : State ι :=
  let i := queueIndex config (s.process pid)
  s.setReadyQueue i (s.readyQueue i ++ [pid])

/-- `add_process_at_start_of_ready_queue`: only `CMN` adds at the start. -/
def addProcessAtStartOfReadyQueue (pid : UInt32) : State ι :=
  let i := queueIndex config (s.process pid)
  match config.schedulerAlgorithm with
  | .cmn => s.setReadyQueue i (pid :: s.readyQueue i)
  | _ => s.setReadyQueue i (s.readyQueue i ++ [pid])

def removeProcessFromReadyQueue (pid : UInt32) : State ι :=
  let i := queueIndex config (s.process pid)
  s.setReadyQueue i ((s.readyQueue i).erase pid)

/-- `process_set_state(READY)` and `add_process_to_ready_queue`. -/
def makeReady (pid : UInt32) : State ι :=
  addProcessToReadyQueue config (processSetState s pid .ready) pid

/-- A change of priority, under which a process that is `READY` changes its queue. -/
def requeueWithPriority (pid : UInt32) (newPriority : UInt8) : State ι :=
  if (s.process pid).state = .ready then
    addProcessToReadyQueue config
      (processSetPriority (removeProcessFromReadyQueue config s pid) pid newPriority) pid
  else processSetPriority s pid newPriority

/-- What the process waited for is over: `process_set_ready`, out of
`block_processes`, and into a ready queue unless it is suspended. -/
def finishBlock (pid : UInt32) : State ι :=
  let s' := { processSetReady s pid with blockProcesses := s.blockProcesses.erase pid }
  if (s'.process pid).state = .ready then addProcessToReadyQueue config s' pid else s'

def processHasQuantum (p : Process ι) : Bool :=
  match config.schedulerAlgorithm with
  | .rr => true
  | .fifo => false
  | .cmn => config.queueAlgorithms[queueIndex config p]? == some .rr

/-! ### Orders to the CPUs -/

variable [DecidableEq ι]

/-- `cpu->is_available = true`. -/
def makeAvailable (cpu : ι) : State ι := s.setCpu cpu fun c => { c with isAvailable := true }

@[simp]
theorem process_makeAvailable (cpu : ι) : (makeAvailable s cpu).process = s.process := rfl

/-- `send_pid_to_execute`: without a CPU, or to one that is being evicted, nothing is
sent; and nothing arrives at a CPU that has gone. -/
def sendPidToExecute (pid : UInt32) : Option ι → State ι
  | none => s
  | some cpu =>
      if (s.cpu cpu).isEvicting then s
      else if (s.cpu cpu).connection = .connected then
        s.setCpu cpu fun c => { c with toCpu := c.toCpu ++ [.processExecute pid] }
      else s

/-- An order to execute is written to a CPU, and nowhere else. -/
theorem sendPidToExecute_eq (pid : UInt32) (cpu : Option ι) :
    ∃ cpus, sendPidToExecute s pid cpu = { s with cpu := cpus } := by
  cases cpu with
  | none => exact ⟨s.cpu, rfl⟩
  | some cpu =>
      simp only [sendPidToExecute]
      split
      · exact ⟨s.cpu, rfl⟩
      · split
        · exact ⟨_, rfl⟩
        · exact ⟨s.cpu, rfl⟩

/-- `send_process_evict`, with the thread that will wait for the confirmation;
`none` when it returns false. -/
def sendProcessEvict (reason : InterruptReason) (evictor : Evictor) : Option ι → Option (State ι)
  | none => none
  | some cpu =>
      if (s.cpu cpu).isEvicting ∨ (s.cpu cpu).connection ≠ .connected then none
      else
        some (s.setCpu cpu fun c =>
          { c with
            isEvicting := true
            evictor := some evictor
            toCpu := c.toCpu ++ [.processEvict reason] })

/-- What `send_process_evict` has done when it returns true. -/
theorem sendProcessEvict_some {reason : InterruptReason} {evictor : Evictor} {cpu : Option ι}
    {s s' : State ι} (sent : sendProcessEvict s reason evictor cpu = some s') :
    ∃ c, cpu = some c ∧ (s.cpu c).isEvicting = false ∧ (s.cpu c).connection = .connected ∧
      s' = s.setCpu c fun told =>
        { told with
          isEvicting := true
          evictor := some evictor
          toCpu := told.toCpu ++ [.processEvict reason] } := by
  cases cpu with
  | none => cases sent
  | some c =>
      simp only [sendProcessEvict] at sent
      split at sent
      · cases sent
      · rename_i reached
        rw [not_or, Bool.not_eq_true, not_not] at reached
        exact ⟨c, rfl, reached.1, reached.2, (Option.some.inj sent).symm⟩

def evictProcess (cpu : Option ι) (reason : InterruptReason) : State ι :=
  (sendProcessEvict s reason .handleState cpu).getD s

/-- The CPU once its eviction has been handled. -/
def Cpu.confirmed (c : Cpu) : Cpu :=
  { c with
    isAvailable := true
    isEvicting := false
    responseSem := c.responseSem - 1
    evictor := none }

/-- `wait_confirmation_thread_and_handle_state`, after `sem_wait`. -/
def waitConfirmationThreadAndHandleState (cpu : ι) : State ι :=
  let s' := s.setCpu cpu Cpu.confirmed
  match getProcessFromCpu s cpu with
  | none => s'.postShortTerm
  | some pid =>
      let s'' := processSetCpu (removeFromExec s' pid) pid none
      (if (s.process pid).pendingMemorySyscall then s'' else makeReady config s'' pid).postShortTerm

/-- `evict_all_processes`, up to where it waits: the evicted CPUs and the state. -/
def evictAllProcesses (reason : InterruptReason) : List UInt32 → State ι → List ι × State ι
  | [], s => ([], s)
  | pid :: rest, s =>
      match (s.process pid).cpu, sendProcessEvict s reason .all (s.process pid).cpu with
      | some cpu, some s' =>
          let (evicted, s'') := evictAllProcesses reason rest s'
          (cpu :: evicted, s'')
      | _, _ => evictAllProcesses reason rest s

/-- What holds of every order that `evict_all_processes` sends holds of all of them. -/
theorem evictAllProcesses_rule {R : State ι → State ι → Prop} {reason : InterruptReason}
    (refl : ∀ s, R s s)
    (order : ∀ {cpu s s' u}, sendProcessEvict s reason .all cpu = some s' → R s' u → R s u)
    (pids : List UInt32) (s : State ι) : R s (evictAllProcesses reason pids s).2 := by
  induction pids generalizing s with
  | nil => exact refl s
  | cons pid rest ih =>
      simp only [evictAllProcesses]
      split
      · rename_i cpu s' _ sent
        exact order sent (ih s')
      · exact ih s

/-- `evict_all_processes` after `sem_wait` on the next of the evicted CPUs; a CPU
without a process stays as it is. -/
def handleEvicted (cpu : ι) : State ι :=
  match getProcessFromCpu s cpu with
  | none => s.setCpu cpu fun c => { c with responseSem := c.responseSem - 1, evictor := none }
  | some pid =>
      let s' := processSetCpu (removeFromExec s pid) pid none
      (if (s.process pid).pendingMemorySyscall then s'
        else addProcessAtStartOfReadyQueue config (processSetState s' pid .ready) pid).setCpu cpu
          Cpu.confirmed

end OsModel.KernelScheduler
