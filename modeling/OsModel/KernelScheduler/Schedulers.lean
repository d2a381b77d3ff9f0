import OsModel.KernelScheduler.Processes

/-!
The schedulers of the Kernel Scheduler (`kernel_scheduler/src/schedulers`): long,
medium and short term.
-/

namespace OsModel.KernelScheduler

variable {ι : Type} [DecidableEq ι] (config : Config) (s : State ι)

/-! ### Long term -/

/-- `long_term_scheduler`, with its priority cut to eight bits. The pid is new:
`list_processes` is never pruned, and does not fit `2 ^ 32` processes. -/
def longTermScheduler (path : String) (priority : UInt8) : Option (State ι) :=
  let pid := s.currentMaxPid
  if pid ∈ s.listProcesses then none
  else
    let s' := (s.setProcess pid fun _ => createProcess priority).sendMemory (.processCreate pid path)
    some { s' with currentMaxPid := pid + 1, listProcesses := s.listProcesses ++ [pid] }

def waitProcessCreateConfirmation (pid : UInt32) : State ι :=
  if pid ∈ s.listProcesses then (makeReady config s pid).postShortTerm else s

/-! ### Medium term -/

/-- The test of `suspension_manager`. -/
def Expired (p : Process ι) : Prop :=
  p.state = .block ∧ config.suspensionTimeout ≤ s.now - p.startBlockTime

instance (p : Process ι) : Decidable (Expired config s p) := by
  unfold Expired
  infer_instance

/-- The loop of `suspension_manager`: the processes that stay in `block_processes`,
those to suspend, and the state. -/
def suspensionScan : List UInt32 → State ι → List UInt32 × List UInt32 × State ι
  | [], s => ([], [], s)
  | pid :: rest, s =>
      if Expired config s (s.process pid) then
        let (kept, toSuspend, s') := suspensionScan rest (processSetState s pid .suspBlock)
        (kept, pid :: toSuspend, s')
      else
        let (kept, toSuspend, s') := suspensionScan rest s
        (pid :: kept, toSuspend, s')

def suspensionManager : State ι :=
  if s.canSchedule then
    let (kept, toSuspend, s') := suspensionScan config s.blockProcesses s
    toSuspend.foldl (fun s pid => s.sendMemory (.swapOut pid)) { s' with blockProcesses := kept }
  else s

def waitConfirmationSwapOut (pid : UInt32) (ok : Bool) : State ι :=
  if pid ∈ s.listProcesses then
    match (s.process pid).state, ok with
    | .suspReady, false => (makeReady config s pid).postShortTerm
    | .suspBlock, false =>
        let s' := s.setProcess pid fun p => { p with state := .block, startBlockTime := s.now }
        { s' with blockProcesses := s.blockProcesses ++ [pid] }
    | .suspReady, true | .suspBlock, true =>
        { s with suspendedProcesses := s.suspendedProcesses ++ [pid] }
    | _, _ => s
  else s

def sortProcessesByPriority (pids : List UInt32) : List UInt32 :=
  pids.insertionSort fun a b =>
    (s.process a).effectivePriority ≤ (s.process b).effectivePriority

def requestSwapIn : State ι :=
  let readyToSwap := s.suspendedProcesses.filter fun pid => (s.process pid).state == .suspReady
  let toSwapIn := sortProcessesByPriority s readyToSwap
  if toSwapIn = [] then s else s.sendMemory (.swapIn toSwapIn)

/-- What `wait_confirmation_swap_in` does with one of the pids. -/
def swappedIn (pid : UInt32) : State ι :=
  if pid ∈ s.listProcesses then
    let s' := { s with suspendedProcesses := s.suspendedProcesses.erase pid }
    match (s.process pid).state with
    | .suspReady => makeReady config s' pid
    | .suspBlock =>
        let s'' := s'.setProcess pid fun p => { p with state := .block, startBlockTime := s.now }
        { s'' with blockProcesses := s.blockProcesses ++ [pid] }
    | _ => s'
  else s

/-- `wait_confirmation_swap_in`: the short-term scheduler is woken up if a process
has become `READY`. -/
def waitConfirmationSwapIn (pids : List UInt32) : State ι :=
  let newReadyProcesses := pids.any fun pid =>
    decide (pid ∈ s.listProcesses ∧ (s.process pid).state = .suspReady)
  let s' := pids.foldl (swappedIn config) s
  if newReadyProcesses then s'.postShortTerm else s'

/-! ### Short term -/

def getHighestPriorityProcessFromReadyQueue : Option UInt32 :=
  (List.range config.queueAlgorithmsCount).findSome? fun i => (s.readyQueue i).head?

/-- `get_next_process_to_execute`: nothing when the first process is not `READY`. -/
def getNextProcessToExecute : Option UInt32 :=
  let process :=
    match config.schedulerAlgorithm with
    | .cmn => getHighestPriorityProcessFromReadyQueue config s
    | _ => (s.readyQueue 0).head?
  process.filter fun pid => (s.process pid).state == .ready

def getAvailableCpu : Option ι :=
  s.listCpu.find? fun cpu => (s.cpu cpu).isAvailable && !(s.cpu cpu).isEvicting

/-- A process that is next is assigned to a CPU and sent to it. -/
def dispatch (pid : UInt32) (cpu : ι) : State ι :=
  let s' := (removeProcessFromReadyQueue config s pid).setCpu cpu fun c =>
    { c with isAvailable := false }
  let s'' := s'.setProcess pid fun p =>
    { p with
      state := .exec
      cpu := some cpu
      startExecTime :=
        if config.schedulerAlgorithm = .fifo then p.startExecTime else s.now }
  sendPidToExecute { s'' with execProcesses := s.execProcesses ++ [pid] } pid (some cpu)

/-- Without a CPU for the next process, the process of the lowest priority that runs
is evicted if its priority is lower. -/
def preempt (pid : UInt32) : State ι :=
  if config.schedulerAlgorithm = .cmn ∧ config.queuePreemption then
    match getLowestPriorityProcess s s.execProcesses with
    | none => s
    | some lowest =>
        if (s.process pid).effectivePriority < (s.process lowest).effectivePriority then
          evictProcess s (s.process lowest).cpu .priorityPreemption
        else s
  else s

/-- One turn of the inner loop of `short_term_scheduler_main`. -/
def shortTermTurn : State ι :=
  match getNextProcessToExecute config s, getAvailableCpu s with
  | some pid, some cpu => dispatch config s pid cpu
  | some pid, none => { preempt config s pid with inRound := false }
  | none, _ => { s with inRound := false }

/-- The test of `quantum_manager`. -/
def QuantumExpired (p : Process ι) : Prop :=
  processHasQuantum config p = true ∧ config.quantum ≤ s.now - p.startExecTime ∧
    p.state = .exec ∧ ∃ cpu ∈ p.cpu, (s.cpu cpu).isEvicting = false

instance (p : Process ι) : Decidable (QuantumExpired config s p) := by
  unfold QuantumExpired
  exact instDecidableAnd

end OsModel.KernelScheduler
