import OsModel.Dispatch.CompactionGate
import OsModel.KernelScheduler.State

/-!
The orders to evict a process.

The quantum manager and the short-term scheduler choose a process under `scheduler_mutex`
and release it before `evict_process`, which only knows the CPU that the process had. A run
is one of `Dispatch.step` with these two threads, a clock, and the priorities.

Processes get CPUs only in `pick` (`step_runsOn`), so an order finds the process that it was
decided for unless another one is dispatched to the CPU, or the priority of the process
changes, before it is sent (`Undisturbed`, `evictions_hit`). `eviction_missed` is a run in
which a process of a queue without quantum is evicted because of a quantum.
-/

namespace OsModel.Dispatch

open Lib

section Seats

variable {ι : Type} [DecidableEq ι] {s s' : State ι} {a : Action ι} {pid : UInt32} {cpu : ι}

omit [DecidableEq ι] in
theorem State.RunsOn.of_processes (runs : s'.RunsOn pid cpu)
    (processes : s'.listProcesses = s.listProcesses) : s.RunsOn pid cpu := by
  obtain ⟨p, found, fits⟩ := runs
  refine ⟨p, ?_, fits⟩
  rwa [getProcessFromPid, processes] at found

/-- A process gets a CPU only when the short-term scheduler assigns one to it. -/
theorem step_runsOn (taken : step s a = some s') (runs : s'.RunsOn pid cpu) :
    s.RunsOn pid cpu ∨ a = .pick pid cpu := by
  cases a with
  | pick next there =>
      simp only [step] at taken
      split at taken
      · simp at taken
      · split at taken
        · obtain rfl := Option.some.inj taken
          obtain ⟨q, here, fits⟩ := runs
          change getProcessFromPid (s.updateProcess next fun p =>
            { p with state := .exec, cpu := some there }) pid = some q at here
          by_cases eq : pid = next
          · subst eq
            rw [getProcessFromPid_updateProcess (by exact fun _ => rfl), if_pos rfl] at here
            obtain ⟨p, -, rfl⟩ := Option.map_eq_some_iff.mp here
            obtain rfl := Option.some.inj fits.2
            exact .inr rfl
          · exact .inl ⟨q, found_of_updateProcess here eq fun _ => rfl, fits⟩
        · simp at taken
  | created pid =>
      simp only [step] at taken
      split at taken
      · simp at taken
      · obtain rfl := Option.some.inj taken
        exact .inl (Quieter.created.runs _ _ runs)
  | wake pid =>
      simp only [step] at taken
      split at taken
      · split at taken
        · obtain rfl := Option.some.inj taken
          exact .inl (Quieter.ready.runs _ _ runs)
        · simp at taken
      · simp at taken
  | proceed t => exact .inl ((Quieter.proceed taken).runs _ _ runs)
  | confirm cpu =>
      simp only [step] at taken
      split at taken
      · split at taken
        · obtain rfl := Option.some.inj taken
          exact .inl (runs.of_processes rfl)
        · obtain rfl := Option.some.inj taken
          exact .inl ((Quieter.requeue.runs _ _ runs).of_processes rfl)
      · simp at taken
  | await i =>
      simp only [step] at taken
      split at taken
      · split at taken
        · split at taken
          · obtain rfl := Option.some.inj taken
            exact .inl (runs.of_processes rfl)
          · obtain rfl := Option.some.inj taken
            exact .inl ((Quieter.requeue.runs _ _ (runs.of_processes rfl)).of_processes rfl)
        · simp at taken
      · simp at taken
  | handle cpu mutex =>
      simp only [step] at taken
      split at taken
      · split at taken
        · obtain rfl := Option.some.inj taken
          exact .inl (runs.of_processes rfl)
        · obtain rfl := Option.some.inj taken
          exact .inl ((Quieter.handleSyscall.runs _ _ runs).of_processes rfl)
      · simp at taken
  | disconnect cpu =>
      simp only [step] at taken
      split at taken
      · obtain rfl := Option.some.inj taken
        exact .inl (Quieter.disconnect.runs _ _ runs)
      · simp at taken
  | segmentResult pid ok =>
      simp only [step] at taken
      split at taken
      · split at taken
        · obtain rfl := Option.some.inj taken
          exact .inl (runs.of_processes rfl)
        · obtain rfl := Option.some.inj taken
          exact .inl ((Quieter.handleSegmentResult.runs _ _ runs).of_processes rfl)
      · simp at taken
  | compactionRequest =>
      obtain rfl := Option.some.inj taken
      exact .inl (runs.of_processes rfl)
  | connect | startRound | endRound | check | sendEvict | execute | evicted | post | close
  | collect | ready | finished =>
      simp only [step] at taken
      split at taken
      · obtain rfl := Option.some.inj taken
        exact .inl (runs.of_processes rfl)
      · simp at taken
  | stop =>
      simp only [step] at taken
      split at taken
      · simp at taken
      · obtain rfl := Option.some.inj taken
        exact .inl (runs.of_processes rfl)
  | evict | send | mark | reopen =>
      simp only [step] at taken
      split at taken
      · split at taken
        all_goals first
          | obtain rfl := Option.some.inj taken
            exact .inl (runs.of_processes rfl)
          | simp at taken
      · simp at taken
  | sendEvictAll =>
      simp only [step] at taken
      split at taken
      · split at taken
        · split at taken
          · obtain rfl := Option.some.inj taken
            exact .inl (runs.of_processes rfl)
          · simp at taken
        · obtain rfl := Option.some.inj taken
          exact .inl (runs.of_processes rfl)
      · simp at taken

omit [DecidableEq ι] in
/-- A process that is written so that it has no CPU. -/
theorem not_runsOn_updateProcess {f : Process ι → Process ι} (keeps : ∀ p, (f p).pid = p.pid)
    (quiet : ∀ p cpu, ¬ (f p).Fits (.cpu cpu)) : ¬ (s.updateProcess pid f).RunsOn pid cpu := by
  rintro ⟨p, found, fits⟩
  rw [getProcessFromPid_updateProcess keeps, if_pos rfl] at found
  obtain ⟨q, -, rfl⟩ := Option.map_eq_some_iff.mp found
  exact quiet q cpu fits

/-- The process of a CPU that disconnects has no CPU. -/
theorem not_runsOn_disconnect {p : Process ι} {there : ι}
    (taken : step s (.disconnect cpu) = some s') (found : getProcessFromCpu s cpu = some p) :
    ¬ s'.RunsOn p.pid there := by
  simp only [step] at taken
  split at taken
  · obtain rfl := Option.some.inj taken
    intro runs
    unfold handleCpuDisconnection at runs
    rw [found] at runs
    have written : (s.updateProcess p.pid fun p => { p with state := .ready, cpu := none }).RunsOn
        p.pid there := runs.of_processes rfl
    refine not_runsOn_updateProcess (by exact fun _ => rfl) ?_ written
    intro q there fits
    simp [Process.Fits] at fits
  · simp at taken

end Seats

namespace Orders

open KernelScheduler (Config)

/-! ### The threads that evict -/

/-- The threads that call `evict_process`. -/
inductive Decider where
  | quantumManager
  | shortTermScheduler
  deriving DecidableEq, Repr

/-- Where such a thread is. -/
inductive Phase (ι : Type) where
  /-- The quantum manager sleeps; the short-term scheduler is where the base state says. -/
  | idle
  /-- In the loop: the quantum manager looks for a process, and the short-term scheduler,
  which has found no CPU, leaves it. -/
  | looking
  /-- `scheduler_mutex` has been released: in `evict_process`, with the CPU of the process. -/
  | decided (pid : UInt32) (cpu : Option ι)
  /-- `is_evicting` has been set, before `PROCESS_EVICT` is sent. -/
  | marked (pid : UInt32) (cpu : ι)
  deriving DecidableEq, Repr

/-- The threads of `Dispatch.State`, the timer, and what the two threads read. `dispatched`
is when a process was dispatched: it is read by no step. -/
structure State (ι : Type) where
  base : Dispatch.State ι
  now : Nat
  startExecTime : UInt32 → Nat
  dispatched : UInt32 → Nat
  effectivePriority : UInt32 → UInt8
  phase : Decider → Phase ι

variable {ι : Type} [DecidableEq ι]

/-- Where a thread is after a step. -/
def State.setPhase (s : State ι) (d : Decider) (now : Phase ι) : State ι :=
  { s with phase := Function.update s.phase d now }

def processHasQuantum (config : Config) (effectivePriority : UInt8) : Bool :=
  match config.schedulerAlgorithm with
  | .rr => true
  | .fifo => false
  | .cmn =>
      let priority :=
        if config.queueAlgorithmsCount ≤ effectivePriority.toNat then
          config.queueAlgorithmsCount - 1
        else effectivePriority.toNat
      config.queueAlgorithms[priority]? == some .rr

/-- `process->cpu`. -/
def State.cpuOf (s : State ι) (pid : UInt32) : Option ι :=
  (getProcessFromPid s.base pid).bind Process.cpu

/-- The test of the quantum manager for a process of `exec_processes`. -/
def State.expires (config : Config) (s : State ι) (pid : UInt32) : Bool :=
  match getProcessFromPid s.base pid with
  | none => false
  | some p =>
      processHasQuantum config (s.effectivePriority pid) &&
        decide (config.quantum ≤ s.now - s.startExecTime pid) && p.state == .exec &&
          p.cpu.any fun cpu => !(s.base.cpus cpu).isEvicting

/-- The process that the quantum manager finds. -/
def State.expired (config : Config) (s : State ι) : Option UInt32 :=
  s.base.execProcesses.find? (s.expires config)

/-- `get_lowest_priority_process(exec_processes)`. -/
def State.lowestPriorityProcess (s : State ι) : Option UInt32 :=
  match s.base.execProcesses with
  | [] => none
  | pid :: rest =>
      some (rest.foldl (fun lowest pid =>
        if s.effectivePriority lowest < s.effectivePriority pid then pid else lowest) pid)

/-- What can happen next. -/
inductive Action (ι : Type) where
  /-- The timer. -/
  | tick
  /-- `process_set_priority`, when a mutex is locked or unlocked. -/
  | setPriority (pid : UInt32) (priority : UInt8)
  /-- A section of another thread, or of the short-term scheduler outside `evict_process`. -/
  | thread (a : Dispatch.Action ι)
  /-- The quantum manager wakes up and reads `can_schedule`. -/
  | wake
  /-- It goes through `exec_processes`. -/
  | expire
  /-- The short-term scheduler finds the process `next` and no CPU, and compares `next` with
  the process of the lowest priority. -/
  | preempt (next : UInt32)
  /-- `send_process_evict`, up to where it releases `internal_mutex`. -/
  | mark (d : Decider)
  /-- It sends `PROCESS_EVICT`. -/
  | send (d : Decider)
  deriving DecidableEq, Repr

/-- The section can be taken: evictions are those below, and the short-term scheduler
dispatches nothing while it evicts. -/
def State.permits (s : State ι) : Dispatch.Action ι → Bool
  | .evict _ | .sendEvict _ => false
  | .pick .. => s.phase .shortTermScheduler == .idle
  | .endRound => s.phase .shortTermScheduler == .idle || s.phase .shortTermScheduler == .looking
  | _ => true

/-- What a section writes besides the base state. -/
def State.record (config : Config) (s : State ι) : Dispatch.Action ι → State ι
  | .pick pid _ =>
      { s with
        startExecTime :=
          if config.schedulerAlgorithm = .fifo then s.startExecTime
          else Function.update s.startExecTime pid s.now
        dispatched := Function.update s.dispatched pid s.now }
  | .endRound => s.setPhase .shortTermScheduler .idle
  | .disconnect cpu =>
      match getProcessFromCpu s.base cpu with
      | none => s
      | some p => { s with startExecTime := Function.update s.startExecTime p.pid 0 }
  | _ => s

/-- The CPUs that `get_available_cpu` finds. -/
def State.Free (s : State ι) (cpu : ι) : Prop :=
  (s.base.cpus cpu).connection = .connected ∧ (s.base.cpus cpu).isAvailable = true ∧
    (s.base.cpus cpu).isEvicting = false

instance (s : State ι) (cpu : ι) : Decidable (s.Free cpu) := by
  unfold State.Free
  infer_instance

variable [Fintype ι]

def step (config : Config) (s : State ι) : Action ι → Option (State ι)
  | .tick => some { s with now := s.now + 1 }
  | .setPriority pid priority =>
      if config.schedulerAlgorithm = .cmn then
        some { s with effectivePriority := Function.update s.effectivePriority pid priority }
      else none
  | .thread a =>
      if s.permits a then
        (Dispatch.step s.base a).map fun base => { s.record config a with base }
      else none
  | .wake =>
      if s.phase .quantumManager = .idle ∧ s.base.canSchedule then
        some (s.setPhase .quantumManager .looking)
      else none
  | .expire =>
      if s.phase .quantumManager = .looking then
        match s.expired config with
        | none => some (s.setPhase .quantumManager .idle)
        | some pid => some (s.setPhase .quantumManager (.decided pid (s.cpuOf pid)))
      else none
  | .preempt next =>
      if s.phase .shortTermScheduler = .idle ∧ s.base.inRound ∧
          s.base.threads .shortTerm = .idle ∧ next ∈ s.base.readyQueue ∧
          (∀ p ∈ getProcessFromPid s.base next, p.state = .ready) ∧ (∀ cpu, ¬ s.Free cpu) ∧
          config.schedulerAlgorithm = .cmn ∧ config.queuePreemption then
        match s.lowestPriorityProcess with
        | none => none
        | some lowest =>
            if s.effectivePriority next < s.effectivePriority lowest then
              some (s.setPhase .shortTermScheduler (.decided lowest (s.cpuOf lowest)))
            else none
      else none
  | .mark d =>
      match s.phase d with
      | .decided _ none => some (s.setPhase d .looking)
      | .decided pid (some cpu) =>
          if (s.base.cpus cpu).connection = .connected then
            (Dispatch.step s.base (.evict cpu)).map fun base =>
              { s with base }.setPhase d
                (if (s.base.cpus cpu).isEvicting then .looking else .marked pid cpu)
          else some (s.setPhase d .looking)
      | _ => none
  | .send d =>
      match s.phase d with
      | .marked _ cpu =>
          if (s.base.cpus cpu).connection = .connected then
            (Dispatch.step s.base (.sendEvict cpu)).map fun base =>
              { s with base }.setPhase d .looking
          else some (s.setPhase d .looking)
      | _ => none

/-- The scheduler as it starts, with the priorities that its processes will have. -/
def initial (effectivePriority : UInt32 → UInt8) : State ι where
  base := Dispatch.initial
  now := 0
  startExecTime := fun _ => 0
  dispatched := fun _ => 0
  effectivePriority := effectivePriority
  phase := fun _ => .idle

/-! ### The section of the base state -/

omit [Fintype ι] [DecidableEq ι] in
@[simp] theorem base_setPhase (s : State ι) (d : Decider) (now : Phase ι) :
    (s.setPhase d now).base = s.base := rfl

omit [Fintype ι] [DecidableEq ι] in
@[simp] theorem phase_setPhase_self (s : State ι) (d : Decider) (now : Phase ι) :
    (s.setPhase d now).phase d = now := Function.update_self ..

omit [Fintype ι] [DecidableEq ι] in
theorem phase_setPhase_of_ne (s : State ι) {d other : Decider} (ne : other ≠ d) (now : Phase ι) :
    (s.setPhase d now).phase other = s.phase other := Function.update_of_ne ne ..

/-- The section of `Dispatch.step` that a step is. -/
def State.takes (s : State ι) : Action ι → Option (Dispatch.Action ι)
  | .thread a => some a
  | .mark d =>
      match s.phase d with
      | .decided _ cpu => cpu.map .evict
      | _ => none
  | .send d =>
      match s.phase d with
      | .marked _ cpu => some (.sendEvict cpu)
      | _ => none
  | _ => none

/-- The section is taken in time. -/
def Timely (s : State ι) (a : Action ι) : Prop := ∀ b ∈ s.takes a, Dispatch.Timely s.base b

instance (s : State ι) (a : Action ι) : Decidable (Timely s a) :=
  Option.decidableForallMem _

variable {config : Config} {s s' : State ι} {a : Action ι} {d : Decider} {pid q : UInt32}
  {cpu : ι}

/-- A step is a section of the base state, or does not change it. -/
theorem step_base (taken : step config s a = some s') :
    s'.base = s.base ∨ ∃ b ∈ s.takes a, Dispatch.step s.base b = some s'.base := by
  cases a with
  | tick =>
      obtain rfl := Option.some.inj taken
      exact .inl rfl
  | setPriority | wake =>
      simp only [step] at taken
      split at taken
      · obtain rfl := Option.some.inj taken
        exact .inl rfl
      · simp at taken
  | thread b =>
      simp only [step] at taken
      split at taken
      · obtain ⟨base, moved, rfl⟩ := Option.map_eq_some_iff.mp taken
        exact .inr ⟨b, rfl, moved⟩
      · simp at taken
  | expire =>
      simp only [step] at taken
      split at taken
      · split at taken
        · obtain rfl := Option.some.inj taken
          exact .inl rfl
        · obtain rfl := Option.some.inj taken
          exact .inl rfl
      · simp at taken
  | preempt next =>
      simp only [step] at taken
      split at taken
      · split at taken
        · simp at taken
        · split at taken
          · obtain rfl := Option.some.inj taken
            exact .inl rfl
          · simp at taken
      · simp at taken
  | mark d =>
      simp only [step] at taken
      split at taken
      · obtain rfl := Option.some.inj taken
        exact .inl rfl
      · rename_i pid cpu decided
        split at taken
        · obtain ⟨base, moved, rfl⟩ := Option.map_eq_some_iff.mp taken
          exact .inr ⟨.evict cpu, by simp [State.takes, decided], moved⟩
        · obtain rfl := Option.some.inj taken
          exact .inl rfl
      · simp at taken
  | send d =>
      simp only [step] at taken
      split at taken
      · rename_i pid cpu marked
        split at taken
        · obtain ⟨base, moved, rfl⟩ := Option.map_eq_some_iff.mp taken
          exact .inr ⟨.sendEvict cpu, by simp [State.takes, marked], moved⟩
        · obtain rfl := Option.some.inj taken
          exact .inl rfl
      · simp at taken

/-- In a timely run the base state keeps its invariant. -/
theorem base_inv {as : List (Action ι)} {effectivePriority : UInt32 → UInt8}
    (run : Run (step config) Timely (initial effectivePriority) as s) : Inv s.base := by
  have keeps : ∀ {s s' : State ι} {a}, Inv s.base → Timely s a → step config s a = some s' →
      Inv s'.base := by
    intro s s' a inv timely taken
    rcases step_base taken with same | ⟨b, takes, moved⟩
    · rwa [same]
    · exact step_inv inv (timely b takes) moved
  exact run.invariant keeps Dispatch.initial_inv

/-! ### What the orders find -/

/-- The process whose eviction from the CPU has been decided. -/
def Phase.target (cpu : ι) : Phase ι → Option UInt32
  | .decided pid (some there) => if there = cpu then some pid else none
  | .marked pid there => if there = cpu then some pid else none
  | _ => none

/-- An order that was decided for `pid` finds `q`: it is that process, and when the order is
the quantum manager's it has a quantum and has used it up since it was dispatched. -/
structure Hits (config : Config) (s : State ι) (d : Decider) (pid q : UInt32) : Prop where
  chosen : q = pid
  used : d = .quantumManager → processHasQuantum config (s.effectivePriority q) = true ∧
    config.quantum ≤ s.now - s.dispatched q

/-- What the sections keep. -/
structure Targets (config : Config) (s : State ι) : Prop where
  started : config.schedulerAlgorithm ≠ .fifo →
    ∀ pid cpu, s.base.RunsOn pid cpu → s.startExecTime pid = s.dispatched pid
  hits : ∀ d pid cpu, pid ∈ (s.phase d).target cpu →
    ∀ q, s.base.RunsOn q cpu → Hits config s d pid q

/-- No other process is assigned to the CPU of the process. -/
def Sole (s : State ι) (pid : UInt32) : Prop :=
  ∀ cpu ∈ s.cpuOf pid, ∀ p ∈ s.base.listProcesses,
    p.state = .exec → p.cpu = some cpu → p.pid = pid

instance (s : State ι) (pid : UInt32) : Decidable (Sole s pid) :=
  Option.decidableForallMem _

/-- From where the quantum manager decides to evict a process until it has sent the order, no
process is dispatched to the CPU and the process comes into no queue without quantum; and a
process that is chosen to be evicted is the only one on its CPU. -/
def Undisturbed (config : Config) (s : State ι) : Action ι → Prop
  | .thread (.pick _ cpu) => (s.phase .quantumManager).target cpu = none
  | .setPriority pid priority =>
      (∃ cpu, pid ∈ (s.phase .quantumManager).target cpu) →
        processHasQuantum config priority = true
  | .expire => ∀ pid ∈ s.expired config, Sole s pid
  | .preempt _ => ∀ pid ∈ s.lowestPriorityProcess, Sole s pid
  | _ => True

omit [Fintype ι] [DecidableEq ι] in
theorem Hits.later (hits : Hits config s d pid q) (now : s.now ≤ s'.now)
    (dispatched : s'.dispatched = s.dispatched)
    (priority : s'.effectivePriority = s.effectivePriority) : Hits config s' d pid q where
  chosen := hits.chosen
  used quantum := by
    obtain ⟨has, elapsed⟩ := hits.used quantum
    rw [priority, dispatched]
    exact ⟨has, by omega⟩

omit [Fintype ι] in
/-- No process gets a CPU, and no process is chosen. -/
theorem Targets.keep (targets : Targets config s)
    (runs : ∀ q cpu, s'.base.RunsOn q cpu → s.base.RunsOn q cpu)
    (start : ∀ q cpu, s'.base.RunsOn q cpu → s'.startExecTime q = s.startExecTime q)
    (now : s.now ≤ s'.now) (dispatched : s'.dispatched = s.dispatched)
    (priority : s'.effectivePriority = s.effectivePriority)
    (phase : ∀ d cpu pid, pid ∈ (s'.phase d).target cpu → pid ∈ (s.phase d).target cpu) :
    Targets config s' where
  started timed pid cpu here := by
    rw [start pid cpu here, dispatched]
    exact targets.started timed pid cpu (runs pid cpu here)
  hits d pid cpu target q here :=
    (targets.hits d pid cpu (phase d cpu pid target) q (runs q cpu here)).later now dispatched
      priority

omit [Fintype ι] in
/-- A thread goes on, and chooses no process. -/
theorem Targets.goOn (targets : Targets config s) {now : Phase ι}
    (fewer : ∀ cpu pid, pid ∈ now.target cpu → pid ∈ (s.phase d).target cpu) :
    Targets config (s.setPhase d now) := by
  refine targets.keep (fun _ _ => id) (fun _ _ _ => rfl) le_rfl rfl rfl ?_
  intro other cpu pid target
  by_cases eq : other = d
  · subst eq
    rw [phase_setPhase_self] at target
    exact fewer cpu pid target
  · rwa [phase_setPhase_of_ne s eq] at target

omit [Fintype ι] in
/-- A thread chooses a process that is the only one on its CPU. -/
theorem Targets.choose (targets : Targets config s) (sole : Sole s pid)
    (used : d = .quantumManager → s.expires config pid = true) :
    Targets config (s.setPhase d (.decided pid (s.cpuOf pid))) where
  started := targets.started
  hits other chosen cpu target q runs := by
    by_cases eq : other = d
    · subst eq
      rw [phase_setPhase_self] at target
      cases assigned : s.cpuOf pid with
      | none => simp [Phase.target, assigned] at target
      | some there =>
          simp only [Phase.target, assigned, Option.ite_none_right_eq_some, Option.mem_def,
            Option.some.injEq] at target
          obtain ⟨rfl, rfl⟩ := target
          obtain ⟨p, mem, rfl, exec, on⟩ := State.RunsOn.listed runs
          have chosen : p.pid = pid := sole there assigned p mem exec on
          refine ⟨chosen, fun quantum => ?_⟩
          have expires := used quantum
          have timed : config.schedulerAlgorithm ≠ .fifo := by
            intro fifo
            unfold State.expires at expires
            split at expires <;> simp [processHasQuantum, fifo] at expires
          unfold State.expires at expires
          split at expires
          · simp at expires
          · simp only [Bool.and_eq_true, decide_eq_true_eq] at expires
            have started := targets.started timed p.pid there runs
            change _ ∧ _ ≤ s.now - s.dispatched p.pid
            rw [← started, chosen]
            exact expires.1.1
    · rw [phase_setPhase_of_ne s eq] at target
      exact (targets.hits other chosen cpu target q runs).later le_rfl rfl rfl

omit [Fintype ι] in
/-- A section in which no process is dispatched. -/
theorem Targets.section {b : Dispatch.Action ι} {base : Dispatch.State ι}
    (targets : Targets config s) (moved : Dispatch.step s.base b = some base)
    (other : ∀ pid cpu, b ≠ .pick pid cpu) : Targets config { s.record config b with base } := by
  have runs : ∀ q cpu, base.RunsOn q cpu → s.base.RunsOn q cpu := fun q cpu here =>
    (step_runsOn moved here).resolve_right (other q cpu)
  cases b with
  | pick pid cpu => exact absurd rfl (other pid cpu)
  | endRound =>
      have moves : Targets config { s with base } :=
        targets.keep runs (fun _ _ _ => rfl) le_rfl rfl rfl fun _ _ _ => id
      exact moves.goOn fun cpu pid target => by simp [Phase.target] at target
  | disconnect cpu =>
      cases found : getProcessFromCpu s.base cpu with
      | none =>
          simp only [State.record, found]
          exact targets.keep runs (fun _ _ _ => rfl) le_rfl rfl rfl fun _ _ _ => id
      | some p =>
          simp only [State.record, found]
          refine targets.keep runs ?_ le_rfl rfl rfl fun _ _ _ => id
          intro q there here
          refine Function.update_of_ne ?_ ..
          rintro rfl
          exact not_runsOn_disconnect moved found here
  | connect | created | wake | startRound | check | send | proceed | evict | sendEvict | confirm
  | execute | stop | evicted | handle | post | segmentResult | compactionRequest | close | collect
  | mark | sendEvictAll | await | ready | finished | reopen =>
      exact targets.keep runs (fun _ _ _ => rfl) le_rfl rfl rfl fun _ _ _ => id

omit [Fintype ι] in
/-- A process is dispatched to a CPU for which no order is under way. -/
theorem Targets.pick {base : Dispatch.State ι} (targets : Targets config s)
    (idle : s.phase .shortTermScheduler = .idle)
    (untargeted : (s.phase .quantumManager).target cpu = none)
    (moved : Dispatch.step s.base (.pick pid cpu) = some base) :
    Targets config { s.record config (.pick pid cpu) with base } := by
  have before : ∀ there, ¬ s.base.RunsOn pid there := by
    rintro there ⟨p, found, exec, -⟩
    simp only [Dispatch.step, found] at moved
    split at moved
    · rename_i guards
      obtain ⟨-, -, -, ready, -⟩ := guards
      rw [exec] at ready
      cases ready
    · simp at moved
  have runs : ∀ q there, base.RunsOn q there →
      q ≠ pid ∧ s.base.RunsOn q there ∨ q = pid ∧ there = cpu := by
    intro q there here
    rcases step_runsOn moved here with here | same
    · refine .inl ⟨?_, here⟩
      rintro rfl
      exact before there here
    · cases same
      exact .inr ⟨rfl, rfl⟩
  constructor
  · intro timed q there here
    simp only [State.record, if_neg timed]
    rcases runs q there here with ⟨ne, here⟩ | ⟨rfl, -⟩
    · rw [Function.update_of_ne ne, Function.update_of_ne ne]
      exact targets.started timed q there here
    · rw [Function.update_self, Function.update_self]
  · intro d chosen there target q here
    change chosen ∈ (s.phase d).target there at target
    rcases runs q there here with ⟨ne, here⟩ | ⟨rfl, rfl⟩
    · have hits := targets.hits d chosen there target q here
      refine ⟨hits.chosen, ?_⟩
      simp only [State.record, Function.update_of_ne ne]
      exact hits.used
    · cases d with
      | quantumManager => simp [untargeted] at target
      | shortTermScheduler => simp [idle, Phase.target] at target

/-- The sections of an undisturbed run keep what the orders find. -/
theorem step_targets (targets : Targets config s) (undisturbed : Undisturbed config s a)
    (taken : step config s a = some s') : Targets config s' := by
  cases a with
  | tick =>
      obtain rfl := Option.some.inj taken
      exact targets.keep (fun _ _ => id) (fun _ _ _ => rfl) (Nat.le_succ _) rfl rfl
        fun _ _ _ => id
  | setPriority pid priority =>
      simp only [step] at taken
      split at taken
      · obtain rfl := Option.some.inj taken
        refine ⟨targets.started, ?_⟩
        intro d chosen cpu target q runs
        have hits := targets.hits d chosen cpu target q runs
        refine ⟨hits.chosen, fun quantum => ?_⟩
        obtain ⟨has, elapsed⟩ := hits.used quantum
        refine ⟨?_, elapsed⟩
        by_cases eq : q = pid
        · obtain rfl := quantum
          simp only [eq, Function.update_self]
          refine undisturbed ⟨cpu, ?_⟩
          rwa [← eq, hits.chosen]
        · simpa only [Function.update_of_ne eq] using has
      · simp at taken
  | thread b =>
      simp only [step] at taken
      split at taken
      · rename_i permitted
        obtain ⟨base, moved, rfl⟩ := Option.map_eq_some_iff.mp taken
        by_cases picks : ∃ pid cpu, b = .pick pid cpu
        · obtain ⟨pid, cpu, rfl⟩ := picks
          exact targets.pick (eq_of_beq permitted) undisturbed moved
        · exact targets.section moved fun pid cpu eq => picks ⟨pid, cpu, eq⟩
      · simp at taken
  | wake =>
      simp only [step] at taken
      split at taken
      · obtain rfl := Option.some.inj taken
        exact targets.goOn fun cpu pid target => by simp [Phase.target] at target
      · simp at taken
  | expire =>
      simp only [step] at taken
      split at taken
      · split at taken
        · obtain rfl := Option.some.inj taken
          exact targets.goOn fun cpu pid target => by simp [Phase.target] at target
        · rename_i pid expired
          obtain rfl := Option.some.inj taken
          exact targets.choose (undisturbed pid expired) fun _ => List.find?_some expired
      · simp at taken
  | preempt next =>
      simp only [step] at taken
      split at taken
      · split at taken
        · simp at taken
        · rename_i lowest found
          split at taken
          · obtain rfl := Option.some.inj taken
            exact targets.choose (undisturbed lowest found) fun quantum => by cases quantum
          · simp at taken
      · simp at taken
  | mark d =>
      simp only [step] at taken
      split at taken
      · obtain rfl := Option.some.inj taken
        exact targets.goOn fun cpu pid target => by simp [Phase.target] at target
      · rename_i pid cpu decided
        split at taken
        · obtain ⟨base, moved, rfl⟩ := Option.map_eq_some_iff.mp taken
          have moves : Targets config { s with base } :=
            targets.section moved fun _ _ eq => by cases eq
          refine moves.goOn fun other chosen target => ?_
          rw [decided]
          split at target
          · simp [Phase.target] at target
          · exact target
        · obtain rfl := Option.some.inj taken
          exact targets.goOn fun cpu pid target => by simp [Phase.target] at target
      · simp at taken
  | send d =>
      simp only [step] at taken
      split at taken
      · rename_i pid cpu marked
        split at taken
        · obtain ⟨base, moved, rfl⟩ := Option.map_eq_some_iff.mp taken
          have moves : Targets config { s with base } :=
            targets.section moved fun _ _ eq => by cases eq
          exact moves.goOn fun cpu pid target => by simp [Phase.target] at target
        · obtain rfl := Option.some.inj taken
          exact targets.goOn fun cpu pid target => by simp [Phase.target] at target
      · simp at taken

omit [Fintype ι] in
theorem initial_targets (effectivePriority : UInt32 → UInt8) :
    Targets config (initial effectivePriority : State ι) where
  started _ pid cpu runs := rfl
  hits d pid cpu target := by simp [initial, Phase.target] at target

/-- In every undisturbed run an order that is about to be sent finds the process that it was
decided for: the records say so, and when the run is timely also the CPU. -/
theorem evictions_hit {as : List (Action ι)} {effectivePriority : UInt32 → UInt8}
    (run : Run (step config) (Undisturbed config) (initial effectivePriority) as s)
    (order : s.phase d = .marked pid cpu) :
    (∀ q, s.base.RunsOn q cpu → Hits config s d pid q) ∧
      (Run (step config) Timely (initial effectivePriority) as s →
        ∀ q, (s.base.cpus cpu).running = some q → Hits config s d pid q) := by
  have targets := run.invariant step_targets (initial_targets effectivePriority)
  have target : pid ∈ (s.phase d).target cpu := by
    rw [order]
    simp [Phase.target]
  constructor
  · exact targets.hits d pid cpu target
  · intro timely q running
    have inv := base_inv timely
    have known : q ∈ (s.base.cpus cpu).outstanding := by
      refine (inv.cpus cpu).known q ?_
      simp [Cpu.inFlight, running]
    exact targets.hits d pid cpu target q (inv.fits q (.cpu cpu) (.inl known))

/-! ### Two runs -/

instance (config : Config) (s : State ι) : (a : Action ι) → Decidable (Undisturbed config s a)
  | .thread (.pick _ cpu) => inferInstanceAs (Decidable ((s.phase .quantumManager).target cpu = none))
  | .thread (.connect _) | .thread (.created _) | .thread (.wake _) | .thread .startRound
  | .thread .endRound | .thread (.check _) | .thread (.send _) | .thread (.proceed _)
  | .thread (.evict _) | .thread (.sendEvict _) | .thread (.confirm _) | .thread (.execute _)
  | .thread (.stop ..) | .thread (.evicted _) | .thread (.handle ..) | .thread (.post _)
  | .thread (.disconnect _) | .thread (.segmentResult ..) | .thread .compactionRequest
  | .thread (.close _) | .thread (.collect _) | .thread (.mark _) | .thread (.sendEvictAll _)
  | .thread (.await _) | .thread (.ready _) | .thread .finished | .thread (.reopen _)
  | .tick | .wake | .mark _ | .send _ => .isTrue trivial
  | .setPriority pid priority =>
      inferInstanceAs (Decidable ((∃ cpu, pid ∈ (s.phase .quantumManager).target cpu) →
        processHasQuantum config priority = true))
  | .expire => Option.decidableForallMem _
  | .preempt _ => Option.decidableForallMem _

/-- A queue with a quantum, over a queue without one. -/
def queues : Config :=
  { Config.ofQueues .rr [.fifo] with quantum := 1, queuePreemption := true }

/-- The process `0` is of the first queue, and the others are of the second. -/
def priorities (pid : UInt32) : UInt8 := if pid = 0 then 0 else 1

/-- The process is dispatched to the CPU. -/
def dispatch (cpu : ι) (pid : UInt32) : List (Action ι) :=
  [.thread .startRound, .thread (.pick pid cpu), .thread (.check .shortTerm),
    .thread (.send .shortTerm), .thread .endRound, .thread (.execute cpu)]

/-- The quantum manager decides to evict the process `0` from the only CPU. -/
def expiration (cpu : ι) : List (Action ι) :=
  [.thread (.connect cpu), .thread (.created 0)] ++ dispatch cpu 0 ++ [.tick, .wake, .expire]

/-- The order to evict the process `0` finds it on the CPU. -/
theorem evictions_hit_of_expiration :
    ∃ s : State (Fin 1), (s.base.cpus 0).running = some 0 ∧
      Hits queues s .quantumManager 0 0 := by
  obtain ⟨s, run, test⟩ := Run.exists_of_exec (step queues)
    (fun s a => Undisturbed queues s a ∧ Timely s a)
    ((expiration (0 : Fin 1)).append [.mark .quantumManager]) (initial priorities)
    (fun s => decide (s.phase .quantumManager = .marked 0 0 ∧ (s.base.cpus 0).running = some 0))
    (by decide)
  obtain ⟨order, running⟩ := of_decide_eq_true test
  have hits := (evictions_hit (run.mono fun _ _ => And.left) order).2
    (run.mono fun _ _ => And.right)
  exact ⟨s, running, hits 0 running⟩

/-- The process `0` sleeps after the quantum manager has decided to evict it, and the process
`1`, which has no quantum, is dispatched to the CPU before the order is sent. -/
theorem eviction_missed :
    ∃ as s, Run (step queues) Timely (initial priorities : State (Fin 1)) as s ∧
      s.phase .quantumManager = .marked 0 0 ∧ (step queues s (.send .quantumManager)).isSome ∧
        (s.base.cpus 0).running = some 1 ∧
          processHasQuantum queues (s.effectivePriority 1) = false := by
  obtain ⟨s, run, test⟩ := Run.exists_of_exec (step queues) Timely
    (((expiration (0 : Fin 1)).append [.thread (.stop 0 .sleep), .thread (.handle 0 .granted),
      .thread (.proceed (.cpuHandler 0)), .thread (.created 1)] ++ dispatch 0 1).append
        [.mark .quantumManager]) (initial priorities)
    (fun s => decide (s.phase .quantumManager = .marked 0 0 ∧
      (step queues s (.send .quantumManager)).isSome ∧ (s.base.cpus 0).running = some 1 ∧
        processHasQuantum queues (s.effectivePriority 1) = false)) (by decide)
  exact ⟨_, s, run, of_decide_eq_true test⟩

end Orders

end OsModel.Dispatch
