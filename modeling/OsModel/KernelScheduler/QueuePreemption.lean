import OsModel.KernelScheduler.EvictionOrder

/-!
Preemption between queues, and inside the last one
(`kernel_scheduler/src/schedulers/short_term_scheduler.c`).

A priority without a queue belongs to the last queue (`queueIndex_eq_min`), but the test of the
short-term scheduler, and the choice of the process to evict, compare priorities.

* `getLowestPriorityProcess_iff`: which process is chosen.
* `preempt_evicts_iff`: when it is evicted.
* `preempts_between_queues_iff`: it is of a lower queue unless the process that is `READY` is of
  the last queue.
* `preempted_in_last_queue`: a process is evicted for another one of the last queue.
-/

namespace OsModel.KernelScheduler

open Lib

variable {ι : Type} [DecidableEq ι]

/-- A process that runs is evicted for another one: `PROCESS_EVICT` is sent to its CPU. -/
def EvictedFor (config : Config) (s : State ι) (pid victim : UInt32) : Prop :=
  ∃ cpu ∈ (s.process victim).cpu, ((preempt config s pid).cpu cpu).toCpu =
    (s.cpu cpu).toCpu ++ [.processEvict .priorityPreemption]

/-- The processes that are evicted for a process are of a lower queue. -/
def BetweenQueues (config : Config) (s : State ι) (pid : UInt32) : Prop :=
  ∀ victim ∈ s.execProcesses, EvictedFor config s pid victim →
    queueIndex config (s.process pid) < queueIndex config (s.process victim)

/-- The process runs with the greatest number, and no other such process comes before it in
`exec_processes`. -/
structure Lowest (s : State ι) (victim : UInt32) : Prop where
  runs : victim ∈ s.execProcesses
  greatest : ∀ other ∈ s.execProcesses,
    (s.process other).effectivePriority.toNat ≤ (s.process victim).effectivePriority.toNat
  first : ∀ other ∈ s.execProcesses,
    (s.process victim).effectivePriority.toNat ≤ (s.process other).effectivePriority.toNat →
      s.execProcesses.idxOf victim ≤ s.execProcesses.idxOf other

/-- The process is of the last queue, and the one of the lowest priority that runs has a greater
number and can be evicted. -/
def Clash (config : Config) (s : State ι) (pid : UInt32) : Prop :=
  config.queueAlgorithmsCount - 1 ≤ (s.process pid).effectivePriority.toNat ∧
    ∃ victim, Lowest s victim ∧ Evictable s victim ∧
      (s.process pid).effectivePriority.toNat < (s.process victim).effectivePriority.toNat

section Preempt

variable {config : Config} {s : State ι} {pid victim : UInt32}

/-! ### Queues and priorities -/

omit [DecidableEq ι] in
/-- A process with a smaller number is of a higher queue unless both are of the last one. -/
theorem queueIndex_lt_iff (cmn : config.schedulerAlgorithm = .cmn) {p q : Process ι}
    (lower : p.effectivePriority.toNat < q.effectivePriority.toNat) :
    queueIndex config p < queueIndex config q ↔
      p.effectivePriority.toNat < config.queueAlgorithmsCount - 1 := by
  rw [queueIndex_eq_min cmn, queueIndex_eq_min cmn]
  omega

/-! ### Which process is chosen -/

omit [DecidableEq ι] in
/-- **Which process is chosen**: the first of those with the greatest number. -/
theorem getLowestPriorityProcess_iff :
    getLowestPriorityProcess s s.execProcesses = some victim ↔ Lowest s victim := by
  rw [getLowestPriorityProcess_eq_argmax, ← Option.mem_def, List.mem_argmax_iff]
  constructor
  · rintro ⟨runs, greatest, first⟩
    exact ⟨runs, greatest, first⟩
  · rintro ⟨runs, greatest, first⟩
    exact ⟨runs, greatest, first⟩

/-! ### Whether it is evicted -/

/-- An order to be evicted is sent to a CPU that is there and not being evicted. -/
theorem evictProcess_sends_iff {reason : InterruptReason} (target : Option ι) (cpu : ι) :
    ((evictProcess s target reason).cpu cpu).toCpu =
        (s.cpu cpu).toCpu ++ [.processEvict reason] ↔
      target = some cpu ∧ (s.cpu cpu).isEvicting = false ∧
        (s.cpu cpu).connection = .connected := by
  have nothing : (s.cpu cpu).toCpu ≠ (s.cpu cpu).toCpu ++ [.processEvict reason] := by simp
  unfold evictProcess sendProcessEvict
  cases target with
  | none => simp
  | some there =>
      by_cases refused : (s.cpu there).isEvicting ∨ (s.cpu there).connection ≠ .connected
      · simp only [if_pos refused, Option.getD_none]
        refine iff_of_false nothing ?_
        rintro ⟨same, calm, connected⟩
        obtain rfl := Option.some.inj same
        simp [calm, connected] at refused
      · simp only [if_neg refused, Option.getD_some]
        obtain ⟨calm, connected⟩ := not_or.mp refused
        by_cases same : cpu = there
        · subst same
          have calm := Bool.eq_false_of_not_eq_true calm
          simp [State.setCpu, calm, not_not.mp connected]
        · refine iff_of_false ?_ fun both => same (Option.some.inj both.1).symm
          simp [State.setCpu, Function.update_of_ne same]

/-- **When a process is evicted**: it is the one that is chosen, its number is greater, and the
order reaches its CPU. -/
theorem preempt_evicts_iff (cmn : config.schedulerAlgorithm = .cmn)
    (enabled : config.queuePreemption = true) (running : Running s)
    (runs : victim ∈ s.execProcesses) :
    EvictedFor config s pid victim ↔
      Lowest s victim ∧ Evictable s victim ∧
        (s.process pid).effectivePriority.toNat < (s.process victim).effectivePriority.toNat := by
  unfold EvictedFor preempt
  rw [if_pos ⟨cmn, enabled⟩, ← getLowestPriorityProcess_iff]
  constructor
  · rintro ⟨cpu, has, sent⟩
    cases chosen : getLowestPriorityProcess s s.execProcesses with
    | none => simp [chosen] at sent
    | some lowest =>
        simp only [chosen] at sent
        split at sent
        · rename_i lower
          obtain ⟨target, reached⟩ := (evictProcess_sends_iff _ cpu).mp sent
          have lowest_runs := (getLowestPriorityProcess_iff.mp chosen).runs
          have same : lowest = victim := Option.some.inj
            ((running.owner lowest lowest_runs cpu target).symm.trans
              (running.owner victim runs cpu has))
          subst same
          exact ⟨rfl, ⟨cpu, has, reached⟩, UInt8.lt_iff_toNat_lt.mp lower⟩
        · simp at sent
  · rintro ⟨chosen, ⟨cpu, has, reached⟩, lower⟩
    simp only [chosen, if_pos (UInt8.lt_iff_toNat_lt.mpr lower)]
    exact ⟨cpu, has, (evictProcess_sends_iff _ cpu).mpr ⟨has, reached⟩⟩

/-- **Between queues**: the processes that are evicted for a process are of a lower queue unless it
is of the last queue and the one of the lowest priority has a greater number. -/
theorem preempts_between_queues_iff (config : Config) (s : State ι) (pid : UInt32)
    (cmn : config.schedulerAlgorithm = .cmn) (enabled : config.queuePreemption = true)
    (running : Running s) :
    BetweenQueues config s pid ↔ ¬ Clash config s pid := by
  constructor
  · rintro between ⟨last, victim, lowest, evictable, lower⟩
    have preempted := (preempt_evicts_iff cmn enabled running lowest.runs).mpr
      ⟨lowest, evictable, lower⟩
    have below := (queueIndex_lt_iff cmn lower).mp (between victim lowest.runs preempted)
    omega
  · intro calm victim runs preempted
    obtain ⟨lowest, evictable, lower⟩ := (preempt_evicts_iff cmn enabled running runs).mp preempted
    rw [queueIndex_lt_iff cmn lower]
    by_contra last
    exact calm ⟨by omega, victim, lowest, evictable, lower⟩

end Preempt

/-- Two queues, with preemption between them. -/
def preemptive : Config :=
  { Config.ofQueues .fifo [.fifo] with queuePreemption := true }

/-- The process `1` runs alone, with the given priority, and has created the process `2` with
another one. -/
def successor (running ready : UInt32) : List (Action ℕ) :=
  started ++ [.cpu 0 (.initProc running "p1"), .handleCpu 0, .memory (.serve (.ok true)),
    .handleMemory, .cpu 0 (.stop .processEnd), .handleCpu 0, .schedule, .cpu 0 .execute,
    .memory (.serve (.ok true)), .cpu 0 (.initProc ready "p2"), .handleCpu 0,
    .memory (.serve (.ok true)), .handleMemory]

theorem preempts_between_queues_of_first :
    ∃ s : State ℕ, EvictedFor preemptive s 2 1 ∧ BetweenQueues preemptive s 2 := by
  obtain ⟨s, run, found⟩ := Run.exists_of_exec (step preemptive) (Allowed fun _ => .leavesCpu)
    (successor 3 0) initial (fun s => decide ((s.process 1).cpu = some 0 ∧
      (s.process 2).effectivePriority = 0 ∧ ((preempt preemptive s 2).cpu 0).toCpu =
        (s.cpu 0).toCpu ++ [.processEvict .priorityPreemption])) (by decide +kernel)
  obtain ⟨has, first, sent⟩ := of_decide_eq_true found
  refine ⟨s, ⟨0, has, sent⟩, ?_⟩
  refine (preempts_between_queues_iff preemptive s 2 rfl rfl (running_of_run run)).mpr ?_
  rintro ⟨last, -⟩
  rw [first] at last
  exact absurd last (by decide)

/-- **Preempted inside the last queue**: the process `1` of priority 5 runs and the process `2` of
priority 1 becomes `READY`. Both are of the last of two queues, and the first one is evicted. -/
theorem preempted_in_last_queue :
    ∃ as s, Run (step preemptive) (fun _ _ => True) (initial : State ℕ) as s ∧
      s.execProcesses = [1] ∧ s.readyQueue 1 = [2] ∧
        queueIndex preemptive (s.process 1) = queueIndex preemptive (s.process 2) ∧
          EvictedFor preemptive s 2 1 ∧ ¬ BetweenQueues preemptive s 2 := by
  obtain ⟨s, run, found⟩ := Run.exists_of_exec (step preemptive) (fun _ _ => True)
    (successor 5 1) initial (fun s => decide ((s.execProcesses = [1] ∧ s.readyQueue 1 = [2] ∧
      queueIndex preemptive (s.process 1) = queueIndex preemptive (s.process 2)) ∧
        (s.process 1).cpu = some 0 ∧ ((preempt preemptive s 2).cpu 0).toCpu =
          (s.cpu 0).toCpu ++ [.processEvict .priorityPreemption])) (by decide +kernel)
  obtain ⟨⟨runs, ready, same⟩, has, sent⟩ := of_decide_eq_true found
  have preempted : EvictedFor preemptive s 2 1 := ⟨0, has, sent⟩
  refine ⟨_, s, run, runs, ready, same, preempted, fun between => ?_⟩
  have below := between 1 (by simp [runs]) preempted
  omega

end OsModel.KernelScheduler
