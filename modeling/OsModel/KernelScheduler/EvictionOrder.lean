import OsModel.Lib.Queues
import OsModel.KernelScheduler.Ownership

/-!
Where the processes go that a compaction evicts (`evict_all_processes` in
`kernel_scheduler/src/utils.c`).

They go back one by one, in the order of `exec_processes`. `CMN` puts each of them in front of
its queue, so those of one queue end up in the opposite order; the other algorithms put them at
the back.

* `evictAndWait_spec`: which processes are moved back, and what becomes of the queues.
* `evicted_in_front_iff`: when they are in front, in their order.
* `evicted_behind`: a process that runs is evicted, and is then behind one that was `READY`.
-/

namespace OsModel.KernelScheduler

open Lib

variable {ι : Type} [DecidableEq ι]

/-! ### The whole eviction -/

/-- A CPU confirms, and `evict_all_processes` goes on. -/
def confirmEvicted (config : Config) (s : State ι) (cpu : ι) : State ι :=
  handleEvicted config (s.setCpu cpu fun c => { c with responseSem := c.responseSem + 1 }) cpu

/-- `evict_all_processes`, when every CPU confirms. -/
def evictAndWait (config : Config) (reason : InterruptReason) (s : State ι) : State ι :=
  let (evicted, s') := evictAllProcesses reason s.execProcesses s
  evicted.foldl (confirmEvicted config) s'

/-- `send_process_evict` reaches the CPU of the process. -/
def Evictable (s : State ι) (pid : UInt32) : Prop :=
  ∃ cpu ∈ (s.process pid).cpu, (s.cpu cpu).isEvicting = false ∧ (s.cpu cpu).connection = .connected

instance (s : State ι) (pid : UInt32) : Decidable (Evictable s pid) := by
  unfold Evictable
  infer_instance

/-- The running processes that are moved back to `READY`, in the order of `exec_processes`. -/
def movedBack (s : State ι) : List UInt32 :=
  s.execProcesses.filter fun pid =>
    decide (Evictable s pid) && !(s.process pid).pendingMemorySyscall

/-- The processes of `exec_processes` run, each on a CPU of its own. -/
structure Running (s : State ι) : Prop where
  executing : ∀ pid ∈ s.execProcesses, (s.process pid).state = .exec
  distinct : s.execProcesses.Nodup
  owner : ∀ pid ∈ s.execProcesses, ∀ cpu ∈ (s.process pid).cpu,
    getProcessFromCpu s cpu = some pid
  unqueued : ∀ pid ∈ s.execProcesses, ∀ i, pid ∉ s.readyQueue i

/-- The processes that were moved back are ahead of those that were `READY` in their queue, and
those of one queue are in the order of `exec_processes`. -/
structure InFront (config : Config) (s t : State ι) : Prop where
  ahead : ∀ pid ∈ movedBack s, ∀ other ∈ s.readyQueue (queueIndex config (s.process pid)),
    [pid, other].Sublist (t.readyQueue (queueIndex config (s.process pid)))
  ordered : ∀ a ∈ movedBack s, ∀ b ∈ movedBack s,
    queueIndex config (s.process a) = queueIndex config (s.process b) →
      [a, b].Sublist s.execProcesses →
        [a, b].Sublist (t.readyQueue (queueIndex config (s.process a)))

/-- The condition: under `CMN`, no two of them have the same queue; otherwise, there is none of
them, or nothing was `READY`. -/
def Roomy (config : Config) (s : State ι) : Prop :=
  match config.schedulerAlgorithm with
  | .cmn => (movedBack s).Pairwise fun a b =>
      queueIndex config (s.process a) ≠ queueIndex config (s.process b)
  | _ => movedBack s = [] ∨ s.readyQueue 0 = []

instance (config : Config) (s : State ι) : Decidable (Roomy config s) := by
  unfold Roomy
  split <;> infer_instance

section Loop

variable {config : Config} {reason : InterruptReason} {s t u : State ι} {pid : UInt32} {cpu : ι}

/-- In a run where no process ends with a CPU, the processes of `exec_processes` run. -/
theorem running_of_run {as : List (Action ι)}
    (run : Run (step config) (Allowed fun _ => .leavesCpu) initial as s) : Running s := by
  obtain ⟨⟨⟨place, inv⟩, -⟩, owned⟩ := board_owned run fun _ => rfl
  have listed : ∀ pid, s.execProcesses.count pid =
      if (s.process pid).state = .exec ∧ (s.process pid).cpu ≠ none then 1 else 0 :=
    board_listed run
  have executing : ∀ pid ∈ s.execProcesses, (s.process pid).state = .exec := by
    intro pid mem
    have here := List.count_pos_iff.mpr mem
    rw [listed] at here
    by_contra other
    rw [if_neg fun both => other both.1] at here
    exact absurd here (lt_irrefl 0)
  constructor
  · exact executing
  · rw [List.nodup_iff_count_le_one]
    intro pid
    rw [listed]
    split <;> omega
  · intro pid mem cpu has
    exact inv.getProcessFromCpu_eq owned has
  · intro pid mem i queued
    have ready := inv.mem_readyQueue queued
    rw [executing pid mem] at ready
    cases ready

/-! ### What the loops do -/

/-- The first loop sends an eviction to the CPUs that it can reach, and changes nothing but the
CPUs. -/
theorem evictAllProcesses_spec (reason : InterruptReason) (pids : List UInt32) (s : State ι)
    (apart : ∀ pid ∈ pids, ∀ other ∈ pids, ∀ cpu ∈ (s.process pid).cpu,
      (s.process other).cpu = some cpu → other = pid) (distinct : pids.Nodup) :
    (evictAllProcesses reason pids s).1 =
        ((pids.filter fun pid => decide (Evictable s pid)).filterMap fun pid =>
          (s.process pid).cpu) ∧
      ∃ cpus, (evictAllProcesses reason pids s).2 = { s with cpu := cpus } := by
  induction pids generalizing s with
  | nil => exact ⟨rfl, s.cpu, rfl⟩
  | cons pid rest ih =>
      obtain ⟨new, distinct⟩ := List.nodup_cons.mp distinct
      have rest_apart : ∀ a ∈ rest, ∀ other ∈ rest, ∀ cpu ∈ (s.process a).cpu,
          (s.process other).cpu = some cpu → other = a := fun a mem other also =>
        apart a (List.mem_cons_of_mem _ mem) other (List.mem_cons_of_mem _ also)
      cases has : (s.process pid).cpu with
      | none =>
          have missed : ¬ Evictable s pid := by
            rintro ⟨cpu, mem, -⟩
            simp [has] at mem
          rw [List.filter_cons_of_neg (by simpa using missed)]
          simp only [evictAllProcesses, has]
          exact ih s rest_apart distinct
      | some cpu =>
          by_cases reached : (s.cpu cpu).isEvicting = false ∧ (s.cpu cpu).connection = .connected
          · have hit : Evictable s pid := ⟨cpu, has, reached⟩
            have order : sendProcessEvict s reason .all (some cpu) =
                some (s.setCpu cpu fun c =>
                  { c with
                    isEvicting := true
                    evictor := some .all
                    toCpu := c.toCpu ++ [.processEvict reason] }) := by
              simp [sendProcessEvict, reached]
            generalize evicting : (s.setCpu cpu fun c : Cpu =>
              { c with
                isEvicting := true
                evictor := some .all
                toCpu := c.toCpu ++ [.processEvict reason] }) = s' at order
            have process : s'.process = s.process := by rw [← evicting]; rfl
            have others : ∀ other ∈ rest, Evictable s' other ↔ Evictable s other := by
              intro other mem
              have away : (s.process other).cpu ≠ some cpu := fun same => new
                (apart pid List.mem_cons_self other (List.mem_cons_of_mem _ mem) cpu has same ▸ mem)
              unfold Evictable
              rw [process]
              refine exists_congr fun c => and_congr_right fun mem => ?_
              have ne : c ≠ cpu := by
                rintro rfl
                exact away mem
              rw [← evicting, State.setCpu]
              simp only [Function.update_of_ne ne]
            obtain ⟨cpus, kept⟩ := ih s' (by rw [process]; exact rest_apart) distinct
            rw [List.filter_cons_of_pos (by simpa using hit)]
            simp only [evictAllProcesses, has, order]
            constructor
            · rw [List.filterMap_cons, has, cpus, process,
                List.filter_congr fun other mem => decide_eq_decide.mpr (others other mem)]
            · obtain ⟨c, same⟩ := kept
              exact ⟨c, same.trans (by rw [← evicting]; rfl)⟩
          · have missed : ¬ Evictable s pid := by
              rintro ⟨c, mem, there⟩
              obtain rfl : cpu = c := Option.some.inj (has.symm.trans mem)
              exact reached there
            have order : sendProcessEvict s reason .all (some cpu) = none := by
              unfold sendProcessEvict
              rw [not_and_or, Bool.not_eq_false] at reached
              exact if_pos reached
            rw [List.filter_cons_of_neg (by simpa using missed)]
            simp only [evictAllProcesses, has, order]
            exact ih s rest_apart distinct

/-- The entry of a process that is moved back. -/
def putEvicted (config : Config) (key : UInt32 → Nat) (queues : Nat → List UInt32) (pid : UInt32) :
    Nat → List UInt32 :=
  match config.schedulerAlgorithm with
  | .cmn => putFront key queues pid
  | _ => putBack key queues pid

/-- A process that has been evicted. -/
def Process.evicted (p : Process ι) : Process ι :=
  if p.pendingMemorySyscall then { p with cpu := none } else { p with state := .ready, cpu := none }

theorem confirmEvicted_spec (config : Config) (found : getProcessFromCpu s cpu = some pid) :
    (confirmEvicted config s cpu).process =
        Function.update s.process pid (s.process pid).evicted ∧
      (confirmEvicted config s cpu).readyQueue =
        (if (s.process pid).pendingMemorySyscall then s.readyQueue
        else putEvicted config (fun pid => queueIndex config (s.process pid)) s.readyQueue pid) ∧
      (confirmEvicted config s cpu).listProcesses = s.listProcesses := by
  have found' : getProcessFromCpu
      (s.setCpu cpu fun c => { c with responseSem := c.responseSem + 1 }) cpu = some pid := found
  unfold confirmEvicted handleEvicted Process.evicted
  simp only [found']
  by_cases pending : (s.process pid).pendingMemorySyscall
  · have pending' : ((s.setCpu cpu fun c => { c with responseSem := c.responseSem + 1 }).process
        pid).pendingMemorySyscall = true := pending
    rw [if_pos pending', if_pos pending, if_pos pending]
    exact ⟨rfl, rfl, rfl⟩
  · have pending' : ¬ ((s.setCpu cpu fun c => { c with responseSem := c.responseSem + 1 }).process
        pid).pendingMemorySyscall = true := pending
    rw [if_neg pending', if_neg pending, if_neg pending]
    have queue (p : Process ι) :
        queueIndex config ({ p with state := .ready, cpu := none } : Process ι) =
          queueIndex config p := rfl
    unfold addProcessAtStartOfReadyQueue putEvicted putFront putBack
    cases config.schedulerAlgorithm <;>
      simp [processSetState, processSetCpu, removeFromExec, State.setProcess, State.setCpu,
        State.setReadyQueue, queue]

omit [DecidableEq ι] in
@[simp]
theorem queueIndex_evicted (p : Process ι) : queueIndex config p.evicted = queueIndex config p := by
  unfold Process.evicted
  split <;> rfl

/-- An eviction that has been handled leaves the other processes where they are. -/
theorem getProcessFromCpu_confirmEvicted {other : UInt32} {cpu' : ι}
    (found : getProcessFromCpu s cpu = some pid) (ne : other ≠ pid)
    (there : getProcessFromCpu s cpu' = some other) :
    getProcessFromCpu (confirmEvicted config s cpu) cpu' = some other := by
  obtain ⟨process, -, listProcesses⟩ := confirmEvicted_spec config found
  have has := (getProcessFromCpu_some found).2
  have away : cpu ≠ cpu' := by
    rintro rfl
    exact ne (Option.some.inj (there.symm.trans found))
  unfold getProcessFromCpu at there ⊢
  rw [listProcesses, process, ← there]
  refine List.find?_congr fun candidate _ => ?_
  by_cases same : candidate = pid
  · subst same
    have free : (s.process candidate).evicted.cpu = none := by
      unfold Process.evicted
      split <;> rfl
    rw [Function.update_self, free, has]
    simp [away]
  · rw [Function.update_of_ne same]

/-- The second loop: every process of the list leaves its CPU, and those without a memory syscall
enter their queues, in the order of the list. -/
theorem foldl_confirmEvicted (config : Config) (pids : List UInt32) (s : State ι)
    (distinct : pids.Nodup)
    (owner : ∀ pid ∈ pids, ∃ cpu, (s.process pid).cpu = some cpu ∧
      getProcessFromCpu s cpu = some pid) :
    ((pids.filterMap fun pid => (s.process pid).cpu).foldl (confirmEvicted config) s).readyQueue =
        (pids.filter fun pid => !(s.process pid).pendingMemorySyscall).foldl
          (putEvicted config fun pid => queueIndex config (s.process pid)) s.readyQueue ∧
      ∀ pid, ((pids.filterMap fun pid => (s.process pid).cpu).foldl (confirmEvicted config)
          s).process pid =
        if pid ∈ pids then (s.process pid).evicted else s.process pid := by
  induction pids generalizing s with
  | nil => exact ⟨rfl, fun _ => rfl⟩
  | cons pid rest ih =>
      obtain ⟨new, distinct⟩ := List.nodup_cons.mp distinct
      obtain ⟨cpu, has, found⟩ := owner pid List.mem_cons_self
      obtain ⟨process, queues, -⟩ := confirmEvicted_spec config found
      have others : ∀ other ∈ rest, (confirmEvicted config s cpu).process other =
          s.process other := by
        intro other mem
        rw [process, Function.update_of_ne (ne_of_mem_of_not_mem mem new)]
      have keys : (fun other => queueIndex config ((confirmEvicted config s cpu).process other)) =
          fun other => queueIndex config (s.process other) := by
        funext other
        rw [process]
        by_cases same : other = pid
        · rw [same, Function.update_self, queueIndex_evicted]
        · rw [Function.update_of_ne same]
      obtain ⟨rest_queues, rest_process⟩ := ih (confirmEvicted config s cpu) distinct (by
        intro other mem
        obtain ⟨cpu', has', found'⟩ := owner other (List.mem_cons_of_mem _ mem)
        rw [others other mem]
        exact ⟨cpu', has',
          getProcessFromCpu_confirmEvicted found (ne_of_mem_of_not_mem mem new) found'⟩)
      have cpus : (rest.filterMap fun other => ((confirmEvicted config s cpu).process other).cpu) =
          rest.filterMap fun other => (s.process other).cpu :=
        List.filterMap_congr fun other mem => by rw [others other mem]
      have back : (rest.filter fun other =>
          !((confirmEvicted config s cpu).process other).pendingMemorySyscall) =
            rest.filter fun other => !(s.process other).pendingMemorySyscall :=
        List.filter_congr fun other mem => by rw [others other mem]
      rw [cpus] at rest_queues rest_process
      rw [List.filterMap_cons, has]
      constructor
      · rw [List.foldl_cons, rest_queues, back, keys, queues]
        by_cases pending : (s.process pid).pendingMemorySyscall
        · rw [List.filter_cons_of_neg (by simp [pending]), if_pos pending]
        · rw [List.filter_cons_of_pos (by simp [pending]), if_neg pending, List.foldl_cons]
      · intro other
        rw [List.foldl_cons, rest_process, process]
        by_cases same : other = pid
        · subst same
          rw [if_neg new, if_pos List.mem_cons_self, Function.update_self]
        · simp only [List.mem_cons, same, false_or, Function.update_of_ne same]

/-- **The whole eviction**: the processes that are moved back enter their queues one by one, and
they are those of `exec_processes` that are `READY` afterwards. -/
theorem evictAndWait_spec (reason : InterruptReason) (running : Running s) :
    (evictAndWait config reason s).readyQueue =
        (movedBack s).foldl (putEvicted config fun pid => queueIndex config (s.process pid))
          s.readyQueue ∧
      ∀ pid ∈ s.execProcesses,
        ((evictAndWait config reason s).process pid).state = .ready ↔ pid ∈ movedBack s := by
  have apart : ∀ pid ∈ s.execProcesses, ∀ other ∈ s.execProcesses, ∀ cpu ∈ (s.process pid).cpu,
      (s.process other).cpu = some cpu → other = pid := by
    intro pid mem other also cpu has has'
    exact Option.some.inj
      ((running.owner other also cpu has').symm.trans (running.owner pid mem cpu has))
  obtain ⟨evicted, cpus, state⟩ :=
    evictAllProcesses_spec reason s.execProcesses s apart running.distinct
  obtain ⟨queues, process⟩ := foldl_confirmEvicted config
    (s.execProcesses.filter fun pid => decide (Evictable s pid)) { s with cpu := cpus }
    (running.distinct.filter _) (by
      intro pid mem
      obtain ⟨mem, evictable⟩ := List.mem_filter.mp mem
      obtain ⟨cpu, has, -⟩ := of_decide_eq_true evictable
      exact ⟨cpu, has, running.owner pid mem cpu has⟩)
  have result : evictAndWait config reason s =
      ((s.execProcesses.filter fun pid => decide (Evictable s pid)).filterMap fun pid =>
        (s.process pid).cpu).foldl (confirmEvicted config) { s with cpu := cpus } := by
    unfold evictAndWait
    rw [← state, ← evicted]
  rw [result]
  constructor
  · have back : movedBack s = s.execProcesses.filter fun pid =>
        !(s.process pid).pendingMemorySyscall && decide (Evictable s pid) :=
      List.filter_congr fun pid _ => Bool.and_comm _ _
    rw [queues, List.filter_filter, back]
  · intro pid mem
    have executing := running.executing pid mem
    rw [process, movedBack]
    simp only [List.mem_filter, mem, true_and, decide_eq_true_eq, Bool.and_eq_true,
      Bool.not_eq_true', Process.evicted]
    by_cases evictable : Evictable s pid
    · cases pending : (s.process pid).pendingMemorySyscall <;> simp [evictable, executing]
    · simp [evictable, executing]

omit [DecidableEq ι] in
theorem mem_movedBack (mem : pid ∈ movedBack s) : pid ∈ s.execProcesses :=
  (List.mem_filter.mp mem).1

/-- Those of one queue, as `CMN` and the other algorithms leave it. -/
theorem readyQueue_evictAndWait (reason : InterruptReason) (running : Running s) (i : Nat) :
    (evictAndWait config reason s).readyQueue i =
      match config.schedulerAlgorithm with
      | .cmn => ((movedBack s).filter fun pid =>
          queueIndex config (s.process pid) == i).reverse ++ s.readyQueue i
      | _ => s.readyQueue i ++ (movedBack s).filter fun pid =>
          queueIndex config (s.process pid) == i := by
  rw [(evictAndWait_spec reason running).1]
  cases algorithm : config.schedulerAlgorithm with
  | cmn =>
      have put : putEvicted config (fun pid => queueIndex config (s.process pid)) =
          putFront fun pid => queueIndex config (s.process pid) := by
        unfold putEvicted
        rw [algorithm]
      rw [put, foldl_putFront]
  | fifo | rr =>
      have put : putEvicted config (fun pid => queueIndex config (s.process pid)) =
          putBack fun pid => queueIndex config (s.process pid) := by
        unfold putEvicted
        rw [algorithm]
      rw [put, foldl_putBack]

/-- Under `CMN`, all are ahead, and two of one queue are in the opposite order. -/
theorem inFront_iff_of_cmn (algorithm : config.schedulerAlgorithm = .cmn) (running : Running s) :
    InFront config s (evictAndWait config reason s) ↔
      (movedBack s).Pairwise fun a b =>
        queueIndex config (s.process a) ≠ queueIndex config (s.process b) := by
  have queue (i : Nat) : (evictAndWait config reason s).readyQueue i =
      ((movedBack s).filter fun pid => queueIndex config (s.process pid) == i).reverse ++
        s.readyQueue i := by
    rw [readyQueue_evictAndWait reason running, algorithm]
  have nodup : (movedBack s).Nodup := running.distinct.filter _
  constructor
  · intro front
    rw [List.pairwise_iff_forall_sublist]
    intro a b before same
    have mem_a : a ∈ movedBack s := before.subset (by simp)
    have mem_b : b ∈ movedBack s := before.subset (by simp)
    have after := front.ordered a mem_a b mem_b same (before.trans List.filter_sublist)
    rw [queue] at after
    have among := before_append_left after (running.unqueued b (mem_movedBack mem_b) _)
    have reversed : [b, a].Sublist (movedBack s) :=
      (List.reverse_sublist.mp (by simpa using among)).trans List.filter_sublist
    exact before_asymm nodup before reversed
  · intro apart
    constructor
    · intro pid mem other waiting
      rw [queue]
      exact before_append (by simpa using mem) waiting
    · intro a mem_a b mem_b same before
      have both : [a, b].Sublist (movedBack s) := by
        have passes (pid : UInt32) (mem : pid ∈ movedBack s) :=
          (List.mem_filter.mp mem).2
        exact before_filter before (passes a mem_a) (passes b mem_b)
      exact absurd same (List.pairwise_iff_forall_sublist.mp apart both)

/-- Without `CMN`, all are behind. -/
theorem inFront_iff_of_other (other : config.schedulerAlgorithm ≠ .cmn) (running : Running s) :
    InFront config s (evictAndWait config reason s) ↔ movedBack s = [] ∨ s.readyQueue 0 = [] := by
  have index (p : Process ι) : queueIndex config p = 0 := by
    unfold queueIndex
    split
    · contradiction
    · rfl
  have queue : (evictAndWait config reason s).readyQueue 0 = s.readyQueue 0 ++ movedBack s := by
    rw [readyQueue_evictAndWait reason running]
    split
    · contradiction
    · simp [index]
  constructor
  · intro front
    by_contra neither
    obtain ⟨some_back, some_ready⟩ := not_or.mp neither
    obtain ⟨pid, mem⟩ := List.exists_mem_of_ne_nil _ some_back
    obtain ⟨waiting, ready⟩ := List.exists_mem_of_ne_nil _ some_ready
    have ahead := front.ahead pid mem waiting (by rwa [index])
    rw [index, queue] at ahead
    have among := before_append_right ahead (running.unqueued pid (mem_movedBack mem) 0)
    have evicted : waiting ∈ movedBack s := among.subset (by simp)
    exact running.unqueued waiting (mem_movedBack evicted) 0 ready
  · intro roomy
    constructor
    · intro pid mem waiting ready
      rw [index] at ready
      rcases roomy with none | none
      · rw [none] at mem
        cases mem
      · rw [none] at ready
        cases ready
    · intro a mem_a b mem_b _ before
      have passes (pid : UInt32) (mem : pid ∈ movedBack s) := (List.mem_filter.mp mem).2
      rw [index, queue]
      exact (before_filter before (passes a mem_a) (passes b mem_b)).trans
        (List.sublist_append_right _ _)

/-- **When evicted processes go to the front**: exactly when, under `CMN`, no two of them have the
same queue, and otherwise, none is moved back or nothing was `READY`. -/
theorem evicted_in_front_iff (config : Config) (reason : InterruptReason) (s : State ι)
    (running : Running s) :
    (∀ pid ∈ s.execProcesses,
      ((evictAndWait config reason s).process pid).state = .ready ↔ pid ∈ movedBack s) ∧
      (InFront config s (evictAndWait config reason s) ↔ Roomy config s) := by
  constructor
  · exact (evictAndWait_spec reason running).2
  · unfold Roomy
    split
    · exact inFront_iff_of_cmn ‹_› running
    · exact inFront_iff_of_other ‹_› running

end Loop

/-- Two queues. -/
def multilevel : Config := .ofQueues .fifo [.rr]


/-- The process of the first CPU creates another one. -/
def creates (priority : UInt32) (path : String) : List (Action ℕ) :=
  [.cpu 0 (.initProc priority path), .handleCpu 0, .memory (.serve (.ok true)), .handleMemory]

/-- The first process has created one of the same priority. -/
def siblings : List (Action ℕ) := started ++ creates 0 "p1"

/-- The processes `0` and `1` run, one of each queue, and each queue has a `READY` one. -/
theorem evicted_in_front_of_two :
    ∃ s : State ℕ, s.readyQueue 0 = [2] ∧ s.readyQueue 1 = [3] ∧ movedBack s = [0, 1] ∧
      InFront multilevel s (evictAndWait multilevel .compaction s) := by
  obtain ⟨s, run, found⟩ := Run.exists_of_exec (step multilevel) (Allowed fun _ => .leavesCpu)
    (started ++ creates 1 "p1" ++ [.connectCpu 1, .schedule] ++ creates 0 "p2" ++ creates 1 "p3")
    initial (fun s => decide (s.readyQueue 0 = [2] ∧ s.readyQueue 1 = [3] ∧
      movedBack s = [0, 1] ∧ Roomy multilevel s)) (by decide +kernel)
  obtain ⟨first, second, back, roomy⟩ := of_decide_eq_true found
  exact ⟨s, first, second, back,
    (evicted_in_front_iff multilevel .compaction s (running_of_run run)).2.mpr roomy⟩

/-- **Behind, and in the opposite order**: with `FIFO`, the process that runs is evicted and is
then behind the one that was `READY`; with `CMN`, two processes of one queue that run are
evicted, and the one that started later comes first. -/
theorem evicted_behind :
    (∃ as s, Run (step fifo) (fun _ _ => True) (initial : State ℕ) as s ∧
      s.execProcesses = [0] ∧ s.readyQueue 0 = [1] ∧
        (evictAndWait fifo .compaction s).readyQueue 0 = [1, 0] ∧
          ¬ InFront fifo s (evictAndWait fifo .compaction s)) ∧
      ∃ as s, Run (step multilevel) (fun _ _ => True) (initial : State ℕ) as s ∧
        s.execProcesses = [0, 1] ∧ s.readyQueue 0 = [] ∧
          (evictAndWait multilevel .compaction s).readyQueue 0 = [1, 0] ∧
            ¬ InFront multilevel s (evictAndWait multilevel .compaction s) := by
  constructor
  · obtain ⟨s, run, found⟩ := Run.exists_of_exec (step fifo) (Allowed fun _ => .leavesCpu) siblings
      initial (fun s => decide (s.execProcesses = [0] ∧ s.readyQueue 0 = [1] ∧
        (evictAndWait fifo .compaction s).readyQueue 0 = [1, 0] ∧ movedBack s = [0]))
      (by decide +kernel)
    obtain ⟨runs, ready, queue, back⟩ := of_decide_eq_true found
    refine ⟨_, s, run.mono fun _ _ _ => trivial, runs, ready, queue, ?_⟩
    rw [inFront_iff_of_other (by decide) (running_of_run run), back, ready]
    decide
  · obtain ⟨s, run, found⟩ := Run.exists_of_exec (step multilevel)
      (Allowed fun _ => .leavesCpu) (siblings.append [.connectCpu 1, .schedule]) initial
      (fun s => decide (s.execProcesses = [0, 1] ∧ s.readyQueue 0 = [] ∧
        (evictAndWait multilevel .compaction s).readyQueue 0 = [1, 0] ∧
          ¬ Roomy multilevel s)) (by decide +kernel)
    obtain ⟨runs, ready, queue, full⟩ := of_decide_eq_true found
    refine ⟨_, s, run.mono fun _ _ _ => trivial, runs, ready, queue, ?_⟩
    rwa [inFront_iff_of_cmn rfl (running_of_run run)]

end OsModel.KernelScheduler
