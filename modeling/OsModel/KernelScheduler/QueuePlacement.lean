import OsModel.KernelScheduler.ReadyQueues
import OsModel.KernelScheduler.Priorities

/-!
Where `CMN` puts the processes that are `READY`.

The queue of a process is computed from its priority, when it is added and again when it is
removed. `requeueWithPriority` takes a `READY` process out before its priority changes and adds
it after, so every process that is queued is where its priority says (`InQueues`). Then a process
that is removed is found, and the process that is dispatched, the first of the first queue that
is not empty, is one of the most urgent (`queue_placement`).
-/

namespace OsModel.KernelScheduler

open Lib

variable {ι : Type} {config : Config} {s t : State ι} {hand : Option UInt32} {pid : UInt32}

/-- What is done to the ready queues. -/
inductive QueueOp where
  /-- A process becomes `READY`. -/
  | enqueue (pid : UInt32)
  /-- A process becomes `READY`, and is the first of its queue. -/
  | enqueueAtStart (pid : UInt32)
  /-- The next process is removed and runs. -/
  | dispatch
  /-- The owner of a mutex inherits a priority. -/
  | inherit (pid owner : UInt32)
  /-- A process that has released a mutex gets back its priority. -/
  | restore (pid : UInt32)

/-- An operation on the ready queues. -/
def queueStep (config : Config) (s : State ι) : QueueOp → Option (State ι)
  | .enqueue pid =>
      if (s.process pid).state = .ready then none else some (makeReady config s pid)
  | .enqueueAtStart pid =>
      if (s.process pid).state = .ready then none
      else some (addProcessAtStartOfReadyQueue config (processSetState s pid .ready) pid)
  | .dispatch =>
      (getNextProcessToExecute config s).map fun pid =>
        processSetState (removeProcessFromReadyQueue config s pid) pid .exec
  | .inherit pid owner => some (inheritPriority config s pid (some owner))
  | .restore pid => some (restorePriority config s pid)

/-- The processes that are `READY` are those in the queues, once each, and each is in the queue
of its priority. The process in `hand` is in no queue, and may be `READY`. -/
structure InQueues (config : Config) (hand : Option UInt32) (s : State ι) : Prop where
  queued : ∀ i, ∀ pid ∈ s.readyQueue i, (s.process pid).state = .ready ∧
    i = queueIndex config (s.process pid)
  ready : ∀ pid, hand ≠ some pid → (s.process pid).state = .ready →
    pid ∈ s.readyQueue (queueIndex config (s.process pid))
  once : ∀ i, (s.readyQueue i).Nodup
  away : ∀ i, ∀ pid ∈ s.readyQueue i, hand ≠ some pid

/-! ### Queues -/

@[simp]
theorem setReadyQueue_self (i : Nat) (queue : List UInt32) :
    (s.setReadyQueue i queue).readyQueue i = queue := Function.update_self ..

theorem setReadyQueue_of_ne {i j : Nat} (ne : j ≠ i) (queue : List UInt32) :
    (s.setReadyQueue i queue).readyQueue j = s.readyQueue j := Function.update_of_ne ne ..

namespace InQueues

/-- A process is taken out of its queue. -/
theorem take (placed : InQueues config none s) (pid : UInt32) :
    InQueues config (some pid) (removeProcessFromReadyQueue config s pid) where
  queued i other mem := by
    refine placed.queued i other ?_
    by_cases eq : i = queueIndex config (s.process pid)
    · subst eq
      rw [removeProcessFromReadyQueue, setReadyQueue_self] at mem
      exact List.mem_of_mem_erase mem
    · rwa [removeProcessFromReadyQueue, setReadyQueue_of_ne eq] at mem
  ready other out ready := by
    have ne : other ≠ pid := fun eq => out (congrArg some eq.symm)
    have there := placed.ready other (by simp) ready
    show other ∈ (removeProcessFromReadyQueue config s pid).readyQueue
      (queueIndex config (s.process other))
    by_cases eq : queueIndex config (s.process other) = queueIndex config (s.process pid)
    · rw [removeProcessFromReadyQueue, eq, setReadyQueue_self]
      rw [eq] at there
      exact (List.mem_erase_of_ne ne).mpr there
    · rwa [removeProcessFromReadyQueue, setReadyQueue_of_ne eq]
  once i := by
    by_cases eq : i = queueIndex config (s.process pid)
    · subst eq
      rw [removeProcessFromReadyQueue, setReadyQueue_self]
      exact (placed.once _).erase pid
    · rw [removeProcessFromReadyQueue, setReadyQueue_of_ne eq]
      exact placed.once i
  away i other mem same := by
    obtain rfl := Option.some.inj same
    by_cases eq : i = queueIndex config (s.process pid)
    · subst eq
      rw [removeProcessFromReadyQueue, setReadyQueue_self] at mem
      exact (placed.once _).not_mem_erase mem
    · rw [removeProcessFromReadyQueue, setReadyQueue_of_ne eq] at mem
      exact eq (placed.queued i pid mem).2

/-- The record of the process in hand is written. -/
theorem write (placed : InQueues config (some pid) s) (f : Process ι → Process ι) :
    InQueues config (some pid) (s.setProcess pid f) where
  queued i other mem := by
    have ne : other ≠ pid := fun eq => placed.away i other mem (congrArg some eq.symm)
    rw [setProcess_of_ne s ne]
    exact placed.queued i other mem
  ready other out ready := by
    have ne : other ≠ pid := fun eq => out (congrArg some eq.symm)
    rw [setProcess_of_ne s ne] at ready ⊢
    exact placed.ready other out ready
  once := placed.once
  away := placed.away

/-- A process that is not `READY` is taken in hand. -/
theorem lift (placed : InQueues config none s) (other : (s.process pid).state ≠ .ready) :
    InQueues config (some pid) s where
  queued := placed.queued
  ready := fun other _ => placed.ready other (by simp)
  once := placed.once
  away i there mem same := by
    obtain rfl := Option.some.inj same
    exact other (placed.queued i pid mem).1

/-- The process in hand is not `READY`. -/
theorem drop (placed : InQueues config (some pid) s) (other : (s.process pid).state ≠ .ready) :
    InQueues config none s where
  queued := placed.queued
  ready there _ ready := by
    refine placed.ready there (fun same => ?_) ready
    obtain rfl := Option.some.inj same
    exact other ready
  once := placed.once
  away := nofun

/-- The process in hand, which is `READY`, is put into its queue. -/
theorem put (placed : InQueues config (some pid) s) {queue : List UInt32}
    (ready : (s.process pid).state = .ready)
    (perm : queue.Perm (pid :: s.readyQueue (queueIndex config (s.process pid)))) :
    InQueues config none (s.setReadyQueue (queueIndex config (s.process pid)) queue) where
  queued i other mem := by
    by_cases eq : i = queueIndex config (s.process pid)
    · subst eq
      rw [setReadyQueue_self, perm.mem_iff] at mem
      rcases List.mem_cons.mp mem with rfl | mem
      · exact ⟨ready, rfl⟩
      · exact placed.queued _ other mem
    · rw [setReadyQueue_of_ne eq] at mem
      exact placed.queued i other mem
  ready other _ there := by
    show other ∈ (s.setReadyQueue _ queue).readyQueue (queueIndex config (s.process other))
    by_cases same : other = pid
    · subst same
      rw [setReadyQueue_self, perm.mem_iff]
      exact List.mem_cons_self
    · have mem := placed.ready other (fun eq => same (Option.some.inj eq).symm) there
      by_cases eq : queueIndex config (s.process other) = queueIndex config (s.process pid)
      · rw [eq, setReadyQueue_self, perm.mem_iff]
        exact List.mem_cons_of_mem _ (eq ▸ mem)
      · rwa [setReadyQueue_of_ne eq]
  once i := by
    by_cases eq : i = queueIndex config (s.process pid)
    · subst eq
      rw [setReadyQueue_self, perm.nodup_iff]
      exact List.nodup_cons.mpr ⟨fun mem => placed.away _ pid mem rfl, placed.once _⟩
    · rw [setReadyQueue_of_ne eq]
      exact placed.once i
  away := nofun

theorem addProcessToReadyQueue (placed : InQueues config (some pid) s)
    (ready : (s.process pid).state = .ready) :
    InQueues config none (addProcessToReadyQueue config s pid) :=
  placed.put ready (List.perm_append_singleton _ _)

theorem addProcessAtStartOfReadyQueue (placed : InQueues config (some pid) s)
    (ready : (s.process pid).state = .ready) :
    InQueues config none (addProcessAtStartOfReadyQueue config s pid) := by
  unfold KernelScheduler.addProcessAtStartOfReadyQueue
  split
  · exact placed.put ready (.refl _)
  · exact placed.addProcessToReadyQueue ready

/-- A change of priority moves a process that is `READY`, and no other. -/
theorem requeueWithPriority (placed : InQueues config none s) (newPriority : UInt8) :
    InQueues config none (requeueWithPriority config s pid newPriority) := by
  unfold KernelScheduler.requeueWithPriority
  split
  · rename_i ready
    have moved := (placed.take pid).write fun p => { p with effectivePriority := newPriority }
    refine moved.addProcessToReadyQueue ?_
    rw [setProcess_self]
    exact ready
  · rename_i other
    have written := (placed.lift other).write fun p => { p with effectivePriority := newPriority }
    refine written.drop ?_
    rw [setProcess_self]
    exact other

end InQueues

/-! ### Dispatch -/

theorem findSome?_range {α : Type} {f : Nat → Option α} {n i : Nat} {x : α} (lt : i < n)
    (here : f i = some x) (before : ∀ j < i, f j = none) :
    (List.range n).findSome? f = some x := by
  induction n with
  | zero => omega
  | succ n ih =>
      rw [List.range_succ, List.findSome?_append]
      by_cases later : i < n
      · rw [ih later]
        rfl
      · have eq : i = n := by omega
        subst eq
        have none : (List.range i).findSome? f = none :=
          List.findSome?_eq_none_iff.mpr fun j mem => before j (List.mem_range.mp mem)
        simp [none, here]

/-- The next process is the first of the first queue that is not empty. -/
theorem InQueues.next (placed : InQueues config none s) (cmn : config.schedulerAlgorithm = .cmn)
    {i : Nat} {rest : List UInt32} (here : s.readyQueue i = pid :: rest)
    (before : ∀ j < i, s.readyQueue j = []) : getNextProcessToExecute config s = some pid := by
  obtain ⟨ready, index⟩ := placed.queued i pid (here ▸ List.mem_cons_self)
  have found : getHighestPriorityProcessFromReadyQueue config s = some pid := by
    refine findSome?_range (i := i) ?_ ?_ ?_
    · rw [index]
      exact queueIndex_lt _
    · rw [here]
      rfl
    · intro j lt
      rw [before j lt]
      rfl
  unfold getNextProcessToExecute
  rw [cmn]
  dsimp only
  rw [found]
  simp [ready]

/-- There is a next process when there is one that is `READY`. -/
theorem InQueues.exists_next (placed : InQueues config none s)
    (ready : (s.process pid).state = .ready) :
    ∃ i next rest, s.readyQueue i = next :: rest ∧ (∀ j < i, s.readyQueue j = []) ∧
      i ≤ queueIndex config (s.process pid) := by
  classical
  have there := placed.ready pid nofun ready
  have nonempty : ∃ i, s.readyQueue i ≠ [] := ⟨_, List.ne_nil_of_mem there⟩
  obtain ⟨next, rest, here⟩ := List.exists_cons_of_ne_nil (Nat.find_spec nonempty)
  refine ⟨Nat.find nonempty, next, rest, here, fun j lt => ?_, ?_⟩
  · exact not_not.mp (Nat.find_min nonempty lt)
  · exact Nat.find_min' nonempty (List.ne_nil_of_mem there)

/-! ### Runs -/

theorem queueStep_placed {op : QueueOp} (placed : InQueues config none s)
    (taken : queueStep config s op = some t) : InQueues config none t := by
  cases op with
  | enqueue pid =>
      simp only [queueStep] at taken
      split at taken
      · cases taken
      · rename_i other
        obtain rfl := Option.some.inj taken
        have written := (placed.lift other).write fun p => { p with state := .ready }
        exact written.addProcessToReadyQueue (by simp)
  | enqueueAtStart pid =>
      simp only [queueStep] at taken
      split at taken
      · cases taken
      · rename_i other
        obtain rfl := Option.some.inj taken
        have written := (placed.lift other).write fun p => { p with state := .ready }
        exact written.addProcessAtStartOfReadyQueue (by simp)
  | dispatch =>
      obtain ⟨pid, -, rfl⟩ := Option.map_eq_some_iff.mp taken
      have written := (placed.take pid).write fun p => { p with state := .exec }
      exact written.drop (by simp)
  | inherit pid owner =>
      obtain rfl := Option.some.inj taken
      unfold inheritPriority
      dsimp only
      split
      · exact placed.requeueWithPriority _
      · exact placed
  | restore pid =>
      obtain rfl := Option.some.inj taken
      unfold restorePriority
      dsimp only
      split
      · exact placed.requeueWithPriority _
      · exact placed

/-- Under `CMN`, from queues that hold the `READY` processes once each, in any order of
operations: a process that is queued is in the queue of its priority, or in the last one; to
remove it finds it, and leaves the others in their order; and the process that is dispatched is
the first of the first queue that is not empty, which is as urgent as every other. -/
theorem queue_placement (cmn : config.schedulerAlgorithm = .cmn) (start : InQueues config none s)
    {ops : List QueueOp} (run : Run (queueStep config) (fun _ _ => True) s ops t) :
    (∀ i, ∀ pid ∈ t.readyQueue i,
      i = min (t.process pid).effectivePriority.toNat (config.queueAlgorithmsCount - 1)) ∧
      (∀ i, ∀ pid ∈ t.readyQueue i, ∃ before after, t.readyQueue i = before ++ pid :: after ∧
        pid ∉ before ++ after ∧
        (removeProcessFromReadyQueue config t pid).readyQueue =
          Function.update t.readyQueue i (before ++ after)) ∧
      (∀ i pid rest, t.readyQueue i = pid :: rest → (∀ j < i, t.readyQueue j = []) →
        getNextProcessToExecute config t = some pid ∧
          ∀ other, (t.process other).state = .ready →
            min (t.process pid).effectivePriority.toNat (config.queueAlgorithmsCount - 1) ≤
              min (t.process other).effectivePriority.toNat (config.queueAlgorithmsCount - 1)) ∧
      (getNextProcessToExecute config t = none ↔ ∀ pid, (t.process pid).state ≠ .ready) := by
  have placed := run.invariant (fun placed _ taken => queueStep_placed placed taken) start
  have index : ∀ i, ∀ pid ∈ t.readyQueue i,
      i = min (t.process pid).effectivePriority.toNat (config.queueAlgorithmsCount - 1) := by
    intro i pid mem
    rw [← queueIndex_eq_min cmn]
    exact (placed.queued i pid mem).2
  refine ⟨index, fun i pid mem => ?_, fun i pid rest here before => ?_, ?_⟩
  · obtain ⟨before, after, split⟩ := List.append_of_mem mem
    have once := placed.once i
    rw [split] at once
    have out : pid ∉ before ++ after := (List.nodup_middle.mp once).notMem
    refine ⟨before, after, split, out, ?_⟩
    have here := (placed.queued i pid mem).2
    rw [List.mem_append, not_or] at out
    unfold removeProcessFromReadyQueue
    dsimp only
    rw [← here, split, List.erase_append_right _ out.1, List.erase_cons_head]
    rfl
  · refine ⟨placed.next cmn here before, fun other ready => ?_⟩
    have first := index i pid (here ▸ List.mem_cons_self)
    obtain ⟨k, next, more, there, least, le⟩ := placed.exists_next ready
    have same : i ≤ k := by
      by_contra lt
      rw [before k (by omega)] at there
      cases there
    rw [← first, ← queueIndex_eq_min cmn]
    exact same.trans le
  · constructor
    · intro none pid ready
      obtain ⟨i, next, rest, here, before, -⟩ := placed.exists_next ready
      cases none.symm.trans (placed.next cmn here before)
    · intro nobody
      by_contra found
      obtain ⟨pid, next⟩ := Option.ne_none_iff_exists'.mp found
      exact nobody pid (getNextProcessToExecute_ready next)

theorem initial_placed : InQueues config none (initial : State ι) := by
  constructor <;> simp [initial, createProcess]

/-- A process of another priority. -/
def give (s : State ι) (pid : UInt32) (priority : UInt8) : State ι :=
  s.setProcess pid fun p => { p with basePriority := priority, effectivePriority := priority }

theorem give_placed {priority : UInt8} (placed : InQueues config none s)
    (other : (s.process pid).state ≠ .ready) : InQueues config none (give s pid priority) :=
  ((placed.lift other).write _).drop (by simpa using other)

/-- Three processes, which are not `READY`. -/
def ranked : State ℕ := give (give (give initial 1 2) 2 1) 4 1

theorem ranked_placed : InQueues config none ranked :=
  give_placed (give_placed (give_placed initial_placed (by decide)) (by decide)) (by decide)

/-- Two processes inherit the priority `0`; the first one gives it back, and the second one is
dispatched. -/
theorem queue_placement_of_dispatch :
    ∃ t : State ℕ, t.readyQueue 0 = [] ∧ t.readyQueue 1 = [4] ∧ t.readyQueue 2 = [1] ∧
      (t.process 2).state = .exec ∧ getNextProcessToExecute levels t = some 4 ∧
        (∀ pid ∈ t.readyQueue 2, 2 = min (t.process pid).effectivePriority.toNat 2) := by
  obtain ⟨t, run, test⟩ := Run.exists_of_exec (queueStep levels) (fun _ _ => True)
    [.enqueue 1, .enqueue 2, .enqueueAtStart 4, .inherit 3 1, .inherit 3 2, .restore 1, .dispatch]
    ranked (fun t : State ℕ => decide (t.readyQueue 0 = [] ∧ t.readyQueue 1 = [4] ∧
      t.readyQueue 2 = [1] ∧ (t.process 2).state = .exec)) (by decide)
  obtain ⟨first, second, third, runs⟩ := of_decide_eq_true test
  obtain ⟨index, -, next, -⟩ := queue_placement rfl ranked_placed run
  have before : ∀ j < 1, t.readyQueue j = [] := fun j lt => by
    obtain rfl := Nat.lt_one_iff.mp lt
    exact first
  exact ⟨t, first, second, third, runs, (next 1 4 [] second before).1, index 2⟩

end OsModel.KernelScheduler
