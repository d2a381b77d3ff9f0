import OsModel.KernelScheduler.WorkConservation
import OsModel.KernelScheduler.Ownership

/-!
Preemption between the queues of `CMN`.

A round of the short-term scheduler that finds no CPU for the next process evicts the process
of the lowest priority that runs, if its priority is lower, and the confirmation starts the
next round. So a process can only stay `READY` in a queue above that of a process that runs
if the queue of the latter changes without a signal.

* `Board.Seated`: a process that is `EXEC` has one of the CPUs of `list_cpu`.
* `Manned`: the CPU of a process is not being evicted without a thread that waits for it.
* `no_missed_preemption`: with nothing under way, no process is `READY` in a queue above that
  of a process that is `EXEC`.
-/

namespace OsModel.KernelScheduler

open Lib

/-! ### CPUs of processes -/

section Boards

variable {ι : Type} [DecidableEq ι] {m : UInt32 → Mode} {about : About ι} {b b' : Board ι}
  {cpu : ι}

namespace Board

/-- A process that is `EXEC` has a CPU of `list_cpu`, and these are connected. -/
structure Seated (b : Board ι) : Prop where
  seated : ∀ pid, (b.process pid).state = .exec → ∃ cpu ∈ b.listCpu, (b.process pid).cpu = some cpu
  connected : ∀ cpu ∈ b.listCpu, (b.cpu cpu).connection = .connected
  nodup : b.listCpu.Nodup

/-- The CPU is being evicted, and no process has it. -/
structure Deserted (cpu : ι) (b : Board ι) : Prop where
  evicting : (b.cpu cpu).isEvicting = true
  present : (b.cpu cpu).connection ≠ .absent
  nobody : ∀ pid, (b.process pid).cpu ≠ some cpu

end Board

theorem Turn.ne_exec {mode : Mode} {swaps : Bool} {state state' : ProcessState}
    (turn : Turn mode swaps state state') : state' ≠ .exec := by
  cases turn <;> exact ProcessState.noConfusion

theorem Move.seated (move : Move m about b b') (other : about.cpu = none) (seated : b.Seated) :
    b'.Seated := by
  obtain ⟨seated, connected, nodup⟩ := seated
  cases move <;> constructor <;> grind [Turn.ne_exec]

theorem Move.deserted (move : Move m about b b') (other : about.cpu = none)
    (deserted : b.Deserted cpu) : b'.Deserted cpu := by
  obtain ⟨evicting, present, nobody⟩ := deserted
  cases move <;> constructor <;> grind

end Boards

section Steps

variable {ι : Type} [DecidableEq ι] {config : Config} {m : UInt32 → Mode} {s t : State ι}
  {place : UInt32 → Option (Place ι)} {pid : UInt32} {cpu : ι} {hand : Option UInt32}

/-! ### A process leaves its CPU -/

/-- From `s` to `t` only the process of the CPU changes, and it is `READY` then. -/
structure Vacated (s t : State ι) (cpu : ι) : Prop where
  same : ∀ pid, getProcessFromCpu s cpu ≠ some pid → t.process pid = s.process pid
  ready : ∀ pid, getProcessFromCpu s cpu = some pid → (t.process pid).state = .ready
  left : ∀ pid, getProcessFromCpu s cpu = some pid → (t.process pid).cpu = none

namespace Vacated

theorem keeps (vacated : Vacated s t cpu) {other : ι} (has : (t.process pid).cpu = some other) :
    (s.process pid).cpu = some other := by
  by_cases found : getProcessFromCpu s cpu = some pid
  · simp [vacated.left pid found] at has
  · rwa [← vacated.same pid found]

theorem exec (vacated : Vacated s t cpu) (exec : (t.process pid).state = .exec) :
    t.process pid = s.process pid := by
  by_cases found : getProcessFromCpu s cpu = some pid
  · simp [vacated.ready pid found] at exec
  · exact vacated.same pid found

theorem of_none (none : getProcessFromCpu s cpu = none) (process : t.process = s.process) :
    Vacated s t cpu where
  same pid _ := by rw [process]
  ready pid found := by simp [none] at found
  left pid found := by simp [none] at found

theorem of_some {p : Process ι} (found : getProcessFromCpu s cpu = some pid)
    (process : t.process = Function.update s.process pid p) (ready : p.state = .ready)
    (left : p.cpu = none) : Vacated s t cpu := by
  constructor
  · intro other differs
    have ne : other ≠ pid := fun eq => differs (eq ▸ found)
    rw [process, Function.update_of_ne ne]
  · intro other found'
    obtain rfl := Option.some.inj (found.symm.trans found')
    rwa [process, Function.update_self]
  · intro other found'
    obtain rfl := Option.some.inj (found.symm.trans found')
    rwa [process, Function.update_self]

end Vacated

theorem waitConfirmation_vacated
    (settled : ∀ pid ∈ getProcessFromCpu s cpu, (s.process pid).pendingMemorySyscall = false) :
    Vacated s (waitConfirmationThreadAndHandleState config s cpu) cpu := by
  unfold waitConfirmationThreadAndHandleState
  dsimp only
  split
  · rename_i none
    exact .of_none none rfl
  · rename_i pid found
    rw [if_neg (by simp [settled pid found])]
    refine @Vacated.of_some _ _ _ _ _ _ { s.process pid with cpu := none, state := .ready } found
      ?_ rfl rfl
    simp [makeReady, addProcessToReadyQueue, State.setReadyQueue, processSetState, processSetCpu,
      State.setProcess, State.postShortTerm, removeFromExec, State.setCpu]

theorem handleEvicted_vacated
    (settled : ∀ pid ∈ getProcessFromCpu s cpu, (s.process pid).pendingMemorySyscall = false) :
    Vacated s (handleEvicted config s cpu) cpu := by
  unfold handleEvicted
  split
  · rename_i none
    exact .of_none none rfl
  · rename_i pid found
    dsimp only
    rw [if_neg (by simp [settled pid found])]
    refine @Vacated.of_some _ _ _ _ _ _ { s.process pid with cpu := none, state := .ready } found
      ?_ rfl rfl
    unfold addProcessAtStartOfReadyQueue
    split <;> simp [State.setReadyQueue, processSetState, processSetCpu, State.setProcess,
      removeFromExec, State.setCpu]

theorem handleCpuDisconnection_vacated : Vacated s (handleCpuDisconnection config s cpu) cpu := by
  unfold handleCpuDisconnection
  dsimp only
  split
  · rename_i none
    exact .of_none none rfl
  · rename_i pid found
    refine @Vacated.of_some _ _ _ _ _ _
      { s.process pid with state := .ready, cpu := none, startExecTime := 0 } found ?_ rfl rfl
    simp [addProcessToReadyQueue, State.setReadyQueue, State.setProcess, State.postShortTerm,
      removeFromExec, State.setCpu]

/-! ### Every process that runs has a CPU, and can be evicted -/

/-- No CPU of a process is stuck. -/
def Manned (s : State ι) : Prop := ∀ cpu, (s.cpu cpu).Stuck → s.board.Deserted cpu

/-- The processes that are `EXEC` have CPUs from which they can be evicted. -/
structure Placed (s : State ι) : Prop where
  seated : s.board.Seated
  manned : Manned s

/-- The process whose eviction or disconnection is handled waits for no segment, and a CPU
that disconnects has no other process. -/
def Settled (s : State ι) : Action ι → Prop
  | .confirm cpu =>
      ∀ pid ∈ getProcessFromCpu s cpu, (s.process pid).pendingMemorySyscall = false
  | .compaction i .handleEvicted =>
      ∀ cpu ∈ s.compactions[i]?.bind Compaction.handles,
        ∀ pid ∈ getProcessFromCpu s cpu, (s.process pid).pendingMemorySyscall = false
  | .disconnectCpu cpu =>
      ∀ pid ∈ s.listProcesses, (s.process pid).cpu = some cpu →
        getProcessFromCpu s cpu = some pid ∧ (s.process pid).pendingMemorySyscall = false
  | _ => True

/-- A step in which processes leave one CPU, which may disconnect. -/
theorem Placed.vacate (placed : Placed s) (vacated : Vacated s t cpu)
    (listed : ∀ other ∈ s.listCpu, other ∈ t.listCpu ∨ other = cpu ∧
      ∀ pid, (t.process pid).cpu ≠ some cpu)
    (fewer : t.listCpu.Sublist s.listCpu)
    (connected : ∀ other ∈ t.listCpu, (t.cpu other).connection = (s.cpu other).connection)
    (present : ∀ other, (s.cpu other).connection ≠ .absent → (t.cpu other).connection ≠ .absent)
    (stuck : ∀ other, (t.cpu other).Stuck → (s.cpu other).Stuck ∨
      other = cpu ∧ (s.cpu cpu).connection ≠ .absent ∧ getProcessFromCpu s cpu = none)
    (inv : Inv config m none s place) : Placed t where
  seated := by
    constructor
    · intro pid exec
      have same := vacated.exec exec
      have exec' : (s.process pid).state = .exec := same ▸ exec
      obtain ⟨other, mem, has⟩ := placed.seated.seated pid exec'
      have has' : (t.process pid).cpu = some other := by
        rw [same]
        exact has
      rcases listed other mem with mem | ⟨rfl, left⟩
      · exact ⟨other, mem, has'⟩
      · exact absurd has' (left pid)
    · intro other mem
      have before : (s.cpu other).connection = .connected :=
        placed.seated.connected other (fewer.subset mem)
      exact (connected other mem).trans before
    · exact placed.seated.nodup.sublist fewer
  manned other marked := by
    rcases stuck other marked with marked' | ⟨rfl, here, nobody⟩
    · obtain ⟨-, here, nobody⟩ := placed.manned other marked'
      exact ⟨marked.1, present other here, fun pid has => nobody pid (vacated.keeps has)⟩
    · refine ⟨marked.1, present other here, fun pid has => ?_⟩
      exact getProcessFromCpu_none inv nobody pid (vacated.keeps has)

/-- A step that handles no eviction or disconnection leaves no CPU stuck. -/
theorem step_stuck {a : Action ι} (staged : ∀ cpu, (s.cpu cpu).Staged)
    (other : (a.concerns s).cpu = none) (taken : step config s a = some t)
    (stuck : (t.cpu cpu).Stuck) : (s.cpu cpu).Stuck := by
  cases a with
  | wake =>
      simp only [step] at taken
      split at taken
      · obtain rfl := Option.some.inj taken
        exact stuck
      · cases taken
  | schedule =>
      simp only [step] at taken
      split at taken
      · obtain rfl := Option.some.inj taken
        exact gate_shortTermTurn.stuck cpu stuck
      · cases taken
  | compaction i st =>
      simp only [step] at taken
      cases st with
      | evictAll =>
          simp only [stepCompaction] at taken
          split at taken
          · rename_i reason _
            obtain rfl := Option.some.inj taken
            have calm : Calm none s (evictAllProcesses reason s.execProcesses s).2 :=
              calm_evictAllProcesses reason s.execProcesses s
            exact calm.gate.stuck cpu stuck
          · cases taken
      | handleEvicted =>
          simp only [stepCompaction] at taken
          split at taken
          · rename_i there
            simp [Action.concerns, there, Compaction.handles] at other
          · cases taken
      | compactionReady =>
          simp only [stepCompaction] at taken
          split at taken
          · obtain rfl := Option.some.inj taken
            exact stuck
          · cases taken
      | reopen =>
          simp only [stepCompaction] at taken
          split at taken
          · split at taken
            · obtain rfl := Option.some.inj taken
              exact stuck
            · cases taken
          · cases taken
  | tick | process0 | connectCpu | cpu | handleCpu | disconnectCpu | confirm | quantum | suspend
  | connectIo | handleIo | disconnectIo | written | memory | handleMemory =>
      exact (step_tended staged taken trivial).gate.stuck cpu stuck

/-- Such a step keeps the processes placed. -/
theorem Placed.moves {a : Action ι} (placed : Placed s) (inv : Inv config m none s place)
    (fresh : s.board.Fresh) (allowed : Allowed m s a) (other : (a.concerns s).cpu = none)
    (taken : step config s a = some t) : Placed t where
  seated := (step_moves inv fresh allowed taken).keeps
    (fun move seated => move.seated other seated) placed.seated
  manned cpu stuck := (step_moves inv fresh allowed taken).keeps
    (fun move deserted => move.deserted other deserted)
    (placed.manned cpu (step_stuck inv.staged other taken stuck))

/-- `evict_all_processes` handles an eviction. -/
theorem Placed.evicted (placed : Placed s) (inv : Inv config m none s place)
    (settled : ∀ pid ∈ getProcessFromCpu s cpu, (s.process pid).pendingMemorySyscall = false)
    (connected : (s.cpu cpu).connection = .connected)
    (process : t.process = (handleEvicted config s cpu).process)
    (cpus : t.cpu = (handleEvicted config s cpu).cpu)
    (listed : t.listCpu = (handleEvicted config s cpu).listCpu) : Placed t := by
  obtain ⟨f, cpus', connection, stuck⟩ : ∃ f : Cpu → Cpu,
      (handleEvicted config s cpu).cpu = (s.setCpu cpu f).cpu ∧
        (f (s.cpu cpu)).connection = (s.cpu cpu).connection ∧
          ((f (s.cpu cpu)).Stuck → getProcessFromCpu s cpu = none) := by
    unfold handleEvicted
    split
    · rename_i none
      exact ⟨_, rfl, rfl, fun _ => none⟩
    · refine ⟨Cpu.confirmed, ?_, rfl, fun marked => absurd marked.1 (by simp [Cpu.confirmed])⟩
      dsimp only
      split
      · rfl
      · unfold addProcessAtStartOfReadyQueue
        split <;> rfl
  have listed' : (handleEvicted config s cpu).listCpu = s.listCpu := by
    unfold handleEvicted
    split
    · rfl
    · dsimp only
      split
      · rfl
      · unfold addProcessAtStartOfReadyQueue
        split <;> rfl
  have connection' : ∀ other, (t.cpu other).connection = (s.cpu other).connection := by
    intro other
    rw [cpus, cpus']
    by_cases eq : other = cpu
    · subst eq
      rw [setCpu_self, connection]
    · rw [setCpu_of_ne s eq]
  have vacated : Vacated s t cpu := by
    obtain ⟨same, ready, left⟩ := @handleEvicted_vacated _ _ config _ _ settled
    exact ⟨process ▸ same, process ▸ ready, process ▸ left⟩
  refine placed.vacate vacated ?_ ?_ ?_ ?_ ?_ inv
  · intro other mem
    rw [listed, listed']
    exact .inl mem
  · rw [listed, listed']
  · exact fun other _ => connection' other
  · intro other here
    rwa [connection' other]
  · intro other marked
    rw [cpus, cpus'] at marked
    by_cases eq : other = cpu
    · subst eq
      rw [setCpu_self] at marked
      exact .inr ⟨rfl, by simp [connected], stuck marked⟩
    · rw [setCpu_of_ne s eq] at marked
      exact .inl marked

/-- Every step keeps the processes placed. -/
theorem step_placed {a : Action ι} (inv : Inv config m none s place) (fresh : s.board.Fresh)
    (allowed : Allowed m s a) (settled : Settled s a) (placed : Placed s)
    (taken : step config s a = some t) : Placed t := by
  cases a with
  | confirm cpu =>
      have stuck := (step_tended inv.staged taken trivial).gate.stuck
      simp only [step] at taken
      split at taken
      · obtain rfl := Option.some.inj taken
        have cpus : (waitConfirmationThreadAndHandleState config s cpu).cpu =
            (s.setCpu cpu Cpu.confirmed).cpu := by
          unfold waitConfirmationThreadAndHandleState
          dsimp only
          split
          · rfl
          · split <;> rfl
        have listed : (waitConfirmationThreadAndHandleState config s cpu).listCpu = s.listCpu := by
          unfold waitConfirmationThreadAndHandleState
          dsimp only
          split
          · rfl
          · split <;> rfl
        have connection : ∀ other,
            ((waitConfirmationThreadAndHandleState config s cpu).cpu other).connection =
              (s.cpu other).connection := by
          intro other
          rw [cpus]
          simp only [State.setCpu, Function.update_apply]
          split
          · rename_i eq
            rw [eq]
            rfl
          · rfl
        refine placed.vacate (waitConfirmation_vacated settled) ?_ ?_ ?_ ?_ ?_ inv
        · intro other mem
          exact .inl (listed ▸ mem)
        · rw [listed]
        · exact fun other _ => connection other
        · intro other here
          rwa [connection other]
        · exact fun other marked => .inl (stuck other marked)
      · cases taken
  | disconnectCpu cpu =>
      have stuck := (step_tended inv.staged taken trivial).gate.stuck
      simp only [step] at taken
      split at taken
      · rename_i connected
        obtain rfl := Option.some.inj taken
        have cpus : (handleCpuDisconnection config s cpu).cpu = (s.setCpu cpu fun c =>
            { c with connection := .closed, toCpu := [], running := none }).cpu := by
          unfold handleCpuDisconnection
          dsimp only
          split <;> rfl
        have listed : (handleCpuDisconnection config s cpu).listCpu = s.listCpu.erase cpu := by
          unfold handleCpuDisconnection
          rfl
        refine placed.vacate handleCpuDisconnection_vacated ?_ ?_ ?_ ?_ ?_ inv
        · intro other mem
          by_cases eq : other = cpu
          · refine .inr ⟨eq, fun pid has => ?_⟩
            have vacated : Vacated s (handleCpuDisconnection config s cpu) cpu :=
              handleCpuDisconnection_vacated
            have has' := vacated.keeps has
            obtain ⟨found, -⟩ := settled pid (inv.assigned pid (by simp [has'])) has'
            simp [vacated.left pid found] at has
          · exact .inl (listed ▸ (List.mem_erase_of_ne eq).mpr mem)
        · rw [listed]
          exact List.erase_sublist
        · intro other mem
          have ne : other ≠ cpu := by
            rintro rfl
            rw [listed] at mem
            exact placed.seated.nodup.not_mem_erase mem
          rw [cpus, setCpu_of_ne s ne]
        · intro other here
          rw [cpus]
          by_cases eq : other = cpu
          · subst eq
            simp
          · rwa [setCpu_of_ne s eq]
        · exact fun other marked => .inl (stuck other marked)
      · cases taken
  | compaction i st =>
      cases st with
      | handleEvicted =>
          simp only [step, stepCompaction] at taken
          split at taken
          · rename_i reason cpu rest there
            split at taken
            · rename_i waits
              obtain rfl := Option.some.inj taken
              have settled : ∀ pid ∈ getProcessFromCpu s cpu,
                  (s.process pid).pendingMemorySyscall = false :=
                settled cpu (by simp [there, Compaction.handles])
              exact placed.evicted inv settled waits.1 rfl rfl rfl
            · cases taken
          · cases taken
      | evictAll | compactionReady | reopen => exact placed.moves inv fresh allowed rfl taken
  | handleMemory =>
      refine placed.moves inv fresh allowed ?_ taken
      simp only [Action.concerns]
      split
      · rfl
      · rename_i message _ _
        cases message <;> rfl
  | tick | process0 | connectCpu | cpu | handleCpu | wake | schedule | quantum | suspend
  | connectIo | handleIo | disconnectIo | written | memory =>
      exact placed.moves inv fresh allowed rfl taken

/-! ### What a round leaves behind -/

/-- A process is `READY` in a queue above that of a process that is `EXEC`. -/
def Missed (config : Config) (s : State ι) : Prop :=
  ∃ ready executing, (s.process ready).state = .ready ∧ (s.process executing).state = .exec ∧
    queueIndex config (s.process ready) < queueIndex config (s.process executing)

omit [DecidableEq ι] in
/-- A process in a higher queue has a higher priority. -/
theorem effectivePriority_lt {p q : Process ι} (above : queueIndex config p < queueIndex config q) :
    p.effectivePriority < q.effectivePriority := by
  rw [UInt8.lt_iff_toNat_lt]
  unfold queueIndex at above
  split at above
  · split at above <;> split at above <;> omega
  · omega

omit [DecidableEq ι] in
/-- No process of the list has a lower priority than the one that is found. -/
theorem getLowestPriorityProcess_le {pids : List UInt32} (mem : pid ∈ pids) :
    ∃ lowest ∈ pids, getLowestPriorityProcess s pids = some lowest ∧
      (s.process pid).effectivePriority ≤ (s.process lowest).effectivePriority := by
  rw [getLowestPriorityProcess_eq_argmax]
  cases chosen : pids.argmax fun pid => (s.process pid).effectivePriority.toNat with
  | none =>
      rw [List.argmax_eq_none.mp chosen] at mem
      cases mem
  | some lowest =>
      refine ⟨lowest, List.argmax_mem chosen, rfl, UInt8.le_iff_toNat_le.mpr ?_⟩
      exact List.le_of_mem_argmax (f := fun pid => (s.process pid).effectivePriority.toNat) mem
        chosen

/-- The process that is next is in the highest queue that is not empty. -/
theorem Inv.queueIndex_next (inv : Inv config m none s place) {next : UInt32}
    (found : KernelScheduler.getNextProcessToExecute config s = some next)
    (ready : (s.process pid).state = .ready) :
    queueIndex config (s.process next) ≤ queueIndex config (s.process pid) := by
  have queued : ∀ other, (s.process other).state = .ready →
      ∀ i, other ∈ s.readyQueue i ↔ i = queueIndex config (s.process other) := by
    intro other ready i
    have held : (s.readyQueue i).count other = _ := inv.located other (.ready i)
    rw [inv.place_ready ready] at held
    rw [← List.count_pos_iff, held]
    split
    · rename_i eq
      simpa using eq.symm
    · rename_i ne
      simpa using fun eq => ne (by rw [eq])
  unfold KernelScheduler.getNextProcessToExecute at found
  obtain ⟨first, -⟩ := Option.filter_eq_some_iff.mp found
  cases algorithm : config.schedulerAlgorithm with
  | fifo | rr => simp [queueIndex, algorithm]
  | cmn =>
      rw [algorithm] at first
      obtain ⟨before, i, after, range, head, empty⟩ := List.findSome?_eq_some_iff.mp first
      have here : next ∈ s.readyQueue i := List.mem_of_head? head
      have ready' := inv.mem_readyQueue here
      rw [← (queued next ready' i).mp here]
      by_contra above
      have sorted : (before ++ i :: after).Pairwise (· < ·) := range ▸ List.pairwise_lt_range
      have asked : queueIndex config (s.process pid) ∈ before ++ i :: after := by
        rw [← range]
        exact List.mem_range.mpr (queueIndex_lt _)
      have earlier : queueIndex config (s.process pid) ∈ before := by
        rcases List.mem_append.mp asked with earlier | later
        · exact earlier
        · obtain ⟨-, rest, -⟩ := List.pairwise_append.mp sorted
          rcases List.mem_cons.mp later with eq | later
          · omega
          · have := List.rel_of_pairwise_cons rest later
            omega
      have nobody := empty _ earlier
      have mine := (queued pid ready _).mpr rfl
      rw [List.head?_eq_none_iff.mp nobody] at mine
      cases mine

/-- When there is no CPU for the next process, either a CPU is being evicted, or no process is
`READY` above one that is `EXEC`. -/
theorem preempt_evicts (inv : Inv config m none s place) (listed : s.board.Listed)
    (placed : Placed s) (cmn : config.schedulerAlgorithm = .cmn)
    (preemption : config.queuePreemption = true)
    (found : getNextProcessToExecute config s = some pid) (missed : Missed config s) :
    ∃ cpu ∈ (preempt config s pid).listCpu, ((preempt config s pid).cpu cpu).evictor ≠ none := by
  obtain ⟨ready, executing, isReady, isExec, above⟩ := missed
  have inExec : executing ∈ s.execProcesses := by
    obtain ⟨cpu, -, has⟩ := placed.seated.seated executing isExec
    have once : s.execProcesses.count executing = _ := listed executing
    rw [if_pos ⟨isExec, by simp [has]⟩] at once
    exact List.count_pos_iff.mp (once ▸ Nat.zero_lt_one)
  obtain ⟨lowest, mem, isLowest, lower⟩ := getLowestPriorityProcess_le (s := s) inExec
  have lowestExec : (s.process lowest).state = .exec := by
    have entries : s.execProcesses.count lowest = _ := listed lowest
    have positive := List.count_pos_iff.mpr mem
    rw [entries] at positive
    split at positive
    · rename_i runs
      exact runs.1
    · cases positive
  have below : (s.process pid).effectivePriority < (s.process lowest).effectivePriority := by
    refine UInt8.lt_of_lt_of_le (@effectivePriority_lt _ config _ _ ?_) lower
    exact (inv.queueIndex_next found isReady).trans_lt above
  obtain ⟨cpu, here, has⟩ := placed.seated.seated lowest lowestExec
  have has : (s.process lowest).cpu = some cpu := has
  have connected : (s.cpu cpu).connection = .connected := placed.seated.connected cpu here
  have evicts : preempt config s pid = evictProcess s (some cpu) .priorityPreemption := by
    unfold preempt
    rw [if_pos ⟨cmn, preemption⟩]
    simp only [isLowest]
    rw [if_pos below, has]
  rw [evicts]
  refine ⟨cpu, ?_, ?_⟩
  · unfold evictProcess
    simp only [sendProcessEvict]
    split <;> exact here
  · unfold evictProcess
    simp only [sendProcessEvict]
    split
    · rename_i marked
      rcases marked with evicting | away
      · intro nobody
        exact (placed.manned cpu ⟨evicting, nobody⟩).nobody lowest has
      · exact absurd connected away
    · simp

theorem process_evictProcess (cpu : Option ι) (reason : InterruptReason) :
    (evictProcess s cpu reason).process = s.process := by
  unfold evictProcess
  cases sent : sendProcessEvict s reason .handleState cpu with
  | none => rfl
  | some s' =>
      obtain ⟨cpu, -, -, -, rfl⟩ := sendProcessEvict_some sent
      rfl

theorem process_preempt : (preempt config s pid).process = s.process := by
  unfold preempt
  split
  · split
    · rfl
    · split
      · exact process_evictProcess _ _
      · rfl
  · rfl

/-- The short-term scheduler is busy or will be signalled, or has nothing to preempt. -/
def Preempted (config : Config) (s : State ι) : Prop :=
  0 < s.shortTermSchedulerSem ∨ s.inRound = true ∨ s.canSchedule = false ∨
    (∃ cpu ∈ s.listCpu, (s.cpu cpu).evictor ≠ none) ∨ ¬Missed config s

theorem shortTermTurn_preempted (inv : Inv config m none s place) (listed : s.board.Listed)
    (placed : Placed s) (cmn : config.schedulerAlgorithm = .cmn)
    (preemption : config.queuePreemption = true) (inRound : s.inRound = true) :
    Preempted config (shortTermTurn config s) := by
  unfold shortTermTurn
  split
  · refine .inr (.inl ?_)
    rw [dispatch_inRound]
    exact inRound
  · rename_i pid next none
    by_cases missed : Missed config s
    · exact .inr (.inr (.inr (.inl
        (preempt_evicts inv listed placed cmn preemption next missed))))
    · refine .inr (.inr (.inr (.inr fun missed' => missed ?_)))
      obtain ⟨ready, executing, isReady, isExec, above⟩ := missed'
      have same : (preempt config s pid).process = s.process := process_preempt
      exact ⟨ready, executing, same ▸ isReady, same ▸ isExec, same ▸ above⟩
  · rename_i _ nobody
    refine .inr (.inr (.inr (.inr ?_)))
    rintro ⟨ready, executing, isReady, -, -⟩
    obtain ⟨next, found⟩ := inv.getNextProcessToExecute isReady
    simp [nobody] at found

/-! ### Priorities -/

omit [DecidableEq ι] in
/-- A step that changes no priority but that of a process that runs, which does not come
into a lower queue, leaves nothing to preempt. -/
theorem Still.preempted (still : Still hand s t)
    (kept : ∀ pid, hand = some pid → (s.process pid).state = .exec ∧
      queueIndex config (t.process pid) ≤ queueIndex config (s.process pid))
    (preempted : Preempted config s) : Preempted config t := by
  rcases preempted with signalled | inRound | closed | ⟨cpu, listed, waits⟩ | nothing
  · exact .inl (Nat.lt_of_lt_of_le signalled still.sem)
  · exact .inr (.inl (still.inRound inRound))
  · exact .inr (.inr (.inl (still.gate.canSchedule.trans closed)))
  · exact .inr (.inr (.inr (.inl ⟨cpu, still.evicted cpu listed waits⟩)))
  · refine .inr (.inr (.inr (.inr fun missed => nothing ?_)))
    obtain ⟨ready, executing, isReady, isExec, above⟩ := missed
    have wasReady := still.ready ready isReady
    have sameReady : queueIndex config (t.process ready) = queueIndex config (s.process ready) := by
      refine queueIndex_congr (still.rank ready (fun eq => ?_) (.inl isReady))
      simp [(kept ready eq).1] at wasReady
    refine ⟨ready, executing, wasReady, still.exec executing isExec, ?_⟩
    rw [← sameReady]
    refine above.trans_le ?_
    by_cases ranks : hand = some executing
    · exact (kept executing ranks).2
    · exact (queueIndex_congr (still.rank executing ranks (.inr isExec))).le

omit [DecidableEq ι] in
theorem effectivePriority_setProcess (f : Process ι → Process ι)
    (same : (f (s.process pid)).effectivePriority = (s.process pid).effectivePriority)
    (other : UInt32) : ((s.setProcess pid f).process other).effectivePriority =
      (s.process other).effectivePriority := by
  by_cases eq : other = pid
  · subst eq
    rw [setProcess_self, same]
  · rw [setProcess_of_ne s eq]

omit [DecidableEq ι] in
theorem effectivePriority_finishBlock (other : UInt32) :
    ((finishBlock config s pid).process other).effectivePriority =
      (s.process other).effectivePriority := by
  have woken : ((processSetReady s pid).process other).effectivePriority =
      (s.process other).effectivePriority := by
    unfold processSetReady processSetState
    exact effectivePriority_setProcess _ rfl other
  unfold finishBlock
  dsimp only
  split <;> exact woken

omit [DecidableEq ι] in
theorem effectivePriority_handOver (name : String) (other : UInt32) :
    ((handOver config s name).process other).effectivePriority =
      (s.process other).effectivePriority := by
  unfold handOver
  split
  · rfl
  · dsimp only
    split
    · exact (effectivePriority_finishBlock other).trans
        (effectivePriority_setProcess _ rfl other)
    · exact (effectivePriority_finishBlock other).trans
        (effectivePriority_setProcess _ rfl other)

omit [DecidableEq ι] in
theorem effectivePriority_restorePriority (cmn : config.schedulerAlgorithm = .cmn) :
    ((restorePriority config s pid).process pid).effectivePriority =
      restoredPriority s (s.process pid) := by
  unfold restorePriority
  dsimp only
  split
  · unfold requeueWithPriority
    split
    · simp [addProcessToReadyQueue, State.setReadyQueue, processSetPriority, State.setProcess,
        removeProcessFromReadyQueue]
    · simp [processSetPriority]
  · rename_i same
    by_contra differs
    exact same ⟨cmn, fun eq => differs eq.symm⟩

omit [DecidableEq ι] in
theorem restoredPriority_congr (mutex : t.mutex = s.mutex)
    (rank : ∀ pid, (t.process pid).effectivePriority = (s.process pid).effectivePriority)
    (p : Process ι) : restoredPriority t p = restoredPriority s p := by
  unfold restoredPriority
  simp only [mutex, rank]

/-! ### `MUTEX_UNLOCK` -/

/-- The priority that a process gets back when it unlocks a mutex. -/
def releasedPriority (s : State ι) (pid : UInt32) (name : String) : UInt8 :=
  restoredPriority s
    { s.process pid with ownedMutexes := (s.process pid).ownedMutexes.erase name }

/-- The first process that waits for the mutex is not suspended, so that the short-term
scheduler is signalled; or the process that unlocks it comes into no lower queue. -/
def HandedOver (config : Config) (s : State ι) (pid : UInt32) (name : String) : Prop :=
  (∃ next ∈ (s.mutex name).waitingProcesses.head?, (s.process next).state = .block) ∨
    queueIndex config { s.process pid with effectivePriority := releasedPriority s pid name } ≤
      queueIndex config (s.process pid)

omit [DecidableEq ι] in
theorem restorePriority_keeps : (restorePriority config s pid).mutex = s.mutex ∧
    ∀ other, ((restorePriority config s pid).process other).state = (s.process other).state := by
  have requeued : ∀ priority, (requeueWithPriority config s pid priority).mutex = s.mutex ∧
      ∀ other, ((requeueWithPriority config s pid priority).process other).state =
        (s.process other).state := by
    intro priority
    have written : ∀ other, ((s.setProcess pid fun p =>
        { p with effectivePriority := priority }).process other).state =
          (s.process other).state := by
      intro other
      by_cases eq : other = pid
      · subst eq
        rw [setProcess_self]
      · rw [setProcess_of_ne s eq]
    unfold requeueWithPriority
    split <;> exact ⟨rfl, written⟩
  unfold restorePriority
  dsimp only
  split
  · exact requeued _
  · exact ⟨rfl, fun _ => rfl⟩

omit [DecidableEq ι] in
/-- A mutex that goes to a process that is not suspended. -/
theorem handOver_signals {name : String} {next : UInt32}
    (first : (s.mutex name).waitingProcesses.head? = some next)
    (resident : (s.process next).state = .block) :
    0 < (handOver config s name).shortTermSchedulerSem := by
  obtain ⟨rest, waiting⟩ := List.head?_eq_some_iff.mp first
  unfold handOver
  simp only [waiting]
  rw [if_pos]
  · exact Nat.succ_pos _
  · have woken : ∀ u : State ι, (u.process next).state = .block →
        ((finishBlock config u next).process next).state = .ready := by
      intro u blocked
      simp [finishBlock, processSetReady, blocked, addProcessToReadyQueue, State.setReadyQueue,
        processSetState, State.setProcess]
    refine woken _ ?_
    simpa [State.setProcess, State.setMutex] using resident

/-- Unlocking signals, or does not bring the process into a lower queue. -/
theorem mutexUnlock_rank {name : String} (cmn : config.schedulerAlgorithm = .cmn)
    (released : (s.mutex name).lockedBy = some pid → HandedOver config s pid name) :
    0 < (mutexUnlock config s name pid).shortTermSchedulerSem ∨
      queueIndex config ((mutexUnlock config s name pid).process pid) ≤
        queueIndex config (s.process pid) := by
  unfold mutexUnlock
  split
  · rename_i owner
    obtain ⟨process, mutex⟩ : (sendPidToExecute s pid (s.process pid).cpu).process = s.process ∧
        (sendPidToExecute s pid (s.process pid).cpu).mutex = s.mutex := by
      obtain ⟨cpus, same⟩ := sendPidToExecute_eq s pid (s.process pid).cpu
      rw [same]
      exact ⟨rfl, rfl⟩
    -- The owner gives up the mutex, and nothing else that its priority depends on changes.
    obtain ⟨u, sent⟩ : ∃ u, u = (sendPidToExecute s pid (s.process pid).cpu).setProcess pid
        fun p => { p with ownedMutexes := p.ownedMutexes.erase name } := ⟨_, rfl⟩
    have mutexes : u.mutex = s.mutex := by
      rw [sent]
      exact mutex
    have states : ∀ other, (u.process other).state = (s.process other).state := by
      intro other
      rw [sent]
      by_cases eq : other = pid
      · rw [eq, setProcess_self, process]
      · rw [setProcess_of_ne _ eq, process]
    have ranks : ∀ other,
        (u.process other).effectivePriority = (s.process other).effectivePriority := by
      intro other
      rw [sent, effectivePriority_setProcess _ rfl other, process]
    have own : u.process pid =
        { s.process pid with ownedMutexes := (s.process pid).ownedMutexes.erase name } := by
      rw [sent, setProcess_self, process]
    rw [← sent]
    obtain ⟨mutexes', states'⟩ : (restorePriority config u pid).mutex = u.mutex ∧
        ∀ other, ((restorePriority config u pid).process other).state =
          (u.process other).state := restorePriority_keeps
    dsimp only
    rcases released owner with ⟨next, first, resident⟩ | above
    · refine .inl (@handOver_signals _ _ _ _ next ?_ ?_)
      · rw [mutexes', mutexes]
        exact first
      · rw [states', states]
        exact resident
    · refine .inr (le_of_eq_of_le (queueIndex_congr ?_) above)
      rw [effectivePriority_handOver, effectivePriority_restorePriority cmn,
        restoredPriority_congr mutexes ranks, own]
      rfl
  · exact .inr le_rfl

/-- Unlocking, as it is handled for a message of a CPU. -/
theorem handleSyscall_rank {name : String} (cmn : config.schedulerAlgorithm = .cmn)
    (released : ∀ mutex ∈ getMutexByName s name,
      (s.mutex mutex).lockedBy = some pid → HandedOver config s pid mutex) :
    0 < (handleSyscall config s cpu pid (.mutexUnlock name)).shortTermSchedulerSem ∨
      queueIndex config ((handleSyscall config s cpu pid (.mutexUnlock name)).process pid) ≤
        queueIndex config (s.process pid) := by
  simp only [handleSyscall]
  split
  · split
    · rename_i mutex found
      exact mutexUnlock_rank cmn (released mutex found)
    · exact .inl (Nat.succ_pos _)
  · exact .inr le_rfl

/-! ### Steps -/

/-- What a syscall may do: a mutex is unlocked only as `HandedOver` says. -/
def Syscall.Preemptive (config : Config) (s : State ι) (pid : UInt32) : Syscall → Prop
  | .mutexUnlock name => ∀ mutex ∈ getMutexByName s name,
      (s.mutex mutex).lockedBy = some pid → HandedOver config s pid mutex
  | _ => True

/-- What a message of a CPU may lead to. -/
def ToScheduler.Preemptive (config : Config) (s : State ι) : ToScheduler → Prop
  | .syscall pid stop => stop.Preemptive config s pid
  | _ => True

/-- The steps of a run: a mutex is unlocked only as `HandedOver` says; an eviction or
disconnection is handled only for a process that waits for no segment, and that has the CPU
for itself; and no compaction ends while another one is under way. -/
def Preemptive (config : Config) (s : State ι) (a : Action ι) : Prop :=
  Settled s a ∧
    match a with
    | .handleCpu cpu =>
        ∀ message ∈ (s.cpu cpu).toScheduler.head?, message.Preemptive config s
    | .compaction i st => EndsAlone s i st
    | _ => True

theorem Preemptive.allowed {a : Action ι} (preemptive : Preemptive config s a) :
    Allowed (fun _ => .any) s a := by
  refine .of_any ?_
  rintro cpu rfl pid found
  obtain ⟨known, has⟩ := getProcessFromCpu_some found
  exact (preemptive.1 pid known has).2

/-- What a step that is not one of the short-term scheduler or of a compaction does. -/
theorem Tended.preempted {a : Action ι} (tended : Tended (a.ranks s) s t)
    (inv : Inv config m none s place) (cmn : config.schedulerAlgorithm = .cmn)
    (preemptive : Preemptive config s a) (taken : step config s a = some t)
    (preempted : Preempted config s) : Preempted config t := by
  have kept : 0 < t.shortTermSchedulerSem ∨ ∀ pid, a.ranks s = some pid →
      (s.process pid).state = .exec ∧
        queueIndex config (t.process pid) ≤ queueIndex config (s.process pid) := by
    cases a with
    | handleCpu cpu =>
        simp only [step] at taken
        split at taken
        · cases taken
        · rename_i message rest next
          have may := preemptive.2 message (by rw [next]; rfl)
          cases message with
          | syscall pid syscall =>
              cases syscall with
              | mutexUnlock name =>
                  obtain rfl := Option.some.inj taken
                  have exec : (s.process pid).state = .exec := by
                    refine inv.executing_of_subject (a := .handleCpu cpu) ?_
                    simp [Action.concerns, next, ToScheduler.subject]
                  have rank := @handleSyscall_rank _ _ _ (s.setCpu cpu fun c =>
                    { c with toScheduler := rest }) pid cpu name cmn may
                  refine rank.imp id fun above other ranks => ?_
                  obtain rfl : pid = other := by
                    simpa [Action.ranks, next, Syscall.ranks] using ranks
                  exact ⟨exec, above⟩
              | processEnd | segmentationFault | mutexCreate | mutexLock | sleep | stdin | stdout
              | memAlloc | memFree =>
                  refine .inr fun pid ranks => ?_
                  simp [Action.ranks, next, Syscall.ranks] at ranks
          | processCreate | confirmation =>
              refine .inr fun pid ranks => ?_
              simp [Action.ranks, next] at ranks
    | tick | process0 | connectCpu | cpu | disconnectCpu | confirm | wake | schedule | quantum
    | suspend | connectIo | handleIo | disconnectIo | written | memory | handleMemory
    | compaction => exact .inr fun pid ranks => by cases ranks
  rcases kept with signalled | kept
  · exact .inl signalled
  · cases tended with
    | signals signalled => exact .inl signalled
    | calm calm => exact calm.toStill.preempted kept preempted
    | reads still => exact still.preempted kept preempted

theorem step_preempted {a : Action ι} (inv : Inv config m none s place)
    (listed : s.board.Listed) (placed : Placed s) (shut : Shut s)
    (cmn : config.schedulerAlgorithm = .cmn) (preemption : config.queuePreemption = true)
    (preemptive : Preemptive config s a) (taken : step config s a = some t)
    (preempted : Preempted config s) : Preempted config t := by
  cases a with
  | wake =>
      simp only [step] at taken
      split at taken
      · obtain rfl := Option.some.inj taken
        cases opened : s.canSchedule with
        | true => exact .inr (.inl rfl)
        | false => exact .inr (.inr (.inl rfl))
      · cases taken
  | schedule =>
      simp only [step] at taken
      split at taken
      · rename_i inRound
        obtain rfl := Option.some.inj taken
        exact shortTermTurn_preempted inv listed placed cmn preemption inRound
      · cases taken
  | compaction i st =>
      rcases stepCompaction_closed shut taken with closed | ⟨-, signalled⟩
      · exact .inr (.inr (.inl closed))
      · exact .inl signalled
  | tick | process0 | connectCpu | cpu | handleCpu | disconnectCpu | confirm | quantum | suspend
  | connectIo | handleIo | disconnectIo | written | memory | handleMemory =>
      exact (step_tended inv.staged taken trivial).preempted inv cmn preemptive taken preempted

end Steps

/-! ### Runs -/

section Runs

variable {ι : Type} [DecidableEq ι] {config : Config} {s : State ι} {as : List (Action ι)}

/-- What holds in every state of a run. -/
structure Watched (config : Config) (s : State ι) : Prop where
  runs : Runs config (fun _ => .any) s
  listed : s.board.Listed
  placed : Placed s
  shut : Shut s
  preempted : Preempted config s

theorem watched_of_run (cmn : config.schedulerAlgorithm = .cmn)
    (preemption : config.queuePreemption = true)
    (run : Run (step config) (Preemptive config) initial as s) : Watched config s := by
  have keeps : ∀ {s : State ι} {a : Action ι} {t : State ι}, Watched config s →
      Preemptive config s a → step config s a = some t → Watched config t := by
    intro s a t watched preemptive taken
    obtain ⟨⟨⟨place, inv⟩, fresh⟩, listed, placed, shut, preempted⟩ := watched
    have moves := step_moves inv fresh preemptive.allowed taken
    constructor
    case runs =>
      exact ⟨step_inv inv preemptive.allowed taken, moves.keeps (fun move => move.fresh) fresh⟩
    case listed => exact moves.keeps (fun move => move.listed) listed
    case placed => exact step_placed inv fresh preemptive.allowed preemptive.1 placed taken
    case shut =>
      refine step_shut inv.staged ?_ shut taken
      rintro i st rfl
      exact preemptive.2
    case preempted =>
      exact step_preempted inv listed placed shut cmn preemption preemptive taken preempted
  have start : Watched config (initial : State ι) := by
    constructor
    case runs => exact initial_runs
    case listed =>
      intro pid
      simp [State.board, initial, Process.holder, createProcess]
    case placed =>
      constructor
      · constructor
        · intro pid exec
          simp [State.board, initial, Process.holder, createProcess] at exec
        · simp [State.board, initial]
        · exact List.nodup_nil
      · rintro cpu ⟨evicting, -⟩
        simp [initial, Cpu.absent] at evicting
    case shut =>
      rintro - ⟨compaction, mem, -⟩
      simp [initial] at mem
    case preempted =>
      refine .inr (.inr (.inr (.inr ?_)))
      rintro ⟨ready, -, isReady, -⟩
      simp [initial, createProcess] at isReady
  exact run.invariant keeps start

/-- With `CMN` and preemption between queues, while mutexes are unlocked only as `HandedOver`
says, whenever the short-term scheduler waits without a signal and nothing is under way, no
process is `READY` in a queue above that of a process that is `EXEC`. -/
theorem no_missed_preemption (cmn : config.schedulerAlgorithm = .cmn)
    (preemption : config.queuePreemption = true)
    (run : Run (step config) (Preemptive config) initial as s) (waiting : Waiting s)
    (quiet : Quiet s) {i : ℕ} {ready executing : UInt32} (queued : ready ∈ s.readyQueue i)
    (exec : (s.process executing).state = .exec) :
    queueIndex config (s.process executing) ≤ i := by
  obtain ⟨⟨⟨place, inv⟩, -⟩, -, -, -, preempted⟩ := watched_of_run cmn preemption run
  rcases preempted with signalled | inRound | closed | ⟨cpu, -, waits⟩ | nothing
  · rw [waiting.unsignalled] at signalled
    exact absurd signalled (Nat.lt_irrefl 0)
  · simp [waiting.outside] at inRound
  · simp [waiting.opened] at closed
  · exact absurd (quiet.evictions cpu) waits
  · have isReady := inv.mem_readyQueue queued
    have there : place ready = some (.ready i) :=
      inv.located.place_eq (List.count_pos_iff.mpr queued)
    have fits := inv.fit ready
    rw [there] at fits
    by_contra above
    refine nothing ⟨ready, executing, isReady, exec, ?_⟩
    rw [← fits.2.2.2]
    exact not_le.mp above

instance (pid : UInt32) (name : String) : Decidable (HandedOver config s pid name) :=
  inferInstanceAs (Decidable ((∃ next ∈ _, _) ∨ _ ≤ _))

instance (pid : UInt32) (syscall : Syscall) : Decidable (syscall.Preemptive config s pid) :=
  match syscall with
  | .mutexUnlock name => inferInstanceAs (Decidable (∀ mutex ∈ getMutexByName s name, _ → _))
  | .processEnd | .segmentationFault | .mutexCreate _ | .mutexLock _ | .sleep _ | .stdin ..
  | .stdout .. | .memAlloc .. | .memFree _ => .isTrue trivial

instance (message : ToScheduler) : Decidable (message.Preemptive config s) :=
  match message with
  | .syscall pid stop => inferInstanceAs (Decidable (stop.Preemptive config s pid))
  | .processCreate .. | .confirmation => .isTrue trivial

instance (a : Action ι) : Decidable (Settled s a) :=
  match a with
  | .confirm _ => Option.decidableForallMem _
  | .disconnectCpu _ => List.decidableBAll _ _
  | .compaction _ .handleEvicted => Option.decidableForallMem _
  | .compaction _ .evictAll | .compaction _ .compactionReady | .compaction _ .reopen
  | .tick | .process0 _ | .connectCpu _ | .cpu .. | .handleCpu _ | .wake | .schedule | .quantum _
  | .suspend | .connectIo .. | .handleIo .. | .disconnectIo _ | .written _ | .memory _
  | .handleMemory => .isTrue trivial

instance (a : Action ι) : Decidable (Preemptive config s a) :=
  match a with
  | .handleCpu cpu => inferInstanceAs (Decidable (Settled s (.handleCpu cpu) ∧ ∀ message ∈
      (s.cpu cpu).toScheduler.head?, message.Preemptive config s))
  | .compaction i st =>
      inferInstanceAs (Decidable (Settled s (.compaction i st) ∧ EndsAlone s i st))
  | .tick | .process0 _ | .connectCpu _ | .cpu .. | .disconnectCpu _ | .confirm _ | .wake
  | .schedule | .quantum _ | .suspend | .connectIo .. | .handleIo .. | .disconnectIo _
  | .written _ | .memory _ | .handleMemory => inferInstanceAs (Decidable (Settled s _ ∧ True))

/-- Three queues with preemption, and processes that are suspended as soon as they block. -/
def queues : Config :=
  { Config.ofQueues .fifo [.fifo, .fifo] with
    quantum := 1000, suspensionTimeout := 0, queuePreemption := true }

/-- The process `1`, of the lowest queue, holds a mutex and runs with the priority of the
process `0`, which waits for it, while the process `2` is `READY` in the queue between. -/
def inherited : List (Action (Unit)) :=
  [.process0 "p0", .memory (.serve (.ok true)), .handleMemory, .connectCpu (), .connectIo 0 .sleep,
    .wake, .schedule, .schedule, .wake, .schedule, .cpu () .execute,
    .cpu () (.stop (.mutexCreate "m")), .handleCpu (), .cpu () .execute, .cpu () (.initProc 2 "p1"),
    .handleCpu (), .memory (.serve (.ok true)), .handleMemory, .cpu () (.stop (.sleep 1)),
    .handleCpu (), .wake, .schedule, .schedule, .wake, .schedule, .cpu () .execute,
    .cpu () (.stop (.mutexLock "m")), .handleCpu (), .cpu () .execute, .handleIo 0 "",
    .wake, .schedule, .cpu () .evict, .handleCpu (), .confirm (), .wake, .schedule, .schedule,
    .cpu () .execute, .cpu () (.stop (.mutexLock "m")), .handleCpu (), .wake, .schedule, .schedule,
    .cpu () .execute, .cpu () (.initProc 1 "p2"), .handleCpu (), .memory (.serve (.ok true)),
    .handleMemory, .wake, .schedule]

/-- The process `1` runs with the priority that it has inherited. -/
theorem no_missed_preemption_of_inherited :
    ∃ s : State (Unit), (s.process 1).basePriority = 2 ∧ 2 ∈ s.readyQueue 1 ∧
      queueIndex queues (s.process 1) ≤ 1 := by
  obtain ⟨s, run, found⟩ := Run.exists_of_exec (step queues) (Preemptive queues) inherited initial
    (fun s : State (Unit) => waitsQuietly s && decide ((s.process 1).basePriority = 2 ∧
      2 ∈ s.readyQueue 1 ∧ (s.process 1).state = .exec)) (by decide +kernel)
  obtain ⟨test, found⟩ := (Bool.and_eq_true _ _).mp found
  obtain ⟨base, queued, exec⟩ := of_decide_eq_true found
  obtain ⟨waiting, quiet⟩ := waiting_of_test test
  exact ⟨s, base, queued, no_missed_preemption rfl rfl run waiting quiet queued exec⟩

/-- The process `0` is suspended while it waits for the mutex. When the process `1` unlocks it,
it gets back its priority and goes on, although the process `2` is in a higher queue. -/
theorem preemption_missed :
    ∃ as s, Run (step queues) (fun _ _ => True) (initial : State (Unit)) as s ∧
      Waiting s ∧ Quiet s ∧ (∀ cpu ∈ s.listCpu, (s.cpu cpu).isAvailable = false) ∧
        2 ∈ s.readyQueue 1 ∧ (s.process 2).state = .ready ∧ (s.process 1).state = .exec ∧
          1 < queueIndex queues (s.process 1) := by
  obtain ⟨s, run, found⟩ := Run.exists_of_exec (step queues) (fun _ _ => True)
    (inherited.append [.suspend, .memory (.serve (.ok true)), .handleMemory,
      .cpu () (.stop (.mutexUnlock "m")), .handleCpu (), .cpu () .execute]) initial
    (fun s : State (Unit) => waitsQuietly s && decide
      ((∀ cpu ∈ s.listCpu, (s.cpu cpu).isAvailable = false) ∧ 2 ∈ s.readyQueue 1 ∧
        (s.process 2).state = .ready ∧ (s.process 1).state = .exec ∧
          1 < queueIndex queues (s.process 1))) (by decide +kernel)
  obtain ⟨test, found⟩ := (Bool.and_eq_true _ _).mp found
  obtain ⟨waiting, quiet⟩ := waiting_of_test test
  exact ⟨_, s, run, waiting, quiet, of_decide_eq_true found⟩

end Runs

end OsModel.KernelScheduler
