import OsModel.KernelScheduler.Moves

/-!
CPUs have one process, and are not lost; a process that has ended has ended.

* `cpu_ownership`: a process with a CPU is `EXEC`, and `get_process_from_cpu` finds the
  process that runs on a CPU.
* `cpu_not_lost`: a CPU that is neither available nor being evicted has a process.
* `exit_is_final`: a process that is `EXIT`, or whose `PROCESS_END` has been sent, stays
  `EXIT`, and is not sent to a CPU.
-/

namespace OsModel.KernelScheduler

open Lib

variable {ι : Type} [DecidableEq ι] {config : Config} {m : UInt32 → Mode} {s t : State ι}
  {pid : UInt32} {cpu : ι} {as bs : List (Action ι)}

/-! ### What holds on the board of every state -/

omit [DecidableEq ι] in
theorem initial_owned : (initial : State ι).board.Owned where
  executing _ has := absurd rfl has
  taken _ _ := nofun
  connected _ _ := nofun
  unique _ _ _ := nofun
  listed _ := nofun
  nodup := List.nodup_nil

theorem board_owned (run : Run (step config) (Allowed m) initial as s)
    (leaves : ∀ pid, (m pid).keepsCpu = false) : Runs config m s ∧ s.board.Owned :=
  initial_runs.keeps (fun move _ => move.owned leaves) initial_owned run

theorem board_listed (run : Run (step config) (Allowed m) initial as s) : s.board.Listed := by
  have start : (initial : State ι).board.Listed := fun pid => by
    simp [State.board, initial, Process.holder, createProcess]
  exact (initial_runs.keeps (fun move _ => move.listed) start run).2

/-! ### Ownership -/

/-- `get_process_from_cpu` finds the process that has the CPU. -/
theorem Inv.getProcessFromCpu_eq {place : UInt32 → Option (Place ι)}
    (inv : Inv config m none s place) (owned : s.board.Owned)
    (has : (s.process pid).cpu = some cpu) : getProcessFromCpu s cpu = some pid := by
  cases found : getProcessFromCpu s cpu with
  | none => exact absurd has (getProcessFromCpu_none inv found pid)
  | some other =>
      exact congrArg some (owned.unique other pid cpu (getProcessFromCpu_some found).2 has)

/-- A process that ends leaves its CPU. -/
def Mode.leavesCpu : Mode := ⟨false, true, true⟩

/-- While no process ends with a CPU, a process with a CPU is `EXEC`, no CPU has two
processes, and `get_process_from_cpu` finds the process that runs on a CPU. -/
theorem cpu_ownership (run : Run (step config) (Allowed fun _ => .leavesCpu) initial as s) :
    (∀ pid, (s.process pid).cpu ≠ none → (s.process pid).state = .exec) ∧
      (∀ pid other cpu, (s.process pid).cpu = some cpu → (s.process other).cpu = some cpu →
        pid = other) ∧
      ∀ pid cpu, getProcessFromCpu s cpu = some pid ↔
        (s.process pid).state = .exec ∧ (s.process pid).cpu = some cpu := by
  obtain ⟨⟨⟨place, inv⟩, -⟩, owned⟩ := board_owned run fun _ => rfl
  refine ⟨owned.executing, owned.unique, fun pid cpu => ⟨?_, ?_⟩⟩
  · intro found
    have has := (getProcessFromCpu_some found).2
    exact ⟨owned.executing pid (by simp [State.board, Process.holder, has]), has⟩
  · rintro ⟨-, has⟩
    exact inv.getProcessFromCpu_eq owned has

/-- A process that waits for a segment keeps its CPU. -/
theorem cpu_ownership_of_mem_alloc :
    ∃ s : State ℕ, getProcessFromCpu s 0 = some 0 ∧
      ∀ pid, (s.process pid).cpu ≠ none → (s.process pid).state = .exec := by
  obtain ⟨s, run, found⟩ := Run.exists_of_exec (step fifo) (Allowed fun _ => .leavesCpu)
    (started.append [.cpu 0 (.stop (.memAlloc 0 16)), .handleCpu 0]) initial
    (fun s => decide (getProcessFromCpu s 0 = some 0)) (by decide)
  exact ⟨s, of_decide_eq_true found, (cpu_ownership run).1⟩

/-- A process that locks a mutex which does not exist ends with its CPU; when the next
process of the CPU is evicted, the process that has ended is found on it. -/
theorem cpu_ownership_ambiguous :
    ∃ as s, Run (step fifo) (fun _ _ => True) (initial : State ℕ) as s ∧
      (s.process 0).state = .exit ∧ (s.process 0).cpu = some 0 ∧
        (s.process 1).state = .exec ∧ (s.process 1).cpu = some 0 ∧
          getProcessFromCpu s 0 = some 0 := by
  obtain ⟨s, run, found⟩ := Run.exists_of_exec (step fifo) (fun _ _ => True)
    (started.append [.cpu 0 (.initProc 1 "p1"), .cpu 0 (.stop (.mutexLock "m")), .handleCpu 0,
      .handleCpu 0, .memory (.serve (.ok true)), .handleMemory, .schedule]) initial
    (fun s => decide ((s.process 0).state = .exit ∧ (s.process 0).cpu = some 0 ∧
      (s.process 1).state = .exec ∧ (s.process 1).cpu = some 0 ∧
        getProcessFromCpu s 0 = some 0)) (by decide)
  exact ⟨_, s, run, of_decide_eq_true found⟩

/-! ### No CPU is lost -/

/-- A process that ends gives back its CPU, unless the CPU is being evicted. -/
def Mode.returnsCpu : Mode := ⟨true, false, true⟩

/-- While no `STDIN` of zero bytes is handled for a CPU that is not being evicted, a
connected CPU that is neither available nor being evicted has a process that is `EXEC`. -/
theorem cpu_not_lost (run : Run (step config) (Allowed fun _ => .returnsCpu) initial as s)
    (connected : (s.cpu cpu).connection = .connected) (taken : (s.cpu cpu).isAvailable = false)
    (calm : (s.cpu cpu).isEvicting = false) :
    ∃ pid, (s.process pid).state = .exec ∧ (s.process pid).cpu = some cpu := by
  have start : (initial : State ι).board.Covered := fun _ => nofun
  have covered := (initial_runs.keeps (fun move _ => move.covered fun _ => rfl) start run).2
  exact covered cpu connected taken calm

/-- The process of the only CPU has just been dispatched. -/
theorem cpu_not_lost_of_dispatch :
    ∃ s : State ℕ, (s.cpu 0).isAvailable = false ∧
      ∃ pid, (s.process pid).state = .exec ∧ (s.process pid).cpu = some 0 := by
  obtain ⟨s, run, dispatched⟩ := Run.exists_of_exec (step fifo) (Allowed fun _ => .returnsCpu)
    started initial (fun s => decide ((s.cpu 0).connection = .connected ∧ (s.cpu 0).isAvailable = false ∧
      (s.cpu 0).isEvicting = false)) (by decide)
  obtain ⟨connected, taken, calm⟩ := of_decide_eq_true dispatched
  exact ⟨s, taken, cpu_not_lost run connected taken calm⟩

/-- A process reads zero bytes: it ends, and its CPU is lost. -/
theorem cpu_lost :
    ∃ as s, Run (step fifo) (fun _ _ => True) (initial : State ℕ) as s ∧
      (s.cpu 0).connection = .connected ∧ (s.cpu 0).isAvailable = false ∧
        (s.cpu 0).isEvicting = false ∧
          ∀ pid, ¬((s.process pid).state = .exec ∧ (s.process pid).cpu = some 0) := by
  obtain ⟨s, run, lost⟩ := Run.exists_of_exec (step fifo) (Allowed fun _ => .any)
    (started.append [.cpu 0 (.stop (.stdin 0 0)), .handleCpu 0]) initial
    (fun s => decide ((s.cpu 0).connection = .connected ∧ (s.cpu 0).isAvailable = false ∧
      (s.cpu 0).isEvicting = false ∧ s.execProcesses = [])) (by decide)
  obtain ⟨connected, taken, calm, nothing⟩ := of_decide_eq_true lost
  refine ⟨_, s, run.mono fun _ _ _ => trivial, connected, taken, calm, fun pid has => ?_⟩
  have listed := board_listed run pid
  simp [State.board, Process.holder, nothing, has] at listed

/-! ### `EXIT` is final -/

/-- A process that ends leaves its CPU, and waits for nothing. -/
def Mode.strict : Mode := ⟨false, false, false⟩

/-- While processes only end when they run, or because a request of theirs fails, a
process that is `EXIT`, or whose `PROCESS_END` has been sent, stays `EXIT`; it is in no ready
queue, and no `PROCESS_EXECUTE` is sent for it. -/
theorem exit_is_final (run : Run (step config) (Allowed fun _ => .strict) initial as s)
    (later : Run (step config) (Allowed fun _ => .strict) s bs t)
    (ended : (s.process pid).state = .exit ∨ .processEnd pid ∈ s.memory.toMemory) :
    (t.process pid).state = .exit ∧ (∀ i, pid ∉ t.readyQueue i) ∧
      ∀ cpu, .processExecute pid ∉ (t.cpu cpu).toCpu := by
  obtain ⟨runs, owned, sent⟩ : Runs config (fun _ => .strict) s ∧ s.board.Owned ∧ s.board.Ended :=
    initial_runs.keeps (P := fun b => b.Owned ∧ b.Ended)
      (fun move fresh both =>
        ⟨move.owned (fun _ => rfl) both.1, move.ended (fun _ => rfl) fresh both.1 both.2⟩)
      ⟨initial_owned, fun _ sent => absurd sent (by simp [State.board, initial])⟩ run
  have exit : (s.process pid).state = .exit := ended.elim id (sent pid)
  have free : (s.process pid).cpu = none := by
    by_contra has
    have executing : (s.process pid).state = .exec := owned.executing pid has
    simp [exit] at executing
  obtain ⟨⟨⟨place, inv⟩, -⟩, exit', -⟩ := runs.keeps
    (P := fun b => (b.process pid).state = .exit ∧ (b.process pid).cpu = none)
    (fun move fresh both => move.final rfl fresh both.1 both.2) ⟨exit, free⟩ later
  have exit' : (t.process pid).state = .exit := exit'
  refine ⟨exit', fun i queued => ?_, fun cpu order => ?_⟩
  · have ready := inv.mem_readyQueue queued
    simp [exit'] at ready
  · have there : place pid = some (.cpu cpu) := by
      refine inv.located.place_eq (List.count_pos_iff.mpr ?_)
      refine List.mem_append_left _ (List.mem_append_left _ ?_)
      exact List.mem_filterMap.mpr ⟨_, order, rfl⟩
    have fits := inv.fit pid
    rw [there] at fits
    have executing := fits.1
    simp [exit'] at executing

/-- A process ends with `EXIT`. -/
theorem exit_is_final_of_end :
    ∃ s t : State ℕ, (s.process 0).state = .exit ∧ (t.process 0).state = .exit ∧
      t.readyQueue 0 = [1] := by
  obtain ⟨s, run, ended⟩ := Run.exists_of_exec (step fifo) (Allowed fun _ => .strict)
    (started.append [.cpu 0 (.initProc 1 "p1"), .cpu 0 (.stop .processEnd), .handleCpu 0, .handleCpu 0])
    initial
    (fun s : State ℕ => (decide ((s.process 0).state = .exit) &&
      (exec (step fifo) (Allowed fun _ => .strict) [.memory (.serve (.ok true)), .handleMemory] s).any
        fun t : State ℕ => decide (t.readyQueue 0 = [1]))) (by decide)
  obtain ⟨exit, more⟩ := Bool.and_eq_true_iff.mp ended
  obtain ⟨t, later, queued⟩ := Run.exists_of_exec _ _ _ _ _ more
  have exit := of_decide_eq_true exit
  exact ⟨s, t, exit, (exit_is_final run later (.inl exit)).1, of_decide_eq_true queued⟩

/-- A process writes what Kernel Memory reads as an empty string: it ends, its request
goes to the device all the same, and then it is sent to a CPU again. -/
theorem exit_revived :
    ∃ as bs s t, Run (step fifo) (fun _ _ => True) (initial : State ℕ) as s ∧
      (s.process 0).state = .exit ∧ .processEnd 0 ∈ s.memory.toMemory ∧
        Run (step fifo) (fun _ _ => True) s bs t ∧
          (t.process 0).state = .exec ∧ .processExecute 0 ∈ (t.cpu 0).toCpu := by
  obtain ⟨s, run, ended⟩ := Run.exists_of_exec (step fifo) (fun _ _ => True)
    (started.append [.connectIo 0 .stdout, .cpu 0 (.stop (.stdout 0 4)), .handleCpu 0,
      .memory (.serve (.value "")), .handleMemory]) initial
    (fun s : State ℕ => (decide ((s.process 0).state = .exit ∧
      .processEnd 0 ∈ s.memory.toMemory) &&
      (exec (step fifo) (fun _ _ => True) [.handleIo 0 "", .schedule] s).any fun t : State ℕ =>
        decide ((t.process 0).state = .exec ∧ .processExecute 0 ∈ (t.cpu 0).toCpu))) (by decide)
  obtain ⟨exit, more⟩ := Bool.and_eq_true_iff.mp ended
  obtain ⟨exit, sent⟩ := of_decide_eq_true exit
  obtain ⟨t, later, again⟩ := Run.exists_of_exec _ _ _ _ _ more
  obtain ⟨executing, order⟩ := of_decide_eq_true again
  exact ⟨_, _, s, t, run, exit, sent, later, executing, order⟩

end OsModel.KernelScheduler
