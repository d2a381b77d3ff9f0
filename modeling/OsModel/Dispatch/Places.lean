import OsModel.Dispatch.Threads
import OsModel.Dispatch.Connections
import OsModel.Lib.Tokens

/-!
Where a process is.

A process is in one place: in a ready queue, at Kernel Memory with a syscall, in
the hands of a thread that sends it or ends it, or with a CPU (`Inv.once`); and its
record says which (`Inv.fits`). There is one lemma for each thing a critical section
can move.
-/

namespace OsModel.Dispatch

open Lib

variable {ι : Type}

/-! ### Places -/

/-- The process in the hands of a thread. -/
def Activity.held : Activity ι → List UInt32
  | .sendToExecute pid _ _ | .endProcess pid _ => [pid]
  | _ => []

/-- The thread sends the process to the CPU, or ends it there. -/
def Activity.On (pid : UInt32) (cpu : ι) : Activity ι → Prop
  | .sendToExecute pid' cpu' _ | .endProcess pid' cpu' => pid' = pid ∧ cpu' = cpu
  | _ => False

namespace Activity

variable {a : Activity ι} {pid : UInt32} {cpu : ι}

theorem mem_held (on : a.On pid cpu) : pid ∈ a.held := by
  cases a with
  | idle | release => exact on.elim
  | sendToExecute | endProcess =>
      obtain ⟨rfl, rfl⟩ := on
      exact List.mem_singleton_self _

theorem exists_on (held : pid ∈ a.held) : ∃ cpu, a.On pid cpu := by
  cases a with
  | idle | release => simp [Activity.held] at held
  | sendToExecute other cpu | endProcess other cpu =>
      obtain rfl := List.mem_singleton.mp held
      exact ⟨cpu, rfl, rfl⟩

theorem count_held (a : Activity ι) (pid : UInt32) : a.held.count pid ≤ 1 := by
  cases a with
  | idle | release => simp [Activity.held]
  | sendToExecute | endProcess => exact List.count_le_length

end Activity

/-- Where a process can be. -/
inductive Place (ι : Type) where
  | ready
  | memory
  | cpu (cpu : ι)

def State.At (s : State ι) (pid : UInt32) : Place ι → Prop
  | .ready => pid ∈ s.readyQueue
  | .memory => pid ∈ s.memoryRequests
  | .cpu cpu => pid ∈ (s.cpus cpu).outstanding ∨ ∃ t, (s.threads t).On pid cpu

/-- What `t_process` says of a process in the place. -/
def Process.Fits (p : Process ι) : Place ι → Prop
  | .ready => p.state = .ready
  | .memory => p.state = .exec ∧ p.pendingMemorySyscall = true
  | .cpu cpu => p.state = .exec ∧ p.cpu = some cpu

/-- A process that does not run has no CPU. -/
def Process.Assigned (p : Process ι) : Prop :=
  p.state = .ready ∨ p.state = .block → p.cpu = none

variable [Fintype ι]

/-- In how many places a process is. -/
def State.places (s : State ι) (pid : UInt32) : ℕ :=
  s.readyQueue.count pid + s.memoryRequests.count pid +
    tokens (fun t => (s.threads t).held) pid + tokens (fun cpu => (s.cpus cpu).outstanding) pid

/-- What the threads keep. -/
structure Inv (s : State ι) : Prop where
  pids : (s.listProcesses.map Process.pid).Nodup
  assigned : ∀ p ∈ s.listProcesses, p.Assigned
  once : ∀ pid, s.places pid ≤ 1
  fits : ∀ pid place, s.At pid place → ∃ p, getProcessFromPid s pid = some p ∧ p.Fits place
  cpus : ∀ cpu, (s.cpus cpu).Ordered
  checked : ∀ t pid cpu, s.threads t = .sendToExecute pid cpu true →
    (s.cpus cpu).evictSent = false

section Places

variable {s : State ι} {pid : UInt32} {cpu : ι} {place : Place ι} {p : Process ι}

/-- A process in some place is counted. -/
theorem places_pos_of_at (here : s.At pid place) : 0 < s.places pid := by
  unfold State.places
  cases place with
  | ready =>
      have := List.count_pos_iff.mpr here
      omega
  | memory =>
      have := List.count_pos_iff.mpr here
      omega
  | cpu cpu =>
      rcases here with outstanding | ⟨t, on⟩
      · have := List.count_pos_iff.mpr outstanding
        have := count_le_tokens (fun cpu => (s.cpus cpu).outstanding) cpu pid
        omega
      · have := List.count_pos_iff.mpr (Activity.mem_held on)
        have := count_le_tokens (fun t => (s.threads t).held) t pid
        omega

/-- A process that is counted is in some place. -/
theorem at_of_places_pos (counted : 0 < s.places pid) : ∃ place, s.At pid place := by
  by_cases ready : pid ∈ s.readyQueue
  · exact ⟨.ready, ready⟩
  by_cases memory : pid ∈ s.memoryRequests
  · exact ⟨.memory, memory⟩
  by_cases held : 0 < tokens (fun t => (s.threads t).held) pid
  · obtain ⟨t, held⟩ := exists_held held
    obtain ⟨cpu, on⟩ := Activity.exists_on held
    exact ⟨.cpu cpu, .inr ⟨t, on⟩⟩
  · have noReady := List.count_eq_zero.mpr ready
    have noMemory := List.count_eq_zero.mpr memory
    unfold State.places at counted
    have outstanding : 0 < tokens (fun cpu => (s.cpus cpu).outstanding) pid := by omega
    obtain ⟨cpu, outstanding⟩ := exists_held outstanding
    exact ⟨.cpu cpu, .inl outstanding⟩

theorem places_eq_zero (nowhere : ∀ place, ¬ s.At pid place) : s.places pid = 0 := by
  by_contra counted
  obtain ⟨place, here⟩ := at_of_places_pos (Nat.pos_of_ne_zero counted)
  exact nowhere place here

theorem not_at (nowhere : s.places pid = 0) (place : Place ι) : ¬ s.At pid place :=
  fun here => (places_pos_of_at here).ne' nowhere

theorem places_setThread [DecidableEq ι] (s : State ι) (t : Thread ι) (a : Activity ι) (pid : UInt32) :
    (s.setThread t a).places pid + (s.threads t).held.count pid =
      s.places pid + a.held.count pid := by
  have update : (fun t' => (Function.update s.threads t a t').held) =
      Function.update (fun t' => (s.threads t').held) t a.held :=
    Function.comp_update Activity.held s.threads t a
  have moved := tokens_update (fun t' => (s.threads t').held) t a.held pid
  simp only [State.places, State.setThread, update]
  omega

theorem places_setCpu [DecidableEq ι] (s : State ι) (cpu : ι) (now : Cpu) (pid : UInt32) :
    (s.setCpu cpu now).places pid + (s.cpus cpu).outstanding.count pid =
      s.places pid + now.outstanding.count pid := by
  have update : (fun c => (Function.update s.cpus cpu now c).outstanding) =
      Function.update (fun c => (s.cpus c).outstanding) cpu now.outstanding :=
    Function.comp_update Cpu.outstanding s.cpus cpu now
  have moved := tokens_update (fun c => (s.cpus c).outstanding) cpu now.outstanding pid
  simp only [State.places, State.setCpu, update]
  omega

theorem places_runCpu [DecidableEq ι] (cpu : ι) (now : Cpu)
    (same : now.outstanding = (s.cpus cpu).outstanding) :
    (s.setCpu cpu now).places pid = s.places pid := by
  have moved := places_setCpu s cpu now pid
  rw [same] at moved
  omega

/-! ### Looking up -/

omit [Fintype ι] in
theorem getProcessFromPid_updateProcess {f : Process ι → Process ι}
    (keeps : ∀ p, (f p).pid = p.pid) (pid other : UInt32) :
    getProcessFromPid (s.updateProcess pid f) other =
      if other = pid then (getProcessFromPid s pid).map f else getProcessFromPid s other := by
  unfold getProcessFromPid State.updateProcess
  split
  · rename_i eq
    subst eq
    exact find?_updateFirst (fun p => by rw [keeps]) _
  · rename_i ne
    refine find?_updateFirst_other (fun p found => ?_) (fun p => by rw [keeps]) _
    have eq : p.pid = pid := by simpa using found
    simpa [eq] using Ne.symm ne

omit [Fintype ι] in
theorem pid_of_found (found : getProcessFromPid s pid = some p) : p.pid = pid := by
  simpa using List.find?_some found

omit [Fintype ι] in
theorem found_updateProcess {f : Process ι → Process ι} (keeps : ∀ p, (f p).pid = p.pid)
    (found : getProcessFromPid s pid = some p) :
    getProcessFromPid (s.updateProcess pid f) pid = some (f p) := by
  rw [getProcessFromPid_updateProcess keeps, if_pos rfl, found]
  rfl

omit [Fintype ι] in
theorem found_of_updateProcess {f : Process ι → Process ι} {other : UInt32}
    (found : getProcessFromPid (s.updateProcess pid f) other = some p) (ne : other ≠ pid)
    (keeps : ∀ p, (f p).pid = p.pid) : getProcessFromPid s other = some p := by
  rwa [getProcessFromPid_updateProcess keeps, if_neg ne] at found

theorem Inv.found (inv : Inv s) (mem : p ∈ s.listProcesses) :
    getProcessFromPid s p.pid = some p :=
  find?_of_nodup inv.pids mem

/-- The process that a search by CPU finds. -/
theorem Inv.found_on [DecidableEq ι] (inv : Inv s) (found : getProcessFromCpu s cpu = some p) :
    getProcessFromPid s p.pid = some p ∧ p.cpu = some cpu :=
  ⟨inv.found (List.mem_of_find?_eq_some found), by simpa using List.find?_some found⟩

/-- The record of a process that is somewhere. -/
theorem Inv.fits_found (inv : Inv s) (found : getProcessFromPid s pid = some p)
    (here : s.At pid place) : p.Fits place := by
  obtain ⟨q, found', fits⟩ := inv.fits pid place here
  obtain rfl := Option.some.inj (found.symm.trans found')
  exact fits

/-- A process that is with a CPU, and not in a thread's hands, is nowhere else. -/
theorem Inv.nowhere_of_once {s' : State ι} (inv : Inv s) (fewer : s'.places pid + 1 ≤ s.places pid) :
    s'.places pid = 0 := by
  have once := inv.once pid
  omega

end Places

/-! ### What one critical section moves -/

namespace Inv

variable {s s' : State ι} {pid : UInt32} {cpu : ι} {now : Cpu} {p : Process ι} {t : Thread ι}
  {a : Activity ι}

/-- The lists that say nothing about where a process is. -/
theorem congr (inv : Inv s) (processes : s'.listProcesses = s.listProcesses)
    (ready : s'.readyQueue = s.readyQueue) (memory : s'.memoryRequests = s.memoryRequests)
    (cpus : s'.cpus = s.cpus) (threads : s'.threads = s.threads) : Inv s' := by
  cases s
  cases s'
  simp only at processes ready memory cpus threads
  subst processes ready memory cpus threads
  exact ⟨inv.pids, inv.assigned, inv.once, inv.fits, inv.cpus, inv.checked⟩

theorem execute (inv : Inv s) (execProcesses : List UInt32) : Inv { s with execProcesses } :=
  inv.congr rfl rfl rfl rfl rfl

/-- The record of a process is written. -/
theorem updateProcess {f : Process ι → Process ι} (inv : Inv s)
    (keeps : ∀ p, (f p).pid = p.pid)
    (assigned : ∀ p, getProcessFromPid s pid = some p → (f p).Assigned)
    (fits : ∀ p place, getProcessFromPid s pid = some p → s.At pid place → p.Fits place →
      (f p).Fits place) : Inv (s.updateProcess pid f) where
  pids := by
    simp only [State.updateProcess]
    rw [map_updateFirst keeps]
    exact inv.pids
  assigned q mem := by
    rcases mem_updateFirst mem with before | ⟨p, before, this, rfl⟩
    · exact inv.assigned q before
    · have eq : p.pid = pid := by simpa using this
      exact assigned p (eq ▸ inv.found before)
  once := inv.once
  fits other place here := by
    rw [getProcessFromPid_updateProcess keeps]
    obtain ⟨p, found, fit⟩ := inv.fits other place here
    split
    · rename_i eq
      subst eq
      exact ⟨f p, by rw [found]; rfl, fits p place found here fit⟩
    · exact ⟨p, found, fit⟩
  cpus := inv.cpus
  checked := inv.checked

/-- The record of a process that is nowhere is written. -/
theorem writeProcess {f : Process ι → Process ι} (inv : Inv s) (nowhere : s.places pid = 0)
    (keeps : ∀ p, (f p).pid = p.pid)
    (assigned : ∀ p, getProcessFromPid s pid = some p → (f p).Assigned) :
    Inv (s.updateProcess pid f) :=
  inv.updateProcess keeps assigned fun _ _ _ here => absurd here (not_at nowhere _)

/-- A process that is nowhere ends, with the CPU it has. -/
theorem exit (inv : Inv s) (nowhere : s.places pid = 0) :
    Inv (s.updateProcess pid fun p => { p with state := .exit }) :=
  inv.writeProcess nowhere (fun _ => rfl) fun _ _ => by simp [Process.Assigned]

/-- A process that is nowhere is added to a ready queue. -/
theorem enqueue (inv : Inv s) (nowhere : s.places pid = 0)
    (found : getProcessFromPid s pid = some p) (ready : p.state = .ready) :
    Inv { s with readyQueue := s.readyQueue ++ [pid] } where
  pids := inv.pids
  assigned := inv.assigned
  once other := by
    have once := inv.once other
    simp only [State.places, List.count_append, List.count_singleton] at once nowhere ⊢
    split
    · rename_i eq
      obtain rfl := beq_iff_eq.mp eq
      omega
    · omega
  fits other place here := by
    cases place with
    | ready =>
        rcases List.mem_append.mp here with before | last
        · exact inv.fits other .ready before
        · obtain rfl := List.mem_singleton.mp last
          exact ⟨p, found, ready⟩
    | memory => exact inv.fits other .memory here
    | cpu cpu => exact inv.fits other (.cpu cpu) here
  cpus := inv.cpus
  checked := inv.checked

/-- A process is removed from the ready queue. -/
theorem dequeue (inv : Inv s) (pid : UInt32) :
    Inv { s with readyQueue := s.readyQueue.erase pid } where
  pids := inv.pids
  assigned := inv.assigned
  once other := by
    have once := inv.once other
    have fewer := (List.erase_sublist (a := pid) (l := s.readyQueue)).count_le other
    simp only [State.places] at once ⊢
    omega
  fits other place here := by
    cases place with
    | ready => exact inv.fits other .ready (List.mem_of_mem_erase here)
    | memory => exact inv.fits other .memory here
    | cpu cpu => exact inv.fits other (.cpu cpu) here
  cpus := inv.cpus
  checked := inv.checked

/-- A process that is nowhere has a request at Kernel Memory. -/
theorem request (inv : Inv s) (nowhere : s.places pid = 0)
    (found : getProcessFromPid s pid = some p) (fits : p.Fits .memory) :
    Inv { s with memoryRequests := s.memoryRequests ++ [pid] } where
  pids := inv.pids
  assigned := inv.assigned
  once other := by
    have once := inv.once other
    simp only [State.places, List.count_append, List.count_singleton] at once nowhere ⊢
    split
    · rename_i eq
      obtain rfl := beq_iff_eq.mp eq
      omega
    · omega
  fits other place here := by
    cases place with
    | ready => exact inv.fits other .ready here
    | memory =>
        rcases List.mem_append.mp here with before | last
        · exact inv.fits other .memory before
        · obtain rfl := List.mem_singleton.mp last
          exact ⟨p, found, fits⟩
    | cpu cpu => exact inv.fits other (.cpu cpu) here
  cpus := inv.cpus
  checked := inv.checked

/-- Kernel Memory has answered. -/
theorem answer (inv : Inv s) (pid : UInt32) :
    Inv { s with memoryRequests := s.memoryRequests.erase pid } where
  pids := inv.pids
  assigned := inv.assigned
  once other := by
    have once := inv.once other
    have fewer := (List.erase_sublist (a := pid) (l := s.memoryRequests)).count_le other
    simp only [State.places] at once ⊢
    omega
  fits other place here := by
    cases place with
    | ready => exact inv.fits other .ready here
    | memory => exact inv.fits other .memory (List.mem_of_mem_erase here)
    | cpu cpu => exact inv.fits other (.cpu cpu) here
  cpus := inv.cpus
  checked := inv.checked

variable [DecidableEq ι]

/-- A thread turns to something else. -/
theorem setThread (inv : Inv s)
    (alone : ∀ pid ∈ a.held, s.places pid = (s.threads t).held.count pid)
    (fits : ∀ pid cpu, a.On pid cpu →
      ∃ p, getProcessFromPid s pid = some p ∧ p.Fits (.cpu cpu))
    (unsent : ∀ pid cpu, a = .sendToExecute pid cpu true → (s.cpus cpu).evictSent = false) :
    Inv (s.setThread t a) where
  pids := inv.pids
  assigned := inv.assigned
  once pid := by
    have moved := places_setThread s t a pid
    have once := inv.once pid
    by_cases held : pid ∈ a.held
    · have alone := alone pid held
      have one := a.count_held pid
      omega
    · have none := List.count_eq_zero.mpr held
      omega
  fits pid place here := by
    cases place with
    | ready => exact inv.fits pid .ready here
    | memory => exact inv.fits pid .memory here
    | cpu cpu =>
        rcases here with outstanding | ⟨t', on⟩
        · exact inv.fits pid (.cpu cpu) (.inl outstanding)
        · by_cases eq : t' = t
          · subst eq
            simp only [State.setThread, Function.update_self] at on
            exact fits pid cpu on
          · simp only [State.setThread, Function.update_of_ne eq] at on
            exact inv.fits pid (.cpu cpu) (.inr ⟨t', on⟩)
  cpus := inv.cpus
  checked t' pid cpu doing := by
    by_cases eq : t' = t
    · subst eq
      simp only [State.setThread, Function.update_self] at doing
      exact unsent pid cpu doing
    · simp only [State.setThread, Function.update_of_ne eq] at doing
      exact inv.checked t' pid cpu doing

/-- A thread has no process in its hands any more. -/
theorem release (inv : Inv s) (free : a.held = []) : Inv (s.setThread t a) := by
  refine inv.setThread ?_ ?_ ?_
  · simp [free]
  · intro pid cpu on
    have held := Activity.mem_held on
    simp [free] at held
  · rintro pid cpu rfl
    simp [Activity.held] at free

/-- A thread takes a process that is nowhere. -/
theorem hold (inv : Inv s) (nowhere : s.places pid = 0) (found : getProcessFromPid s pid = some p)
    (fits : p.Fits (.cpu cpu)) (here : a.On pid cpu) (fresh : a ≠ .sendToExecute pid cpu true) :
    Inv (s.setThread t a) := by
  refine inv.setThread (fun other held => ?_) (fun other cpu' on => ?_) (fun other cpu' eq => ?_)
  · obtain ⟨cpu', on⟩ := Activity.exists_on held
    obtain rfl : other = pid := by
      cases a with
      | idle | release => exact on.elim
      | sendToExecute | endProcess => exact on.1.symm.trans here.1
    have free : other ∉ (s.threads t).held := fun held => by
      obtain ⟨cpu', on⟩ := Activity.exists_on held
      exact not_at nowhere (.cpu cpu') (.inr ⟨t, on⟩)
    rw [nowhere, List.count_eq_zero.mpr free]
  · obtain ⟨rfl, rfl⟩ : other = pid ∧ cpu' = cpu := by
      cases a with
      | idle | release => exact on.elim
      | sendToExecute | endProcess =>
          exact ⟨on.1.symm.trans here.1, on.2.symm.trans here.2⟩
    exact ⟨p, found, fits⟩
  · subst eq
    obtain ⟨rfl, rfl⟩ := here
    exact absurd rfl fresh

/-- A CPU and its connection move on. -/
theorem setCpu (inv : Inv s) (ordered : now.Ordered)
    (once : ∀ pid, (s.setCpu cpu now).places pid ≤ 1)
    (fits : ∀ pid ∈ now.outstanding,
      ∃ p, getProcessFromPid s pid = some p ∧ p.Fits (.cpu cpu))
    (unsent : ∀ t pid, s.threads t = .sendToExecute pid cpu true → now.evictSent = false) :
    Inv (s.setCpu cpu now) where
  pids := inv.pids
  assigned := inv.assigned
  once := once
  fits pid place here := by
    cases place with
    | ready => exact inv.fits pid .ready here
    | memory => exact inv.fits pid .memory here
    | cpu other =>
        rcases here with outstanding | ⟨t, on⟩
        · by_cases eq : other = cpu
          · subst eq
            simp only [State.setCpu, Function.update_self] at outstanding
            exact fits pid outstanding
          · simp only [State.setCpu, Function.update_of_ne eq] at outstanding
            exact inv.fits pid (.cpu other) (.inl outstanding)
        · exact inv.fits pid (.cpu other) (.inr ⟨t, on⟩)
  cpus other := by
    by_cases eq : other = cpu
    · subst eq
      simp only [State.setCpu, Function.update_self]
      exact ordered
    · simp only [State.setCpu, Function.update_of_ne eq]
      exact inv.cpus other
  checked t pid other doing := by
    by_cases eq : other = cpu
    · subst eq
      simp only [State.setCpu, Function.update_self]
      exact unsent t pid doing
    · simp only [State.setCpu, Function.update_of_ne eq]
      exact inv.checked t pid other doing

/-- A CPU gets no new process. -/
theorem moveCpu (inv : Inv s) (ordered : now.Ordered)
    (fewer : now.outstanding.Sublist (s.cpus cpu).outstanding)
    (unsent : ∀ t pid, s.threads t = .sendToExecute pid cpu true → now.evictSent = false) :
    Inv (s.setCpu cpu now) := by
  refine inv.setCpu ordered (fun pid => ?_) (fun pid mem => ?_) unsent
  · have moved := places_setCpu s cpu now pid
    have fewer := fewer.count_le pid
    have once := inv.once pid
    omega
  · exact inv.fits pid (.cpu cpu) (.inl (fewer.subset mem))

/-- A CPU whose evictor and processes stay. -/
theorem runCpu (inv : Inv s) (ordered : now.Ordered)
    (outstanding : now.outstanding = (s.cpus cpu).outstanding)
    (evictor : now.evictor = (s.cpus cpu).evictor) : Inv (s.setCpu cpu now) := by
  refine inv.moveCpu ordered (outstanding ▸ List.Sublist.refl _) fun t pid doing => ?_
  rw [Cpu.evictSent, evictor]
  exact inv.checked t pid cpu doing

/-- A CPU is sent a process that is nowhere. -/
theorem order (inv : Inv s) (nowhere : s.places pid = 0)
    (found : getProcessFromPid s pid = some p) (fits : p.Fits (.cpu cpu)) (ordered : now.Ordered)
    (outstanding : now.outstanding = (s.cpus cpu).outstanding ++ [pid])
    (unsent : now.evictSent = false) : Inv (s.setCpu cpu now) := by
  refine inv.setCpu ordered (fun other => ?_) (fun other mem => ?_) (fun _ _ _ => unsent)
  · have moved := places_setCpu s cpu now other
    have once := inv.once other
    rw [outstanding, List.count_append, List.count_singleton] at moved
    by_cases eq : other = pid
    · subst eq
      simp only [beq_self_eq_true, if_true] at moved
      omega
    · simp only [beq_iff_eq, Ne.symm eq, if_false] at moved
      omega
  · rw [outstanding] at mem
    rcases List.mem_append.mp mem with before | last
    · exact inv.fits other (.cpu cpu) (.inl before)
    · obtain rfl := List.mem_singleton.mp last
      exact ⟨p, found, fits⟩

end Inv

end OsModel.Dispatch
