import OsModel.KernelScheduler.Connections
import OsModel.Lib.Located

/-!
Where a process is.

A process has at most one token: its entry in a ready queue, its execution on a CPU,
its entry in a waiting list of a mutex, its IO request, or its request to Kernel Memory.
`Inv` says that the tokens are where the records say (`Fits`): so a `READY` process is in
one ready queue, once, and nothing that is still under way can concern a process that has
moved on. While a handler works on a process, the process may be out of place; it is then
nowhere (`Inv … (some pid) …`).
-/

namespace OsModel.KernelScheduler

open Lib

variable {ι : Type}

/-! ### Places -/

/-- Where a process can be. -/
inductive Place (ι : Type) where
  | ready (i : Nat)
  | cpu (cpu : ι)
  | mutex (name : String)
  | pending (ioType : IoType)
  | device (io : Nat)
  | memory (request : Request)
  deriving DecidableEq

/-- How many tokens of the process are in the place. -/
def State.tokens (s : State ι) (pid : UInt32) : Place ι → ℕ
  | .ready i => (s.readyQueue i).count pid
  | .cpu cpu => (s.cpu cpu).inFlight.count pid
  | .mutex name => (s.mutex name).waitingProcesses.count pid
  | .pending ioType => ((s.pendingRequestIo ioType).map IoRequest.pid).count pid
  | .device io => ((s.io io).requests.map IoRequest.pid).count pid
  | .memory request =>
      s.memory.requests.count (pid, request) +
        if request = .access then (s.process pid).memoryRequestSem else 0

/-- How a process may end in a run: it may keep its CPU; it may keep a CPU that is not
given back; and it may end while something it waits for is under way. -/
structure Mode where
  keepsCpu : Bool
  losesCpu : Bool
  endsWaiting : Bool

/-- The process waits for something. -/
def Process.Waits (m : Mode) (p : Process ι) : Prop :=
  p.state = .block ∨ p.state = .suspBlock ∨ m.endsWaiting ∧ p.state = .exit

/-- What the record of a process says, by where the process is. -/
def Fits (config : Config) (m : Mode) : Option (Place ι) → Process ι → Prop
  | none, p =>
      p.state ≠ .ready ∧ p.pendingMemorySyscall = false ∧
        (p.cpu ≠ none → p.state = .exec ∨ m.keepsCpu ∧ p.state = .exit)
  | some (.ready i), p =>
      p.state = .ready ∧ p.cpu = none ∧ p.pendingMemorySyscall = false ∧ i = queueIndex config p
  | some (.cpu cpu), p => p.state = .exec ∧ p.cpu = some cpu ∧ p.pendingMemorySyscall = false
  | some (.memory .create), p => p.state = .new ∧ p.cpu = none ∧ p.pendingMemorySyscall = false
  | some (.memory .segment), p => p.state = .exec ∧ p.pendingMemorySyscall = true
  | some (.memory .access), p | some (.mutex _), p | some (.pending _), p | some (.device _), p =>
      p.Waits m ∧ p.cpu = none ∧ p.pendingMemorySyscall = false

/-- The fields of a record that `Fits` reads. -/
def Process.view (p : Process ι) : ProcessState × Option ι × Bool × UInt8 :=
  (p.state, p.cpu, p.pendingMemorySyscall, p.effectivePriority)

theorem Fits.congr {config : Config} {m : Mode} {place : Option (Place ι)} {p q : Process ι}
    (fits : Fits config m place p) (same : q.view = p.view) : Fits config m place q := by
  obtain ⟨state, cpu, pending, priority⟩ : q.state = p.state ∧ q.cpu = p.cpu ∧
      q.pendingMemorySyscall = p.pendingMemorySyscall ∧
      q.effectivePriority = p.effectivePriority := by
    simpa [Process.view] using same
  rcases place with _ | (_ | _ | _ | _ | _ | (_ | _ | _)) <;>
    simpa [Fits, Process.Waits, queueIndex, state, cpu, pending, priority] using fits

variable [DecidableEq ι]

/-- A process is in one place, and its record fits the place. The process in `hand` is
nowhere, and its record may say anything. -/
structure Inv (config : Config) (m : UInt32 → Mode) (hand : Option UInt32) (s : State ι)
    (place : UInt32 → Option (Place ι)) : Prop where
  located : Located s.tokens place
  fits : ∀ pid, hand ≠ some pid → Fits config (m pid) (place pid) (s.process pid)
  nowhere : ∀ pid, hand = some pid → place pid = none
  known : ∀ pid, place pid ≠ none → pid ∈ s.listProcesses
  assigned : ∀ pid, (s.process pid).cpu ≠ none → pid ∈ s.listProcesses
  staged : ∀ cpu, (s.cpu cpu).Staged
  unlisted : ∀ name, name ∉ s.listMutexes → (s.mutex name).waitingProcesses = []

/-- What holds beside the tokens is kept. -/
structure Kept (s s' : State ι) : Prop where
  view : ∀ pid, (s'.process pid).view = (s.process pid).view
  listProcesses : s'.listProcesses = s.listProcesses
  staged : ∀ cpu, (s.cpu cpu).Staged → (s'.cpu cpu).Staged
  unlisted : (∀ name, name ∉ s.listMutexes → (s.mutex name).waitingProcesses = []) →
    ∀ name, name ∉ s'.listMutexes → (s'.mutex name).waitingProcesses = []

namespace Inv

variable {config : Config} {m : UInt32 → Mode} {hand : Option UInt32} {s s' : State ι}
  {place : UInt32 → Option (Place ι)} {pid : UInt32} {k : Place ι} {cpu : ι}

theorem fit (inv : Inv config m none s place) (pid : UInt32) :
    Fits config (m pid) (place pid) (s.process pid) :=
  inv.fits pid (Option.some_ne_none pid).symm

/-- What is kept, whatever happens to the tokens. -/
theorem carry {place' : UInt32 → Option (Place ι)} {hand' : Option UInt32}
    (inv : Inv config m hand s place) (kept : Kept s s') (located : Located s'.tokens place')
    (fits : ∀ pid, hand' ≠ some pid → Fits config (m pid) (place' pid) (s.process pid))
    (nowhere : ∀ pid, hand' = some pid → place' pid = none)
    (known : ∀ pid, place' pid ≠ none → pid ∈ s.listProcesses) :
    Inv config m hand' s' place' where
  located := located
  fits pid out := (fits pid out).congr (kept.view pid)
  nowhere := nowhere
  known pid here := kept.listProcesses ▸ known pid here
  assigned pid has := by
    have same : (s'.process pid).cpu = (s.process pid).cpu := congrArg (·.2.1) (kept.view pid)
    rw [same] at has
    exact kept.listProcesses ▸ inv.assigned pid has
  staged cpu := kept.staged cpu (inv.staged cpu)
  unlisted := kept.unlisted inv.unlisted

/-- No token moves. -/
theorem frame (inv : Inv config m hand s place) (kept : Kept s s')
    (same : ∀ pid k, s'.tokens pid k = s.tokens pid k) : Inv config m hand s' place :=
  inv.carry kept (inv.located.congr same) inv.fits inv.nowhere inv.known

/-- A token is taken out of its place, and its process is in hand. -/
theorem take (inv : Inv config m none s place) (kept : Kept s s')
    (adds : AddsToken s'.tokens s.tokens pid k) :
    Fits config (m pid) (some k) (s.process pid) ∧ pid ∈ s.listProcesses ∧
      Inv config m (some pid) s' (Function.update place pid none) := by
  obtain ⟨here, located⟩ := inv.located.take adds
  have fits := inv.fit pid
  rw [here] at fits
  refine ⟨fits, inv.known pid (by simp [here]), inv.carry kept located ?_ ?_ ?_⟩
  · intro other out
    have ne : other ≠ pid := fun eq => out (congrArg some eq.symm)
    rw [Function.update_of_ne ne]
    exact inv.fit other
  · intro other eq
    obtain rfl := Option.some.inj eq
    exact Function.update_self ..
  · intro other there
    by_cases eq : other = pid
    · subst eq
      exact absurd (Function.update_self ..) there
    · rw [Function.update_of_ne eq] at there
      exact inv.known other there

/-- The process in hand is put into a place. -/
theorem put (inv : Inv config m (some pid) s place) (kept : Kept s s')
    (adds : AddsToken s.tokens s'.tokens pid k) (fits : Fits config (m pid) (some k) (s.process pid))
    (known : pid ∈ s.listProcesses) :
    Inv config m none s' (Function.update place pid (some k)) := by
  refine inv.carry kept (inv.located.put (inv.nowhere pid rfl) adds) ?_ (by simp) ?_
  · intro other _
    by_cases eq : other = pid
    · subst eq
      rw [Function.update_self]
      exact fits
    · rw [Function.update_of_ne eq]
      exact inv.fits other fun same => eq (Option.some.inj same).symm
  · intro other there
    by_cases eq : other = pid
    · exact eq ▸ known
    · rw [Function.update_of_ne eq] at there
      exact inv.known other there

/-- The process in hand stays nowhere. -/
theorem drop (inv : Inv config m (some pid) s place)
    (fits : Fits config (m pid) none (s.process pid)) : Inv config m none s place where
  located := inv.located
  fits other _ := by
    by_cases eq : other = pid
    · subst eq
      rw [inv.nowhere other rfl]
      exact fits
    · exact inv.fits other fun same => eq (Option.some.inj same).symm
  nowhere := nofun
  known := inv.known
  assigned := inv.assigned
  staged := inv.staged
  unlisted := inv.unlisted

/-- A process that is nowhere is taken in hand. -/
theorem lift (inv : Inv config m none s place) (nowhere : place pid = none) :
    Inv config m (some pid) s place where
  located := inv.located
  fits other _ := inv.fit other
  nowhere other eq := by
    obtain rfl := Option.some.inj eq
    exact nowhere
  known := inv.known
  assigned := inv.assigned
  staged := inv.staged
  unlisted := inv.unlisted

/-- A record is written. -/
theorem write (inv : Inv config m hand s place) (pid : UInt32) (f : Process ι → Process ι)
    (sem : (f (s.process pid)).memoryRequestSem = (s.process pid).memoryRequestSem)
    (fits : hand ≠ some pid → Fits config (m pid) (place pid) (f (s.process pid)))
    (assigned : (f (s.process pid)).cpu ≠ none → pid ∈ s.listProcesses) :
    Inv config m hand (s.setProcess pid f) place where
  located := by
    refine inv.located.congr fun other k => ?_
    cases k with
    | memory request =>
        simp only [State.tokens, State.setProcess, Function.update_apply]
        by_cases eq : other = pid
        · subst eq
          rw [if_pos rfl, sem]
        · rw [if_neg eq]
    | ready | cpu | mutex | pending | device => rfl
  fits other out := by
    simp only [State.setProcess, Function.update_apply]
    split
    · rename_i eq
      subst eq
      exact fits out
    · exact inv.fits other out
  nowhere := inv.nowhere
  known := inv.known
  assigned other has := by
    simp only [State.setProcess, Function.update_apply] at has
    split at has
    · rename_i eq
      subst eq
      exact assigned has
    · exact inv.assigned other has
  staged := inv.staged
  unlisted := inv.unlisted

end Inv

/-! ### What does not move a token -/

/-- The part of the state that says where the processes are. -/
def State.core (s : State ι) :=
  (s.process, s.listProcesses, s.readyQueue, s.mutex, s.listMutexes, s.cpu, s.io,
    s.pendingRequestIo, s.memory)

section Frames

variable {config : Config} {m : UInt32 → Mode} {hand : Option UInt32} {s s' : State ι}
  {place : UInt32 → Option (Place ι)} {pid : UInt32} {k : Place ι} {cpu : ι}

omit [DecidableEq ι] in
theorem Kept.of_eq (process : s'.process = s.process)
    (listProcesses : s'.listProcesses = s.listProcesses) (cpu : s'.cpu = s.cpu)
    (mutex : s'.mutex = s.mutex) (listMutexes : s'.listMutexes = s.listMutexes) : Kept s s' where
  view _ := by rw [process]
  listProcesses := listProcesses
  staged _ := by rw [cpu]; exact id
  unlisted := by rw [mutex, listMutexes]; exact id

/-- The lists and flags that say nothing about where a process is. -/
theorem Inv.congr (inv : Inv config m hand s place) (core : s'.core = s.core) :
    Inv config m hand s' place := by
  simp only [State.core, Prod.mk.injEq] at core
  obtain ⟨process, listProcesses, readyQueue, mutex, listMutexes, cpu, io, pending, memory⟩ := core
  refine inv.frame (.of_eq process listProcesses cpu mutex listMutexes) fun pid k => ?_
  cases k <;> simp [State.tokens, process, readyQueue, mutex, cpu, io, pending, memory]

omit [DecidableEq ι] in
/-- A message that asks for nothing. -/
theorem requests_sendMemory {message : ToMemory} (quiet : message.request = none) :
    (s.sendMemory message).memory.requests = s.memory.requests := by
  simp [State.sendMemory, Memory.requests, quiet]

theorem Inv.sendMemory (inv : Inv config m hand s place) (message : ToMemory)
    (quiet : message.request = none) : Inv config m hand (s.sendMemory message) place := by
  refine inv.frame (.of_eq rfl rfl rfl rfl rfl) fun pid k => ?_
  cases k with
  | memory request =>
      simp only [State.tokens, requests_sendMemory quiet]
      rfl
  | ready | cpu | mutex | pending | device => rfl

theorem Kept.setCpu {f : Cpu → Cpu} (staged : (s.cpu cpu).Staged → (f (s.cpu cpu)).Staged) :
    Kept s (s.setCpu cpu f) where
  view _ := rfl
  listProcesses := rfl
  staged other := by
    simp only [State.setCpu, Function.update_apply]
    split
    · rename_i eq
      subst eq
      exact staged
    · exact id
  unlisted := id

theorem tokens_setCpu_of_ne {f : Cpu → Cpu} (ne : k ≠ .cpu cpu) :
    (s.setCpu cpu f).tokens pid k = s.tokens pid k := by
  cases k with
  | cpu other =>
      have ne : other ≠ cpu := fun eq => ne (eq ▸ rfl)
      simp [State.tokens, State.setCpu, ne]
  | ready | mutex | pending | device | memory => rfl

theorem tokens_setCpu_self {f : Cpu → Cpu} :
    (s.setCpu cpu f).tokens pid (.cpu cpu) = (f (s.cpu cpu)).inFlight.count pid := by
  simp [State.tokens, State.setCpu]

/-- A CPU changes, and keeps what it has. -/
theorem Inv.setCpu (inv : Inv config m hand s place) (cpu : ι) (f : Cpu → Cpu)
    (staged : (s.cpu cpu).Staged → (f (s.cpu cpu)).Staged)
    (same : ∀ pid, (f (s.cpu cpu)).inFlight.count pid = (s.cpu cpu).inFlight.count pid) :
    Inv config m hand (s.setCpu cpu f) place := by
  refine inv.frame (.setCpu staged) fun pid k => ?_
  by_cases here : k = .cpu cpu
  · subst here
    rw [tokens_setCpu_self, same]
    rfl
  · exact tokens_setCpu_of_ne here

theorem Inv.makeAvailable (inv : Inv config m hand s place) (cpu : ι) :
    Inv config m hand (makeAvailable s cpu) place :=
  inv.setCpu cpu _ (fun staged => staged.available true) fun _ => rfl

theorem Inv.sendProcessEvict {reason : InterruptReason} {evictor : Evictor} {cpu : Option ι}
    (inv : Inv config m hand s place) (sent : sendProcessEvict s reason evictor cpu = some s') :
    Inv config m hand s' place := by
  cases cpu with
  | none => simp [KernelScheduler.sendProcessEvict] at sent
  | some cpu =>
      simp only [KernelScheduler.sendProcessEvict] at sent
      split at sent
      · simp at sent
      · rename_i free
        obtain ⟨calm, connected⟩ : (s.cpu cpu).isEvicting = false ∧
            (s.cpu cpu).connection = .connected := by simpa using free
        obtain rfl := Option.some.inj sent
        refine inv.setCpu cpu _ (fun staged => staged.evict connected calm _ _) fun pid => ?_
        simp [Cpu.inFlight, ToCpu.pid, List.filterMap_cons]

theorem Inv.evictProcess {reason : InterruptReason} {cpu : Option ι}
    (inv : Inv config m hand s place) : Inv config m hand (evictProcess s cpu reason) place := by
  unfold KernelScheduler.evictProcess
  cases sent : KernelScheduler.sendProcessEvict s reason .handleState cpu with
  | none => exact inv
  | some s' => exact inv.sendProcessEvict sent

end Frames

/-! ### Ready queues -/

section Ready

variable {config : Config} {m : UInt32 → Mode} {s : State ι} {place : UInt32 → Option (Place ι)}
  {pid : UInt32} {k : Place ι} {i : Nat} {queue : List UInt32}

omit [DecidableEq ι] in
theorem tokens_setReadyQueue_of_ne (ne : k ≠ .ready i) :
    (s.setReadyQueue i queue).tokens pid k = s.tokens pid k := by
  cases k with
  | ready other =>
      have ne : other ≠ i := fun eq => ne (eq ▸ rfl)
      simp [State.tokens, State.setReadyQueue, ne]
  | cpu | mutex | pending | device | memory => rfl

omit [DecidableEq ι] in
theorem tokens_setReadyQueue_self :
    (s.setReadyQueue i queue).tokens pid (.ready i) = queue.count pid := by
  simp [State.tokens, State.setReadyQueue]

theorem Inv.putReady (inv : Inv config m (some pid) s place)
    (adds : ∀ b, queue.count b =
      (s.readyQueue (queueIndex config (s.process pid))).count b + if b = pid then 1 else 0)
    (ready : (s.process pid).state = .ready) (unassigned : (s.process pid).cpu = none)
    (settled : (s.process pid).pendingMemorySyscall = false) (known : pid ∈ s.listProcesses) :
    ∃ place', Inv config m none (s.setReadyQueue (queueIndex config (s.process pid)) queue)
      place' := by
  refine ⟨_, inv.put (k := .ready (queueIndex config (s.process pid))) (.of_eq rfl rfl rfl rfl rfl)
    (.of_place (fun b k ne => tokens_setReadyQueue_of_ne ne) fun b => ?_)
    ⟨ready, unassigned, settled, rfl⟩ known⟩
  rw [tokens_setReadyQueue_self, adds]
  rfl

/-- The process in hand is added to its ready queue. -/
theorem Inv.addProcessToReadyQueue (inv : Inv config m (some pid) s place)
    (ready : (s.process pid).state = .ready) (unassigned : (s.process pid).cpu = none)
    (settled : (s.process pid).pendingMemorySyscall = false) (known : pid ∈ s.listProcesses) :
    ∃ place', Inv config m none (addProcessToReadyQueue config s pid) place' := by
  exact inv.putReady (fun b => count_concat _ pid b) ready unassigned settled known

theorem Inv.addProcessAtStartOfReadyQueue (inv : Inv config m (some pid) s place)
    (ready : (s.process pid).state = .ready) (unassigned : (s.process pid).cpu = none)
    (settled : (s.process pid).pendingMemorySyscall = false) (known : pid ∈ s.listProcesses) :
    ∃ place', Inv config m none (addProcessAtStartOfReadyQueue config s pid) place' := by
  unfold KernelScheduler.addProcessAtStartOfReadyQueue
  split
  · exact inv.putReady (fun b => count_cons_eq _ pid b) ready unassigned settled known
  · exact inv.addProcessToReadyQueue ready unassigned settled known

/-- The process in hand becomes `READY`. -/
theorem Inv.makeReady (inv : Inv config m (some pid) s place)
    (unassigned : (s.process pid).cpu = none)
    (settled : (s.process pid).pendingMemorySyscall = false) (known : pid ∈ s.listProcesses) :
    ∃ place', Inv config m none (makeReady config s pid) place' := by
  have written : Inv config m (some pid) (processSetState s pid .ready) place :=
    inv.write _ _ rfl (absurd rfl) fun has => absurd unassigned has
  refine written.addProcessToReadyQueue ?_ ?_ ?_ known
  · simp
  · simpa using unassigned
  · simpa using settled

/-- A `READY` process is in its ready queue. -/
theorem Inv.place_ready (inv : Inv config m none s place) (ready : (s.process pid).state = .ready) :
    place pid = some (.ready (queueIndex config (s.process pid))) := by
  have fits := inv.fit pid
  rcases there : place pid with _ | (_ | _ | _ | _ | _ | (_ | _ | _))
  all_goals
    rw [there] at fits
    simp [Fits, Process.Waits, ready] at fits
  obtain ⟨-, -, rfl⟩ := fits
  rfl

/-- A `READY` process is taken out of its ready queue. -/
theorem Inv.removeProcessFromReadyQueue (inv : Inv config m none s place)
    (ready : (s.process pid).state = .ready) :
    Fits config (m pid) (some (.ready (queueIndex config (s.process pid)))) (s.process pid) ∧
      pid ∈ s.listProcesses ∧
      Inv config m (some pid) (removeProcessFromReadyQueue config s pid)
        (Function.update place pid none) := by
  refine inv.take (.of_eq rfl rfl rfl rfl rfl)
    (.of_place (fun b k ne => (tokens_setReadyQueue_of_ne ne).symm) fun b => ?_)
  have queued : pid ∈ s.readyQueue (queueIndex config (s.process pid)) := by
    refine List.count_pos_iff.mp ?_
    have once := inv.located pid (.ready (queueIndex config (s.process pid)))
    rw [inv.place_ready ready, if_pos rfl] at once
    exact Nat.lt_of_lt_of_eq Nat.zero_lt_one once.symm
  unfold KernelScheduler.removeProcessFromReadyQueue
  rw [tokens_setReadyQueue_self]
  exact count_erase_add queued b

/-- A change of priority. -/
theorem Inv.requeueWithPriority (inv : Inv config m none s place) (newPriority : UInt8) :
    ∃ place', Inv config m none (requeueWithPriority config s pid newPriority) place' := by
  unfold KernelScheduler.requeueWithPriority
  split
  · rename_i ready
    obtain ⟨⟨-, unassigned, settled, -⟩, known, taken⟩ := inv.removeProcessFromReadyQueue ready
    have written := taken.write pid (fun p => { p with effectivePriority := newPriority }) rfl
      (absurd rfl)
      (taken.assigned pid)
    refine written.addProcessToReadyQueue ?_ ?_ ?_ known
    · rw [setProcess_self]
      exact ready
    · rw [setProcess_self]
      exact unassigned
    · rw [setProcess_self]
      exact settled
  · rename_i unready
    refine ⟨place, inv.write _ _ rfl (fun _ => ?_) (inv.assigned pid)⟩
    have fits := inv.fit pid
    rcases there : place pid with _ | (_ | _ | _ | _ | _ | (_ | _ | _))
    all_goals rw [there] at fits
    case some.ready => exact absurd fits.1 unready
    all_goals exact fits

end Ready

/-! ### CPUs, mutexes, devices and Kernel Memory -/

section Moves

variable {config : Config} {m : UInt32 → Mode} {s s' : State ι} {place : UInt32 → Option (Place ι)}
  {pid : UInt32} {k : Place ι} {cpu : ι} {name : String} {io : Nat} {ioType : IoType}

/-- `cpu_handler` reads a syscall. -/
theorem Inv.takeSyscall {syscall : Syscall} {rest : List ToScheduler}
    (inv : Inv config m none s place)
    (next : (s.cpu cpu).toScheduler = .syscall pid syscall :: rest) :
    Fits config (m pid) (some (.cpu cpu)) (s.process pid) ∧ pid ∈ s.listProcesses ∧
      Inv config m (some pid) (s.setCpu cpu fun c => { c with toScheduler := rest })
        (Function.update place pid none) := by
  have sent : pid ∈ (s.cpu cpu).inFlight := by simp [Cpu.inFlight, next, ToScheduler.pid]
  have connected := (inv.staged cpu).connected sent
  refine inv.take (.setCpu (fun staged => ⟨fun _ => ?_, absurd connected⟩))
    (.of_place (fun b k ne => (tokens_setCpu_of_ne ne).symm) fun b => ?_)
  · have stage := staged.stage connected
    rw [next] at stage
    exact stage.handle (by simp)
  · rw [tokens_setCpu_self]
    simp only [State.tokens, Cpu.inFlight, next, List.filterMap_cons, ToScheduler.pid,
      List.count_append, count_cons_eq]
    omega

/-- The process in hand is sent to its CPU, or stays with one that is being evicted. -/
theorem Inv.sendPidToExecute (inv : Inv config m (some pid) s place)
    (executing : (s.process pid).state = .exec) (assigned : (s.process pid).cpu = some cpu)
    (settled : (s.process pid).pendingMemorySyscall = false) (known : pid ∈ s.listProcesses) :
    ∃ place', Inv config m none (sendPidToExecute s pid (some cpu)) place' := by
  have dropped : Inv config m none s place :=
    inv.drop ⟨by simp [executing], settled, fun _ => .inl executing⟩
  simp only [KernelScheduler.sendPidToExecute]
  split
  · exact ⟨place, dropped⟩
  · rename_i calm
    have calm : (s.cpu cpu).isEvicting = false := by simpa using calm
    split
    · rename_i connected
      refine ⟨_, inv.put (k := .cpu cpu) (.setCpu (fun staged => staged.send connected calm))
        (.of_place (fun b k ne => tokens_setCpu_of_ne ne) fun b => ?_)
        ⟨executing, assigned, settled⟩ known⟩
      rw [tokens_setCpu_self]
      simp only [State.tokens, Cpu.inFlight, List.filterMap_append, List.filterMap_cons, ToCpu.pid,
        List.filterMap_nil, List.count_append, count_cons_eq, List.count_nil]
      omega
    · exact ⟨place, dropped⟩

omit [DecidableEq ι] in
theorem tokens_setMutex_of_ne {f : Mutex → Mutex} (ne : k ≠ .mutex name) :
    (s.setMutex name f).tokens pid k = s.tokens pid k := by
  cases k with
  | mutex other =>
      have ne : other ≠ name := fun eq => ne (eq ▸ rfl)
      simp [State.tokens, ne]
  | ready | cpu | pending | device | memory => rfl

omit [DecidableEq ι] in
theorem Kept.setMutex {f : Mutex → Mutex}
    (unlisted : name ∉ s.listMutexes → (s.mutex name).waitingProcesses = [] →
      (f (s.mutex name)).waitingProcesses = []) : Kept s (s.setMutex name f) where
  view _ := rfl
  listProcesses := rfl
  staged _ := id
  unlisted before other out := by
    by_cases eq : other = name
    · subst eq
      rw [setMutex_self]
      exact unlisted out (before other out)
    · rw [setMutex_of_ne s eq]
      exact before other out

/-- A mutex changes, and keeps the processes that wait for it. -/
theorem Inv.setMutex {hand : Option UInt32} (inv : Inv config m hand s place) (name : String)
    (f : Mutex → Mutex)
    (same : (f (s.mutex name)).waitingProcesses = (s.mutex name).waitingProcesses) :
    Inv config m hand (s.setMutex name f) place := by
  refine inv.frame (.setMutex fun _ empty => same.trans empty) fun pid k => ?_
  by_cases here : k = .mutex name
  · subst here
    simp [State.tokens, same]
  · exact tokens_setMutex_of_ne here

/-- The process in hand comes to wait for a mutex. -/
theorem Inv.putMutex (inv : Inv config m (some pid) s place) (listed : name ∈ s.listMutexes)
    (waits : (s.process pid).Waits (m pid)) (unassigned : (s.process pid).cpu = none)
    (settled : (s.process pid).pendingMemorySyscall = false) (known : pid ∈ s.listProcesses) :
    Inv config m none
      (s.setMutex name fun mutex =>
        { mutex with waitingProcesses := mutex.waitingProcesses ++ [pid] })
      (Function.update place pid (some (.mutex name))) := by
  refine inv.put (.setMutex fun out => absurd listed out)
    (.of_place (fun b k ne => tokens_setMutex_of_ne ne) fun b => ?_) ⟨waits, unassigned, settled⟩ known
  simp only [State.tokens, setMutex_self]
  exact count_concat _ pid b

/-- The first process that waits for a mutex is taken out of its list. -/
theorem Inv.takeMutex {f : Mutex → Mutex} {rest : List UInt32} (inv : Inv config m none s place)
    (next : (s.mutex name).waitingProcesses = pid :: rest)
    (left : (f (s.mutex name)).waitingProcesses = rest) :
    Fits config (m pid) (some (.mutex name)) (s.process pid) ∧ pid ∈ s.listProcesses ∧
      Inv config m (some pid) (s.setMutex name f) (Function.update place pid none) := by
  refine inv.take (.setMutex fun _ empty => absurd (next.symm.trans empty) nofun)
    (.of_place (fun b k ne => (tokens_setMutex_of_ne ne).symm) fun b => ?_)
  simp [State.tokens, next, left, count_cons_eq]

omit [DecidableEq ι] in
theorem tokens_setIo_of_ne {f : Io → Io} (ne : k ≠ .device io) :
    (s.setIo io f).tokens pid k = s.tokens pid k := by
  cases k with
  | device other =>
      have ne : other ≠ io := fun eq => ne (eq ▸ rfl)
      simp [State.tokens, ne]
  | ready | cpu | mutex | pending | memory => rfl

/-- A device changes, and keeps its requests. -/
theorem Inv.setIo {hand : Option UInt32} (inv : Inv config m hand s place) (io : Nat) (f : Io → Io)
    (same : (f (s.io io)).requests = (s.io io).requests) :
    Inv config m hand (s.setIo io f) place := by
  refine inv.frame (.of_eq rfl rfl rfl rfl rfl) fun pid k => ?_
  by_cases here : k = .device io
  · subst here
    simp [State.tokens, same]
  · exact tokens_setIo_of_ne here

/-- The first request of a device is taken. -/
theorem Inv.takeDevice {request : IoRequest} {rest : List IoRequest}
    (inv : Inv config m none s place) (next : (s.io io).requests = request :: rest) :
    Fits config (m request.pid) (some (.device io)) (s.process request.pid) ∧ request.pid ∈ s.listProcesses ∧
      Inv config m (some request.pid) (s.setIo io fun d => { d with requests := rest })
        (Function.update place request.pid none) := by
  refine inv.take (.of_eq rfl rfl rfl rfl rfl)
    (.of_place (fun b k ne => (tokens_setIo_of_ne ne).symm) fun b => ?_)
  simp [State.tokens, next, count_cons_eq]

/-- A device gets the request of the process in hand. -/
theorem Inv.ioProcessSend {request : IoRequest} (inv : Inv config m (some request.pid) s place)
    (waits : (s.process request.pid).Waits (m request.pid)) (unassigned : (s.process request.pid).cpu = none)
    (settled : (s.process request.pid).pendingMemorySyscall = false)
    (known : request.pid ∈ s.listProcesses) :
    ∃ place', Inv config m none (ioProcessSend s io request) place' := by
  refine ⟨_, inv.put (k := .device io) (.of_eq rfl rfl rfl rfl rfl)
    (.of_place (fun b k ne => tokens_setIo_of_ne ne) fun b => ?_) ⟨waits, unassigned, settled⟩ known⟩
  simp only [State.tokens, KernelScheduler.ioProcessSend, setIo_self, List.map_append,
    List.map_cons, List.map_nil]
  exact count_concat _ request.pid b

omit [DecidableEq ι] in
theorem tokens_setPending_of_ne {queue : List IoRequest} (ne : k ≠ .pending ioType) :
    ({ s with pendingRequestIo := Function.update s.pendingRequestIo ioType queue } :
      State ι).tokens pid k = s.tokens pid k := by
  cases k with
  | pending other =>
      have ne : other ≠ ioType := fun eq => ne (eq ▸ rfl)
      simp [State.tokens, ne]
  | ready | cpu | mutex | device | memory => rfl

/-- The process in hand asks for an IO operation. -/
theorem Inv.requestIo (request : IoRequest) (inv : Inv config m (some request.pid) s place)
    (ioType : IoType) (waits : (s.process request.pid).Waits (m request.pid))
    (unassigned : (s.process request.pid).cpu = none)
    (settled : (s.process request.pid).pendingMemorySyscall = false)
    (known : request.pid ∈ s.listProcesses) :
    ∃ place', Inv config m none (requestIo s ioType request) place' := by
  unfold KernelScheduler.requestIo
  split
  · obtain ⟨place', sent⟩ := inv.ioProcessSend waits unassigned settled known
    exact ⟨place', sent.congr rfl⟩
  · have waiting : Inv config m none
        { s with
          pendingRequestIo :=
            Function.update s.pendingRequestIo ioType (s.pendingRequestIo ioType ++ [request]) } _ :=
      inv.put (k := .pending ioType) (.of_eq rfl rfl rfl rfl rfl)
        (.of_place (fun b k ne => tokens_setPending_of_ne ne) fun b => by
          simp only [State.tokens, Function.update_self, List.map_append, List.map_cons,
            List.map_nil]
          exact count_concat _ request.pid b)
        ⟨waits, unassigned, settled⟩ known
    exact ⟨_, waiting.congr rfl⟩

/-- The next request goes to a device that has nothing to do. -/
theorem Inv.handleNextOperation (inv : Inv config m none s place) :
    ∃ place', Inv config m none (handleNextOperation s io ioType) place' := by
  unfold KernelScheduler.handleNextOperation
  split
  · exact ⟨place, inv⟩
  · rename_i request rest next
    have adds : AddsToken
        ({ s with pendingRequestIo := Function.update s.pendingRequestIo ioType rest } :
          State ι).tokens s.tokens request.pid (.pending ioType) :=
      .of_place (fun b k ne => (tokens_setPending_of_ne ne).symm) fun b => by
        simp [State.tokens, next, count_cons_eq]
    have kept : Kept s
        { s with pendingRequestIo := Function.update s.pendingRequestIo ioType rest } :=
      .of_eq rfl rfl rfl rfl rfl
    obtain ⟨⟨waits, unassigned, settled⟩, known, taken⟩ := inv.take kept adds
    exact taken.ioProcessSend waits unassigned settled known

theorem tokens_of_memory {pid' : UInt32} {request : Request}
    (others : ∀ b k, (∀ r, k ≠ .memory r) → s'.tokens b k = s.tokens b k)
    (sems : ∀ b, (s'.process b).memoryRequestSem = (s.process b).memoryRequestSem)
    (requests : ((pid', request) :: s'.memory.requests).Perm s.memory.requests) :
    AddsToken s'.tokens s.tokens pid' (.memory request) := by
  intro b k
  cases k with
  | memory r =>
      have counted := requests.count_eq (b, r)
      rw [count_cons_eq] at counted
      simp only [State.tokens, sems, ← counted, Prod.mk.injEq, Place.memory.injEq]
      omega
  | ready | cpu | mutex | pending | device =>
      rw [others b _ fun r => by simp]
      simp

/-- `kernel_memory_handler` reads an answer. -/
theorem Inv.takeAnswer {message : FromMemory} {rest : List FromMemory} {request : Request}
    (inv : Inv config m none s place) (next : s.memory.fromMemory = message :: rest)
    (answers : message.request = some (pid, request)) :
    Fits config (m pid) (some (.memory request)) (s.process pid) ∧ pid ∈ s.listProcesses ∧
      Inv config m (some pid) { s with memory.fromMemory := rest }
        (Function.update place pid none) := by
  refine inv.take (.of_eq rfl rfl rfl rfl rfl) (tokens_of_memory ?_ (fun _ => rfl) ?_)
  · intro b k out
    cases k with
    | memory r => exact absurd rfl (out r)
    | ready | cpu | mutex | pending | device => rfl
  · simp only [Memory.requests, next, List.filterMap_cons, answers]
    exact List.perm_middle.symm

/-- A request is sent for the process in hand. -/
theorem Inv.putRequest {request : Request} (inv : Inv config m (some pid) s place)
    (message : ToMemory) (asks : message.request = some (pid, request))
    (fits : Fits config (m pid) (some (.memory request)) (s.process pid))
    (known : pid ∈ s.listProcesses) :
    Inv config m none (s.sendMemory message)
      (Function.update place pid (some (.memory request))) := by
  refine inv.put (.of_eq rfl rfl rfl rfl rfl) (tokens_of_memory ?_ (fun _ => rfl) ?_) fits known
  · intro b k out
    cases k with
    | memory r => exact absurd rfl (out r)
    | ready | cpu | mutex | pending | device => rfl
  · simp only [Memory.requests, State.sendMemory, List.filterMap_append, List.filterMap_cons, asks,
      List.filterMap_nil, List.append_assoc, List.singleton_append]
    exact List.perm_middle.symm

omit [DecidableEq ι] in
theorem tokens_setProcess_of_ne {f : Process ι → Process ι} (ne : k ≠ .memory .access) (b : UInt32) :
    (s.setProcess pid f).tokens b k = s.tokens b k := by
  cases k with
  | memory request =>
      have ne : request ≠ .access := fun eq => ne (eq ▸ rfl)
      simp only [State.tokens, if_neg ne]
      rfl
  | ready | cpu | mutex | pending | device => rfl

omit [DecidableEq ι] in
/-- `sem_post(&process->memory_request_sem)` and `sem_wait` on it. -/
theorem Kept.setSem {n : ℕ} : Kept s (s.setProcess pid fun p => { p with memoryRequestSem := n }) where
  view b := by
    by_cases eq : b = pid
    · subst eq
      rw [setProcess_self]
      rfl
    · rw [setProcess_of_ne s eq]
  listProcesses := rfl
  staged _ := id
  unlisted := id

theorem addsToken_setSem {n : ℕ} (more : n = (s.process pid).memoryRequestSem + 1) :
    AddsToken s.tokens (s.setProcess pid fun p => { p with memoryRequestSem := n }).tokens pid
      (.memory .access) := by
  refine .of_place (fun b k ne => tokens_setProcess_of_ne ne b) fun b => ?_
  simp only [State.tokens, if_true]
  by_cases eq : b = pid
  · subst eq
    rw [setProcess_self, more, if_pos rfl, ← Nat.add_assoc]
    rfl
  · rw [setProcess_of_ne s eq, if_neg eq]
    rfl

/-- Kernel Memory has written what a device read. -/
theorem Inv.putWritten (inv : Inv config m (some pid) s place) (waits : (s.process pid).Waits (m pid))
    (unassigned : (s.process pid).cpu = none)
    (settled : (s.process pid).pendingMemorySyscall = false) (known : pid ∈ s.listProcesses) :
    ∃ place', Inv config m none
      (s.setProcess pid fun p => { p with memoryRequestSem := p.memoryRequestSem + 1 }) place' :=
  ⟨_, inv.put .setSem (addsToken_setSem rfl) ⟨waits, unassigned, settled⟩ known⟩

theorem Inv.takeWritten (inv : Inv config m none s place)
    (posted : 0 < (s.process pid).memoryRequestSem) :
    Fits config (m pid) (some (.memory .access)) (s.process pid) ∧ pid ∈ s.listProcesses ∧
      Inv config m (some pid)
        (s.setProcess pid fun p => { p with memoryRequestSem := p.memoryRequestSem - 1 })
        (Function.update place pid none) := by
  refine inv.take .setSem ?_
  have more : (s.process pid).memoryRequestSem =
      ((s.setProcess pid fun p =>
        { p with memoryRequestSem := p.memoryRequestSem - 1 }).process pid).memoryRequestSem + 1 := by
    rw [setProcess_self]
    dsimp only
    omega
  have back := addsToken_setSem more
  have same : (s.setProcess pid fun p =>
      { p with memoryRequestSem := p.memoryRequestSem - 1 }).setProcess pid
        (fun p => { p with memoryRequestSem := (s.process pid).memoryRequestSem }) = s := by
    cases s
    simp [State.setProcess]
  rwa [same] at back

/-- A process that is nowhere is in no ready queue. -/
theorem Inv.removeProcessFromReadyQueue_hand (inv : Inv config m (some pid) s place) :
    KernelScheduler.removeProcessFromReadyQueue config s pid = s := by
  have out : pid ∉ s.readyQueue (queueIndex config (s.process pid)) :=
    List.count_eq_zero.mp (inv.located.held_eq_zero (inv.nowhere pid rfl)
      (.ready (queueIndex config (s.process pid))))
  simp [KernelScheduler.removeProcessFromReadyQueue, List.erase_of_not_mem out, State.setReadyQueue]

end Moves

end OsModel.KernelScheduler
