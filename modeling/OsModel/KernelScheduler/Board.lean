import OsModel.KernelScheduler.Places
import Mathlib.Logic.Relation

/-!
Which process has which CPU.

A `Board` is what the records say about processes and CPUs, and a `Move` is one change of
it. The handlers make moves (`Moves.lean`), whatever else they do; here is what moves keep.

* `Board.Owned`: a process with a CPU is `EXEC`, and no CPU has two processes.
* `Board.Covered`: a CPU that is neither available nor being evicted has a process.
* `Board.Listed`: `exec_processes` are the processes with a CPU.
* `Board.Ended`: a process whose `PROCESS_END` is sent is `EXIT`.
-/

namespace OsModel.KernelScheduler

/-! ### Boards -/

/-- What the record of a process says, and how often it is in `exec_processes`. -/
structure Holder (ι : Type) where
  state : ProcessState
  cpu : Option ι
  pending : Bool
  executing : ℕ

/-- What the record of a CPU says, and the processes that are under way to it, on it or
from it. -/
structure Desk where
  connection : Connection
  isAvailable : Bool
  isEvicting : Bool
  inFlight : List UInt32

/-- Processes, CPUs, and the connection to Kernel Memory. -/
@[ext]
structure Board (ι : Type) where
  process : UInt32 → Holder ι
  listProcesses : List UInt32
  cpu : ι → Desk
  listCpu : List ι
  suspendedProcesses : List UInt32
  memory : Memory

namespace Board

variable {ι : Type} (b : Board ι)

/-- A process after a move. -/
def setProcess (pid : UInt32) (p : Holder ι) : Board ι :=
  { b with process := Function.update b.process pid p }

/-- A CPU after a move. -/
def setCpu [DecidableEq ι] (cpu : ι) (c : Desk) : Board ι :=
  { b with cpu := Function.update b.cpu cpu c }

/-- The connection to Kernel Memory after a message to it. -/
def send (message : ToMemory) : Board ι :=
  { b with memory.toMemory := b.memory.toMemory ++ [message] }

@[simp, grind =]
theorem process_setProcess (pid other : UInt32) (p : Holder ι) :
    (b.setProcess pid p).process other = if other = pid then p else b.process other :=
  Function.update_apply ..

@[simp, grind =]
theorem cpu_setProcess (pid : UInt32) (p : Holder ι) (cpu : ι) :
    (b.setProcess pid p).cpu cpu = b.cpu cpu := rfl

@[simp, grind =]
theorem listProcesses_setProcess (pid : UInt32) (p : Holder ι) :
    (b.setProcess pid p).listProcesses = b.listProcesses := rfl

@[simp, grind =]
theorem memory_setProcess (pid : UInt32) (p : Holder ι) :
    (b.setProcess pid p).memory = b.memory := rfl

@[simp, grind =]
theorem process_setCpu [DecidableEq ι] (cpu : ι) (c : Desk) (pid : UInt32) :
    (b.setCpu cpu c).process pid = b.process pid := rfl

@[simp, grind =]
theorem cpu_setCpu [DecidableEq ι] (cpu other : ι) (c : Desk) :
    (b.setCpu cpu c).cpu other = if other = cpu then c else b.cpu other :=
  Function.update_apply ..

@[simp, grind =]
theorem listProcesses_setCpu [DecidableEq ι] (cpu : ι) (c : Desk) :
    (b.setCpu cpu c).listProcesses = b.listProcesses := rfl

@[simp, grind =]
theorem memory_setCpu [DecidableEq ι] (cpu : ι) (c : Desk) :
    (b.setCpu cpu c).memory = b.memory := rfl

@[simp, grind =]
theorem listCpu_setProcess (pid : UInt32) (p : Holder ι) :
    (b.setProcess pid p).listCpu = b.listCpu := rfl

@[simp, grind =]
theorem listCpu_setCpu [DecidableEq ι] (cpu : ι) (c : Desk) :
    (b.setCpu cpu c).listCpu = b.listCpu := rfl

@[simp, grind =]
theorem listCpu_send (message : ToMemory) : (b.send message).listCpu = b.listCpu := rfl

@[simp, grind =]
theorem process_send (message : ToMemory) (pid : UInt32) :
    (b.send message).process pid = b.process pid := rfl

@[simp, grind =]
theorem cpu_send (message : ToMemory) (cpu : ι) : (b.send message).cpu cpu = b.cpu cpu := rfl

@[simp, grind =]
theorem listProcesses_send (message : ToMemory) :
    (b.send message).listProcesses = b.listProcesses := rfl

end Board

/-! ### Moves -/

/-- What a step is about: the process whose syscall or segment result is handled; the CPU
whose eviction is handled, or that goes; and whether processes are swapped. -/
structure About (ι : Type) where
  subject : Option UInt32
  cpu : Option ι
  swaps : Bool

/-- The changes of state of a process without a CPU. -/
inductive Turn (m : Mode) (swaps : Bool) : ProcessState → ProcessState → Prop where
  | created : Turn m swaps .new .ready
  | woken : Turn m swaps .block .ready
  | wokenSuspended : Turn m swaps .suspBlock .suspReady
  | failed {state : ProcessState}
      (waited : state = .block ∨ state = .suspBlock ∨ m.endsWaiting ∧ state = .exit) :
      Turn m swaps state .exit
  | revived (ends : m.endsWaiting) : Turn m swaps .exit .ready
  | suspended (swap : swaps) : Turn m swaps .block .suspBlock
  | swappedIn (swap : swaps) : Turn m swaps .suspBlock .block
  | swappedInReady (swap : swaps) : Turn m swaps .suspReady .ready

/-- The message is about swapping. -/
def ToMemory.Swaps : ToMemory → Prop
  | .swapOut _ | .swapIn _ => True
  | _ => False

/-- The message is about swapping. -/
def FromMemory.Swaps : FromMemory → Prop
  | .swapOut .. | .swapIn _ | .memoryUpdate _ => True
  | _ => False

variable {ι : Type} [DecidableEq ι]

inductive Move (m : UInt32 → Mode) (about : About ι) (b : Board ι) : Board ι → Prop where
  /-- A process is created. -/
  | create {pid : UInt32} (fresh : pid ∉ b.listProcesses) (free : (b.process pid).cpu = none) :
      Move m about b
        { b.setProcess pid ⟨.new, none, false, (b.process pid).executing⟩ with
          listProcesses := b.listProcesses ++ [pid] }
  /-- A process without a CPU changes its state. -/
  | turn {pid : UInt32} {state : ProcessState} (known : pid ∈ b.listProcesses)
      (free : (b.process pid).cpu = none)
      (turn : Turn (m pid) about.swaps (b.process pid).state state) :
      Move m about b (b.setProcess pid { b.process pid with state })
  /-- The result of a process that has lost its CPU is handled. -/
  | resume {pid : UInt32} {state : ProcessState} {executing : ℕ}
      (subject : about.subject = some pid)
      (executed : (b.process pid).state = .exec) (free : (b.process pid).cpu = none)
      (outcome : state = .ready ∨ state = .exit)
      (entries : executing = (b.process pid).executing ∨
        executing = (b.process pid).executing - 1) :
      Move m about b (b.setProcess pid { b.process pid with state, executing })
  /-- A process asks for a segment, or has its result. -/
  | settle {pid : UInt32} {pending : Bool} (subject : about.subject = some pid)
      (executed : (b.process pid).state = .exec) :
      Move m about b (b.setProcess pid { b.process pid with pending })
  /-- A process is given a CPU. -/
  | launch {pid : UInt32} {cpu : ι} (ready : (b.process pid).state = .ready)
      (free : (b.process pid).cpu = none) (listed : cpu ∈ b.listCpu)
      (available : (b.cpu cpu).isAvailable = true) (calm : (b.cpu cpu).isEvicting = false) :
      Move m about b
        ((b.setProcess pid
          { b.process pid with
            state := .exec
            cpu := some cpu
            executing := (b.process pid).executing + 1 }).setCpu cpu
          { b.cpu cpu with isAvailable := false })
  /-- A process is sent to a CPU. -/
  | execute {pid : UInt32} {cpu : ι} {inFlight : List UInt32}
      (calm : (b.cpu cpu).isEvicting = false)
      (more : ∀ other, inFlight.count other =
        (b.cpu cpu).inFlight.count other + if other = pid then 1 else 0) :
      Move m about b (b.setCpu cpu { b.cpu cpu with inFlight })
  /-- What is under way on a connection moves on, or is read or lost. -/
  | flow {cpu : ι} {inFlight : List UInt32}
      (less : ∀ other, inFlight.count other ≤ (b.cpu cpu).inFlight.count other) :
      Move m about b (b.setCpu cpu { b.cpu cpu with inFlight })
  /-- A CPU is to be evicted. -/
  | order {cpu : ι} (connected : (b.cpu cpu).connection = .connected)
      (calm : (b.cpu cpu).isEvicting = false) :
      Move m about b (b.setCpu cpu { b.cpu cpu with isEvicting := true })
  /-- A process blocks or ends, and its CPU is given back. -/
  | release {pid : UInt32} {cpu : ι} {state : ProcessState} (subject : about.subject = some pid)
      (executed : (b.process pid).state = .exec) (has : (b.process pid).cpu = some cpu)
      (outcome : state = .block ∨ state = .exit) :
      Move m about b
        ((b.setProcess pid
          { b.process pid with
            state
            cpu := none
            executing := (b.process pid).executing - 1 }).setCpu cpu
          { b.cpu cpu with isAvailable := true })
  /-- The result of a process ends it, and its CPU is given back unless it is being
  evicted. -/
  | terminate {pid : UInt32} {cpu : ι} (subject : about.subject = some pid)
      (executed : (b.process pid).state = .exec) (has : (b.process pid).cpu = some cpu) :
      Move m about b
        ((b.setProcess pid
          { b.process pid with
            state := .exit
            cpu := none
            executing := (b.process pid).executing - 1 }).setCpu cpu
          { b.cpu cpu with isAvailable := (b.cpu cpu).isAvailable || !(b.cpu cpu).isEvicting })
  /-- A process ends and keeps its CPU, which is given back all the same. -/
  | keep {pid : UInt32} {cpu : ι} (keeps : (m pid).keepsCpu) (subject : about.subject = some pid)
      (executed : (b.process pid).state = .exec) (has : (b.process pid).cpu = some cpu) :
      Move m about b
        ((b.setProcess pid
          { b.process pid with
            state := .exit
            executing := (b.process pid).executing - 1 }).setCpu cpu
          { b.cpu cpu with isAvailable := true })
  /-- A process ends and keeps its CPU, which is not given back. -/
  | lose {pid : UInt32} {cpu : ι} (keeps : (m pid).keepsCpu)
      (loses : (b.cpu cpu).isEvicting = false → (m pid).losesCpu)
      (subject : about.subject = some pid)
      (executed : (b.process pid).state = .exec) (has : (b.process pid).cpu = some cpu) :
      Move m about b
        (b.setProcess pid
          { b.process pid with
            state := .exit
            executing := (b.process pid).executing - 1 })
  /-- An eviction is handled, and the CPU has no process. -/
  | confirm {cpu : ι} (ended : about.cpu = some cpu)
      (connected : (b.cpu cpu).connection = .connected)
      (none : ∀ pid, (b.process pid).cpu ≠ some cpu) :
      Move m about b
        (b.setCpu cpu { b.cpu cpu with isAvailable := true, isEvicting := false })
  /-- An eviction is handled, and a process loses the CPU. -/
  | evict {pid : UInt32} {cpu : ι} (ended : about.cpu = some cpu)
      (connected : (b.cpu cpu).connection = .connected) (has : (b.process pid).cpu = some cpu)
      (executed : (b.process pid).state = .exec ∨ (m pid).keepsCpu ∧ (b.process pid).state = .exit) :
      Move m about b
        ((b.setProcess pid
          { b.process pid with
            state := if (b.process pid).pending then (b.process pid).state else .ready
            cpu := none
            executing := (b.process pid).executing - 1 }).setCpu cpu
          { b.cpu cpu with isAvailable := true, isEvicting := false })
  /-- A CPU goes, and has no process. -/
  | gone {cpu : ι} (ended : about.cpu = some cpu) (none : ∀ pid, (b.process pid).cpu ≠ some cpu) :
      Move m about b
        { b.setCpu cpu { b.cpu cpu with connection := .closed, inFlight := [] } with
          listCpu := b.listCpu.erase cpu }
  /-- A CPU goes, and a process loses it. -/
  | goneWith {pid : UInt32} {cpu : ι} (ended : about.cpu = some cpu)
      (has : (b.process pid).cpu = some cpu)
      (executed : (b.process pid).state = .exec ∨ (m pid).keepsCpu ∧ (b.process pid).state = .exit)
      (settled : (b.process pid).pending = false) :
      Move m about b
        { (b.setProcess pid
            { b.process pid with
              state := .ready
              cpu := .none
              executing := (b.process pid).executing - 1 }).setCpu cpu
            { b.cpu cpu with connection := .closed, inFlight := [] } with
          listCpu := b.listCpu.erase cpu }
  /-- A CPU comes. -/
  | come {cpu : ι} (absent : (b.cpu cpu).connection = .absent) :
      Move m about b
        { b.setCpu cpu ⟨.connected, true, false, []⟩ with listCpu := b.listCpu ++ [cpu] }
  /-- A message is sent to Kernel Memory: `PROCESS_END` for a process that has ended. -/
  | send {message : ToMemory} (swap : message.Swaps → about.swaps)
      (ended : ∀ pid, message = .processEnd pid → (b.process pid).state = .exit) :
      Move m about b (b.send message)
  /-- A message of Kernel Memory is read. -/
  | read {message : FromMemory} {rest : List FromMemory} (swap : message.Swaps → about.swaps)
      (next : b.memory.fromMemory = message :: rest) :
      Move m about b { b with memory.fromMemory := rest }
  /-- Kernel Memory does something. -/
  | answer {st : MemoryStep} {memory : Memory} (taken : b.memory.step st = some memory) :
      Move m about b { b with memory }
  /-- `suspended_processes` changes. -/
  | suspended {suspendedProcesses : List UInt32} (swap : about.swaps) :
      Move m about b { b with suspendedProcesses }

/-- Any number of moves. -/
abbrev Moves (m : UInt32 → Mode) (about : About ι) : Board ι → Board ι → Prop :=
  Relation.ReflTransGen (Move m about)

variable {m : UInt32 → Mode} {about : About ι} {b b' : Board ι}

/-- What one move keeps, any number of moves keep. -/
theorem Moves.keeps {P : Board ι → Prop} (keeps : ∀ {b b'}, Move m about b b' → P b → P b')
    (moves : Moves m about b b') (start : P b) : P b' := by
  induction moves with
  | refl => exact start
  | tail _ move ih => exact keeps move ih

/-! ### What moves keep -/

namespace Board

/-- A process with a CPU is `EXEC`, and its CPU is connected and taken, by this process
only; the CPUs in `list_cpu` are connected. -/
structure Owned (b : Board ι) : Prop where
  executing : ∀ pid, (b.process pid).cpu ≠ none → (b.process pid).state = .exec
  taken : ∀ pid cpu, (b.process pid).cpu = some cpu → (b.cpu cpu).isAvailable = false
  connected : ∀ pid cpu, (b.process pid).cpu = some cpu → (b.cpu cpu).connection = .connected
  unique : ∀ pid other cpu, (b.process pid).cpu = some cpu → (b.process other).cpu = some cpu →
    pid = other
  listed : ∀ cpu ∈ b.listCpu, (b.cpu cpu).connection = .connected
  nodup : b.listCpu.Nodup

/-- A CPU that is neither available nor being evicted has a process. -/
def Covered (b : Board ι) : Prop :=
  ∀ cpu, (b.cpu cpu).connection = .connected → (b.cpu cpu).isAvailable = false →
    (b.cpu cpu).isEvicting = false →
    ∃ pid, (b.process pid).state = .exec ∧ (b.process pid).cpu = some cpu

/-- `exec_processes` are the processes that are `EXEC` and have a CPU, once each. -/
def Listed (b : Board ι) : Prop :=
  ∀ pid, (b.process pid).executing =
    if (b.process pid).state = .exec ∧ (b.process pid).cpu ≠ none then 1 else 0

/-- A process that is not there is as new. -/
def Fresh (b : Board ι) : Prop :=
  ∀ pid, pid ∉ b.listProcesses → (b.process pid).state = .new

/-- A process whose `PROCESS_END` is sent is `EXIT`. -/
def Ended (b : Board ι) : Prop :=
  ∀ pid, .processEnd pid ∈ b.memory.toMemory → (b.process pid).state = .exit

end Board

theorem Move.owned (move : Move m about b b') (strict : ∀ pid, (m pid).keepsCpu = false)
    (owned : b.Owned) : b'.Owned := by
  obtain ⟨executing, taken, connected, unique, listed, nodup⟩ := owned
  -- There is no arithmetic in these goals.
  cases move <;> constructor <;> grind -ring -linarith -lia -order

theorem Move.covered (move : Move m about b b') (strict : ∀ pid, (m pid).losesCpu = false)
    (covered : b.Covered) : b'.Covered := by
  intro cpu connected taken calm
  cases move
  case launch pid launched ready free listed available _ =>
    by_cases here : cpu = launched
    · exact ⟨pid, by grind, by grind⟩
    · obtain ⟨other, executed, has⟩ := covered cpu (by grind) (by grind) (by grind)
      exact ⟨other, by grind, by grind⟩
  all_goals
    obtain ⟨other, executed, has⟩ := covered cpu (by grind) (by grind) (by grind)
    exact ⟨other, by grind, by grind⟩

theorem Move.fresh (move : Move m about b b') (fresh : b.Fresh) : b'.Fresh := by
  intro pid
  have := fresh pid
  cases move <;> grind

/-- A process that has ended and has no CPU. -/
theorem Move.final {pid : UInt32} (move : Move m about b b')
    (strict : (m pid).endsWaiting = false) (fresh : b.Fresh)
    (ended : (b.process pid).state = .exit) (free : (b.process pid).cpu = none) :
    (b'.process pid).state = .exit ∧ (b'.process pid).cpu = none := by
  have := fresh pid
  cases move <;> grind [Turn]

/-- What is sent to Kernel Memory. -/
theorem Move.sent (move : Move m about b b') {message : ToMemory}
    (sent : message ∈ b'.memory.toMemory) :
    message ∈ b.memory.toMemory ∨
      ∀ pid, message = .processEnd pid → (b'.process pid).state = .exit := by
  cases move
  case send other swap ended =>
    rcases List.mem_append.mp sent with before | last
    · exact .inl before
    · obtain rfl := List.mem_singleton.mp last
      exact .inr ended
  case answer taken => exact .inl (Memory.step_toMemory taken _ sent)
  all_goals exact .inl sent

theorem Move.ended (move : Move m about b b') (strict : ∀ pid, (m pid).endsWaiting = false)
    (fresh : b.Fresh) (owned : b.Owned) (ended : b.Ended) : b'.Ended := by
  intro pid sent
  rcases move.sent sent with before | now
  · have exit := ended pid before
    have free : (b.process pid).cpu = none := by
      by_contra has
      simp [owned.executing pid has] at exit
    exact (move.final (strict pid) fresh exit free).1
  · exact now pid rfl

theorem Move.listed (move : Move m about b b') (listed : b.Listed) : b'.Listed := by
  intro pid
  have := listed pid
  cases move <;> grind

end OsModel.KernelScheduler
