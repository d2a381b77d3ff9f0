import OsModel.KernelMemory.CpuHandler
import OsModel.KernelMemory.Segments
import OsModel.Lib.Run
import OsModel.Lib.Tokens

/-!
Contexts on their way between the CPUs and Kernel Memory.

Every CPU has its own connection to Kernel Memory, served by a thread of its own,
and another one to the Kernel Scheduler; each is first in, first out, and
nothing orders them against each other. The scheduler dispatches a process that
it has been told has stopped, to any CPU.

`CONTEXT_TRANSFER` has no acknowledgement: a CPU that has saved a context tells
the scheduler at once, without knowing whether Kernel Memory has read it.

A CPU tells the scheduler only after it has sent the context. For the confirmation of
an eviction this is assumed: in `Cpu.Threads` a post of `sem_eviction_ready` that nobody
has waited for lets it come early, and no theorem connects the two models.
-/

namespace OsModel.Contexts

open Lib KernelMemory

/-- What a CPU sends to Kernel Memory about contexts. -/
inductive ToMemory where
  | contextTransfer (pid : UInt32) (context : CpuContext)
  | contextSeek (pid : UInt32)
  deriving DecidableEq, Repr

/-- Where a CPU stands. -/
inductive CpuPhase where
  /-- Before `operation_receive` from the scheduler. -/
  | idle
  /-- `CONTEXT_SEEK` sent, at `sem_wait(&pending_request->sem)`. -/
  | seeking (pid : UInt32)
  /-- In `instructions_cicle`, with the context it received. -/
  | executing (pid : UInt32) (received : CpuContext)
  /-- After `context_send`, before the scheduler is told. -/
  | saved (pid : UInt32)
  deriving DecidableEq, Repr

/-- A CPU and its connections. `toScheduler` are the messages that say that a
process has stopped: a syscall, or the confirmation of an eviction. -/
structure CpuLink where
  phase : CpuPhase
  toMemory : List ToMemory
  fromMemory : List (UInt32 × CpuContext)
  toScheduler : List UInt32
  toCpu : List UInt32
  deriving DecidableEq, Repr

/-- All components. `ready` are the processes that the scheduler may dispatch;
`lastSaved` is what was last saved for a process, wherever it is now. -/
structure System (ι : Type) where
  memory : State
  ready : List UInt32
  cpus : ι → CpuLink
  lastSaved : UInt32 → CpuContext

/-- What can happen next. -/
inductive Action (ι : Type) where
  /-- A process is created. -/
  | create (pid : UInt32) (instructions : List String)
  /-- `PROCESS_EXECUTE`. -/
  | dispatch (pid : UInt32) (cpu : ι)
  /-- The CPU reads `PROCESS_EXECUTE` and sends `CONTEXT_SEEK`. -/
  | execute (cpu : ι)
  /-- Kernel Memory's thread for the CPU reads the next message. -/
  | serve (cpu : ι)
  /-- The context arrives at the CPU. -/
  | receive (cpu : ι)
  /-- `context_send`, with what the process has made of its context. -/
  | save (cpu : ι) (context : CpuContext)
  /-- The scheduler is sent the syscall, or the confirmation. -/
  | notify (cpu : ι)
  /-- The process ends, without a context. -/
  | exit (cpu : ι)
  /-- The scheduler reads that a process has stopped. -/
  | hear (cpu : ι)
  deriving DecidableEq, Repr

variable {ι : Type} [DecidableEq ι]

/-- A CPU and its connections after a step. -/
def System.setLink (s : System ι) (cpu : ι) (link : CpuLink) : System ι :=
  { s with cpus := Function.update s.cpus cpu link }

@[simp] theorem System.cpus_setLink_self (s : System ι) (cpu : ι) (link : CpuLink) :
    (s.setLink cpu link).cpus cpu = link := by
  simp [setLink]

theorem System.cpus_setLink_of_ne {cpu other : ι} (ne : other ≠ cpu) (s : System ι)
    (link : CpuLink) : (s.setLink cpu link).cpus other = s.cpus other := by
  simp [setLink, ne]

def step (s : System ι) : Action ι → Option (System ι)
  | .create pid instructions =>
      if findPcb s.memory pid = none then
        some { s with
          memory := processCreate s.memory pid (some instructions)
          ready := s.ready ++ [pid]
          lastSaved := Function.update s.lastSaved pid .zero }
      else none
  | .dispatch pid cpu =>
      let link := s.cpus cpu
      if pid ∈ s.ready then
        some ({ s with ready := s.ready.erase pid }.setLink cpu
          { link with toCpu := link.toCpu ++ [pid] })
      else none
  | .execute cpu =>
      let link := s.cpus cpu
      match link.phase, link.toCpu with
      | .idle, pid :: rest =>
          some (s.setLink cpu
            { link with
              phase := .seeking pid
              toMemory := link.toMemory ++ [.contextSeek pid]
              toCpu := rest })
      | _, _ => none
  | .serve cpu =>
      let link := s.cpus cpu
      match link.toMemory with
      | [] => none
      | .contextTransfer pid context :: rest =>
          some ({ s with memory := contextTransfer s.memory pid context }.setLink cpu
            { link with toMemory := rest })
      | .contextSeek pid :: rest =>
          match contextSeek s.memory pid with
          | none => some (s.setLink cpu { link with toMemory := rest })
          | some (context, _) =>
              some (s.setLink cpu
                { link with
                  toMemory := rest
                  fromMemory := link.fromMemory ++ [(pid, context)] })
  | .receive cpu =>
      let link := s.cpus cpu
      match link.phase, link.fromMemory with
      | .seeking pid, (_, context) :: rest =>
          some (s.setLink cpu { link with phase := .executing pid context, fromMemory := rest })
      | _, _ => none
  | .save cpu context =>
      let link := s.cpus cpu
      match link.phase with
      | .executing pid _ =>
          some ({ s with lastSaved := Function.update s.lastSaved pid context }.setLink cpu
            { link with
              phase := .saved pid
              toMemory := link.toMemory ++ [ToMemory.contextTransfer pid context] })
      | _ => none
  | .notify cpu =>
      let link := s.cpus cpu
      match link.phase with
      | .saved pid =>
          some (s.setLink cpu
            { link with phase := .idle, toScheduler := link.toScheduler ++ [pid] })
      | _ => none
  | .exit cpu =>
      let link := s.cpus cpu
      match link.phase with
      | .executing _ _ => some (s.setLink cpu { link with phase := .idle })
      | _ => none
  | .hear cpu =>
      let link := s.cpus cpu
      match link.toScheduler with
      | [] => none
      | pid :: rest =>
          some ({ s with ready := s.ready ++ [pid] }.setLink cpu { link with toScheduler := rest })

/-- Nothing has been created yet. -/
def initial (memory : State) : System ι :=
  ⟨memory, [], fun _ => ⟨.idle, [], [], [], []⟩, fun _ => .zero⟩

/-! ### What is asked of the system -/

/-- The CPU has received this context, or it is on its way to it. -/
def CpuLink.Receives (link : CpuLink) (pid : UInt32) (context : CpuContext) : Prop :=
  (pid, context) ∈ link.fromMemory ∨ link.phase = .executing pid context

/-- The process whose context a message saves. -/
def ToMemory.savedPid : ToMemory → Option UInt32
  | .contextTransfer pid _ => some pid
  | .contextSeek _ => none

/-- Kernel Memory has read every context saved for the process. -/
def System.Settled (s : System ι) (pid : UInt32) : Prop :=
  ∀ cpu, ∀ m ∈ (s.cpus cpu).toMemory, m.savedPid ≠ some pid

/-- Every context that a CPU receives is the one last saved. -/
def Fresh (s : System ι) : Prop :=
  ∀ cpu pid context, (s.cpus cpu).Receives pid context → context = s.lastSaved pid

end OsModel.Contexts
