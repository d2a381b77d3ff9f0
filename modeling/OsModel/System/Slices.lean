import OsModel.Cpu.InstructionFlow
import OsModel.KernelMemory.CpuHandler
import OsModel.KernelMemory.Segments
import OsModel.Lib.Simulation

/-!
A process that is executed in slices (`instructions_cicle` in `cpu/src/manage_instructions.c`),
and what one uninterrupted run of it is.

A slice begins with the context that Kernel Memory has, and ends with an interruption or a
syscall, when the context has been sent to Kernel Memory. The CPU is the one of
`Cpu.Threads`, with every step of its two threads; Kernel Memory answers at once. The rest of
the system is in the steps `elsewhere`: it does what it likes to Kernel Memory and the sticks
(`Elsewhere`), but does not look at the context of the process.

`decode` is `decode_instruction`, that is, `string_split` of the commons library.
-/

namespace OsModel.Slices

open Lib KernelMemory Cpu

/-- What the rest of the system does to Kernel Memory: it neither reads nor writes the context
of the process, and leaves its program. -/
structure Elsewhere (pid : UInt32) where
  act : State → State
  context : ∀ s context, act (contextTransfer s pid context) = contextTransfer (act s) pid context
  program : ∀ s, (findPcb (act s) pid).map Pcb.instructions = (findPcb s pid).map Pcb.instructions

/-- `MEM_FREE` of a segment. -/
def Elsewhere.memFree (pid segmentId : UInt32) : Elsewhere pid where
  act s := (segmentDelete s pid segmentId).2
  context := by
    intro s context
    cases found : findPcb s pid with
    | none =>
        have fixed : contextTransfer s pid context = s := updatePcb_not_found found
        simp only [fixed, segmentDelete, found]
    | some pcb =>
        simp only [segmentDelete, findPcb_contextTransfer_self, found, Option.map_some]
        cases pcb.segmentTable.find? fun seg => seg.segmentId == segmentId with
        | none => rfl
        | some seg =>
            dsimp only
            cases pcb.segmentTable.findIdx? fun other => other.ptr == seg.ptr with
            | none => rfl
            | some index =>
                dsimp only
                rw [contextTransfer, contextTransfer,
                  updatePcb_updatePcb (f := fun pcb => { pcb with context }) fun _ => rfl,
                  updatePcb_updatePcb
                    (f := fun pcb => { pcb with segmentTable := pcb.segmentTable.eraseIdx index })
                    fun _ => rfl]
                rfl
  program := by
    intro s
    cases found : findPcb s pid with
    | none => simp only [segmentDelete, found]
    | some pcb =>
        simp only [segmentDelete, found]
        cases pcb.segmentTable.find? fun seg => seg.segmentId == segmentId with
        | none => rw [found]
        | some seg =>
            dsimp only
            cases pcb.segmentTable.findIdx? fun other => other.ptr == seg.ptr with
            | none => rw [found]
            | some index =>
                dsimp only
                rw [findPcb_updatePcb_self s pid
                  (f := fun pcb => { pcb with segmentTable := pcb.segmentTable.eraseIdx index })
                  fun _ => rfl, found]
                rfl

/-! ### In slices -/

/-- An instruction that has been executed, and the interruption that was pending at its end. -/
structure Executed where
  pc : UInt32
  decoded : List String
  interrupt : Option InterruptReason
  deriving DecidableEq, Repr

/-- The instruction, without the interruption. -/
def Executed.word (e : Executed) : UInt32 × List String := (e.pc, e.decoded)

/-- The CPU and Kernel Memory. `executed` is read by no step, and `exited` is that the Kernel
Scheduler has been told that the process ends. -/
structure Machine where
  cpu : Threads.State
  memory : State
  executed : List Executed
  exited : Bool

/-- What can happen next. -/
inductive Action (pid : UInt32) where
  /-- `PROCESS_EXECUTE` arrives. -/
  | processExecute
  /-- `PROCESS_EVICT` arrives. -/
  | processEvict (reason : InterruptReason)
  /-- Kernel Memory answers `CONTEXT_SEEK`. -/
  | contextTransfer
  /-- Kernel Memory answers `INSTRUCTION_FETCH`. -/
  | instruction
  /-- `kernel_scheduler_handler` goes on. -/
  | handler
  /-- The execution thread goes on, but for `execute_instruction`. -/
  | thread
  /-- `execute_instruction`. -/
  | execute
  /-- The rest of the system does something. -/
  | elsewhere (world : Elsewhere pid)

namespace Machine

/-- The CPU with the sticks as they are. -/
def linked (s : Machine) : Threads.State := { s.cpu with cpu.devices := s.memory.devices }

/-- Kernel Memory has read the contexts that it has been sent. -/
def received (memory : State) (contexts : List (UInt32 × CpuContext)) : State :=
  contexts.foldl (fun s sent => contextTransfer s sent.1 sent.2) memory

/-- The execution thread has gone on, and Kernel Memory has read what it has sent. -/
def settle (s : Machine) (cpu : Threads.State) (memory : State) : Machine :=
  { s with
    cpu := { cpu with cpu.contexts := [] }
    memory := received memory cpu.cpu.contexts }

/-- The interruption that is pending. -/
def interrupt (s : Machine) : Option InterruptReason :=
  if s.cpu.interruptPending then some s.cpu.interruptReason else none

/-- The execution thread has executed an instruction. -/
def after (s : Machine) (decoded : List String) (cpu : Threads.State) : Machine :=
  { s.settle cpu { s.memory with devices := cpu.cpu.devices } with
    executed := s.executed ++ [⟨s.cpu.cpu.context.pc, decoded, s.interrupt⟩]
    exited := cpu.cpu.shouldExit }

/-- The execution thread executes the process, with the segment table it has been sent. -/
def loaded (s : Machine) : Bool :=
  match s.cpu.thread with
  | some .awaitInstruction | some (.execute _) | some .checkInterrupt | some .interrupted => true
  | some .head | some (.checkExit _) | some (.checkStop _) | some .checkFinishing =>
      !s.cpu.cpu.shouldExit && !s.cpu.cpu.shouldStop
  | _ => false

/-- The segment table that Kernel Memory has. -/
def table (memory : State) (pid : UInt32) : Option (List Segment) :=
  (contextSeek memory pid).map Prod.snd

end Machine

open Machine

section Steps

variable (decode : String → List String) (pid : UInt32)

/-- One step of the CPU and Kernel Memory. A process that has ended has no context any more, and
the segment table of a process changes only while it is not executed. -/
def step (s : Machine) : Action pid → Option Machine
  | .processExecute => (Threads.step s.cpu (.processExecute pid)).map fun cpu => { s with cpu }
  | .processEvict reason =>
      (Threads.step s.cpu (.processEvict reason)).map fun cpu => { s with cpu }
  | .handler => (Threads.step s.cpu .handler).map fun cpu => { s with cpu }
  | .contextTransfer =>
      if s.exited then none
      else
        (contextSeek s.memory s.cpu.currentPid).bind fun answer =>
          (Threads.step s.cpu (.contextTransfer (some answer))).map fun cpu => { s with cpu }
  | .instruction =>
      (instructionFetch s.memory s.cpu.args.pid s.cpu.cpu.context.pc).bind fun instruction =>
        (Threads.step s.cpu (.instruction (some (decode instruction)))).map fun cpu =>
          { s with cpu }
  | .thread =>
      match s.cpu.thread with
      | some (.execute _) => none
      | _ => (Threads.step s.cpu .thread).map fun cpu => s.settle cpu s.memory
  | .execute =>
      match s.cpu.thread with
      | some (.execute decoded) => (Threads.step s.linked .thread).map (s.after decoded)
      | _ => none
  | .elsewhere world =>
      if s.loaded ∧ table (world.act s.memory) pid ≠ table s.memory pid then none
      else some { s with memory := world.act s.memory }

/-- A CPU that has executed nothing. -/
def initial (segmentMaxSize : UInt32) (memory : State) : Machine where
  cpu := Threads.initial segmentMaxSize memory.devices
  memory := memory
  executed := []
  exited := false

/-! ### Uninterrupted -/

/-- A process that keeps its CPU. `stopped` is that the last instruction was a syscall for which
a process in slices stops. -/
structure Uninterrupted where
  memory : State
  cpu : Execution
  executed : List (UInt32 × List String)
  stopped : Bool
  exited : Bool

/-- The process after an instruction. -/
def Uninterrupted.after (u : Uninterrupted) (decoded : List String) (cpu : Execution) :
    Uninterrupted where
  memory := { u.memory with devices := cpu.devices }
  cpu := { Threads.advance cpu with shouldExit := false, shouldStop := false, contexts := [] }
  executed := u.executed ++ [(u.cpu.context.pc, decoded)]
  stopped := cpu.shouldStop
  exited := cpu.shouldExit

/-- What can be seen of a step. -/
inductive Visible (pid : UInt32) where
  | instruction
  | elsewhere (world : Elsewhere pid)

/-- The next instruction, on the context that the last one has left; no context is sent or
received, and nothing stops the process but its end. -/
def uninterrupted (u : Uninterrupted) : Visible pid → Option Uninterrupted
  | .instruction =>
      if u.exited then none
      else
        (table u.memory pid).bind fun segmentTable =>
          (instructionFetch u.memory pid u.cpu.context.pc).bind fun instruction =>
            (executeInstruction (decode instruction) { u.cpu with devices := u.memory.devices }
                ⟨pid, segmentTable⟩).map (u.after (decode instruction))
  | .elsewhere world => some { u with memory := world.act u.memory }

/-- The process, with the context that it starts from. -/
def start (segmentMaxSize : UInt32) (memory : State) (context : CpuContext) : Uninterrupted where
  memory := memory
  cpu := { (Threads.initial segmentMaxSize memory.devices).cpu with context }
  executed := []
  stopped := false
  exited := false

end Steps

variable {pid : UInt32}

/-- The steps that an uninterrupted run has too. -/
def Action.visible : Action pid → Option (Visible pid)
  | .execute => some .instruction
  | .elsewhere world => some (.elsewhere world)
  | _ => none

/-- The registers and the program counter of the process: those of the CPU that executes it, and
otherwise, until it ends, those that Kernel Memory has. -/
def Machine.registers (s : Machine) (pid : UInt32) : Option CpuContext :=
  if s.loaded || s.exited then some s.cpu.cpu.context
  else (findPcb s.memory pid).map Pcb.context

/-- The slices have executed the same instructions, with the same registers, the same memory and
the same syscalls. -/
structure Agrees (pid : UInt32) (s : Machine) (u : Uninterrupted) : Prop where
  executed : s.executed.map Executed.word = u.executed
  exited : s.exited = u.exited
  registers : s.registers pid = some u.cpu.context
  syscalls : s.cpu.cpu.syscalls = u.cpu.syscalls
  touched : s.cpu.cpu.touched = u.cpu.touched
  memory : EqUpToContext pid s.memory u.memory

/-- No instruction is skipped or repeated: each is behind the last one, or where an instruction
that may jump has jumped to. -/
def InOrder (executed : List (UInt32 × List String)) : Prop :=
  executed.IsChain fun e next => next.1 = e.1 + 1 ∨ MayJump e.2

/-- The process is between two slices, if interruptions are pending at the ends of the
instructions that `pending` says. -/
def Between (pending : ℕ → Option InterruptReason) (u : Uninterrupted) : Prop :=
  u.executed = [] ∨ u.stopped = true ∨ u.exited = true ∨
    (pending (u.executed.length - 1)).isSome = true

/-- The rest of the system changes the segment table of the process only between two slices. -/
def Apart (pending : ℕ → Option InterruptReason) (u : Uninterrupted) : Visible pid → Prop
  | .instruction => True
  | .elsewhere world =>
      Between pending u ∨ Machine.table (world.act u.memory) pid = Machine.table u.memory pid

instance (pending : ℕ → Option InterruptReason) (u : Uninterrupted) :
    Decidable (Between pending u) := by
  unfold Between
  infer_instance

instance (pending : ℕ → Option InterruptReason) (u : Uninterrupted) :
    (b : Visible pid) → Decidable (Apart pending u b)
  | .instruction => .isTrue trivial
  | .elsewhere _ => inferInstanceAs (Decidable (_ ∨ _))

end OsModel.Slices
