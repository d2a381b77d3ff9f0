import OsModel.Cpu.NextInstruction
import OsModel.KernelMemory.CpuHandler
import OsModel.KernelMemory.Termination

/-!
Instructions on their way from Kernel Memory to the CPUs.

`INSTRUCTION_FETCH` names a process and a program counter, and Kernel Memory answers with
`pcb->instructions[pc]`: it looks whether there is a process, and whether it has instructions, but
not how many. The program counter comes from the context of a CPU, or from one that has been
saved and sought since, by any CPU.

`decode` is `decode_instruction`, that is, `string_split` of the commons library.
-/

namespace OsModel.Fetches

open Lib KernelMemory Cpu

/-! ### The system -/

/-- What a CPU sends to Kernel Memory. -/
inductive ToMemory where
  | contextTransfer (pid : UInt32) (context : CpuContext)
  | contextSeek (pid : UInt32)
  | instructionFetch (pid pc : UInt32)
  deriving DecidableEq, Repr

/-- What Kernel Memory answers. The pid of a context is that of the request: it is not in the
message, and the CPU takes the context for the process that it waits for. -/
inductive FromMemory where
  | contextTransfer (pid : UInt32) (context : CpuContext) (segmentTable : List Segment)
  | instruction (line : String)

/-- A CPU and its connection to Kernel Memory. -/
structure Link where
  cpu : Threads.State
  toMemory : List ToMemory
  fromMemory : List FromMemory

/-- Kernel Memory and the CPUs. -/
structure System (ι : Type) where
  memory : State
  links : ι → Link

/-- What can happen next. -/
inductive Action (ι : Type) where
  /-- Kernel Memory does something for the Kernel Scheduler, or a stick connects. -/
  | kernelMemory (op : Op)
  /-- `PROCESS_EXECUTE` arrives at a CPU. -/
  | processExecute (cpu : ι) (pid : UInt32)
  /-- `PROCESS_EVICT` arrives at a CPU. -/
  | processEvict (cpu : ι) (reason : InterruptReason)
  /-- `kernel_scheduler_handler` of a CPU goes on. -/
  | handler (cpu : ι)
  /-- The execution thread of a CPU goes on. -/
  | thread (cpu : ι)
  /-- `cpu_handler` reads the next message of a CPU. -/
  | serve (cpu : ι)
  /-- `kernel_memory_handler` of a CPU reads the next answer. -/
  | receive (cpu : ι)
  deriving DecidableEq

namespace Link

/-- The CPU with the sticks as they are. -/
def linked (link : Link) (devices : Devices) : Threads.State :=
  { link.cpu with cpu.devices := devices }

/-- The handler has gone on: it sends `CONTEXT_SEEK` when it comes to wait for a context. -/
def afterHandler (link : Link) (cpu : Threads.State) : Link :=
  { link with
    cpu
    toMemory := link.toMemory ++
      if cpu.handler = .awaitContext then [.contextSeek cpu.currentPid] else [] }

/-- The execution thread has gone on: it has sent contexts, and it sends `INSTRUCTION_FETCH` when
it comes to wait for an instruction. -/
def afterThread (link : Link) (cpu : Threads.State) : Link :=
  { link with
    cpu := { cpu with cpu.contexts := [] }
    toMemory := link.toMemory ++
      (cpu.cpu.contexts.map fun sent => .contextTransfer sent.1 sent.2) ++
      if cpu.thread = some .awaitInstruction then
        [.instructionFetch cpu.args.pid cpu.cpu.context.pc]
      else [] }

end Link

section Steps

variable {ι : Type} [DecidableEq ι]

/-- A CPU and its connection after a step. -/
def System.setLink (s : System ι) (cpu : ι) (link : Link) : System ι :=
  { s with links := Function.update s.links cpu link }

/-- `cpu_handler` reads a message. What is behind the last instruction is no instruction: a step
that would send it is not defined. -/
def serve (s : System ι) (cpu : ι) (link : Link) : ToMemory → Option (System ι)
  | .contextTransfer pid context =>
      some ({ s with memory := contextTransfer s.memory pid context }.setLink cpu link)
  | .contextSeek pid =>
      match contextSeek s.memory pid with
      | none => some (s.setLink cpu link)
      | some (context, segmentTable) =>
          some (s.setLink cpu
            { link with
              fromMemory := link.fromMemory ++ [.contextTransfer pid context segmentTable] })
  | .instructionFetch pid pc =>
      match findPcb s.memory pid with
      | none => some (s.setLink cpu link)
      | some pcb =>
          pcb.instructions[pc.toNat]?.map fun line =>
            s.setLink cpu { link with fromMemory := link.fromMemory ++ [.instruction line] }

variable (decode : String → List String)

/-- The answer as the CPU takes it. -/
def FromMemory.arrival : FromMemory → Threads.Action
  | .contextTransfer _ context segmentTable => .contextTransfer (some (context, segmentTable))
  | .instruction line => .instruction (some (decode line))

def step (s : System ι) : Action ι → Option (System ι)
  | .kernelMemory op => (KernelMemory.step s.memory op).map fun memory => { s with memory }
  | .processExecute cpu pid =>
      let link := s.links cpu
      (Threads.step link.cpu (.processExecute pid)).map fun t =>
        s.setLink cpu { link with cpu := t }
  | .processEvict cpu reason =>
      let link := s.links cpu
      (Threads.step link.cpu (.processEvict reason)).map fun t =>
        s.setLink cpu { link with cpu := t }
  | .handler cpu =>
      let link := s.links cpu
      (Threads.step link.cpu .handler).map fun t => s.setLink cpu (link.afterHandler t)
  | .thread cpu =>
      let link := s.links cpu
      (Threads.step (link.linked s.memory.devices) .thread).map fun t =>
        { s with memory.devices := t.cpu.devices }.setLink cpu (link.afterThread t)
  | .serve cpu =>
      let link := s.links cpu
      match link.toMemory with
      | [] => none
      | message :: rest => serve s cpu { link with toMemory := rest } message
  | .receive cpu =>
      let link := s.links cpu
      match link.fromMemory with
      | [] => none
      | answer :: rest =>
          (Threads.step link.cpu (answer.arrival decode)).map fun t =>
            s.setLink cpu { link with cpu := t, fromMemory := rest }

omit [DecidableEq ι] in
/-- CPUs that have executed nothing. -/
def initial (segmentMaxSize : UInt32) (memory : State) : System ι :=
  ⟨memory, fun _ => ⟨Threads.initial segmentMaxSize memory.devices, [], []⟩⟩

end Steps

/-! ### Program counters -/

/-- The execution thread has a context that it goes on with. -/
def loaded : Option Threads.ThreadAt → Bool
  | some .head | some (.checkExit _) | some (.checkStop _) | some .awaitInstruction
  | some (.execute _) | some .checkFinishing | some .checkInterrupt | some .interrupted => true
  | _ => false

/-- The program counter of a CPU, with the process that it executes. -/
def counterOf (cpu : Threads.State) : Option (UInt32 × UInt32) :=
  if loaded cpu.thread ∧ cpu.cpu.shouldExit = false then some (cpu.args.pid, cpu.cpu.context.pc)
  else none

def ToMemory.counter : ToMemory → Option (UInt32 × UInt32)
  | .contextTransfer pid context => some (pid, context.pc)
  | .contextSeek _ => none
  | .instructionFetch pid pc => some (pid, pc)

def FromMemory.counter : FromMemory → Option (UInt32 × UInt32)
  | .contextTransfer pid context _ => some (pid, context.pc)
  | .instruction _ => none

/-- The program counters that a CPU has and that are on their way, with their processes. -/
def Link.counters (link : Link) : List (UInt32 × UInt32) :=
  (counterOf link.cpu).toList ++ link.toMemory.filterMap ToMemory.counter ++
    link.fromMemory.filterMap FromMemory.counter

/-- The program counter is that of an instruction of the process. -/
def Inside (memory : State) (counter : UInt32 × UInt32) : Prop :=
  ∀ pcb ∈ memory.listProcesses, pcb.pid = counter.1 → counter.2.toNat < pcb.instructions.length

instance (memory : State) (counter : UInt32 × UInt32) : Decidable (Inside memory counter) :=
  List.decidableBAll _ _

variable {ι : Type}

/-- An `INSTRUCTION_FETCH` that Kernel Memory serves next is that of an instruction. -/
def FetchesInside (s : System ι) : Prop :=
  ∀ cpu pid pc rest, (s.links cpu).toMemory = .instructionFetch pid pc :: rest →
    ∀ pcb, findPcb s.memory pid = some pcb → pc.toNat < pcb.instructions.length

/-- Nothing of a process with this number is left. -/
def System.Unused (s : System ι) (pid : UInt32) : Prop :=
  (∀ pcb ∈ s.memory.listProcesses, pcb.pid ≠ pid) ∧
    ∀ cpu, ∀ counter ∈ (s.links cpu).counters, counter.1 ≠ pid

/-- The words that the execution thread is to execute. -/
def decodedOf : Option Threads.ThreadAt → Option (List String)
  | some (.execute decoded) => some decoded
  | _ => none

/-- A process is created with something to execute, and with a number that is not in use; and
an instruction that does not end its process leads to one of the program. -/
def Leads (s : System ι) : Action ι → Prop
  | .kernelMemory (.processCreate pid (some instructions)) => instructions ≠ [] ∧ s.Unused pid
  | .thread cpu =>
      let t := (s.links cpu).linked s.memory.devices
      ∀ decoded ∈ decodedOf t.thread,
        Ends decoded t.cpu t.args ∨ Inside s.memory (t.args.pid, nextPc decoded t.cpu t.args)
  | _ => True

end OsModel.Fetches
