import OsModel.KernelMemory.CpuHandler
import OsModel.KernelMemory.Threads
import OsModel.KernelScheduler.SwapWaits
import OsModel.Net.Strings

/-!
The Kernel Scheduler and Kernel Memory, with the messages between them.

The scheduler is the one of `KernelScheduler.step`, of whose connection only the messages are
used here; at the other end is Kernel Memory with its `segment_create_thread`s. The handler of
Kernel Memory reads one request after another, and goes through a `SWAP_IN` process by
process. A memory stick connects in two steps: `MEMORY_UPDATE` is sent before the stick is in
`list_memory_stick`.
-/

namespace OsModel.SwapRequests

open Lib KernelMemory

/-- Where `kernel_scheduler_handler` is in the loop of `SWAP_IN`. -/
structure SwapIn where
  pids : List UInt32
  desuspendedPids : List UInt32
  deriving DecidableEq, Repr

/-- Both components. `connecting` are the sticks, with their sizes, that `memory_stick_protocol`
has not put into `list_memory_stick` yet. -/
structure System (ι : Type) where
  scheduler : KernelScheduler.State ι
  memory : State
  creates : List CreateThread
  compactionSem : ℕ
  swapIn : Option SwapIn
  connecting : List (UInt32 × UInt32)

/-- What can happen next. -/
inductive Action (ι : Type) where
  /-- The scheduler, or a CPU or an IO device, does something. -/
  | scheduler (a : KernelScheduler.Action ι)
  /-- `kernel_scheduler_handler` reads the next request. What lies behind the buffer of a read
  is `heap`. -/
  | handle (heap : List UInt8)
  /-- It goes on with a `SWAP_IN`. -/
  | swapIn
  /-- A `segment_create_thread` goes on. -/
  | create (i : ℕ)
  /-- A memory stick connects, up to `MEMORY_UPDATE`. -/
  | connectStick (id size : UInt32)
  /-- It comes into `list_memory_stick`. -/
  | addStick (i : ℕ)
  /-- A memory stick disconnects. -/
  | disconnectStick (id : UInt32)
  /-- A CPU sends `CONTEXT_TRANSFER`. -/
  | contextTransfer (pid : UInt32) (context : CpuContext)
  /-- A CPU writes to the sticks. -/
  | cpuWrite (physicalAddress size : UInt32) (data : List UInt8)

/-! ### Kernel Memory -/

/-- The bytes of a text; `Net.textOf` is the way back. -/
def bytesOf (text : String) : List UInt8 := text.toList.map fun c => c.toNat.toUInt8

/-- The handlers of `kernel_scheduler_handler` that are one critical section: the answers, and
Kernel Memory afterwards. `files` are the programs under `SCRIPTS_BASEPATH`. `none` is that
Kernel Memory dies of it, or another kind of handler. -/
def handle (files : String → Option (List String)) (heap : List UInt8) (s : State) :
    KernelScheduler.ToMemory → Option (List KernelScheduler.FromMemory × State)
  | .processCreate pid path =>
      some (if (files path).isSome then [.processCreate pid] else [],
        processCreate s pid (files path))
  | .processEnd pid => some ([], processEnd s pid)
  | .segmentDelete pid segmentId =>
      let (result, s') := segmentDelete s pid segmentId
      some ([.segmentResult pid segmentId result], s')
  | .ioMemoryRead pid physicalAddress sizeToRead =>
      match memoryRead s.devices physicalAddress sizeToRead with
      | (none, d) => some ([.ioMemoryRead pid ""], { s with devices := d })
      | (some data, d) =>
          (textAt (data ++ heap)).map fun text =>
            ([.ioMemoryRead pid (Net.textOf text)], { s with devices := d })
  | .ioMemoryWrite pid physicalAddress sizeToWrite data =>
      let (couldWrite, s') := ioMemoryWrite s physicalAddress sizeToWrite (bytesOf data)
      some ([.ioMemoryWrite pid couldWrite], s')
  | .swapOut pid =>
      (processSuspend s pid).map fun (couldSuspend, s') => ([.swapOut pid couldSuspend], s')
  | .segmentCreate .. | .swapIn _ | .compactionReady => none

/-- What a `segment_create_thread` sends when it comes to a phase. -/
def CreateThread.sends (th : CreateThread) : Phase → List KernelScheduler.FromMemory
  | .requested => [.compactionRequest]
  | .retrying => [.compactionFinished]
  | .done result => [.segmentResult th.pid th.segmentId result]
  | _ => []

/-- The second half of `memory_stick_protocol`. -/
def addStick (s : State) (id size : UInt32) : State :=
  { s with
    devices :=
      { s.devices with
        listMemoryStick := s.devices.listMemoryStick ++ [MemoryStick.fresh id size] } }

/-- `memory_stick_handler` loses its stick. -/
def disconnectStick (s : State) (stick : MemoryStick) : State :=
  { s with
    devices :=
      { s.devices with
        listMemoryStick := s.devices.listMemoryStick.eraseP fun ms => ms.id == stick.id }
    totalMemorySize :=
      if stick.size ≤ s.totalMemorySize then s.totalMemorySize - stick.size
      else s.totalMemorySize }

/-! ### Steps -/

section Steps

variable {ι : Type}

/-- Kernel Memory reads a request. -/
def System.read (s : System ι) (rest : List KernelScheduler.ToMemory) : System ι :=
  { s with scheduler.memory.toMemory := rest }

/-- Kernel Memory sends messages. -/
def System.send (s : System ι) (messages : List KernelScheduler.FromMemory) : System ι :=
  { s with
    scheduler.memory.fromMemory := s.scheduler.memory.fromMemory ++ messages }

/-- Kernel Memory has handled a request in one critical section. -/
def System.answer (s : System ι) (rest : List KernelScheduler.ToMemory)
    (handled : List KernelScheduler.FromMemory × State) : System ι :=
  { (s.read rest).send handled.1 with memory := handled.2 }

/-- The handler has tried to bring the process back. -/
def SwapIn.tried (loop : SwapIn) (pid : UInt32) (desuspended : Bool) : SwapIn where
  pids := loop.pids.tail
  desuspendedPids := if desuspended then loop.desuspendedPids ++ [pid] else loop.desuspendedPids

theorem SwapIn.mem_tried {loop : SwapIn} {pid first : UInt32} {desuspended : Bool}
    (done : pid ∈ loop.desuspendedPids) :
    pid ∈ (loop.tried first desuspended).desuspendedPids := by
  cases desuspended with
  | false => exact done
  | true => exact List.mem_append_left _ done

variable [DecidableEq ι] (config : KernelScheduler.Config)
  (files : String → Option (List String)) (s : System ι)

/-- `kernel_scheduler_handler` takes a request. -/
def handleRequest (heap : List UInt8) (request : KernelScheduler.ToMemory)
    (rest : List KernelScheduler.ToMemory) : Option (System ι) :=
  match request with
  | .segmentCreate pid segmentId segmentSize =>
      some { s.read rest with
        creates := s.creates ++ [⟨pid, segmentId, segmentSize, .starting⟩] }
  | .swapIn pids => some { s.read rest with swapIn := some ⟨pids, []⟩ }
  | .compactionReady => some { s.read rest with compactionSem := s.compactionSem + 1 }
  | .processCreate .. | .processEnd _ | .segmentDelete .. | .ioMemoryRead .. | .ioMemoryWrite ..
  | .swapOut _ => (handle files heap s.memory request).map (s.answer rest)

/-- The next step of a `SWAP_IN`: a call of `process_desuspend`, or the answer. -/
def continueSwapIn (loop : SwapIn) : System ι :=
  match loop.pids with
  | [] => { s.send [.swapIn loop.desuspendedPids] with swapIn := none }
  | pid :: _ =>
      { s with
        memory := (processDesuspend s.memory pid).2
        swapIn := some (loop.tried pid (processDesuspend s.memory pid).1) }

/-- The next step of a `segment_create_thread`, which waits for `compaction_sem` before it
compacts. -/
def runCreate (i : ℕ) (th : CreateThread) : Option (System ι) :=
  if th.phase = .requested ∧ s.compactionSem = 0 then none
  else
    (createStep s.memory th).map fun next =>
      { s.send (CreateThread.sends th next.2) with
        memory := next.1
        creates := s.creates.set i { th with phase := next.2 }
        compactionSem :=
          if th.phase = .requested then s.compactionSem - 1 else s.compactionSem }

/-- One step of the two components, of a stick or of a CPU. -/
def step : Action ι → Option (System ι)
  | .scheduler (.memory _) => none
  | .scheduler a =>
      (KernelScheduler.step config s.scheduler a).map fun scheduler => { s with scheduler }
  | .handle heap =>
      match s.swapIn, s.scheduler.memory.toMemory with
      | none, request :: rest => handleRequest files s heap request rest
      | _, _ => none
  | .swapIn => s.swapIn.map (continueSwapIn s)
  | .create i => (s.creates[i]?).bind (runCreate s i)
  | .connectStick id size =>
      let newTotal := s.memory.totalMemorySize + size
      some { s.send [.memoryUpdate newTotal] with
        memory := { s.memory with totalMemorySize := newTotal }
        connecting := s.connecting ++ [(id, size)] }
  | .addStick i =>
      (s.connecting[i]?).map fun (id, size) =>
        { s with
          memory := addStick s.memory id size
          connecting := s.connecting.eraseIdx i }
  | .disconnectStick id =>
      (s.memory.devices.listMemoryStick.find? fun ms => ms.id == id).map fun stick =>
        { s.send [.corruptedMemory] with memory := disconnectStick s.memory stick }
  | .contextTransfer pid context =>
      some { s with memory := KernelMemory.contextTransfer s.memory pid context }
  | .cpuWrite physicalAddress size data =>
      some { s with
        memory := { s.memory with
          devices := (memoryWrite s.memory.devices physicalAddress data size).2 } }

end Steps

/-- The scheduler has connected to Kernel Memory, which may have sticks already. -/
def start {ι : Type} (memory : State) (connecting : List (UInt32 × UInt32)) : System ι where
  scheduler :=
    { KernelScheduler.initial with
      memory.fromMemory :=
        if 0 < memory.totalMemorySize then [.memoryUpdate memory.totalMemorySize] else [] }
  memory := memory
  creates := []
  compactionSem := 0
  swapIn := none
  connecting := connecting

/-! ### Lost requests -/

/-- `process_desuspend` would succeed. -/
def HasRoom (s : State) (pid : UInt32) : Prop := (processDesuspend s pid).1 = true

instance (s : State) (pid : UInt32) : Decidable (HasRoom s pid) :=
  inferInstanceAs (Decidable (_ = true))

section Requests

variable {ι : Type} (s : System ι)

/-- Both connections are empty, and no handler is running. -/
def System.Quiet : Prop :=
  s.scheduler.memory.toMemory = [] ∧ s.scheduler.memory.fromMemory = [] ∧ s.swapIn = none

/-- A `SWAP_IN` of the process is under way, or a `MEMORY_UPDATE` that leads to one. -/
def System.Triggered (pid : UInt32) : Prop :=
  (∃ message ∈ s.scheduler.memory.fromMemory, message.bringsBack pid = true) ∨
    (∃ message ∈ s.scheduler.memory.toMemory, message.asksFor pid = true) ∨
    ∃ loop ∈ s.swapIn, pid ∈ loop.pids ∨ pid ∈ loop.desuspendedPids

/-- The process that the loop of `SWAP_IN` is at has had its turn. -/
def System.passed : System ι :=
  { s with swapIn := s.swapIn.map fun loop => { loop with pids := loop.pids.tail } }

instance : Decidable s.Quiet := inferInstanceAs (Decidable (_ ∧ _ ∧ _))

instance (pid : UInt32) : Decidable (s.Triggered pid) :=
  inferInstanceAs (Decidable ((∃ _ ∈ _, _) ∨ (∃ _ ∈ _, _) ∨ ∃ loop ∈ s.swapIn, _))

variable [DecidableEq ι] (config : KernelScheduler.Config)
  (files : String → Option (List String))

/-- A step after which there is room for the process, which there has not been. -/
def System.MakesRoom (a : Action ι) (pid : UInt32) : Prop :=
  ¬ HasRoom s.memory pid ∧ ∃ t ∈ step config files s a, HasRoom t.memory pid

instance (a : Action ι) (pid : UInt32) : Decidable (s.MakesRoom config files a pid) :=
  inferInstanceAs (Decidable (_ ∧ ∃ t ∈ step config files s a, _))

/-- No process begins to wait while there is room for it, and no step makes room for a process
that waits, unless a `SWAP_IN` of the process is under way, or a `MEMORY_UPDATE`. -/
def Prompt (s : System ι) : Action ι → Prop
  | .scheduler a => ∀ pid ∈ s.scheduler.listProcesses, s.scheduler.BeginsToWait a pid →
      HasRoom s.memory pid → s.Triggered pid
  | .connectStick .. => True
  | .swapIn => ∀ pid ∈ s.scheduler.listProcesses, s.scheduler.Awaits pid →
      s.MakesRoom config files .swapIn pid → s.passed.Triggered pid
  | a => ∀ pid ∈ s.scheduler.listProcesses, s.scheduler.Awaits pid →
      s.MakesRoom config files a pid → s.Triggered pid

instance (s : System ι) : (a : Action ι) → Decidable (Prompt config files s a)
  | .scheduler _ | .swapIn | .handle _ | .create _ | .addStick _ | .disconnectStick _
  | .contextTransfer .. | .cpuWrite .. => List.decidableBAll (fun _ => _ → _ → _) _
  | .connectStick .. => .isTrue trivial

end Requests

end OsModel.SwapRequests
