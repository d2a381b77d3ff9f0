import OsModel.KernelMemory.Layout

/-!
The contexts that Kernel Memory keeps for the CPUs
(`kernel_memory/src/module_handlers/cpu_handler.c`).
-/

namespace OsModel.KernelMemory

/-- `CONTEXT_TRANSFER`: dropped when there is no such process. -/
def contextTransfer (s : State) (pid : UInt32) (context : CpuContext) : State :=
  updatePcb s pid fun pcb => { pcb with context := context }

/-- `CONTEXT_SEEK`: the context and the segment table, as `context_send_from_pcb`
sends them; `none` is no answer at all. -/
def contextSeek (s : State) (pid : UInt32) : Option (CpuContext × List Segment) :=
  (findPcb s pid).map fun pcb => (pcb.context, pcb.segmentTable.map HeapSegment.toSegment)

/-- `INSTRUCTION_FETCH`: nothing is sent without the process, and there is nothing to send
behind its last instruction. -/
def instructionFetch (s : State) (pid pc : UInt32) : Option String :=
  (findPcb s pid).bind fun pcb => pcb.instructions[pc.toNat]?

section Contexts

variable {s : State} {pid other : UInt32} {context : CpuContext}

theorem findPcb_contextTransfer_self :
    findPcb (contextTransfer s pid context) pid =
      (findPcb s pid).map fun pcb => { pcb with context := context } :=
  findPcb_updatePcb_self s pid fun _ => rfl

/-- A context saved for one process is not seen by another. -/
theorem findPcb_contextTransfer_of_ne (ne : other ≠ pid) :
    findPcb (contextTransfer s pid context) other = findPcb s other :=
  findPcb_updatePcb_other (fun _ => rfl) ne.symm

/-- Two writes to the entry of a process. -/
theorem updatePcb_updatePcb {f : Pcb → Pcb} (keeps : ∀ pcb, (f pcb).pid = pcb.pid) (s : State)
    (pid : UInt32) (g : Pcb → Pcb) :
    updatePcb (updatePcb s pid f) pid g = updatePcb s pid (g ∘ f) := by
  unfold updatePcb
  rw [updateFirst_updateFirst fun pcb => by rw [keeps]]

/-- The last context that is saved counts. -/
theorem contextTransfer_contextTransfer (s : State) (pid : UInt32) (first context : CpuContext) :
    contextTransfer (contextTransfer s pid first) pid context = contextTransfer s pid context :=
  updatePcb_updatePcb (f := fun pcb => { pcb with context := first }) (fun _ => rfl) s pid _

/-- Saving the context that is saved changes nothing. -/
theorem contextTransfer_eq_self {pcb : Pcb} (found : findPcb s pid = some pcb) :
    contextTransfer s pid pcb.context = s := by
  unfold contextTransfer updatePcb
  rw [updateFirst_eq_self found rfl]

/-! ### What the rest of the system sees -/

/-- The states differ at most in the saved context of the process. -/
def EqUpToContext (pid : UInt32) (s t : State) : Prop :=
  ∀ context, contextTransfer s pid context = contextTransfer t pid context

namespace EqUpToContext

variable {t : State}

theorem refl (s : State) : EqUpToContext pid s s := fun _ => rfl

theorem transfer (same : EqUpToContext pid s t) (context : CpuContext) :
    EqUpToContext pid (contextTransfer s pid context) t := by
  intro other
  rw [contextTransfer_contextTransfer]
  exact same other

theorem devices (same : EqUpToContext pid s t) : s.devices = t.devices := by
  have transferred := congrArg State.devices (same .zero)
  exact transferred

theorem setDevices (same : EqUpToContext pid s t) (d : Devices) :
    EqUpToContext pid { s with devices := d } { t with devices := d } := by
  intro context
  exact congrArg (fun u : State => { u with devices := d }) (same context)

/-- What is not the context is the same. -/
theorem findPcb_map {β : Type} {f : Pcb → β} (same : EqUpToContext pid s t)
    (apart : ∀ pcb context, f { pcb with context := context } = f pcb) :
    (findPcb s pid).map f = (findPcb t pid).map f := by
  have transferred := congrArg (fun u => (findPcb u pid).map f) (same .zero)
  simpa [findPcb_contextTransfer_self, Function.comp_def, apart] using transferred

theorem instructionFetch_eq (same : EqUpToContext pid s t) (pc : UInt32) :
    instructionFetch s pid pc = instructionFetch t pid pc := by
  have program := same.findPcb_map (f := Pcb.instructions) fun _ _ => rfl
  have fetched := congrArg (Option.bind · fun program => program[pc.toNat]?) program
  simpa [instructionFetch, Option.bind_map, Function.comp_def] using fetched

theorem contextSeek_table (same : EqUpToContext pid s t) :
    (contextSeek s pid).map Prod.snd = (contextSeek t pid).map Prod.snd := by
  unfold contextSeek
  rw [Option.map_map, Option.map_map]
  exact same.findPcb_map fun _ _ => rfl

end EqUpToContext

end Contexts

end OsModel.KernelMemory
