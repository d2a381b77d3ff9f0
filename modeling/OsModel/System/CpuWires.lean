import OsModel.System.Wires

/-!
The connection of the kernel scheduler and a CPU as bytes: `cpu_handler` at one end, and
`process_handler` at the other.

A `FromCpu` is a message with all its fields; what the scheduler does with one depends on the
`ToScheduler` that is left of it (`FromCpu.toScheduler`).
-/

namespace OsModel.Wires

open Lib Net
open KernelScheduler (ToCpu Syscall ToScheduler)
open SwapRequests (bytesOf)

/-! ### From the scheduler to a CPU -/

/-- A constant of `t_interrupt_reason`, which goes out as an `int`. -/
def reasonField (reason : InterruptReason) : Field := .uint32 (UInt32.ofNat reason.ctorIdx)

/-- The constant with a number; `none` is a number that no constant has. -/
def reasonOf (value : UInt32) : Option InterruptReason :=
  if value < 9 then some (InterruptReason.ofNat value.toNat) else none

/-- The package of a message: `send_pid_to_execute` and `send_process_evict`. -/
def toCpuPackage : ToCpu → Package
  | .processExecute pid => packageOf .processExecute [.uint32 pid]
  | .processEvict reason => packageOf .processEvict [reasonField reason]

/-- The cases of `process_handler` in a CPU. -/
def processHandler : OpCode → Case ToCpu
  | .processExecute => .fields [.uint32] fun
      | [.uint32 pid] => some (.processExecute pid)
      | _ => none
  | .processEvict => .fields [.uint32] fun
      | [.uint32 reason] => (reasonOf reason).map .processEvict
      | _ => none
  | _ => .default

theorem processHandler_receives (message : ToCpu) :
    ∃ bytes, packageSend (toCpuPackage message) = some bytes ∧
      Consumes (switch processHandler) bytes message := by
  cases message with
  | processExecute pid =>
      have fits : Fits (toCpuPackage (.processExecute pid)) := by
        rw [Fits, toCpuPackage, packageOf_stream]
        simp [Field.encode, Field.bytes, maxTransfer]
      exact fields_received fits rfl rfl rfl
  | processEvict reason =>
      have fits : Fits (toCpuPackage (.processEvict reason)) := by
        rw [Fits, toCpuPackage, packageOf_stream]
        simp [reasonField, Field.encode, Field.bytes, maxTransfer]
      apply fields_received fits rfl rfl
      cases reason <;> rfl

/-- The connection from the scheduler to a CPU. -/
def toCpu : Codec ToCpu where
  send message := packageSend (toCpuPackage message)
  receive := switch processHandler
  fits _ := True
  sent message _ := processHandler_receives message
  patient := switch_patient _
  waits := rfl

/-! ### From a CPU to the scheduler -/

/-- What a CPU sends to the scheduler, with all its fields. -/
inductive FromCpu where
  | processCreate (pid priority : UInt32) (path : String)
  | syscall (pid : UInt32) (syscall : Syscall)
  | processInterrupted (pid : UInt32) (reason : InterruptReason)
  | confirmation (pid : UInt32)
  deriving DecidableEq, Repr

/-- What the scheduler goes by: it only logs who asks for a process and who confirms, and all
of `PROCESS_INTERRUPTED`. -/
def FromCpu.toScheduler : FromCpu → Option ToScheduler
  | .processCreate _ priority path => some (.processCreate priority path)
  | .syscall pid request => some (.syscall pid request)
  | .processInterrupted _ _ => none
  | .confirmation _ => some .confirmation

/-- The operation code of a syscall, and its fields behind the pid: the `instruction_`
functions, and `mmu_translate`. -/
def syscallPackage (pid : UInt32) : Syscall → Option Package
  | .processEnd => packageOf .processEnd [.uint32 pid]
  | .segmentationFault => packageOf .segmentationFault [.uint32 pid]
  | .mutexCreate name => do
      let name ← stringField (bytesOf name)
      pure (packageOf .mutexCreate [.uint32 pid, name])
  | .mutexLock name => do
      let name ← stringField (bytesOf name)
      pure (packageOf .mutexLock [.uint32 pid, name])
  | .mutexUnlock name => do
      let name ← stringField (bytesOf name)
      pure (packageOf .mutexUnlock [.uint32 pid, name])
  | .sleep time => packageOf .sleep [.uint32 pid, .uint32 time]
  | .stdin physicalAddress size =>
      packageOf .stdin [.uint32 pid, .uint32 physicalAddress, .uint32 size]
  | .stdout physicalAddress size =>
      packageOf .stdout [.uint32 pid, .uint32 physicalAddress, .uint32 size]
  | .memAlloc segmentId size => packageOf .memAlloc [.uint32 pid, .uint32 segmentId, .uint32 size]
  | .memFree segmentId => packageOf .memFree [.uint32 pid, .uint32 segmentId]

/-- The package of a message: `instruction_init_proc`, the syscalls, `send_process_interrupted`
and `send_confirmation`. -/
def fromCpuPackage : FromCpu → Option Package
  | .processCreate pid priority path => do
      let path ← stringField (bytesOf path)
      pure (packageOf .processCreate [.uint32 pid, .uint32 priority, path])
  | .syscall pid syscall => syscallPackage pid syscall
  | .processInterrupted pid reason =>
      packageOf .processInterrupted [.uint32 pid, reasonField reason]
  | .confirmation pid => packageOf .confirmation [.uint32 pid]

/-- The names that a syscall has. -/
def syscallTexts : Syscall → List String
  | .mutexCreate name | .mutexLock name | .mutexUnlock name => [name]
  | _ => []

/-- The texts in a message. -/
def fromCpuTexts : FromCpu → List String
  | .processCreate _ _ path => [path]
  | .syscall _ syscall => syscallTexts syscall
  | _ => []

/-- `uint32_decode`, for a syscall without operands. -/
def uint32Decode (syscall : Syscall) : Case FromCpu :=
  .fields [.uint32] fun
    | [.uint32 pid] => some (.syscall pid syscall)
    | _ => none

def receivePidAndName (syscall : String → Syscall) : Case FromCpu :=
  .fields [.uint32, .string] fun
    | [.uint32 pid, .string name] => (textIn name).map fun name => .syscall pid (syscall name)
    | _ => none

/-- `receive_instruction_sleep` and `receive_instruction_mem_free`. -/
def receiveInstructionOne (syscall : UInt32 → Syscall) : Case FromCpu :=
  .fields [.uint32, .uint32] fun
    | [.uint32 pid, .uint32 operand] => some (.syscall pid (syscall operand))
    | _ => none

/-- `receive_instruction_std` and `receive_instruction_mem_alloc`. -/
def receiveInstructionTwo (syscall : UInt32 → UInt32 → Syscall) : Case FromCpu :=
  .fields [.uint32, .uint32, .uint32] fun
    | [.uint32 pid, .uint32 first, .uint32 second] => some (.syscall pid (syscall first second))
    | _ => none

/-- The cases of `cpu_handler` in the scheduler. -/
def cpuHandler : OpCode → Case FromCpu
  | .processCreate => .fields [.uint32, .uint32, .string] fun
      | [.uint32 pid, .uint32 priority, .string path] =>
          (textIn path).map (.processCreate pid priority)
      | _ => none
  | .processEnd => uint32Decode .processEnd
  | .mutexCreate => receivePidAndName .mutexCreate
  | .mutexLock => receivePidAndName .mutexLock
  | .mutexUnlock => receivePidAndName .mutexUnlock
  | .sleep => receiveInstructionOne .sleep
  | .stdin => receiveInstructionTwo .stdin
  | .stdout => receiveInstructionTwo .stdout
  | .processInterrupted => .fields [.uint32, .uint32] fun
      | [.uint32 pid, .uint32 reason] => (reasonOf reason).map (.processInterrupted pid)
      | _ => none
  | .memAlloc => receiveInstructionTwo .memAlloc
  | .memFree => receiveInstructionOne .memFree
  | .segmentationFault => uint32Decode .segmentationFault
  | .confirmation => .fields [.uint32] fun
      | [.uint32 pid] => some (.confirmation pid)
      | _ => none
  | _ => .default

/-- The texts of a message are plain, and one `send` takes its package. -/
def FromCpuFits (message : FromCpu) : Prop :=
  (∀ text ∈ fromCpuTexts message, Plain text) ∧
    ∀ package, fromCpuPackage message = some package → Fits package

/-- The syscalls on a mutex are alike but for their operation code. -/
theorem pidAndName_received {op : OpCode} {syscall : String → Syscall} {pid : UInt32}
    {name : String} (text : Plain name) (fits : Fits (packageOf op [.uint32 pid, textField name]))
    (case : cpuHandler op = receivePidAndName syscall) :
    ∃ bytes, packageSend (packageOf op [.uint32 pid, textField name]) = some bytes ∧
      Consumes (switch cpuHandler) bytes (.syscall pid (syscall name)) := by
  apply fields_received fits case rfl
  simp [textField, textIn_textField text]

theorem syscall_receives {pid : UInt32} {syscall : Syscall}
    (fits : FromCpuFits (.syscall pid syscall)) :
    ∃ bytes, (syscallPackage pid syscall).bind packageSend = some bytes ∧
      Consumes (switch cpuHandler) bytes (.syscall pid syscall) := by
  obtain ⟨plain, small⟩ := fits
  cases syscall with
  | mutexCreate name | mutexLock name | mutexUnlock name =>
      have text := plain name List.mem_cons_self
      simp only [fromCpuPackage, syscallPackage, stringField_bytesOf text] at small ⊢
      exact pidAndName_received text (small _ rfl) rfl
  | processEnd | segmentationFault | sleep | stdin | stdout | memAlloc | memFree =>
      exact fields_received (small _ rfl) rfl rfl rfl

theorem cpuHandler_receives {message : FromCpu} (fits : FromCpuFits message) :
    ∃ bytes, (fromCpuPackage message).bind packageSend = some bytes ∧
      Consumes (switch cpuHandler) bytes message := by
  obtain ⟨plain, small⟩ := fits
  cases message with
  | processCreate pid priority path =>
      have text := plain path List.mem_cons_self
      have package : fromCpuPackage (.processCreate pid priority path) =
          some (packageOf .processCreate [.uint32 pid, .uint32 priority, textField path]) := by
        simp [fromCpuPackage, stringField_bytesOf text]
      rw [package]
      apply fields_received (small _ package) rfl rfl
      simp [textField, textIn_textField text]
  | syscall pid syscall => exact syscall_receives ⟨plain, small⟩
  | processInterrupted pid reason =>
      apply fields_received (small _ rfl) rfl rfl
      cases reason <;> rfl
  | confirmation pid => exact fields_received (small _ rfl) rfl rfl rfl

/-- The connection from a CPU to the scheduler. -/
def fromCpu : Codec FromCpu where
  send message := (fromCpuPackage message).bind packageSend
  receive := switch cpuHandler
  fits := FromCpuFits
  sent _ := cpuHandler_receives
  patient := switch_patient _
  waits := rfl

/-- **The connection of the scheduler and a CPU is a queue of messages**, both ways. -/
theorem scheduler_cpu_queues : toCpu.IsQueue ∧ fromCpu.IsQueue :=
  ⟨toCpu.isQueue, fromCpu.isQueue⟩

end OsModel.Wires
