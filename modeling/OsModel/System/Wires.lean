import OsModel.Lib.Channel
import OsModel.Net.Strings
import OsModel.System.SwapRequests

/-!
The connections of the kernel scheduler as bytes (`package_send` at one end, and the `switch`
over `operation_receive` at the other): what the handlers of a module make of what the other
module sends.

Each connection is a `Codec`: its packages are built field by field as their senders do it, and
received by the case of their operation code. So what the models of the modules take for a
queue of messages is one, however the bytes get across.
-/

namespace OsModel.Wires

open Lib Net
open KernelScheduler (ToMemory FromMemory)
open SwapRequests (bytesOf)

/-! ### Packages by their operation code -/

/-- The constant with a number. -/
def opCodeOf (n : ℕ) : Option OpCode := if n < 40 then some (OpCode.ofNat n) else none

theorem opCodeOf_code (op : OpCode) : opCodeOf op.code = some op := by
  cases op <;> rfl

/-- A case reads a message from its buffer, or a list of numbers to make one of; or it is the
`default`, which reads nothing. -/
inductive Case (M : Type) where
  | reader (read : Reader M)
  | list (build : List UInt32 → M)
  | default

/-- A case that reads fields of some kinds, and makes a message of them. -/
def Case.fields {M : Type} (kinds : List Kind) (build : List Field → Option M) : Case M :=
  .reader do
    let values ← kinds.mapM Kind.deserialize
    (build values : Option M)

def Case.receive {M : Type} : Case M → Socket M
  | .reader read => do
      let (_, buffer) ← bufferReceive
      let (m, _) ← (read.from (buffer.getD []) 0 : Option _)
      pure m
  | .list build => do
      let numbers ← uint32ListDecode
      pure (build numbers.value)
  | .default => failure

/-- `operation_receive`, and the case of what it gives. -/
def switch {M : Type} (cases : OpCode → Case M) : Socket M := do
  let codOp ← operationReceive
  match opCodeOf codOp with
  | some op => (cases op).receive
  | none => failure

section Rules

variable {M : Type} {op : OpCode} {fields : List Field} {list : List UInt32} {m : M}

/-- The size of a buffer, and the buffer. -/
def body (package : Package) : List UInt8 := intBytes package.stream.length ++ package.stream

theorem switch_consumes {cases : OpCode → Case M}
    (case : Consumes (cases op).receive (body (packageOf op fields)) m) :
    Consumes (switch cases) (packageSerialize (packageOf op fields)) m := by
  rw [packageSerialize, packageOf_opCode, List.append_assoc]
  apply (operationReceive_consumes op).bind
  rw [opCodeOf_code]
  exact case

theorem receiveReader_consumes {read : Reader M} (fits : Fits (packageOf op fields))
    (reads : Reads read (packageOf op fields).stream m) :
    Consumes (Case.reader read).receive (body (packageOf op fields)) m := by
  have one : (packageOf op fields).stream.length ≤ maxTransfer := by
    unfold Fits at fits
    omega
  obtain ⟨buffer, shape, contents⟩ := received_spec (packageOf op fields).stream
  rw [body, ← List.append_nil (intBytes _ ++ _)]
  apply (bufferReceive_consumes one).bind
  rw [shape]
  have taken : read.from (buffer.getD []) 0 = some (m, (packageOf op fields).stream.length) := by
    rw [contents]
    exact reads.whole
  exact (Consumes.lift taken).bind_pure

/-- The fields of a package are read back, and the message is made of them. -/
theorem fields_reads {build : List Field → Option M} (fits : Fits (packageOf op fields))
    (built : build fields = some m) :
    Reads (do
      let values ← (fields.map Field.kind).mapM Kind.deserialize
      (build values : Option M)) (packageOf op fields).stream m := by
  have each : Reads ((fields.map Field.kind).mapM Kind.deserialize) (fields.flatMap Field.encode)
      (fields.map id) := by
    apply Reads.mapM
    intro field mem
    exact Kind.deserialize_reads field (small_of_fits fits field mem)
  rw [List.map_id] at each
  rw [packageOf_stream, ← List.append_nil (fields.flatMap Field.encode)]
  exact each.bind (Reads.lift built)

/-- The receiver of a part of a package waits for the rest of it. -/
theorem switch_truncated {cases : OpCode → Case M} {read : Reader M}
    (case : cases op = .reader read) (long : ¬ Fits (packageOf op fields))
    (small : (packageOf op fields).stream.length < 2 ^ 31) :
    switch cases ((packageSerialize (packageOf op fields)).take maxTransfer) = none := by
  rw [take_packageSerialize, packageOf_opCode]
  simp only [switch, bind, StateT.bind, operationReceive_consumes op _, Option.bind_some,
    opCodeOf_code, case, Case.receive, bufferReceive_part small (length_part long),
    Option.bind_none]

theorem receiveList_consumes {build : List UInt32 → M} (fits : Fits (uint32ListSend op list)) :
    Consumes (Case.list build).receive (body (uint32ListSend op list)) (build list) := by
  have stream : (uint32ListSend op list).stream =
      list.flatMap fun value => (Field.uint32 value).encode := by
    rw [uint32ListSend, packageOf_stream, List.flatMap_map]
  have one : (list.flatMap fun value => (Field.uint32 value).encode).length ≤ maxTransfer := by
    rw [Fits, stream] at fits
    omega
  have decoded := listDecode_consumes
    (fun value _ => uint32Deserialize_reads value) (fun value _ => encode_ne_nil _) one
  rw [body, stream]
  exact decoded.bind_pure

/-- A package that fits goes out, and is received by the case of its operation code. -/
theorem reader_received {cases : OpCode → Case M} {read : Reader M}
    (fits : Fits (packageOf op fields)) (case : cases op = .reader read)
    (reads : Reads read (packageOf op fields).stream m) :
    ∃ bytes, packageSend (packageOf op fields) = some bytes ∧
      Consumes (switch cases) bytes m := by
  refine ⟨_, packageSend_of_fits fits, ?_⟩
  apply switch_consumes
  rw [case]
  exact receiveReader_consumes fits reads

theorem fields_received {cases : OpCode → Case M} {kinds : List Kind}
    {build : List Field → Option M} (fits : Fits (packageOf op fields))
    (case : cases op = .fields kinds build) (expected : fields.map Field.kind = kinds)
    (built : build fields = some m) :
    ∃ bytes, packageSend (packageOf op fields) = some bytes ∧
      Consumes (switch cases) bytes m := by
  subst expected
  exact reader_received fits case (fields_reads fits built)

theorem list_received {cases : OpCode → Case M} {build : List UInt32 → M}
    (fits : Fits (uint32ListSend op list)) (case : cases op = .list build) :
    ∃ bytes, packageSend (uint32ListSend op list) = some bytes ∧
      Consumes (switch cases) bytes (build list) := by
  refine ⟨_, packageSend_of_fits fits, ?_⟩
  apply switch_consumes
  rw [case]
  exact receiveList_consumes fits

/-! Receiving goes on the same way when more bytes come. -/

theorem recv_patient (n : ℕ) : Patient (recv n) := by
  intro stream bytes rest taken more
  unfold recv at taken ⊢
  split at taken
  · rename_i enough
    obtain ⟨rfl, rfl⟩ : stream.take n = bytes ∧ stream.drop n = rest := by simpa using taken
    rw [if_pos (by rw [List.length_append]; omega), List.take_append_of_le_length enough.2,
      List.drop_append_of_le_length enough.2]
  · cases taken

theorem operationReceive_patient : Patient operationReceive := by
  apply (recv_patient 4).bind
  intro codOp
  exact .pure _

theorem bufferReceive_patient : Patient bufferReceive := by
  apply (recv_patient 4).bind
  intro bytes
  apply (Patient.lift _).bind
  intro size
  apply Patient.ite
  · exact .pure _
  · apply (recv_patient size).bind
    intro buffer
    exact .pure _

theorem uint32ListDecode_patient : Patient uint32ListDecode := by
  apply bufferReceive_patient.bind
  intro received
  apply Patient.ite
  · exact .pure _
  · apply (Patient.lift _).bind
    intro list
    exact .pure _

theorem Case.receive_patient (case : Case M) : Patient case.receive := by
  cases case with
  | reader read =>
      apply bufferReceive_patient.bind
      intro received
      apply (Patient.lift _).bind
      intro result
      exact .pure _
  | list build =>
      apply uint32ListDecode_patient.bind
      intro list
      exact .pure _
  | default => exact .failure

theorem switch_patient (cases : OpCode → Case M) : Patient (switch cases) := by
  apply operationReceive_patient.bind
  intro codOp
  split
  · exact Case.receive_patient _
  · exact .failure

end Rules

/-! ### Texts -/

/-- A text as C has one: no character is the end, and its size is an `int`. -/
def Plain (text : String) : Prop :=
  (∀ c ∈ text.toList, 0 < c.toNat ∧ c.toNat < 256) ∧ text.toList.length + 1 < 2 ^ 31

instance (text : String) : Decidable (Plain text) := by
  unfold Plain
  infer_instance

theorem zero_not_mem_bytesOf {text : String} (plain : Plain text) : 0 ∉ bytesOf text := by
  intro mem
  obtain ⟨c, among, zero⟩ := List.mem_map.mp mem
  obtain ⟨low, high⟩ := plain.1 c among
  have value := congrArg UInt8.toNat zero
  rw [UInt8.toNat_ofNat', Nat.mod_eq_of_lt high] at value
  exact absurd value (by simpa using low.ne')

theorem textOf_bytesOf {text : String} (plain : Plain text) : textOf (bytesOf text) = text := by
  have each : ∀ c ∈ text.toList, Char.ofNat c.toNat.toUInt8.toNat = c := by
    intro c among
    have high := (plain.1 c among).2
    rw [UInt8.toNat_ofNat', Nat.mod_eq_of_lt high, Char.ofNat_toNat]
  have back : (bytesOf text).map (fun byte => Char.ofNat byte.toNat) = text.toList := by
    rw [bytesOf, List.map_map]
    exact (List.map_congr_left (g := id) each).trans (List.map_id _)
  rw [textOf, back, String.ofList_toList]

theorem length_bytesOf (text : String) : (bytesOf text).length = text.toList.length :=
  List.length_map _

/-- What `package_string_add` makes of a text. -/
def textField (text : String) : Field := .string (bytesOf text ++ [0])

theorem stringField_bytesOf {text : String} (plain : Plain text) :
    stringField (bytesOf text) = some (textField text) := by
  apply stringField_of_short
  rw [length_bytesOf]
  exact plain.2

/-- The text in a block of memory. -/
def textIn (block : List UInt8) : Option String := (textAt block).map textOf

theorem textIn_textField {text : String} (plain : Plain text) :
    textIn (bytesOf text ++ [0]) = some text := by
  rw [textIn, textAt_withEnd (zero_not_mem_bytesOf plain), Option.map_some, textOf_bytesOf plain]

/-! ### From the scheduler to Kernel Memory -/

/-- The package of a message: `send_process_create_info`, `uint32_send_with_op_code`,
`mem_alloc_syscall_manager`, `mem_free_syscall_manager`, `send_memory_read`,
`send_memory_write`, `request_swap_in`, and `compaction_requested_thread`. -/
def toMemoryPackage : ToMemory → Option Package
  | .processCreate pid path => do
      let path ← stringField (bytesOf path)
      pure (packageOf .processCreate [.uint32 pid, path])
  | .processEnd pid => packageOf .processEnd [.uint32 pid]
  | .segmentCreate pid segmentId segmentSize =>
      packageOf .segmentCreate [.uint32 pid, .uint32 segmentId, .uint32 segmentSize]
  | .segmentDelete pid segmentId => packageOf .segmentDelete [.uint32 pid, .uint32 segmentId]
  | .ioMemoryRead pid physicalAddress size =>
      packageOf .ioMemoryRead [.uint32 pid, .uint32 physicalAddress, .uint32 size]
  | .ioMemoryWrite pid physicalAddress size data => do
      let data ← stringField (bytesOf data)
      pure (packageOf .ioMemoryWrite [.uint32 pid, .uint32 physicalAddress, .uint32 size, data])
  | .swapOut pid => packageOf .swapOut [.uint32 pid]
  | .swapIn pids => uint32ListSend .swapIn pids
  | .compactionReady => packageOf .compactionReady []

/-- The texts in a message. -/
def toMemoryTexts : ToMemory → List String
  | .processCreate _ path => [path]
  | .ioMemoryWrite _ _ _ data => [data]
  | _ => []

/-- The cases of `kernel_scheduler_handler` in Kernel Memory. -/
def kernelSchedulerHandler : OpCode → Case ToMemory
  | .processCreate => .fields [.uint32, .string] fun
      | [.uint32 pid, .string path] => (textIn path).map (.processCreate pid)
      | _ => none
  | .processEnd => .fields [.uint32] fun
      | [.uint32 pid] => some (.processEnd pid)
      | _ => none
  | .segmentCreate => .fields [.uint32, .uint32, .uint32] fun
      | [.uint32 pid, .uint32 segmentId, .uint32 segmentSize] =>
          some (.segmentCreate pid segmentId segmentSize)
      | _ => none
  | .segmentDelete => .fields [.uint32, .uint32] fun
      | [.uint32 pid, .uint32 segmentId] => some (.segmentDelete pid segmentId)
      | _ => none
  | .compactionReady => .fields [] fun
      | [] => some .compactionReady
      | _ => none
  | .ioMemoryRead => .fields [.uint32, .uint32, .uint32] fun
      | [.uint32 pid, .uint32 physicalAddress, .uint32 size] =>
          some (.ioMemoryRead pid physicalAddress size)
      | _ => none
  | .ioMemoryWrite => .fields [.uint32, .uint32, .uint32, .string] fun
      | [.uint32 pid, .uint32 physicalAddress, .uint32 size, .string data] =>
          (textIn data).map (.ioMemoryWrite pid physicalAddress size)
      | _ => none
  | .swapOut => .fields [.uint32] fun
      | [.uint32 pid] => some (.swapOut pid)
      | _ => none
  | .swapIn => .list .swapIn
  | _ => .default

/-- The texts of a message are plain, and one `send` takes its package. -/
def ToMemoryFits (message : ToMemory) : Prop :=
  (∀ text ∈ toMemoryTexts message, Plain text) ∧
    ∀ package, toMemoryPackage message = some package → Fits package

theorem kernelSchedulerHandler_receives {message : ToMemory} (fits : ToMemoryFits message) :
    ∃ bytes, (toMemoryPackage message).bind packageSend = some bytes ∧
      Consumes (switch kernelSchedulerHandler) bytes message := by
  obtain ⟨plain, small⟩ := fits
  cases message with
  | processCreate pid path =>
      have text := plain path List.mem_cons_self
      have package : toMemoryPackage (.processCreate pid path) =
          some (packageOf .processCreate [.uint32 pid, textField path]) := by
        simp [toMemoryPackage, stringField_bytesOf text]
      rw [package]
      apply fields_received (small _ package) rfl rfl
      simp [textField, textIn_textField text]
  | ioMemoryWrite pid physicalAddress size data =>
      have text := plain data List.mem_cons_self
      have package : toMemoryPackage (.ioMemoryWrite pid physicalAddress size data) =
          some (packageOf .ioMemoryWrite
            [.uint32 pid, .uint32 physicalAddress, .uint32 size, textField data]) := by
        simp [toMemoryPackage, stringField_bytesOf text]
      rw [package]
      apply fields_received (small _ package) rfl rfl
      simp [textField, textIn_textField text]
  | swapIn pids => exact list_received (small _ rfl) rfl
  | processEnd | segmentCreate | segmentDelete | ioMemoryRead | swapOut | compactionReady =>
      exact fields_received (small _ rfl) rfl rfl rfl

/-- The connection from the scheduler to Kernel Memory. -/
def toMemory : Codec ToMemory where
  send message := (toMemoryPackage message).bind packageSend
  receive := switch kernelSchedulerHandler
  fits := ToMemoryFits
  sent _ := kernelSchedulerHandler_receives
  patient := switch_patient _
  waits := rfl

/-! ### From Kernel Memory to the scheduler -/

/-- A constant of `t_segment_result`, which goes out as an `int`. -/
def segmentResultField (result : SegmentResult) : Field := .uint32 (UInt32.ofNat result.ctorIdx)

/-- `segment_result_deserialize`; `none` is a number that no constant has. -/
def segmentResultOf (value : UInt32) : Option SegmentResult :=
  if value < 3 then some (SegmentResult.ofNat value.toNat) else none

/-- The package of a message: `uint32_send_with_op_code`, `send_segment_result`, the cases of
`kernel_scheduler_handler` that reply, `send_memory_update`, `request_and_compact`, and
`memory_stick_handler`. -/
def fromMemoryPackage : FromMemory → Option Package
  | .processCreate pid => packageOf .processCreate [.uint32 pid]
  | .segmentResult pid segmentId result =>
      packageOf .segmentResult [.uint32 pid, .uint32 segmentId, segmentResultField result]
  | .ioMemoryRead pid value => do
      let value ← stringField (bytesOf value)
      pure (packageOf .ioMemoryRead [.uint32 pid, value])
  | .ioMemoryWrite pid couldWrite => packageOf .ioMemoryWrite [.uint32 pid, .bool couldWrite]
  | .swapOut pid couldSuspend => packageOf .swapOut [.uint32 pid, .bool couldSuspend]
  | .swapIn pids => uint32ListSend .swapIn pids
  | .memoryUpdate newTotal => packageOf .memoryUpdate [.uint32 newTotal]
  | .compactionRequest => packageOf .compactionRequest []
  | .compactionFinished => packageOf .compactionFinished []
  | .corruptedMemory => packageOf .corruptedMemory []

/-- The texts in a message. -/
def fromMemoryTexts : FromMemory → List String
  | .ioMemoryRead _ value => [value]
  | _ => []

/-- The cases of `kernel_memory_handler` in the scheduler. -/
def kernelMemoryHandler : OpCode → Case FromMemory
  | .processCreate => .fields [.uint32] fun
      | [.uint32 pid] => some (.processCreate pid)
      | _ => none
  | .compactionRequest => .fields [] fun
      | [] => some .compactionRequest
      | _ => none
  | .compactionFinished => .fields [] fun
      | [] => some .compactionFinished
      | _ => none
  | .corruptedMemory => .fields [] fun
      | [] => some .corruptedMemory
      | _ => none
  | .memoryUpdate => .fields [.uint32] fun
      | [.uint32 newSize] => some (.memoryUpdate newSize)
      | _ => none
  | .segmentResult => .fields [.uint32, .uint32, .uint32] fun
      | [.uint32 pid, .uint32 segmentId, .uint32 result] =>
          (segmentResultOf result).map (.segmentResult pid segmentId)
      | _ => none
  | .ioMemoryRead => .fields [.uint32, .string] fun
      | [.uint32 pid, .string value] => (textIn value).map (.ioMemoryRead pid)
      | _ => none
  | .ioMemoryWrite => .fields [.uint32, .bool] fun
      | [.uint32 pid, .bool writeSuccesful] => some (.ioMemoryWrite pid writeSuccesful)
      | _ => none
  | .swapIn => .list .swapIn
  | .swapOut => .fields [.uint32, .bool] fun
      | [.uint32 pid, .bool ok] => some (.swapOut pid ok)
      | _ => none
  | _ => .default

/-- The texts of a message are plain, and one `send` takes its package. -/
def FromMemoryFits (message : FromMemory) : Prop :=
  (∀ text ∈ fromMemoryTexts message, Plain text) ∧
    ∀ package, fromMemoryPackage message = some package → Fits package

theorem kernelMemoryHandler_receives {message : FromMemory} (fits : FromMemoryFits message) :
    ∃ bytes, (fromMemoryPackage message).bind packageSend = some bytes ∧
      Consumes (switch kernelMemoryHandler) bytes message := by
  obtain ⟨plain, small⟩ := fits
  cases message with
  | ioMemoryRead pid value =>
      have text := plain value List.mem_cons_self
      have package : fromMemoryPackage (.ioMemoryRead pid value) =
          some (packageOf .ioMemoryRead [.uint32 pid, textField value]) := by
        simp [fromMemoryPackage, stringField_bytesOf text]
      rw [package]
      apply fields_received (small _ package) rfl rfl
      simp [textField, textIn_textField text]
  | segmentResult pid segmentId result =>
      apply fields_received (small _ rfl) rfl rfl
      cases result <;> rfl
  | swapIn pids => exact list_received (small _ rfl) rfl
  | processCreate | ioMemoryWrite | swapOut | memoryUpdate | compactionRequest
  | compactionFinished | corruptedMemory => exact fields_received (small _ rfl) rfl rfl rfl

/-- The connection from Kernel Memory to the scheduler. -/
def fromMemory : Codec FromMemory where
  send message := (fromMemoryPackage message).bind packageSend
  receive := switch kernelMemoryHandler
  fits := FromMemoryFits
  sent _ := kernelMemoryHandler_receives
  patient := switch_patient _
  waits := rfl

/-- **The connections of the scheduler and Kernel Memory are queues of messages**, both ways:
what a side has received is what the other one sent first, in order; nothing else comes out of
the bytes, no message gets stuck in them, and every order of sending and receiving comes
about. -/
theorem scheduler_memory_queues : toMemory.IsQueue ∧ fromMemory.IsQueue :=
  ⟨toMemory.isQueue, fromMemory.isQueue⟩

end OsModel.Wires
