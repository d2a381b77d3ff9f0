import OsModel.Lib.Worker
import OsModel.System.StdinWrite
import OsModel.System.Wires

/-!
The IO devices (`io/src/main.c`), and their connections to the scheduler.

A device is started with its type, and takes whatever it is sent for a request of this type: it
does not look at the operation code. It sleeps, prints or reads a line, and answers before it
takes the next request.

* `io_in_order`: what a device answers, and in which order, however the bytes get across.
-/

namespace OsModel.IoWires

open Lib Net Wires StdinWrite
open KernelScheduler (IoRequest)
open Net (IoType)
open SwapRequests (bytesOf)

/-! ### Requests -/

/-- `standard_op` of a device. -/
def standardOp : IoType → OpCode
  | .stdin => .stdin
  | .stdout => .stdout
  | .sleep => .sleep

/-- `io_numeric_process_send` and `io_string_process_send`. -/
def requestPackage (ioType : IoType) : IoRequest → Option Package
  | .numeric pid value =>
      packageOf (standardOp ioType) [.uint32 pid, .uint32 value, .ioType ioType]
  | .string pid value => do
      let value ← stringField (bytesOf value)
      pure (packageOf (standardOp ioType) [.uint32 pid, value, .ioType ioType])

def ioNumericProcessReceive : Case IoRequest :=
  .fields [.uint32, .uint32, .ioType] fun
    | [.uint32 pid, .uint32 value, .ioType _] => some (.numeric pid value)
    | _ => none

def ioStringProcessReceive : Case IoRequest :=
  .fields [.uint32, .string, .ioType] fun
    | [.uint32 pid, .string value, .ioType _] => (textIn value).map (.string pid)
    | _ => none

/-- How a device receives a request: the operation code, and then what its type has. -/
def receiveRequest (ioType : IoType) : Socket IoRequest := do
  let _ ← operationReceive
  match ioType with
  | .stdin | .sleep => ioNumericProcessReceive.receive
  | .stdout => ioStringProcessReceive.receive

/-- The request is one for a device of this type, and can go out. -/
def RequestFits (ioType : IoType) : IoRequest → Prop
  | .numeric _ _ => ioType ≠ .stdout
  | .string pid value => ioType = .stdout ∧ Plain value ∧
      Fits (packageOf (standardOp ioType) [.uint32 pid, textField value, .ioType ioType])

/-! ### Answers -/

/-- What a device sends. -/
inductive FromIo where
  | confirmation (pid : UInt32)
  | stdin (pid : UInt32) (value : String)
  deriving DecidableEq, Repr

/-- `send_confirmation`, and `io_string_process_send` for a line. -/
def answerPackage : FromIo → Option Package
  | .confirmation pid => packageOf .confirmation [.uint32 pid]
  | .stdin pid value => do
      let value ← stringField (bytesOf value)
      pure (packageOf .stdin [.uint32 pid, value, .ioType .stdin])

/-- The cases of `io_handler` in the scheduler. -/
def ioHandler : OpCode → Case FromIo
  | .confirmation => .fields [.uint32] fun
      | [.uint32 pid] => some (.confirmation pid)
      | _ => none
  | .stdin => .fields [.uint32, .string, .ioType] fun
      | [.uint32 pid, .string value, .ioType _] => (textIn value).map (.stdin pid)
      | _ => none
  | _ => .default

/-- The text of an answer is plain, and one `send` takes its package. -/
def AnswerFits (answer : FromIo) : Prop :=
  (∀ pid value, answer = .stdin pid value → Plain value) ∧
    ∀ package, answerPackage answer = some package → Fits package

/-! ### What a device does -/

/-- `handle_operation`, with the line that `readline` reads when it is asked for. What is printed
and how long a device sleeps is not in its answer. -/
def handleOperation (ioType : IoType) (line : List UInt8) : IoRequest → Option FromIo
  | .numeric pid value =>
      match ioType with
      | .stdin => some (.stdin pid (textOf (ioStdin value line)))
      | .sleep => some (.confirmation pid)
      | .stdout => none
  | .string pid _ =>
      match ioType with
      | .stdout => some (.confirmation pid)
      | .stdin | .sleep => none

/-- A line has no zeros, and if it is asked for, what is made of it is short enough to go out. -/
def Usable (ioType : IoType) (line : List UInt8) (request : IoRequest) : Prop :=
  0 ∉ line ∧ ∀ pid value, ioType = .stdin → request = .numeric pid value →
    (ioStdin value line).length + 29 ≤ maxTransfer

/-! ### Connections -/

section Rules

variable {ioType : IoType} {op : OpCode} {fields : List Field} {kinds : List Kind}
  {build : List Field → Option IoRequest} {request : IoRequest} {line : List UInt8}

/-- A device reads the fields of its type behind any operation code. -/
theorem receiveRequest_consumes (fits : Fits (packageOf op fields))
    (reads : receiveRequest ioType = do
      let _ ← operationReceive
      (Case.fields kinds build).receive)
    (expected : fields.map Field.kind = kinds) (built : build fields = some request) :
    ∃ bytes, packageSend (packageOf op fields) = some bytes ∧
      Consumes (receiveRequest ioType) bytes request := by
  subst expected
  refine ⟨_, packageSend_of_fits fits, ?_⟩
  rw [packageSerialize, packageOf_opCode, List.append_assoc, reads]
  apply (operationReceive_consumes op).bind
  exact receiveReader_consumes fits (fields_reads fits built)

theorem numeric_fits (ioType : IoType) (pid value : UInt32) :
    Fits (packageOf (standardOp ioType) [.uint32 pid, .uint32 value, .ioType ioType]) := by
  simp [Fits, packageOf_stream, Field.encode, Field.bytes, length_intBytes, maxTransfer]

theorem requests_received (fits : RequestFits ioType request) :
    ∃ bytes, (requestPackage ioType request).bind packageSend = some bytes ∧
      Consumes (receiveRequest ioType) bytes request := by
  cases request with
  | numeric pid value =>
      cases ioType with
      | stdout => exact absurd rfl fits
      | stdin => exact receiveRequest_consumes (numeric_fits .stdin pid value) rfl rfl rfl
      | sleep => exact receiveRequest_consumes (numeric_fits .sleep pid value) rfl rfl rfl
  | string pid value =>
      obtain ⟨rfl, plain, small⟩ := fits
      have package : requestPackage .stdout (.string pid value) =
          some (packageOf .stdout [.uint32 pid, textField value, .ioType .stdout]) := by
        simp [requestPackage, stringField_bytesOf plain, standardOp]
      rw [package]
      apply receiveRequest_consumes small rfl rfl
      simp [textField, textIn_textField plain]

theorem ioHandler_receives {answer : FromIo} (fits : AnswerFits answer) :
    ∃ bytes, (answerPackage answer).bind packageSend = some bytes ∧
      Consumes (switch ioHandler) bytes answer := by
  obtain ⟨plain, small⟩ := fits
  cases answer with
  | confirmation pid => exact fields_received (small _ rfl) rfl rfl rfl
  | stdin pid value =>
      have text := plain pid value rfl
      have package : answerPackage (.stdin pid value) =
          some (packageOf .stdin [.uint32 pid, textField value, .ioType .stdin]) := by
        simp [answerPackage, stringField_bytesOf text]
      rw [package]
      apply fields_received (small _ package) rfl rfl
      simp [textField, textIn_textField text]

theorem receiveRequest_patient (ioType : IoType) : Patient (receiveRequest ioType) := by
  apply operationReceive_patient.bind
  intro codOp
  cases ioType <;> exact Case.receive_patient _

end Rules

/-- The connection from the scheduler to a device. -/
def toIo (ioType : IoType) : Codec IoRequest where
  send request := (requestPackage ioType request).bind packageSend
  receive := receiveRequest ioType
  fits := RequestFits ioType
  sent _ := requests_received
  patient := receiveRequest_patient ioType
  waits := rfl

/-- The connection from a device to the scheduler. -/
def fromIo : Codec FromIo where
  send answer := (answerPackage answer).bind packageSend
  receive := switch ioHandler
  fits := AnswerFits
  sent _ := ioHandler_receives
  patient := switch_patient _
  waits := rfl

/-! ### A device -/

theorem ioStdin_sublist (size : UInt32) (line : List UInt8) : ioStdin size line <+: line := by
  have nothing (n : ℕ) (input : List UInt8) :
      (fun input => stringAppend input [])^[n] input = input := by
    have same : (fun input => stringAppend input []) = id := funext List.append_nil
    rw [same, Function.iterate_id]
    rfl
  unfold ioStdin
  rw [nothing]
  split
  · exact List.prefix_rfl
  · split
    · exact List.take_prefix ..
    · exact List.prefix_rfl

/-- The line is a text, as far as it is sent. -/
theorem plain_textOf {bytes : List UInt8} (endless : 0 ∉ bytes)
    (short : bytes.length + 1 < 2 ^ 31) : Plain (textOf bytes) := by
  refine ⟨?_, by simpa [textOf] using short⟩
  intro c among
  simp only [textOf, String.toList_ofList, List.mem_map] at among
  obtain ⟨byte, mem, rfl⟩ := among
  have small := byte.toNat_lt
  have valid : byte.toNat.isValidChar := .inl (by omega)
  have positive : byte.toNat ≠ 0 := by
    intro zero
    have isZero : byte = 0 := UInt8.toNat_inj.mp zero
    exact endless (isZero ▸ mem)
  rw [Char.toNat_ofNat, if_pos valid]
  omega

theorem confirmation_fits (pid : UInt32) : AnswerFits (.confirmation pid) := by
  constructor
  · intro pid' value same
    cases same
  · intro package same
    obtain rfl := Option.some.inj same
    simp [Fits, packageOf_stream, Field.encode, Field.bytes, length_intBytes, maxTransfer]

/-- A line that is short enough can go out. -/
theorem stdin_fits {line : List UInt8} (pid size : UInt32) (endless : 0 ∉ line)
    (short : (ioStdin size line).length + 29 ≤ maxTransfer) :
    AnswerFits (.stdin pid (textOf (ioStdin size line))) := by
  have text : Plain (textOf (ioStdin size line)) := by
    apply plain_textOf
    · intro mem
      exact endless ((ioStdin_sublist size line).mem mem)
    · have transfer := maxTransfer_lt
      omega
  constructor
  · intro pid' value same
    obtain ⟨-, rfl⟩ := FromIo.stdin.inj same
    exact text
  · intro package same
    simp only [answerPackage, stringField_bytesOf text, Option.bind_eq_bind,
      Option.bind_some, pure, Option.some.injEq] at same
    subst same
    simp only [Fits, packageOf_stream, textField, Field.encode, Field.bytes,
      List.flatMap_cons, List.flatMap_nil, List.length_append, length_intBytes,
      length_bytesOf, textOf, String.toList_ofList, List.length_map, List.length_nil,
      List.length_singleton]
    omega

/-- A device has an answer for every request of its type, and it can go out. -/
theorem handleOperation_fits {ioType : IoType} {line : List UInt8} {request : IoRequest}
    (fits : RequestFits ioType request) (usable : Usable ioType line request) :
    ∃ answer, handleOperation ioType line request = some answer ∧ AnswerFits answer := by
  obtain ⟨endless, short⟩ := usable
  cases request with
  | string pid value =>
      obtain ⟨rfl, -, -⟩ := fits
      exact ⟨_, rfl, confirmation_fits pid⟩
  | numeric pid value =>
      cases ioType with
      | stdout => exact absurd rfl fits
      | sleep => exact ⟨_, rfl, confirmation_fits pid⟩
      | stdin => exact ⟨_, rfl, stdin_fits pid value endless (short pid value rfl rfl)⟩

/-- A device between its two connections. -/
def ioWorker (ioType : IoType) : Worker IoRequest FromIo (List UInt8) where
  requests := toIo ioType
  answers := fromIo
  serve := handleOperation ioType
  usable := Usable ioType
  serves _ _ fits usable := handleOperation_fits fits usable
  chance _ _ := by
    have nothing (value : UInt32) : ioStdin value [] = [] :=
      List.prefix_nil.mp (ioStdin_sublist value [])
    exact ⟨[], List.not_mem_nil, fun pid value _ _ => by simp [nothing, maxTransfer]⟩

/-- **A device answers every request once, and in order**: the answers that have come to the
scheduler are those of the first requests that it has sent, whatever is under way and however
the bytes get across; and as long as an answer is missing, it can come. -/
theorem io_in_order (ioType : IoType) : (ioWorker ioType).InOrder := (ioWorker ioType).inOrder

end OsModel.IoWires
