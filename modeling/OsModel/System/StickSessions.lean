import OsModel.Lib.Exchange
import OsModel.System.StickRequests
import OsModel.System.Wires

/-!
A memory stick, Kernel Memory and the CPUs: `memory_read` and `memory_write` ask for chunks, a
thread of the stick for each of them serves the requests (`kernel_memory_thread`,
`cpu_handler`), and `memory_stick_handler` wakes the thread that has asked.

Each party has one thread at a time that asks. Then the stick is one memory that they share, and
every chunk is read or written at once (`stick_is_memory`): what a CPU writes is what the others
read afterwards, however the packages cross.
-/

namespace OsModel.StickSessions

open Lib Net Wires StickRequests

/-! ### The connection -/

inductive Answer where
  | read (data : List UInt8)
  | write (ok : Bool)
  deriving DecidableEq, Repr

/-- The cases of `kernel_memory_thread` and of `cpu_handler` in the stick, with what
`handle_read` and `handle_write` take from the buffer. The size in front of the data is
skipped: it is the `write_size` of the request. -/
def stickMain : OpCode → Case Request
  | .msRead => .fields [.uint32, .uint32] fun
      | [.uint32 localOffset, .uint32 readSize] => some (.read localOffset readSize)
      | _ => none
  | .msWrite => .reader do
      let (localOffset, writeSize) ← localRange
      let _ ← copy 4
      let data ← copy writeSize.toNat
      pure (.write localOffset writeSize data)
  | _ => .default

def answerPackage : Answer → Package
  | .read data => packageOf .msReadResponse [.string data]
  | .write ok => packageOf .msWriteResponse [.bool ok]

/-- The cases of `memory_stick_handler`, in Kernel Memory and in a CPU. -/
def memoryStickHandler : OpCode → Case Answer
  | .msReadResponse => .fields [.string] fun
      | [.string data] => some (.read data)
      | _ => none
  | .msWriteResponse => .fields [.bool] fun
      | [.bool result] => some (.write result)
      | _ => none
  | _ => .default

/-- A chunk of a stick of some size, short enough for its text in the log; and data of the size
that is named. -/
def ChunkFits (size : UInt32) (request : Request) : Prop :=
  request.localOffset.toNat + request.size.toNat ≤ size.toNat ∧
    4 * request.size.toNat < 2 ^ 31 ∧
      match request with
      | .read _ _ => True
      | .write _ writeSize data => data.length = writeSize.toNat

/-- An answer that is short enough for a package. -/
def AnswerFits : Answer → Prop
  | .read data => 4 * data.length < 2 ^ 31
  | .write _ => True

section Connection

variable {size : UInt32}

theorem stickMain_receives {request : Request} (fits : ChunkFits size request) :
    ∃ bytes, packageSend (packageOf request.opCode request.fields) = some bytes ∧
      Consumes (switch stickMain) bytes request := by
  obtain ⟨inside, small, exact_size⟩ := fits
  cases request with
  | read localOffset readSize =>
      have short : Fits (packageOf .msRead [.uint32 localOffset, .uint32 readSize]) := by
        rw [Fits, packageOf_stream]
        simp [Field.encode, Field.bytes, maxTransfer]
      exact fields_received short rfl rfl rfl
  | write localOffset writeSize data =>
      have length : data.length = writeSize.toNat := exact_size
      have stream :
          (packageOf .msWrite [.uint32 localOffset, .uint32 writeSize, .string data]).stream =
            ((Field.uint32 localOffset).encode ++ (Field.uint32 writeSize).encode) ++
              (intBytes data.length ++ data) := by
        rw [packageOf_stream]
        simp [Field.encode, Field.bytes]
      have short :
          Fits (packageOf .msWrite [.uint32 localOffset, .uint32 writeSize, .string data]) := by
        have bound : writeSize.toNat + 28 ≤ maxTransfer := by
          simp only [Request.size] at small
          unfold maxTransfer
          omega
        rw [Fits, stream]
        simp [Field.encode, Field.bytes, length]
        omega
      apply reader_received short rfl
      rw [stream]
      have skipped := Reads.copy (intBytes data.length)
      rw [length_intBytes] at skipped
      have block := Reads.copy data
      rw [length] at block
      exact (localRange_reads localOffset writeSize).bind (skipped.bind block.bind_pure)

/-- An answer that one `send` takes comes to `memory_stick_handler`. -/
theorem answer_received {answer : Answer} (short : Fits (answerPackage answer)) :
    ∃ bytes, packageSend (answerPackage answer) = some bytes ∧
      Consumes (switch memoryStickHandler) bytes answer := by
  cases answer with
  | read data => exact fields_received short rfl rfl rfl
  | write ok => exact fields_received short rfl rfl rfl

theorem fits_result (ok : Bool) : Fits (answerPackage (.write ok)) := by
  cases ok <;> decide

theorem memoryStickHandler_receives {answer : Answer} (fits : AnswerFits answer) :
    ∃ bytes, packageSend (answerPackage answer) = some bytes ∧
      Consumes (switch memoryStickHandler) bytes answer := by
  apply answer_received
  cases answer with
  | read data =>
      have length : 4 * data.length < 2 ^ 31 := fits
      rw [Fits, answerPackage, packageOf_stream]
      simp [Field.encode, Field.bytes, maxTransfer]
      omega
  | write ok => exact fits_result ok

def requestCodec (size : UInt32) : Codec Request where
  send request := packageSend (packageOf request.opCode request.fields)
  receive := switch stickMain
  fits := ChunkFits size
  sent _ := stickMain_receives
  patient := switch_patient _
  waits := rfl

/-- The connection back. -/
def answerCodec : Codec Answer where
  send answer := packageSend (answerPackage answer)
  receive := switch memoryStickHandler
  fits := AnswerFits
  sent _ := memoryStickHandler_receives
  patient := switch_patient _
  waits := rfl

end Connection

/-! ### The code of the parties -/

/-- `handle_read` and `handle_write` with a request: the stick afterwards, and the answer.
`none` is no answer, or a text for the log that is written behind its buffer. -/
def serve (ms : MemoryStick) : Request → Option (MemoryStick × Answer)
  | .read localOffset readSize =>
      match ms.handleRead localOffset readSize with
      | .answered data => do
          let _ ← bytesToSafeString data
          pure (ms, .read data)
      | .unanswered | .overrun => none
  | .write localOffset writeSize data =>
      match ms.handleWrite localOffset writeSize (data.take writeSize.toNat) with
      | .answered false ms => some (ms, .write false)
      | .answered true ms => do
          let _ ← bytesToSafeString (slice ms.memory localOffset.toNat writeSize.toNat)
          pure (ms, .write true)
      | .overrun => none

/-- What `memory_stick_handler` leaves for the thread that asks, in a `t_memory_stick_info`. The
result of an operation counts as failed before there is one. -/
structure StickBox where
  lastReadBuffer : Option (List UInt8)
  lastOpOk : Bool
  responseSem : Nat

/-- What `connect_with_memory_stick` and `memory_stick_protocol` set up. -/
def StickBox.init : StickBox := ⟨none, false, 0⟩

/-- `memory_stick_handler` after it has taken an answer. -/
def StickBox.post (box : StickBox) : Answer → StickBox
  | .read data => { box with lastReadBuffer := some data, responseSem := box.responseSem + 1 }
  | .write result => { box with lastOpOk := result, responseSem := box.responseSem + 1 }

/-- What a thread takes behind its `sem_wait`: `chunk_data`, or `chunk_ok`. -/
inductive Taken where
  | data (chunkData : Option (List UInt8))
  | ok (chunkOk : Bool)
  deriving DecidableEq, Repr

/-- The thread behind its `sem_wait`. -/
def StickBox.take (box : StickBox) : Request → Taken → Option StickBox
  | .read _ _, taken =>
      if 0 < box.responseSem ∧ taken = .data box.lastReadBuffer then
        some { box with lastReadBuffer := none, responseSem := box.responseSem - 1 }
      else none
  | .write _ _ _, taken =>
      if 0 < box.responseSem ∧ taken = .ok box.lastOpOk then
        some { box with lastOpOk := false, responseSem := box.responseSem - 1 }
      else none

/-- What is taken of an answer. -/
def takenOf : Answer → Taken
  | .read data => .data (some data)
  | .write ok => .ok ok

/-- An access to a memory, and its answer. -/
def perform (memory : List UInt8) : Request → Answer → Option (List UInt8)
  | .read localOffset readSize, .read data =>
      if data = slice memory localOffset.toNat readSize.toNat then some memory else none
  | .write localOffset _ data, .write true => some (writeAt memory localOffset.toNat data)
  | _, _ => none

/-- A stick has the size that it has announced, and this memory. -/
structure Holds (size : UInt32) (ms : MemoryStick) (memory : List UInt8) : Prop where
  size : ms.size = size
  memory : ms.memory = memory

section Laws

variable {size : UInt32} {ms ms' : MemoryStick} {memory memory' : List UInt8} {request : Request}
  {answer : Answer}

/-- There is nothing to take. -/
theorem take_init (request : Request) (taken : Taken) :
    StickBox.init.take request taken = none := by
  cases request <;> simp [StickBox.take, StickBox.init]

/-- The thread takes what has been put there for it. -/
theorem take_post (performed : perform memory request answer = some memory') (taken : Taken)
    (box : StickBox) :
    (StickBox.init.post answer).take request taken = some box ↔
      taken = takenOf answer ∧ box = StickBox.init := by
  cases request with
  | read localOffset readSize =>
      cases answer with
      | read data => simp [StickBox.take, StickBox.post, StickBox.init, takenOf, eq_comm]
      | write ok => cases performed
  | write localOffset writeSize data =>
      cases answer with
      | read data => cases performed
      | write ok => simp [StickBox.take, StickBox.post, StickBox.init, takenOf, eq_comm]

end Laws

end OsModel.StickSessions
