import OsModel.MemoryStick
import OsModel.Net.SafeStrings
import OsModel.Net.Strings

/-!
The requests to a memory stick (`handle_read` and `handle_write` in `memory_stick/src/main.c`),
with the packages that the handlers take apart and send, and with the text that they log.

* `request_handled_iff`: which requests are answered once, and as they should be.
* `read_unanswered`: a read that is refused without an answer.
-/

namespace OsModel.StickRequests

open Lib Net

/-! ### The handlers -/

/-- What has been sent, and the stick afterwards. -/
abbrev Served := List (List UInt8) × MemoryStick

/-- The offset and the size in front of a request. -/
def localRange : Reader (UInt32 × UInt32) := do
  let localOffset ← uint32Deserialize
  let size ← uint32Deserialize
  pure (localOffset, size)

/-- The `MS_WRITE_RESPONSE` of `handle_write`. -/
def sendResult (ok : Bool) (ms : MemoryStick) : Option Served := do
  let sent ← packageSend (packageOf .msWriteResponse [.bool ok])
  pure ([sent], ms)

/-- `handle_write`, with what `buffer_receive` has given it. `none` is a program that leaves
its memory. -/
def handleWrite (ms : MemoryStick) : Option (List UInt8) → Option Served
  | none => sendResult false ms
  | some buffer => do
      let ((localOffset, writeSize), offset) ← localRange.from buffer 0
      -- `data_field_size` is read and not used
      let (_, offset) ← (copy 4).from buffer offset
      match ms.handleWrite localOffset writeSize (slice buffer offset writeSize.toNat) with
      | .overrun => none
      | .answered false ms => sendResult false ms
      | .answered true ms => do
          let _ ← bytesToSafeString (slice ms.memory localOffset.toNat writeSize.toNat)
          sendResult true ms

def handleRead (ms : MemoryStick) : Option (List UInt8) → Option Served
  | none => some ([], ms)
  | some buffer => do
      let ((localOffset, readSize), _) ← localRange.from buffer 0
      match ms.handleRead localOffset readSize with
      | .overrun => none
      | .unanswered => some ([], ms)
      | .answered data => do
          let _ ← bytesToSafeString data
          let field ← sizedField data readSize.toNat
          let sent ← packageSend (packageOf .msReadResponse [field])
          pure ([sent], ms)

/-- A turn of `kernel_memory_thread` and of `cpu_handler`. -/
def turn (ms : MemoryStick) : Socket (Option Served) := do
  let op ← operationReceive
  if op = OpCode.msRead.code then do
    let (_, buffer) ← bufferReceive
    pure (handleRead ms buffer)
  else if op = OpCode.msWrite.code then do
    let (_, buffer) ← bufferReceive
    pure (handleWrite ms buffer)
  else pure (some ([], ms))

/-! ### The requests -/

/-- A request, with the size as the sender names it. -/
inductive Request where
  | read (localOffset readSize : UInt32)
  | write (localOffset writeSize : UInt32) (data : List UInt8)
  deriving DecidableEq, Repr

namespace Request

def opCode : Request → OpCode
  | read .. => .msRead
  | write .. => .msWrite

def localOffset : Request → UInt32
  | read localOffset _ => localOffset
  | write localOffset _ _ => localOffset

def size : Request → UInt32
  | read _ readSize => readSize
  | write _ writeSize _ => writeSize

def fields : Request → List Field
  | read localOffset readSize => [.uint32 localOffset, .uint32 readSize]
  | write localOffset writeSize data => [.uint32 localOffset, .uint32 writeSize, .string data]

/-- The range is in the stick, as numbers without a bound. -/
def Inside (request : Request) (ms : MemoryStick) : Prop :=
  request.localOffset.toNat + request.size.toNat ≤ ms.size.toNat

instance (request : Request) (ms : MemoryStick) : Decidable (request.Inside ms) := by
  unfold Inside
  infer_instance

/-- The answer that a request should have when it is in the stick. -/
def answer (ms : MemoryStick) : Request → List UInt8
  | read localOffset readSize =>
      packageSerialize (packageOf .msReadResponse
        [.string (slice ms.memory localOffset.toNat readSize.toNat)])
  | write .. => packageSerialize (packageOf .msWriteResponse [.bool true])

/-- The contents that a request should leave when it is in the stick. -/
def effect (ms : MemoryStick) : Request → List UInt8
  | read .. => ms.memory
  | write localOffset writeSize data =>
      writeAt ms.memory localOffset.toNat (data.take writeSize.toNat)

/-- The answers that tell the sender that the request was carried out. -/
def Succeeds (response : List UInt8) : Request → Prop
  | read .. =>
      ∃ data, response = packageSerialize (packageOf .msReadResponse [.string data])
  | write .. => response = packageSerialize (packageOf .msWriteResponse [.bool true])

end Request

/-- A request whose package has arrived, in its handler. -/
def handle (ms : MemoryStick) (request : Request) : Option Served :=
  match request with
  | .read .. => handleRead ms (received (packageOf request.opCode request.fields).stream).2
  | .write .. => handleWrite ms (received (packageOf request.opCode request.fields).stream).2

/-- One answer, which is a success exactly for a range in the stick. A success gives and
changes exactly this range; a refusal changes nothing. -/
structure Handled (ms : MemoryStick) (request : Request) (response : List UInt8)
    (ms' : MemoryStick) : Prop where
  one : handle ms request = some ([response], ms')
  success : request.Succeeds response ↔ request.Inside ms
  same_stick : ms'.id = ms.id ∧ ms'.size = ms.size
  inside : request.Inside ms → response = request.answer ms ∧ ms'.memory = request.effect ms
  refused : ¬ request.Inside ms → ms' = ms

/-- The condition on a request. -/
def Answerable (ms : MemoryStick) : Request → Prop
  | .read localOffset readSize =>
      localOffset.toNat + readSize.toNat ≤ ms.size.toNat ∧
        Loggable (slice ms.memory localOffset.toNat readSize.toNat) ∧
        readSize.toNat + 12 ≤ maxTransfer
  | .write localOffset writeSize data =>
      if localOffset.toNat + writeSize.toNat ≤ ms.size.toNat then
        writeSize.toNat ≤ data.length ∧ Loggable (data.take writeSize.toNat)
      else ms.size < localOffset + writeSize

/-! ### What the handlers find in the package -/

section Packages

variable {request : Request}

/-- A request that fits a package comes to its handler, and nothing behind it is taken. -/
theorem turn_request (ms : MemoryStick)
    (fits : Fits (packageOf request.opCode request.fields)) :
    Consumes (turn ms) (packageSerialize (packageOf request.opCode request.fields))
      (handle ms request) := by
  have one : (packageOf request.opCode request.fields).stream.length ≤ maxTransfer := by
    unfold Fits at fits
    omega
  rw [packageSerialize, packageOf_opCode, List.append_assoc]
  refine (operationReceive_consumes request.opCode).bind ?_
  cases request with
  | read localOffset readSize => exact (bufferReceive_consumes one).bind_pure
  | write localOffset writeSize data => exact (bufferReceive_consumes one).bind_pure

/-- The stick waits for the rest of a request that one `send` has not taken. -/
theorem turn_truncated (ms : MemoryStick) {op : OpCode} {fields : List Field}
    (case : op = .msRead ∨ op = .msWrite) (long : ¬ Fits (packageOf op fields))
    (small : (packageOf op fields).stream.length < 2 ^ 31) :
    turn ms ((packageSerialize (packageOf op fields)).take maxTransfer) = none := by
  rw [take_packageSerialize, packageOf_opCode, turn, operationReceive_bind]
  have waits := bufferReceive_part small (length_part long)
  rcases case with rfl | rfl
  · rw [if_pos rfl]
    simp only [bind, StateT.bind, waits, Option.bind_none]
  · rw [if_neg (by decide), if_pos rfl]
    simp only [bind, StateT.bind, waits, Option.bind_none]

theorem localRange_reads (localOffset size : UInt32) :
    Reads localRange ((Field.uint32 localOffset).encode ++ (Field.uint32 size).encode)
      (localOffset, size) :=
  (uint32Deserialize_reads localOffset).bind (uint32Deserialize_reads size).bind_pure

theorem length_encode_uint32 (value : UInt32) : (Field.uint32 value).encode.length = 8 := by
  simp [Field.encode, Field.bytes]

/-- A buffer that begins with a range. -/
theorem localRange_from (localOffset size : UInt32) (rest : List UInt8) :
    localRange.from ((Field.uint32 localOffset).encode ++
      ((Field.uint32 size).encode ++ rest)) 0 = some ((localOffset, size), 16) := by
  have read := localRange_reads localOffset size [] rest
  simp only [List.nil_append, List.length_nil, List.length_append, length_encode_uint32,
    List.append_assoc] at read
  exact read

/-- `handle_read` on the request that has arrived. -/
theorem handle_read (ms : MemoryStick) (localOffset readSize : UInt32) :
    handle ms (.read localOffset readSize) =
      match ms.handleRead localOffset readSize with
      | .overrun => none
      | .unanswered => some ([], ms)
      | .answered data => (do
          let _ ← bytesToSafeString data
          let field ← sizedField data readSize.toNat
          let sent ← packageSend (packageOf .msReadResponse [field])
          pure ([sent], ms)) := by
  have arrived : (received (packageOf .msRead [.uint32 localOffset, .uint32 readSize]).stream).2 =
      some ((Field.uint32 localOffset).encode ++ ((Field.uint32 readSize).encode ++ [])) := rfl
  unfold handle handleRead Request.opCode Request.fields
  simp only [arrived, localRange_from]
  rfl

/-- `handle_write` on the request that has arrived. -/
theorem handle_write (ms : MemoryStick) (localOffset writeSize : UInt32) (data : List UInt8) :
    handle ms (.write localOffset writeSize data) =
      match ms.handleWrite localOffset writeSize (data.take writeSize.toNat) with
      | .overrun => none
      | .answered false ms => sendResult false ms
      | .answered true ms => (do
          let _ ← bytesToSafeString (slice ms.memory localOffset.toNat writeSize.toNat)
          sendResult true ms) := by
  have arrived :
      (received (packageOf .msWrite
        [.uint32 localOffset, .uint32 writeSize, .string data]).stream).2 =
        some ((Field.uint32 localOffset).encode ++ ((Field.uint32 writeSize).encode ++
          (intBytes data.length ++ data))) := by
    simp [received, Field.encode, Field.bytes, intBytes, toBytes]
  have before : (Field.uint32 localOffset).encode ++ ((Field.uint32 writeSize).encode ++
      (intBytes data.length ++ data)) =
        ((Field.uint32 localOffset).encode ++ (Field.uint32 writeSize).encode) ++
          intBytes data.length ++ data := by
    simp only [List.append_assoc]
  have length : ((Field.uint32 localOffset).encode ++
      (Field.uint32 writeSize).encode).length = 16 := by
    simp only [List.length_append, length_encode_uint32]
  have skipped : (copy 4).from ((Field.uint32 localOffset).encode ++
      ((Field.uint32 writeSize).encode ++ (intBytes data.length ++ data))) 16 =
        some (intBytes data.length, 20) := by
    have read := Reads.copy (intBytes data.length)
      ((Field.uint32 localOffset).encode ++ (Field.uint32 writeSize).encode) data
    rw [← before, length, length_intBytes] at read
    exact read
  have found : slice ((Field.uint32 localOffset).encode ++ ((Field.uint32 writeSize).encode ++
      (intBytes data.length ++ data))) 20 writeSize.toNat = data.take writeSize.toNat := by
    have front : (((Field.uint32 localOffset).encode ++ (Field.uint32 writeSize).encode) ++
        intBytes data.length).length = 20 := by
      rw [List.length_append, length, length_intBytes]
    rw [before, slice_append_right (by omega), front]
    rfl
  unfold handle handleWrite Request.opCode Request.fields
  simp only [arrived, localRange_from, skipped, found, bind, Option.bind_some]

theorem sendResult_eq (ok : Bool) (ms : MemoryStick) :
    sendResult ok ms =
      some ([packageSerialize (packageOf .msWriteResponse [.bool ok])], ms) := by
  have fits : Fits (packageOf .msWriteResponse [.bool ok]) := by
    cases ok <;> decide
  rw [sendResult, packageSend_of_fits fits]
  rfl

end Packages

/-! ### Which requests are handled -/

section Requests

variable {ms : MemoryStick} {localOffset size : UInt32} {data : List UInt8}

/-- The check in 32 bits lets everything through that is in the stick. -/
theorem not_inside_of_lt (refused : ms.size < localOffset + size) :
    ¬ localOffset.toNat + size.toNat ≤ ms.size.toNat := by
  rw [UInt32.lt_iff_toNat_lt, UInt32.toNat_add] at refused
  have mod_le := Nat.mod_le (localOffset.toNat + size.toNat) (2 ^ 32)
  omega

theorem length_readResponse (length : data.length = size.toNat) :
    (packageOf .msReadResponse [.string data]).stream.length = size.toNat + 4 := by
  rw [packageOf_stream]
  simp only [List.flatMap_cons, List.flatMap_nil, List.append_nil, Field.encode,
    Field.bytes, List.length_append, length_intBytes, length]
  omega

/-- What goes out of a slice that is answered, if it has a text and its package has a size. -/
theorem readAnswer_eq (length : data.length = size.toNat) :
    (do
      let _ ← bytesToSafeString data
      let field ← sizedField data size.toNat
      let sent ← packageSend (packageOf .msReadResponse [field])
      pure ([sent], ms) : Option Served) =
      if Loggable data ∧ size.toNat + 12 < 2 ^ 31 then
        some ([(packageSerialize (packageOf .msReadResponse [.string data])).take maxTransfer], ms)
      else none := by
  have bound := size.toNat_lt
  have text : (bytesToSafeString data).isSome ↔ Loggable data :=
    bytesToSafeString_isSome_iff (by omega)
  by_cases loggable : Loggable data
  · obtain ⟨string, logged⟩ := Option.isSome_iff_exists.mp (text.mpr loggable)
    simp only [bind, logged, Option.bind_some, loggable, true_and]
    by_cases small : size.toNat < 2 ^ 31
    · have stream := length_readResponse length
      rw [sizedField_of_small small, List.take_of_length_le length.le, Option.bind_some,
        packageSend_eq (by omega), stream]
      split <;> rfl
    · have long : ¬ size.toNat + 12 < 2 ^ 31 := by omega
      rw [sizedField_of_large (by omega) bound, if_neg long]
      rfl
  · have silent : bytesToSafeString data = none :=
      Option.not_isSome_iff_eq_none.mp (text.not.mpr loggable)
    rw [silent, if_neg fun both => loggable both.1]
    rfl

/-- What becomes of a read of bytes of the stick. -/
theorem handle_read_inside (inside : localOffset.toNat + size.toNat ≤ ms.size.toNat) :
    handle ms (.read localOffset size) =
      if Loggable (slice ms.memory localOffset.toNat size.toNat) ∧ size.toNat + 12 < 2 ^ 31 then
        some ([(packageSerialize (packageOf .msReadResponse
          [.string (slice ms.memory localOffset.toNat size.toNat)])).take maxTransfer], ms)
      else none := by
  have length : (slice ms.memory localOffset.toNat size.toNat).length = size.toNat :=
    length_slice (ms.length_memory ▸ inside)
  rw [handle_read, MemoryStick.handleRead_inside inside]
  exact readAnswer_eq length

/-- What becomes of a write of bytes of the stick that come with it. -/
theorem handle_write_inside (inside : localOffset.toNat + size.toNat ≤ ms.size.toNat)
    (enough : size.toNat ≤ data.length) :
    ∃ stored, ms.handleWrite localOffset size (data.take size.toNat) = .answered true stored ∧
      stored.id = ms.id ∧ stored.size = ms.size ∧
      stored.memory = writeAt ms.memory localOffset.toNat (data.take size.toNat) ∧
      handle ms (.write localOffset size data) =
        if Loggable (data.take size.toNat) then
          some ([packageSerialize (packageOf .msWriteResponse [.bool true])], stored)
        else none := by
  have length : (data.take size.toNat).length = size.toNat := List.length_take_of_le enough
  obtain ⟨stored, answered, same_id, same_size, contents⟩ :=
    MemoryStick.handleWrite_inside inside length
  have room : localOffset.toNat + (data.take size.toNat).length ≤ ms.memory.length := by
    rw [length, ms.length_memory]
    exact inside
  have placed : slice stored.memory localOffset.toNat size.toNat = data.take size.toNat := by
    have found := slice_writeAt room
    rw [length, ← contents] at found
    exact found
  have bound := size.toNat_lt
  have text : (bytesToSafeString (data.take size.toNat)).isSome ↔ Loggable (data.take size.toNat) :=
    bytesToSafeString_isSome_iff (by omega)
  refine ⟨stored, answered, same_id, same_size, contents, ?_⟩
  rw [handle_write, answered]
  simp only [placed, sendResult_eq]
  by_cases loggable : Loggable (data.take size.toNat)
  · obtain ⟨string, logged⟩ := Option.isSome_iff_exists.mp (text.mpr loggable)
    rw [logged, if_pos loggable]
    rfl
  · rw [Option.not_isSome_iff_eq_none.mp (text.not.mpr loggable), if_neg loggable]
    rfl

theorem read_handled_iff :
    (∃ response ms', Handled ms (.read localOffset size) response ms') ↔
      Answerable ms (.read localOffset size) := by
  simp only [Answerable]
  by_cases inside : localOffset.toNat + size.toNat ≤ ms.size.toNat
  · have length : (slice ms.memory localOffset.toNat size.toNat).length = size.toNat :=
      length_slice (ms.length_memory ▸ inside)
    have result := handle_read_inside inside
    simp only [inside, true_and]
    have stream := length_readResponse length
    have transfer := maxTransfer_lt
    constructor
    · rintro ⟨response, ms', handled⟩
      have one := handled.one
      have exact_answer := (handled.inside inside).1
      rw [result] at one
      split at one
      · rename_i sent
        cases one
        refine ⟨sent.1, ?_⟩
        have same := congrArg List.length exact_answer
        rw [Request.answer, List.length_take, length_packageSerialize, stream] at same
        omega
      · cases one
    · rintro ⟨loggable, fits⟩
      have whole : (packageSerialize (packageOf .msReadResponse
          [.string (slice ms.memory localOffset.toNat size.toNat)])).take maxTransfer =
          packageSerialize (packageOf .msReadResponse
            [.string (slice ms.memory localOffset.toNat size.toNat)]) := by
        rw [List.take_of_length_le]
        rw [length_packageSerialize, stream]
        exact fits
      rw [if_pos ⟨loggable, by omega⟩, whole] at result
      refine ⟨_, ms, result, iff_of_true ⟨_, rfl⟩ inside, ⟨rfl, rfl⟩,
        fun _ => ⟨rfl, rfl⟩, fun outside => absurd inside outside⟩
  · refine iff_of_false ?_ fun answerable => inside answerable.1
    rintro ⟨response, ms', handled⟩
    have one := handled.one
    rw [handle_read, MemoryStick.handleRead] at one
    by_cases refused : localOffset + size > ms.size
    · rw [if_pos refused] at one
      cases one
    · rw [if_neg refused, if_neg inside] at one
      cases one

theorem write_handled_iff :
    (∃ response ms', Handled ms (.write localOffset size data) response ms') ↔
      Answerable ms (.write localOffset size data) := by
  have result := handle_write ms localOffset size data
  simp only [Answerable]
  by_cases inside : localOffset.toNat + size.toNat ≤ ms.size.toNat
  · rw [if_pos inside]
    by_cases enough : size.toNat ≤ data.length
    · obtain ⟨stored, -, same_id, same_size, contents, result⟩ :=
        handle_write_inside inside enough
      simp only [enough, true_and]
      constructor
      · rintro ⟨response, ms', handled⟩
        have one := handled.one
        rw [result] at one
        split at one
        · rename_i loggable
          exact loggable
        · cases one
      · intro loggable
        rw [if_pos loggable] at result
        exact ⟨_, stored, result, iff_of_true rfl inside, ⟨same_id, same_size⟩,
          fun _ => ⟨rfl, contents⟩, fun outside => absurd inside outside⟩
    · refine iff_of_false ?_ fun answerable => enough answerable.1
      rintro ⟨response, ms', handled⟩
      have one := handled.one
      have accepted : ¬ localOffset + size > ms.size := fun refused =>
        not_inside_of_lt refused inside
      have short : ¬ (localOffset.toNat + size.toNat ≤ ms.size.toNat ∧
          (data.take size.toNat).length = size.toNat) := by
        rw [List.length_take]
        omega
      rw [result, MemoryStick.handleWrite, if_neg accepted, dif_neg short] at one
      cases one
  · rw [if_neg inside]
    constructor
    · rintro ⟨response, ms', handled⟩
      by_contra accepted
      have one := handled.one
      rw [result, MemoryStick.handleWrite, if_neg accepted,
        dif_neg fun both => inside both.1] at one
      cases one
    · intro refused
      rw [MemoryStick.handleWrite, if_pos refused] at result
      simp only [sendResult_eq] at result
      have other : ¬ (Request.write localOffset size data).Succeeds
          (packageSerialize (packageOf .msWriteResponse [.bool false])) := by
        simp only [Request.Succeeds]
        decide
      exact ⟨_, ms, result, iff_of_false other inside, ⟨rfl, rfl⟩,
        fun success => absurd success inside, fun _ => rfl⟩

end Requests

/-- **Which requests are handled**: a read of a range in the stick with few enough bytes for one
`send` and for its text; a write of such a range with its data and few enough bytes for the
text, and a write that is out of the range also in 32 bits. -/
theorem request_handled_iff (ms : MemoryStick) (request : Request) :
    (∃ response ms', Handled ms request response ms') ↔ Answerable ms request := by
  cases request with
  | read localOffset readSize => exact read_handled_iff
  | write localOffset writeSize data => exact write_handled_iff

/-- **A read out of the range has no answer**: a write of the same range is refused. -/
theorem read_unanswered :
    handle (.fresh 1 16) (.read 0 17) = some ([], .fresh 1 16) ∧
      (∃ response, handle (.fresh 1 16) (.write 0 17 (List.replicate 17 0)) =
        some ([response], .fresh 1 16)) ∧
      ¬ ∃ response ms', Handled (.fresh 1 16) (.read 0 17) response ms' := by
  refine ⟨?_, ?_, ?_⟩
  · rw [handle_read, MemoryStick.handleRead, if_pos (by decide)]
  · rw [handle_write, MemoryStick.handleWrite, if_pos (by decide)]
    exact ⟨_, sendResult_eq false _⟩
  · rw [read_handled_iff]
    exact fun answerable => absurd answerable.1 (by decide)

end OsModel.StickRequests
