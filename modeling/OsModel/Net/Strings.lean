import OsModel.Lib.Text
import OsModel.Net.Decoders

/-!
Texts on their way from one module to another: `package_string_add`
(`utils/src/utils/net_utils.c`) and the packages of the IO operations with a text in
them (`utils/src/utils/process_utils.c`, `kernel_scheduler/src/utils.c`).

The size of a text and of a package is an `int`, and one `send` takes a package whole or
not, so a text gets through exactly when it is short enough for the package that carries it
(`textReceive_textSend`). Of a longer one nothing is sent, or its receiver waits for the
rest; one that is too long for an `int` by more than two gibibytes is cut, and its receiver
finds no end.
-/

namespace OsModel.Net

open Lib

/-! ### Sending and receiving -/

/-- The field of a `package_add` of `size` bytes. The size is an `int`; `none` is a
`memcpy` of a negative one, and the program dies of it. -/
def sizedField (memory : List UInt8) (size : Nat) : Option Field :=
  let size := Int32.ofNat size
  if size < 0 then none else some (.string (memory.take size.toInt.toNat))

/-- The field of a `package_string_add`. -/
def stringField (message : List UInt8) : Option Field :=
  sizedField (message ++ [0]) (message.length + 1)

/-- A package with a text between other fields: the bytes that go out. -/
def textSend (opCode : OpCode) (before : List Field) (message : List UInt8)
    (after : List Field) : Option (List UInt8) := do
  let field ← stringField message
  packageSend (packageOf opCode (before ++ field :: after))

/-- The fields of the next package, taken apart at a text. The text is what the first use of
the field finds: `none` when it reads on behind the field. -/
def textReceive (before after : List Kind) : Socket (List Field × List UInt8 × List Field) := do
  let (_, received) ← packageReceive (before ++ .string :: after)
  match received.value.drop before.length with
  | .string block :: rest =>
      let text ← (textAt block : Option (List UInt8))
      pure (received.value.take before.length, text, rest)
  | _ => failure

/-- A text as the modules have it. -/
def textOf (bytes : List UInt8) : String :=
  String.ofList (bytes.map fun byte => Char.ofNat byte.toNat)

/-! ### The packages with a text -/

/-- The answer to `IO_MEMORY_READ`. -/
def ioMemoryReadSend (pid : UInt32) (data : List UInt8) : Option (List UInt8) :=
  textSend .ioMemoryRead [.uint32 pid] data []

def receiveReadValueIoMemoryRead : Socket (UInt32 × List UInt8) := do
  match ← textReceive [.uint32] [] with
  | ([.uint32 pid], value, []) => pure (pid, value)
  | _ => failure

def ioStringProcessSend (opCode : OpCode) (pid : UInt32) (value : List UInt8) (ioType : IoType) :
    Option (List UInt8) :=
  textSend opCode [.uint32 pid] value [.ioType ioType]

def ioStringProcessReceive : Socket (UInt32 × List UInt8 × IoType) := do
  match ← textReceive [.uint32] [.ioType] with
  | ([.uint32 pid], value, [.ioType ioType]) => pure (pid, value, ioType)
  | _ => failure

def sendMemoryWrite (pid physicalAddress size : UInt32) (data : List UInt8) :
    Option (List UInt8) :=
  textSend .ioMemoryWrite [.uint32 pid, .uint32 physicalAddress, .uint32 size] data []

/-- The request that the handler of `IO_MEMORY_WRITE` takes from its buffer. -/
def ioMemoryWriteReceive : Socket (UInt32 × UInt32 × UInt32 × List UInt8) := do
  match ← textReceive [.uint32, .uint32, .uint32] [] with
  | ([.uint32 pid, .uint32 physicalAddress, .uint32 sizeToWrite], rawData, []) =>
      pure (pid, physicalAddress, sizeToWrite, rawData)
  | _ => failure

/-! ### Which texts get through -/

section Texts

variable {opCode : OpCode} {fields before after : List Field} {message : List UInt8}

/-- The bytes of a package apart from the text in it: the other fields, the size and the end
of the text, and the eight bytes in front. -/
def overhead (before after : List Field) : Nat :=
  ((before ++ after).flatMap Field.encode).length + 4 + 1 + 2 * 4

theorem length_stream_text (opCode : OpCode) (before after : List Field) (block : List UInt8) :
    (packageOf opCode (before ++ .string block :: after)).stream.length + 2 * 4 + 1 =
      block.length + overhead before after := by
  simp only [packageOf_stream, List.flatMap_append, List.flatMap_cons, List.length_append,
    Field.encode, Field.bytes, length_intBytes, overhead]
  omega

/-- A package that fits is received, field by field. -/
theorem packageReceive_packageSend (fits : Fits (packageOf opCode fields)) :
    ∃ bytes, packageSend (packageOf opCode fields) = some bytes ∧
      packageReceive (fields.map Field.kind) bytes = some (readBack opCode fields, []) := by
  refine ⟨_, packageSend_of_fits fits, ?_⟩
  have read := packageReceive_spec fits []
  rwa [List.append_nil] at read

/-- A package with a block in it: what its receiver makes of the block. -/
theorem textReceive_of_block {block bytes : List UInt8}
    (read : packageReceive ((before ++ .string block :: after).map Field.kind) bytes =
      some (readBack opCode (before ++ .string block :: after), [])) :
    textReceive (before.map Field.kind) (after.map Field.kind) bytes =
      (textAt block).map fun text => ((before, text, after), []) := by
  have kinds : (before ++ .string block :: after).map Field.kind =
      before.map Field.kind ++ Kind.string :: after.map Field.kind := by
    simp [Field.kind]
  rw [kinds] at read
  unfold textReceive
  simp only [bind, StateT.bind, read, Option.bind_some, readBack, List.length_map,
    List.drop_left, List.take_left]
  cases textAt block with
  | none => rfl
  | some text => rfl

/-- A size that an `int` can say is the size of the field. -/
theorem sizedField_of_small {memory : List UInt8} {size : Nat} (small : size < 2 ^ 31) :
    sizedField memory size = some (.string (memory.take size)) := by
  have value : (Int32.ofNat size).toInt = size := Int32.toInt_ofNat_of_lt small
  have positive : ¬ Int32.ofNat size < 0 := by
    rw [Int32.lt_iff_toInt_lt, value, Int32.toInt_zero]
    omega
  unfold sizedField
  simp only [if_neg positive, value, Int.toNat_natCast]

/-- A size that is negative as an `int` is no field. -/
theorem sizedField_of_large {memory : List UInt8} {size : Nat} (large : 2 ^ 31 ≤ size)
    (word : size < 2 ^ 32) : sizedField memory size = none := by
  have negative : Int32.ofNat size < 0 := by
    rw [Int32.lt_iff_toInt_lt, Int32.toInt_ofNat', Int32.size, Int.bmod_def, Int32.toInt_zero]
    omega
  exact if_pos negative

/-- Short texts are fields with their end. -/
theorem stringField_of_short (short : message.length + 1 < 2 ^ 31) :
    stringField message = some (.string (message ++ [0])) := by
  rw [stringField, sizedField_of_small short, List.take_of_length_le]
  rw [List.length_append, List.length_singleton]

/-- Longer texts are no field at all, or lose their end. -/
theorem stringField_of_long (long : 2 ^ 31 ≤ message.length + 1) {field : Field}
    (added : stringField message = some field) :
    ∃ n < 2 ^ 31, n ≤ message.length ∧ field = .string ((message ++ [0]).take n) := by
  unfold stringField sizedField at added
  by_cases negative : Int32.ofNat (message.length + 1) < 0
  · rw [if_pos negative] at added
    cases added
  · simp only [if_neg negative, Option.some.injEq] at added
    rw [Int32.lt_iff_toInt_lt, Int32.toInt_zero, Int32.toInt_ofNat', Int32.size,
      Int.bmod_def] at negative
    refine ⟨_, ?_, ?_, added.symm⟩
    · have small := Int32.toInt_lt (Int32.ofNat (message.length + 1))
      omega
    · rw [Int32.toInt_ofNat', Int32.size, Int.bmod_def]
      omega

/-- A package that does not fit and its receiver. -/
theorem textReceive_of_long {block : List UInt8}
    (long : ¬ Fits (packageOf opCode (before ++ .string block :: after)))
    (small : (packageOf opCode (before ++ .string block :: after)).stream.length < 2 ^ 31)
    (kindsBefore kindsAfter : List Kind) :
    (packageSend (packageOf opCode (before ++ .string block :: after))).bind
      (textReceive kindsBefore kindsAfter) = none := by
  rw [packageSend_eq (by omega)]
  split
  · unfold textReceive
    simp only [bind, StateT.bind, Option.bind_some, packageReceive_truncated _ long small,
      Option.bind_none]
  · rfl

/-- **Which texts get through**: those that are short enough for their package. -/
theorem textReceive_textSend (opCode : OpCode) (before after : List Field) (endless : 0 ∉ message)
    (small : ((before ++ after).flatMap Field.encode).length < 2 ^ 30) :
    (textSend opCode before message after).bind
        (textReceive (before.map Field.kind) (after.map Field.kind)) =
      if message.length + overhead before after ≤ maxTransfer then
        some ((before, message, after), []) else none := by
  have transfer := maxTransfer_lt
  unfold textSend
  by_cases short : message.length + 1 < 2 ^ 31
  · have length := length_stream_text opCode before after (message ++ [0])
    rw [List.length_append, List.length_singleton] at length
    rw [stringField_of_short short]
    by_cases fits : message.length + overhead before after ≤ maxTransfer
    · have sendable : Fits (packageOf opCode (before ++ .string (message ++ [0]) :: after)) := by
        unfold Fits
        omega
      obtain ⟨bytes, sent, read⟩ := packageReceive_packageSend sendable
      simp only [bind, Option.bind_some, sent, if_pos fits]
      rw [textReceive_of_block read, textAt_withEnd endless]
      rfl
    · have lost : ¬ Fits (packageOf opCode (before ++ .string (message ++ [0]) :: after)) := by
        unfold Fits
        omega
      rw [if_neg fits]
      by_cases int : (packageOf opCode
          (before ++ .string (message ++ [0]) :: after)).stream.length < 2 ^ 31
      · exact textReceive_of_long lost int _ _
      · simp only [bind, Option.bind_some]
        rw [packageSend_eq (by unfold overhead at length; omega), if_neg (by omega)]
        rfl
  · have beyond : ¬ message.length + overhead before after ≤ maxTransfer := by
      unfold overhead
      omega
    rw [if_neg beyond]
    cases added : stringField message with
    | none => rfl
    | some field =>
        obtain ⟨n, small_n, cut, rfl⟩ := stringField_of_long (by omega) added
        have length := length_stream_text opCode before after
          ((message ++ [0]).take n)
        have cut_length : ((message ++ [0]).take n).length ≤ n := List.length_take_le _ _
        by_cases fits : Fits (packageOf opCode
            (before ++ .string ((message ++ [0]).take n) :: after))
        · obtain ⟨bytes, sent, read⟩ := packageReceive_packageSend fits
          simp only [bind, Option.bind_some, sent]
          rw [textReceive_of_block read, textAt_take_of_le endless cut]
          rfl
        · by_cases int : (packageOf opCode
              (before ++ .string ((message ++ [0]).take n) :: after)).stream.length < 2 ^ 31
          · exact textReceive_of_long fits int _ _
          · simp only [bind, Option.bind_some]
            rw [packageSend_eq (by unfold overhead at length; omega), if_neg (by omega)]
            rfl

/-- A receiver that goes on with what it has taken from its package. -/
theorem bind_receive {α β : Type} (sent : Option (List UInt8)) (receive : Socket α)
    (next : α → Socket β) :
    sent.bind (receive >>= next) =
      (sent.bind receive).bind fun taken => next taken.1 taken.2 := by
  cases sent with
  | none => rfl
  | some bytes =>
      simp only [Option.bind_some, bind, StateT.bind]

variable {value : List UInt8}

theorem receive_ioMemoryReadSend (pid : UInt32) (endless : 0 ∉ value) :
    (ioMemoryReadSend pid value).bind receiveReadValueIoMemoryRead =
      if value.length + 21 ≤ maxTransfer then some ((pid, value), []) else none := by
  have through := textReceive_textSend .ioMemoryRead [.uint32 pid] [] endless
    (by simp [Field.encode, Field.bytes])
  have room : overhead [.uint32 pid] [] = 21 := by simp [overhead, Field.encode, Field.bytes]
  rw [room] at through
  simp only [List.map_cons, List.map_nil, Field.kind] at through
  unfold receiveReadValueIoMemoryRead ioMemoryReadSend
  rw [bind_receive, through]
  split <;> rfl

theorem receive_ioStringProcessSend (opCode : OpCode) (pid : UInt32) (ioType : IoType)
    (endless : 0 ∉ value) :
    (ioStringProcessSend opCode pid value ioType).bind ioStringProcessReceive =
      if value.length + 29 ≤ maxTransfer then some ((pid, value, ioType), []) else none := by
  have through := textReceive_textSend opCode [.uint32 pid] [.ioType ioType] endless
    (by simp [Field.encode, Field.bytes])
  have room : overhead [.uint32 pid] [.ioType ioType] = 29 := by
    simp [overhead, Field.encode, Field.bytes]
  rw [room] at through
  simp only [List.map_cons, List.map_nil, Field.kind] at through
  unfold ioStringProcessReceive ioStringProcessSend
  rw [bind_receive, through]
  split <;> rfl

theorem receive_sendMemoryWrite (pid physicalAddress size : UInt32) (endless : 0 ∉ value) :
    (sendMemoryWrite pid physicalAddress size value).bind ioMemoryWriteReceive =
      if value.length + 37 ≤ maxTransfer then some ((pid, physicalAddress, size, value), [])
      else none := by
  have through := textReceive_textSend .ioMemoryWrite
    [.uint32 pid, .uint32 physicalAddress, .uint32 size] [] endless
    (by simp [Field.encode, Field.bytes])
  have room : overhead [.uint32 pid, .uint32 physicalAddress, .uint32 size] [] = 37 := by
    simp [overhead, Field.encode, Field.bytes]
  rw [room] at through
  simp only [List.map_cons, List.map_nil, Field.kind] at through
  unfold ioMemoryWriteReceive sendMemoryWrite
  rw [bind_receive, through]
  split <;> rfl

end Texts

end OsModel.Net
