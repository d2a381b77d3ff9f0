import OsModel.Lib.Codec
import OsModel.Utils

/-!
Packages (`utils/src/utils/net_utils.c`): how they are built, sent, received and
taken apart.

A package is an operation code and a buffer of fields, each behind its size.
The number of bytes to send is an `int`, and they are given to one `send`, which
takes no more than `maxTransfer` of them. So a package goes out whole exactly when
its buffer leaves room for the eight bytes before it below that limit
(`packageSend_eq`). What goes out whole is read back field by field
(`packageReceive_spec`), what is cut is not (`packageReceive_truncated`).
-/

namespace OsModel.Net

open Lib

inductive OpCode where
  | message
  | package
  | handshake
  | confirmation
  | credentialsUpdate
  | processCreate
  | processEnd
  | processEvict
  | processExecute
  | processInterrupted
  | contextTransfer
  | contextSeek
  | stateUpdate
  | ioMemoryRead
  | ioMemoryWrite
  | ioProcess
  | memAlloc
  | memFree
  | sleep
  | stdout
  | stdin
  | instructionFetch
  | mutexCreate
  | mutexLock
  | mutexUnlock
  | corruptedMemory
  | memoryUpdate
  | segmentCreate
  | segmentDelete
  | segmentResult
  | segmentationFault
  | compactionRequest
  | compactionReady
  | compactionFinished
  | msRead
  | msWrite
  | msReadResponse
  | msWriteResponse
  | swapIn
  | swapOut
  deriving DecidableEq, Repr

/-- The number of an operation code. -/
def OpCode.code (op : OpCode) : Nat := op.ctorIdx

inductive ModuleId where
  | moduleKernelScheduler
  | moduleCpu
  | moduleIo
  | moduleSwap
  | moduleMemoryStick
  deriving DecidableEq, Repr

inductive IoType where
  | stdin
  | stdout
  | sleep
  deriving DecidableEq, Repr

/-- `t_package` with its `t_buffer`. -/
structure Package where
  opCode : OpCode
  stream : List UInt8
  deriving DecidableEq, Repr

/-! ### Sending -/

/-- An `int` or a `uint32_t` in memory. -/
def intBytes (n : Nat) : List UInt8 := toBytes 4 n

/-- `package_create`, with the operation code that the caller sets. -/
def packageCreate (opCode : OpCode) : Package := ⟨opCode, []⟩

def packageAdd (package : Package) (value : List UInt8) : Package :=
  { package with stream := package.stream ++ (intBytes value.length ++ value) }

/-- What `package_serialize` puts into its buffer. -/
def packageSerialize (package : Package) : List UInt8 :=
  intBytes package.opCode.code ++ intBytes package.stream.length ++ package.stream

/-- The bytes that one `send` or `recv` moves at most, whatever it is asked for. -/
def maxTransfer : Nat := 0x7ffff000

/-- `package_send`: the bytes that go out. `bytes` is an `int`; `none` is a
`malloc` of a negative one, and the program dies of what follows. Nothing looks at
what `send` returns, so the bytes that it does not take are lost. -/
def packageSend (package : Package) : Option (List UInt8) :=
  let bytes := Int32.ofNat (package.stream.length + 2 * 4)
  if bytes < 0 then none else some ((packageSerialize package).take maxTransfer)

/-! ### Receiving -/

/-- A connection that delivers all the bytes that are in it. -/
abbrev Socket := StateT (List UInt8) Option

/-- `recv` with `MSG_WAITALL`; `none` is waiting for bytes that never come, or a
buffer whose end is never set because one call does not fill it. -/
def recv (n : Nat) : Socket (List UInt8) := fun stream =>
  if n ≤ maxTransfer ∧ n ≤ stream.length then some (stream.take n, stream.drop n) else none

def operationReceive : Socket Nat := do
  let codOp ← recv 4
  pure (ofBytes codOp)

/-- What a buffer's size says: `none` when it is negative as an `int`. -/
def intOfBytes (bytes : List UInt8) : Option Nat :=
  if ofBytes bytes < 2 ^ 31 then some (ofBytes bytes) else none

/-- `buffer_receive`: the buffer, with `NULL` for an empty one. -/
def bufferReceive : Socket (Nat × Option (List UInt8)) := do
  let bytes ← recv 4
  let size ← (intOfBytes bytes : Option Nat)
  if size = 0 then pure (0, none)
  else
    let buffer ← recv size
    pure (size, some buffer)

/-- The size in front of a field. -/
def sizeDeserialize : Reader Nat := do
  let bytes ← copy 4
  (intOfBytes bytes : Option Nat)

/-- `string_deserialize`: the field as it is. -/
def stringDeserialize : Reader (List UInt8) := do
  let size ← sizeDeserialize
  copy size

/-- A value of `width` bytes: `none` is a field of another size, which leaves a
part of the value unset or writes behind it. -/
def valueDeserialize (width : Nat) : Reader Nat := do
  let size ← sizeDeserialize
  let bytes ← copy size
  (if size = width then some (ofBytes bytes) else none : Option Nat)

def uint32Deserialize : Reader UInt32 := do
  let value ← valueDeserialize 4
  pure (UInt32.ofNat value)

def uint8Deserialize : Reader UInt8 := do
  let value ← valueDeserialize 1
  pure (UInt8.ofNat value)

def boolDeserialize : Reader Bool := do
  let value ← valueDeserialize 1
  pure (value != 0)

/-- `t_module_id_deserialize`; `none` is a number that no constant has. -/
def moduleIdDeserialize : Reader ModuleId := do
  let value ← valueDeserialize 4
  (if value < 5 then some (ModuleId.ofNat value) else none : Option ModuleId)

/-- `t_io_type_deserialize`; `none` is a number that no constant has. -/
def ioTypeDeserialize : Reader IoType := do
  let value ← valueDeserialize 4
  (if value < 3 then some (IoType.ofNat value) else none : Option IoType)

/-! ### Fields -/

/-- The fields that the modules send. A string is any bytes: the text with its
end, or the contents of memory. -/
inductive Field where
  | string (bytes : List UInt8)
  | uint32 (value : UInt32)
  | uint8 (value : UInt8)
  | bool (value : Bool)
  | moduleId (value : ModuleId)
  | ioType (value : IoType)
  deriving DecidableEq, Repr

/-- The value of a field in memory. -/
def Field.bytes : Field → List UInt8
  | .string bytes => bytes
  | .uint32 value => intBytes value.toNat
  | .uint8 value => [value]
  | .bool value => [value.toUInt8]
  | .moduleId value => intBytes value.ctorIdx
  | .ioType value => intBytes value.ctorIdx

/-- What the receiver knows about a field: the function it reads it with. -/
inductive Kind where
  | string
  | uint32
  | uint8
  | bool
  | moduleId
  | ioType
  deriving DecidableEq, Repr

def Field.kind : Field → Kind
  | .string _ => .string
  | .uint32 _ => .uint32
  | .uint8 _ => .uint8
  | .bool _ => .bool
  | .moduleId _ => .moduleId
  | .ioType _ => .ioType

/-- The deserializer of a kind of field. -/
def Kind.deserialize : Kind → Reader Field
  | .string => do let bytes ← stringDeserialize; pure (.string bytes)
  | .uint32 => do let value ← uint32Deserialize; pure (.uint32 value)
  | .uint8 => do let value ← uint8Deserialize; pure (.uint8 value)
  | .bool => do let value ← boolDeserialize; pure (.bool value)
  | .moduleId => do let value ← moduleIdDeserialize; pure (.moduleId value)
  | .ioType => do let value ← ioTypeDeserialize; pure (.ioType value)

/-- A package with the given fields, added one after another. -/
def packageOf (opCode : OpCode) (fields : List Field) : Package :=
  fields.foldl (fun package field => packageAdd package field.bytes) (packageCreate opCode)

/-- What has been made of a buffer: the offset at the end, and the size. -/
structure Received (α : Type) where
  value : α
  offset : Nat
  size : Nat
  deriving DecidableEq, Repr

/-- A handler's part: the operation code, the buffer, and the fields it expects
there. A package without fields has no buffer to read. -/
def packageReceive (kinds : List Kind) : Socket (Nat × Received (List Field)) := do
  let codOp ← operationReceive
  let (size, buffer) ← bufferReceive
  let (fields, offset) ← ((kinds.mapM Kind.deserialize).from (buffer.getD []) 0 : Option _)
  pure (codOp, ⟨fields, offset, size⟩)

/-! ### Fields are read back -/

section Fields

/-- The size of a field and its value. -/
def Field.encode (field : Field) : List UInt8 := intBytes field.bytes.length ++ field.bytes

@[simp] theorem length_intBytes (n : Nat) : (intBytes n).length = 4 := length_toBytes 4 n

theorem ofBytes_intBytes {n : Nat} (fits : n < 2 ^ 32) : ofBytes (intBytes n) = n :=
  ofBytes_toBytes (by simpa using fits)

theorem intOfBytes_intBytes {n : Nat} (fits : n < 2 ^ 31) : intOfBytes (intBytes n) = some n := by
  rw [intOfBytes, ofBytes_intBytes (by omega), if_pos fits]

theorem sizeDeserialize_reads {n : Nat} (fits : n < 2 ^ 31) :
    Reads sizeDeserialize (intBytes n) n := by
  have size : Reads (copy 4) (intBytes n) (intBytes n) := by
    have copied := Reads.copy (intBytes n)
    rwa [length_intBytes] at copied
  have read := size.bind (f := fun bytes => (intOfBytes bytes : Reader Nat))
    (Reads.lift (intOfBytes_intBytes fits))
  rwa [List.append_nil] at read

theorem stringDeserialize_reads {bytes : List UInt8} (fits : bytes.length < 2 ^ 31) :
    Reads stringDeserialize (intBytes bytes.length ++ bytes) bytes :=
  (sizeDeserialize_reads fits).bind (Reads.copy bytes)

theorem valueDeserialize_reads {width : Nat} {bytes : List UInt8} (length : bytes.length = width)
    (fits : width < 2 ^ 31) :
    Reads (valueDeserialize width) (intBytes bytes.length ++ bytes) (ofBytes bytes) := by
  have value := (Reads.copy bytes).bind
    (f := fun copied =>
      ((if bytes.length = width then some (ofBytes copied) else none : Option Nat) : Reader Nat))
    (Reads.lift (if_pos length))
  rw [List.append_nil] at value
  exact (sizeDeserialize_reads (by omega)).bind value

theorem uint32Deserialize_reads (value : UInt32) :
    Reads uint32Deserialize (Field.uint32 value).encode value := by
  have read := (valueDeserialize_reads (length_intBytes value.toNat) (by decide)).bind_pure
    (f := UInt32.ofNat)
  rwa [ofBytes_intBytes value.toNat_lt, UInt32.ofNat_toNat] at read

theorem uint8Deserialize_reads (value : UInt8) :
    Reads uint8Deserialize (Field.uint8 value).encode value := by
  have read := (valueDeserialize_reads (List.length_singleton (a := value)) (by decide)).bind_pure
    (f := UInt8.ofNat)
  have back : UInt8.ofNat (ofBytes [value]) = value := by simp [ofBytes]
  rwa [back] at read

theorem boolDeserialize_reads (value : Bool) :
    Reads boolDeserialize (Field.bool value).encode value := by
  have read := (valueDeserialize_reads (List.length_singleton (a := value.toUInt8))
    (by decide)).bind_pure (f := fun value => value != 0)
  have back : (ofBytes [value.toUInt8] != 0) = value := by cases value <;> rfl
  rwa [back] at read

/-- A number that stands for a constant. -/
theorem constant_reads {α : Type} {constant : Nat → Option α} {n : Nat} {a : α}
    (fits : n < 2 ^ 32) (found : constant n = some a) :
    Reads (do let value ← valueDeserialize 4; (constant value : Option α))
      (intBytes (intBytes n).length ++ intBytes n) a := by
  have value := valueDeserialize_reads (length_intBytes n) (by decide)
  rw [ofBytes_intBytes fits] at value
  have read := value.bind (f := fun value => (constant value : Reader α)) (Reads.lift found)
  rwa [List.append_nil] at read

theorem moduleIdDeserialize_reads (value : ModuleId) :
    Reads moduleIdDeserialize (Field.moduleId value).encode value := by
  apply constant_reads
  · cases value <;> decide
  · cases value <;> rfl

theorem ioTypeDeserialize_reads (value : IoType) :
    Reads ioTypeDeserialize (Field.ioType value).encode value := by
  apply constant_reads
  · cases value <;> decide
  · cases value <;> rfl

/-- **A field is read back** by the deserializer of its kind. -/
theorem Kind.deserialize_reads (field : Field) (fits : field.bytes.length < 2 ^ 31) :
    Reads field.kind.deserialize field.encode field := by
  cases field with
  | string bytes => exact (stringDeserialize_reads fits).bind_pure
  | uint32 value => exact (uint32Deserialize_reads value).bind_pure
  | uint8 value => exact (uint8Deserialize_reads value).bind_pure
  | bool value => exact (boolDeserialize_reads value).bind_pure
  | moduleId value => exact (moduleIdDeserialize_reads value).bind_pure
  | ioType value => exact (ioTypeDeserialize_reads value).bind_pure

end Fields

/-! ### Packages are read back -/

section Packages

variable {opCode : OpCode} {fields : List Field} {package : Package}

theorem stream_foldl (fields : List Field) (package : Package) :
    (fields.foldl (fun package field => packageAdd package field.bytes) package).stream =
      package.stream ++ fields.flatMap Field.encode := by
  induction fields generalizing package with
  | nil => simp
  | cons field rest ih =>
      rw [List.foldl_cons, ih, packageAdd, List.flatMap_cons, List.append_assoc]
      rfl

theorem opCode_foldl (fields : List Field) (package : Package) :
    (fields.foldl (fun package field => packageAdd package field.bytes) package).opCode =
      package.opCode := by
  induction fields generalizing package with
  | nil => rfl
  | cons field rest ih =>
      rw [List.foldl_cons, ih]
      rfl

@[simp] theorem packageOf_stream :
    (packageOf opCode fields).stream = fields.flatMap Field.encode :=
  stream_foldl fields (packageCreate opCode)

@[simp] theorem packageOf_opCode : (packageOf opCode fields).opCode = opCode :=
  opCode_foldl fields (packageCreate opCode)

theorem maxTransfer_lt : maxTransfer < 2 ^ 31 := by decide

/-- One `send` takes the buffer and the eight bytes before it. -/
def Fits (package : Package) : Prop := package.stream.length + 2 * 4 ≤ maxTransfer

instance (package : Package) : Decidable (Fits package) := by
  unfold Fits
  infer_instance

theorem Fits.small (fits : Fits package) : package.stream.length + 2 * 4 < 2 ^ 31 :=
  Nat.lt_of_le_of_lt fits maxTransfer_lt

theorem length_packageSerialize (package : Package) :
    (packageSerialize package).length = package.stream.length + 2 * 4 := by
  simp only [packageSerialize, intBytes, length_toBytes, List.length_append]
  omega

/-- **What is sent**: of the packages that are below four gibibytes, those go out
whose length is an `int`, up to what one `send` takes. -/
theorem packageSend_eq (small : package.stream.length + 2 * 4 < 2 ^ 32) :
    packageSend package =
      if package.stream.length + 2 * 4 < 2 ^ 31 then
        some ((packageSerialize package).take maxTransfer)
      else none := by
  unfold packageSend
  by_cases short : package.stream.length + 2 * 4 < 2 ^ 31
  · have positive : ¬ Int32.ofNat (package.stream.length + 2 * 4) < 0 := by
      rw [Int32.lt_iff_toInt_lt, Int32.toInt_ofNat_of_lt short]
      exact not_lt.mpr (Int.natCast_nonneg _)
    rw [if_pos short]
    exact if_neg positive
  · have negative : Int32.ofNat (package.stream.length + 2 * 4) < 0 := by
      rw [Int32.lt_iff_toInt_lt, Int32.toInt_ofNat', Int32.size, Int.bmod_def]
      simp only [Int32.toInt_zero]
      omega
    rw [if_neg short]
    exact if_pos negative

/-- A package that fits goes out whole. -/
theorem packageSend_of_fits (fits : Fits package) :
    packageSend package = some (packageSerialize package) := by
  have short := fits.small
  rw [packageSend_eq (by omega), if_pos short, List.take_of_length_le]
  rw [length_packageSerialize]
  exact fits

theorem recv_consumes {n : Nat} {bytes : List UInt8} (length : bytes.length = n)
    (one : n ≤ maxTransfer) : Consumes (recv n) bytes bytes := by
  intro rest
  rw [recv, if_pos ⟨one, by simp [length]⟩]
  simp [← length]

theorem recv_intBytes (n : Nat) : Consumes (recv 4) (intBytes n) (intBytes n) :=
  recv_consumes (length_intBytes n) (by decide)

theorem operationReceive_consumes (opCode : OpCode) :
    Consumes operationReceive (intBytes opCode.code) opCode.code := by
  have read := (recv_intBytes opCode.code).bind_pure (f := ofBytes)
  have small : opCode.code < 2 ^ 32 := by cases opCode <;> decide
  rwa [ofBytes_intBytes small] at read

/-- What `buffer_receive` gives for a buffer. -/
def received (stream : List UInt8) : Nat × Option (List UInt8) :=
  if stream = [] then (0, none) else (stream.length, some stream)

theorem bufferReceive_consumes {stream : List UInt8} (one : stream.length ≤ maxTransfer) :
    Consumes bufferReceive (intBytes stream.length ++ stream) (received stream) := by
  refine (recv_intBytes stream.length).bind ?_
  have size := Consumes.lift (intOfBytes_intBytes (Nat.lt_of_le_of_lt one maxTransfer_lt))
  unfold received
  by_cases empty : stream = []
  · subst empty
    exact size.bind (Consumes.pure _)
  · rw [if_neg empty, ← List.nil_append stream]
    refine size.bind ?_
    rw [List.nil_append, if_neg (by simpa using empty)]
    exact (recv_consumes rfl one).bind_pure

theorem received_spec (stream : List UInt8) :
    ∃ buffer, received stream = (stream.length, buffer) ∧ buffer.getD [] = stream := by
  unfold received
  by_cases empty : stream = []
  · rw [if_pos empty]
    exact ⟨none, by simp [empty], empty.symm⟩
  · rw [if_neg empty]
    exact ⟨some stream, rfl, rfl⟩

/-- The fields of a package with as many bytes as an `int` can say. -/
theorem small_of_fits (fits : Fits (packageOf opCode fields)) :
    ∀ field ∈ fields, field.bytes.length < 2 ^ 31 := by
  intro field mem
  obtain ⟨before, after, rfl⟩ := List.append_of_mem mem
  have short := fits.small
  simp only [packageOf_stream, List.flatMap_append, List.flatMap_cons, Field.encode,
    List.length_append] at short
  omega

/-- **A package is read back**: operation code, fields, and an offset at the
end of the buffer. -/
theorem packageReceive_spec (fits : Fits (packageOf opCode fields)) :
    Consumes (packageReceive (fields.map Field.kind)) (packageSerialize (packageOf opCode fields))
      (opCode.code, ⟨fields, (packageOf opCode fields).stream.length,
        (packageOf opCode fields).stream.length⟩) := by
  have one : (packageOf opCode fields).stream.length ≤ maxTransfer := by
    unfold Fits at fits
    omega
  have each : Reads ((fields.map Field.kind).mapM Kind.deserialize) (fields.flatMap Field.encode)
      (fields.map id) := by
    apply Reads.mapM
    intro field mem
    exact Kind.deserialize_reads field (small_of_fits fits field mem)
  have read := each.whole
  have stream : (packageOf opCode fields).stream = fields.flatMap Field.encode := packageOf_stream
  rw [List.map_id, ← stream] at read
  obtain ⟨buffer, shape, contents⟩ := received_spec (packageOf opCode fields).stream
  rw [packageSerialize, packageOf_opCode, List.append_assoc]
  refine (operationReceive_consumes opCode).bind ?_
  rw [← List.append_nil (intBytes _ ++ _)]
  refine (bufferReceive_consumes one).bind ?_
  rw [shape]
  have taken : ((fields.map Field.kind).mapM Kind.deserialize).from (buffer.getD []) 0 =
      some (fields, (packageOf opCode fields).stream.length) := by
    rw [contents]
    exact read
  have rest := (Consumes.lift taken).bind_pure
    (f := fun taken : List Field × Nat =>
      (opCode.code, (⟨taken.1, taken.2, (packageOf opCode fields).stream.length⟩ :
        Received (List Field))))
  exact rest

/-- A receiver gets no buffer out of a part of one. -/
theorem bufferReceive_part {n : Nat} {part : List UInt8} (word : n < 2 ^ 31)
    (less : part.length < n) : bufferReceive (intBytes n ++ part) = none := by
  have size := recv_intBytes n part
  have some_bytes : n ≠ 0 := by omega
  have unfilled : recv n part = none := by
    rw [recv, if_neg]
    omega
  unfold bufferReceive
  simp only [bind, StateT.bind, size, Option.bind_some, intOfBytes_intBytes word, liftM, monadLift,
    MonadLift.monadLift, StateT.lift, if_neg some_bytes, pure, unfilled, Option.bind_none]

theorem take_packageSerialize (package : Package) :
    (packageSerialize package).take maxTransfer =
      intBytes package.opCode.code ++ (intBytes package.stream.length ++
        package.stream.take (maxTransfer - 2 * 4)) := by
  have split : maxTransfer = 4 + (4 + (maxTransfer - 2 * 4)) := by decide
  rw [packageSerialize, List.append_assoc, split]
  nth_rewrite 1 [← length_intBytes package.opCode.code]
  rw [List.take_length_add_append]
  nth_rewrite 1 [← length_intBytes package.stream.length]
  rw [List.take_length_add_append]
  rfl

theorem length_part (long : ¬ Fits package) :
    (package.stream.take (maxTransfer - 2 * 4)).length < package.stream.length := by
  have room : 2 * 4 ≤ maxTransfer := by decide
  unfold Fits at long
  rw [List.length_take]
  omega

/-- **A package that does not fit is not received**: its receiver waits for the bytes
that one `send` did not take. -/
theorem packageReceive_truncated (kinds : List Kind) (long : ¬ Fits package)
    (small : package.stream.length < 2 ^ 31) :
    packageReceive kinds ((packageSerialize package).take maxTransfer) = none := by
  rw [take_packageSerialize]
  unfold packageReceive
  simp only [bind, StateT.bind, operationReceive_consumes package.opCode _, Option.bind_some,
    bufferReceive_part small (length_part long), Option.bind_none]

end Packages

end OsModel.Net
