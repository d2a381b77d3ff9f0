import OsModel.Net.Packages
import OsModel.KernelMemory.CpuHandler

/-!
The decoders with a loop: lists of numbers and of credentials
(`utils/src/utils/net_utils.c`), and the context of a process, which Kernel
Memory sends (`kernel_memory/src/module_handlers/cpu_handler.c`) and a CPU
receives (`cpu/src/main.c`).

* `uint32ListDecode_spec`, `receiveCredentialsList_spec`, `contextReceive_spec`:
  each gives back what was encoded and stops at the end of the buffer.
* `wire_round_trip_iff`: the packages that one `send` takes, and no others, are read
  back, whatever follows them.
* `oversize_lost`: of a package just below two gibibytes nothing goes out.
-/

namespace OsModel.Net

open Lib

/-! ### The encoders and decoders -/

/-- A text in memory: the bytes before its end, none of which is the end. -/
structure CString where
  bytes : List UInt8
  endless : 0 ∉ bytes

/-- The `strlen + 1` bytes of a text. -/
def CString.withEnd (text : CString) : List UInt8 := text.bytes ++ [0]

/-- The text at the front of a buffer. -/
def CString.ofBuffer (buffer : List UInt8) : CString where
  bytes := buffer.takeWhile fun byte => byte != 0
  endless := fun mem => by simpa using List.mem_takeWhile_imp mem

theorem CString.ofBuffer_withEnd (text : CString) : CString.ofBuffer text.withEnd = text := by
  have whole : text.bytes.takeWhile (fun byte => byte != 0) = text.bytes := by
    rw [List.takeWhile_eq_self_iff]
    intro byte mem
    rw [bne_iff_ne]
    rintro rfl
    exact text.endless mem
  have stops : text.withEnd.takeWhile (fun byte => byte != 0) = text.bytes := by
    rw [withEnd, List.takeWhile_append, whole]
    simp
  cases text
  simp only [ofBuffer, stops]

structure MemoryStickCredentials where
  ip : CString
  port : CString
  id : UInt32
  size : UInt32

def uint32ListSend (opCode : OpCode) (list : List UInt32) : Package :=
  packageOf opCode (list.map .uint32)

/-- What one element of a credentials list adds to the package. -/
def MemoryStickCredentials.fields (cred : MemoryStickCredentials) : List Field :=
  [.string cred.ip.withEnd, .string cred.port.withEnd, .uint32 cred.id, .uint32 cred.size]

def sendCredentialsList (list : List MemoryStickCredentials) : Package :=
  packageOf .package (list.flatMap MemoryStickCredentials.fields)

/-- The registers, in the order of `context_send_from_pcb`. -/
def contextFields (context : CpuContext) : List Field :=
  [.uint32 context.pc, .uint8 context.ax, .uint8 context.bx, .uint8 context.cx,
    .uint8 context.dx, .uint32 context.eax, .uint32 context.ebx, .uint32 context.ecx,
    .uint32 context.edx, .uint32 context.si, .uint32 context.di]

/-- What one segment adds to the package. -/
def segmentFields (seg : Segment) : List Field :=
  [.uint32 seg.segmentId, .uint32 seg.base, .uint32 seg.size]

def contextSendFromPcb (pcb : KernelMemory.Pcb) : Package :=
  packageOf .contextTransfer
    (contextFields pcb.context ++ .uint32 (UInt32.ofNat pcb.segmentTable.length) ::
      pcb.segmentTable.flatMap fun seg => segmentFields seg.toSegment)

/-- A decoder that reads elements up to the end of the buffer. Its loop runs at
most once for each byte. -/
def listDecode {α : Type} (element : Reader α) : Socket (Received (List α)) := do
  let (size, buffer) ← bufferReceive
  if size = 0 then pure ⟨[], 0, size⟩
  else
    let (list, offset) ← ((readWhile element size size).from (buffer.getD []) 0 : Option _)
    pure ⟨list, offset, size⟩

def uint32ListDecode : Socket (Received (List UInt32)) := listDecode uint32Deserialize

/-- The body of the loop of `receive_credentials_list`. -/
def credentialsDeserialize : Reader MemoryStickCredentials := do
  let ip ← stringDeserialize
  let port ← stringDeserialize
  let id ← uint32Deserialize
  let size ← uint32Deserialize
  pure ⟨.ofBuffer ip, .ofBuffer port, id, size⟩

/-- `receive_credentials_list`; the inner `none` is `NULL`. -/
def receiveCredentialsList : Socket (Option (Received (List MemoryStickCredentials))) := do
  let opCode ← operationReceive
  if opCode = OpCode.package.code then
    let list ← listDecode credentialsDeserialize
    pure (some list)
  else pure none

/-- The body of the loop of `context_receive`. -/
def segmentDeserialize : Reader Segment := do
  let segmentId ← uint32Deserialize
  let base ← uint32Deserialize
  let size ← uint32Deserialize
  pure ⟨segmentId, base, size⟩

/-- The registers, in the order of `context_receive`. -/
def registersDeserialize : Reader CpuContext := do
  let pc ← uint32Deserialize
  let ax ← uint8Deserialize
  let bx ← uint8Deserialize
  let cx ← uint8Deserialize
  let dx ← uint8Deserialize
  let eax ← uint32Deserialize
  let ebx ← uint32Deserialize
  let ecx ← uint32Deserialize
  let edx ← uint32Deserialize
  let si ← uint32Deserialize
  let di ← uint32Deserialize
  pure ⟨pc, ax, bx, cx, dx, eax, ebx, ecx, edx, si, di⟩

/-- All that `context_receive` reads from its buffer. -/
def contextDeserialize : Reader (CpuContext × List Segment) := do
  let context ← registersDeserialize
  let segCount ← uint32Deserialize
  let segmentTable ← readTimes segmentDeserialize segCount.toNat
  pure (context, segmentTable)

/-- `context_receive`; the inner `none` is `NULL`. -/
def contextReceive : Socket (Option (Received (CpuContext × List Segment))) := do
  let (size, buffer) ← bufferReceive
  match buffer with
  | none => pure none
  | some buffer =>
      let (args, offset) ← (contextDeserialize.from buffer 0 : Option _)
      pure (some ⟨args, offset, size⟩)

/-! ### Elements -/

theorem credentialsDeserialize_reads (cred : MemoryStickCredentials)
    (fits : ∀ field ∈ cred.fields, field.bytes.length < 2 ^ 31) :
    Reads credentialsDeserialize (cred.fields.flatMap Field.encode) cred := by
  have ip := fits (.string cred.ip.withEnd) List.mem_cons_self
  have port := fits (.string cred.port.withEnd) (List.mem_cons_of_mem _ List.mem_cons_self)
  have built : (⟨.ofBuffer cred.ip.withEnd, .ofBuffer cred.port.withEnd, cred.id, cred.size⟩ :
      MemoryStickCredentials) = cred := by
    rw [CString.ofBuffer_withEnd, CString.ofBuffer_withEnd]
  have last := Reads.pure (⟨.ofBuffer cred.ip.withEnd, .ofBuffer cred.port.withEnd, cred.id,
    cred.size⟩ : MemoryStickCredentials)
  nth_rewrite 2 [built] at last
  apply (stringDeserialize_reads ip).bind
  apply (stringDeserialize_reads port).bind
  apply (uint32Deserialize_reads cred.id).bind
  apply (uint32Deserialize_reads cred.size).bind
  exact last

theorem segmentDeserialize_reads (seg : Segment) :
    Reads segmentDeserialize ((segmentFields seg).flatMap Field.encode) seg :=
  (uint32Deserialize_reads seg.segmentId).bind ((uint32Deserialize_reads seg.base).bind
    ((uint32Deserialize_reads seg.size).bind (Reads.pure seg)))

theorem registersDeserialize_reads (context : CpuContext) :
    Reads registersDeserialize ((contextFields context).flatMap Field.encode) context := by
  apply (uint32Deserialize_reads context.pc).bind
  apply (uint8Deserialize_reads context.ax).bind
  apply (uint8Deserialize_reads context.bx).bind
  apply (uint8Deserialize_reads context.cx).bind
  apply (uint8Deserialize_reads context.dx).bind
  apply (uint32Deserialize_reads context.eax).bind
  apply (uint32Deserialize_reads context.ebx).bind
  apply (uint32Deserialize_reads context.ecx).bind
  apply (uint32Deserialize_reads context.edx).bind
  apply (uint32Deserialize_reads context.si).bind
  apply (uint32Deserialize_reads context.di).bind
  exact Reads.pure context

/-! ### The decoders read back what was encoded -/

/-- The decoder of a list, for any way to write its elements as fields. -/
theorem listDecode_consumes {α : Type} {element : Reader α} {encode : α → List UInt8}
    {list : List α} (reads : ∀ a ∈ list, Reads element (encode a) a)
    (moves : ∀ a ∈ list, encode a ≠ []) (one : (list.flatMap encode).length ≤ maxTransfer) :
    Consumes (listDecode element)
      (intBytes (list.flatMap encode).length ++ list.flatMap encode)
      ⟨list, (list.flatMap encode).length, (list.flatMap encode).length⟩ := by
  obtain ⟨buffer, shape, contents⟩ := received_spec (list.flatMap encode)
  have taken := bufferReceive_consumes one
  rw [shape] at taken
  rw [← List.append_nil (intBytes _ ++ _)]
  refine taken.bind ?_
  by_cases empty : (list.flatMap encode).length = 0
  · have none_left : list = [] := by
      cases list with
      | nil => rfl
      | cons a rest =>
          have := List.length_pos_of_ne_nil (moves a List.mem_cons_self)
          simp only [List.flatMap_cons, List.length_append] at empty
          omega
    subst none_left
    exact Consumes.pure _
  · simp only [if_neg empty, contents]
    have loop := Reads.readWhile reads moves [] (length_le_flatMap moves)
    simp only [List.nil_append, List.length_nil, List.map_id'] at loop
    exact (Consumes.lift loop).bind_pure
      (f := fun taken : List α × Nat =>
        (⟨taken.1, taken.2, (list.flatMap encode).length⟩ : Received (List α)))

theorem encode_ne_nil (field : Field) : field.encode ≠ [] := by
  intro empty
  have length := congrArg List.length empty
  simp [Field.encode] at length

section Lists

variable {opCode : OpCode} {list : List UInt32} {credentials : List MemoryStickCredentials}

/-- **Lists of numbers**, the empty one included. -/
theorem uint32ListDecode_spec (fits : Fits (uint32ListSend opCode list)) :
    Consumes (do let codOp ← operationReceive; let list ← uint32ListDecode; pure (codOp, list))
      (packageSerialize (uint32ListSend opCode list))
      (opCode.code, ⟨list, (uint32ListSend opCode list).stream.length,
        (uint32ListSend opCode list).stream.length⟩) := by
  have stream : (uint32ListSend opCode list).stream =
      list.flatMap fun value => (Field.uint32 value).encode := by
    rw [uint32ListSend, packageOf_stream, List.flatMap_map]
  have one : (list.flatMap fun value => (Field.uint32 value).encode).length ≤ maxTransfer := by
    rw [Fits, stream] at fits
    omega
  have decoded := listDecode_consumes
    (fun value _ => uint32Deserialize_reads value) (fun value _ => encode_ne_nil _) one
  rw [packageSerialize, uint32ListSend, packageOf_opCode, ← uint32ListSend, stream,
    List.append_assoc]
  exact (operationReceive_consumes opCode).bind decoded.bind_pure

/-- **Lists of credentials**, the empty one included. -/
theorem receiveCredentialsList_spec (fits : Fits (sendCredentialsList credentials)) :
    Consumes receiveCredentialsList (packageSerialize (sendCredentialsList credentials))
      (some ⟨credentials, (sendCredentialsList credentials).stream.length,
        (sendCredentialsList credentials).stream.length⟩) := by
  have stream : (sendCredentialsList credentials).stream =
      credentials.flatMap fun cred => cred.fields.flatMap Field.encode := by
    rw [sendCredentialsList, packageOf_stream, List.flatMap_assoc]
  have one : (credentials.flatMap fun cred => cred.fields.flatMap Field.encode).length ≤
      maxTransfer := by
    rw [Fits, stream] at fits
    omega
  have fields : ∀ cred ∈ credentials, ∀ field ∈ cred.fields, field.bytes.length < 2 ^ 31 := by
    intro cred mem field among
    exact small_of_fits fits field (List.mem_flatMap.mpr ⟨cred, mem, among⟩)
  have moves : ∀ cred ∈ credentials, cred.fields.flatMap Field.encode ≠ [] := by
    intro cred mem empty
    have first := List.flatMap_eq_nil_iff.mp empty _ List.mem_cons_self
    exact encode_ne_nil _ first
  have decoded := listDecode_consumes
    (fun cred mem => credentialsDeserialize_reads cred (fields cred mem)) moves one
  rw [packageSerialize, sendCredentialsList, packageOf_opCode, ← sendCredentialsList, stream,
    List.append_assoc]
  exact (operationReceive_consumes .package).bind decoded.bind_pure

end Lists

section Context

variable {pcb : KernelMemory.Pcb}

theorem contextDeserialize_reads (context : CpuContext) {table : List KernelMemory.HeapSegment}
    (counted : table.length < 2 ^ 32) :
    Reads contextDeserialize
      ((contextFields context).flatMap Field.encode ++
        ((Field.uint32 (UInt32.ofNat table.length)).encode ++
          table.flatMap fun seg => (segmentFields seg.toSegment).flatMap Field.encode))
      (context, table.map KernelMemory.HeapSegment.toSegment) := by
  have count : (UInt32.ofNat table.length).toNat = table.length := by
    rw [UInt32.toNat_ofNat']
    exact Nat.mod_eq_of_lt counted
  have segments : Reads (readTimes segmentDeserialize table.length)
      (table.flatMap fun seg => (segmentFields seg.toSegment).flatMap Field.encode)
      (table.map KernelMemory.HeapSegment.toSegment) := by
    apply Reads.times
    intro seg _
    exact segmentDeserialize_reads seg.toSegment
  apply (registersDeserialize_reads context).bind
  apply (uint32Deserialize_reads _).bind
  rw [count]
  exact segments.bind_pure

/-- **The context of a process**: what the CPU has is what Kernel Memory keeps. -/
theorem contextReceive_spec (fits : Fits (contextSendFromPcb pcb)) :
    Consumes (do let codOp ← operationReceive; let args ← contextReceive; pure (codOp, args))
      (packageSerialize (contextSendFromPcb pcb))
      (OpCode.contextTransfer.code,
        some ⟨(pcb.context, pcb.segmentTable.map KernelMemory.HeapSegment.toSegment),
          (contextSendFromPcb pcb).stream.length, (contextSendFromPcb pcb).stream.length⟩) := by
  have stream : (contextSendFromPcb pcb).stream =
      (contextFields pcb.context).flatMap Field.encode ++
        ((Field.uint32 (UInt32.ofNat pcb.segmentTable.length)).encode ++
          pcb.segmentTable.flatMap fun seg =>
            (segmentFields seg.toSegment).flatMap Field.encode) := by
    rw [contextSendFromPcb, packageOf_stream, List.flatMap_append, List.flatMap_cons,
      List.flatMap_assoc]
  have one : (contextSendFromPcb pcb).stream.length ≤ maxTransfer := by
    rw [Fits] at fits
    omega
  have counted : pcb.segmentTable.length < 2 ^ 32 := by
    have moves : ∀ seg ∈ pcb.segmentTable,
        (segmentFields seg.toSegment).flatMap Field.encode ≠ [] := by
      intro seg mem empty
      exact encode_ne_nil _ (List.flatMap_eq_nil_iff.mp empty _ List.mem_cons_self)
    have bound := length_le_flatMap moves
    have short := maxTransfer_lt
    rw [stream] at one
    simp only [List.length_append] at one
    omega
  have read := (contextDeserialize_reads pcb.context counted).whole
  rw [← stream] at read
  have some_bytes : (contextSendFromPcb pcb).stream ≠ [] := by
    rw [stream]
    simp [contextFields, Field.encode, intBytes, toBytes]
  have taken := bufferReceive_consumes one
  rw [received, if_neg some_bytes] at taken
  have decoded : Consumes contextReceive
      (intBytes (contextSendFromPcb pcb).stream.length ++ (contextSendFromPcb pcb).stream)
      (some ⟨(pcb.context, pcb.segmentTable.map KernelMemory.HeapSegment.toSegment),
        (contextSendFromPcb pcb).stream.length, (contextSendFromPcb pcb).stream.length⟩) := by
    rw [← List.append_nil (intBytes _ ++ _)]
    refine taken.bind ?_
    exact (Consumes.lift read).bind_pure
      (f := fun taken : (CpuContext × List Segment) × Nat =>
        some (⟨taken.1, taken.2, (contextSendFromPcb pcb).stream.length⟩ :
          Received (CpuContext × List Segment)))
  rw [packageSerialize, List.append_assoc]
  have code : (contextSendFromPcb pcb).opCode = .contextTransfer := packageOf_opCode
  rw [code]
  exact (operationReceive_consumes .contextTransfer).bind decoded.bind_pure

end Context

/-! ### The wire -/

/-- All the bytes of the packages, sent one after another. -/
def sendAll (packages : List Package) : Option (List UInt8) :=
  (packages.mapM packageSend).map List.flatten

/-- A package as its receiver has it, at the end of its buffer. -/
def readBack (opCode : OpCode) (fields : List Field) : Nat × Received (List Field) :=
  (opCode.code, ⟨fields, (packageOf opCode fields).stream.length,
    (packageOf opCode fields).stream.length⟩)

/-- All that a call sends is what the receiver takes for `value`, whatever follows it. -/
def Delivers {α : Type} (sent : Option (List UInt8)) (receive : Socket α) (value : α) : Prop :=
  ∃ bytes, sent = some bytes ∧ Consumes receive bytes value

theorem sendAll_of_fits {packages : List Package} (fits : ∀ package ∈ packages, Fits package) :
    sendAll packages = some (packages.flatMap packageSerialize) := by
  have each : packages.mapM packageSend = some (packages.map packageSerialize) := by
    induction packages with
    | nil => rfl
    | cons package rest ih =>
        rw [List.mapM_cons, packageSend_of_fits (fits package List.mem_cons_self),
          ih fun other mem => fits other (List.mem_cons_of_mem _ mem)]
        rfl
  rw [sendAll, each, Option.map_some, List.flatMap_def]

section Lengths

variable {stream rest : List UInt8}

theorem recv_length {n : Nat} {bytes : List UInt8} (taken : recv n stream = some (bytes, rest)) :
    stream.length = n + rest.length := by
  unfold recv at taken
  split at taken
  case isTrue enough =>
    cases taken
    rw [List.length_drop]
    omega
  case isFalse => cases taken

theorem operationReceive_length {codOp : Nat}
    (taken : operationReceive stream = some (codOp, rest)) :
    stream.length = 4 + rest.length := by
  simp only [operationReceive, bind, StateT.bind, Option.bind_eq_some_iff] at taken
  obtain ⟨⟨bytes, after⟩, received, done⟩ := taken
  cases done
  exact recv_length received

theorem bufferReceive_length {size : Nat} {buffer : Option (List UInt8)}
    (taken : bufferReceive stream = some ((size, buffer), rest)) :
    stream.length = 4 + size + rest.length := by
  simp only [bufferReceive, bind, StateT.bind, Option.bind_eq_some_iff] at taken
  obtain ⟨⟨bytes, after⟩, header, taken⟩ := taken
  have front := recv_length header
  simp only [liftM, monadLift, MonadLift.monadLift, StateT.lift, bind, pure] at taken
  cases said : intOfBytes bytes with
  | none => simp [said] at taken
  | some n =>
      simp only [said, Option.bind_some, Option.some.injEq, exists_eq_left'] at taken
      split at taken
      case isTrue empty =>
        cases taken
        omega
      case isFalse =>
        obtain ⟨⟨block, last⟩, body, done⟩ := Option.bind_eq_some_iff.mp taken
        cases done
        rw [front, recv_length body]
        omega

/-- A receiver takes as many bytes as the package says. -/
theorem packageReceive_length {kinds : List Kind} {read : Nat × Received (List Field)}
    (taken : packageReceive kinds stream = some (read, rest)) :
    stream.length = read.2.size + 2 * 4 + rest.length := by
  simp only [packageReceive, bind, StateT.bind, Option.bind_eq_some_iff] at taken
  obtain ⟨⟨codOp, after⟩, code, ⟨⟨size, buffer⟩, last⟩, body, taken⟩ := taken
  simp only [liftM, monadLift, MonadLift.monadLift, StateT.lift, bind, pure] at taken
  cases found : ((kinds.mapM Kind.deserialize).from (buffer.getD []) 0) with
  | none => simp [found] at taken
  | some fields =>
      simp only [found, Option.bind_some, Option.some.injEq, exists_eq_left'] at taken
      cases taken
      rw [operationReceive_length code, bufferReceive_length body]
      dsimp only
      omega

theorem mapM_packageReceive_length {kinds : List (List Kind)}
    {reads : List (Nat × Received (List Field))}
    (taken : kinds.mapM packageReceive stream = some (reads, rest)) :
    stream.length = (reads.map fun read => read.2.size + 2 * 4).sum + rest.length := by
  induction kinds generalizing stream reads with
  | nil =>
      cases taken
      simp
  | cons first others ih =>
      simp only [List.mapM_cons, bind, StateT.bind, Option.bind_eq_some_iff] at taken
      obtain ⟨⟨read, after⟩, head, ⟨more, last⟩, tail, done⟩ := taken
      cases done
      rw [packageReceive_length head, ih tail]
      simp only [List.map_cons, List.sum_cons]
      omega

/-- What of some packages goes out. -/
theorem sendAll_length {packages : List Package} {bytes : List UInt8}
    (small : ∀ package ∈ packages, package.stream.length < 2 ^ 31)
    (sent : sendAll packages = some bytes) :
    bytes.length =
      (packages.map fun package => min maxTransfer (package.stream.length + 2 * 4)).sum := by
  induction packages generalizing bytes with
  | nil =>
      cases sent
      rfl
  | cons package rest ih =>
      have short := small package List.mem_cons_self
      rw [sendAll, List.mapM_cons, packageSend_eq (by omega)] at sent
      by_cases int : package.stream.length + 2 * 4 < 2 ^ 31
      · rw [if_pos int] at sent
        cases others : rest.mapM packageSend with
        | none => simp [others] at sent
        | some more =>
            have went : sendAll rest = some more.flatten := by
              rw [sendAll, others]
              rfl
            have tail := ih (fun other mem => small other (List.mem_cons_of_mem _ mem)) went
            rw [others] at sent
            cases sent
            rw [List.flatten_cons, List.length_append, tail, List.length_take,
              length_packageSerialize, List.map_cons, List.sum_cons]
      · rw [if_neg int] at sent
        cases sent

/-- Packages of which all goes out. -/
theorem fits_of_sum {packages : List Package}
    (whole : (packages.map fun package => package.stream.length + 2 * 4).sum ≤
      (packages.map fun package => min maxTransfer (package.stream.length + 2 * 4)).sum) :
    ∀ package ∈ packages, Fits package := by
  have less : ∀ others : List Package,
      (others.map fun package => min maxTransfer (package.stream.length + 2 * 4)).sum ≤
        (others.map fun package => package.stream.length + 2 * 4).sum := by
    intro others
    exact List.sum_le_sum fun package _ => Nat.min_le_right _ _
  induction packages with
  | nil => simp
  | cons package rest ih =>
      simp only [List.map_cons, List.sum_cons] at whole
      have tail := less rest
      intro other mem
      rcases List.mem_cons.mp mem with rfl | mem
      · unfold Fits
        omega
      · exact ih (by omega) other mem

end Lengths

section RoundTrip

/-- **The wire**, for any sequence of packages: what is received is what was sent, in its
order and up to its end, exactly when one `send` takes each of them. -/
theorem delivers_iff (messages : List (OpCode × List Field))
    (small : ∀ message ∈ messages, (packageOf message.1 message.2).stream.length < 2 ^ 31) :
    Delivers (sendAll (messages.map fun message => packageOf message.1 message.2))
        ((messages.map fun message => message.2.map Field.kind).mapM packageReceive)
        (messages.map fun message => readBack message.1 message.2) ↔
      ∀ message ∈ messages, Fits (packageOf message.1 message.2) := by
  constructor
  · rintro ⟨bytes, sent, read⟩
    have counted := mapM_packageReceive_length (read [])
    have went := sendAll_length (List.forall_mem_map.mpr small) sent
    have whole : ∀ package ∈ messages.map fun message => packageOf message.1 message.2,
        Fits package := by
      apply fits_of_sum
      rw [← went]
      simpa [readBack, Function.comp_def] using counted.ge
    intro message mem
    exact whole _ (List.mem_map_of_mem mem)
  · intro fits
    have all : ∀ package ∈ messages.map fun message => packageOf message.1 message.2,
        Fits package := by
      intro package mem
      obtain ⟨message, among, rfl⟩ := List.mem_map.mp mem
      exact fits message among
    refine ⟨_, sendAll_of_fits all, ?_⟩
    rw [List.flatMap_map]
    apply Consumes.mapM
    intro message mem
    exact packageReceive_spec (fits message mem)

/-- One package, and a receiver that waits for all of its buffer. -/
theorem fits_of_delivers {α : Type} {package : Package} {receive : Socket α} {value : α}
    (small : package.stream.length < 2 ^ 31)
    (waits : ∀ stream, bufferReceive stream = none →
      receive (intBytes package.opCode.code ++ stream) = none)
    (delivered : Delivers (packageSend package) receive value) : Fits package := by
  by_contra long
  obtain ⟨bytes, sent, read⟩ := delivered
  rw [packageSend_eq (by omega)] at sent
  split at sent
  case isTrue =>
    cases sent
    have cut : (package.stream.take (maxTransfer - 2 * 4)).length < package.stream.length := by
      have room : 2 * 4 ≤ maxTransfer := by decide
      unfold Fits at long
      rw [List.length_take]
      omega
    have taken := read []
    rw [List.append_nil, take_packageSerialize,
      waits _ (bufferReceive_part small cut)] at taken
    cases taken
  case isFalse => cases sent

/-- What `operation_receive` is followed by. -/
theorem operationReceive_bind {α : Type} (opCode : OpCode) (next : Nat → Socket α)
    (stream : List UInt8) :
    (do let codOp ← operationReceive; next codOp : Socket α) (intBytes opCode.code ++ stream) =
      next opCode.code stream := by
  simp only [bind, StateT.bind, operationReceive_consumes opCode stream, Option.bind_some]

theorem listDecode_waits {α : Type} (element : Reader α) {stream : List UInt8}
    (waits : bufferReceive stream = none) : listDecode element stream = none := by
  simp only [listDecode, bind, StateT.bind, waits, Option.bind_none]

theorem contextReceive_waits {stream : List UInt8} (waits : bufferReceive stream = none) :
    contextReceive stream = none := by
  simp only [contextReceive, bind, StateT.bind, waits, Option.bind_none]

/-- **Exactly what one `send` takes gets through**: any sequence of packages, lists of
numbers, lists of credentials, and contexts, all with buffers below two gibibytes. -/
theorem wire_round_trip_iff (messages : List (OpCode × List Field))
    (small : ∀ message ∈ messages, (packageOf message.1 message.2).stream.length < 2 ^ 31)
    (opCode : OpCode) (list : List UInt32)
    (listSmall : (uint32ListSend opCode list).stream.length < 2 ^ 31)
    (credentials : List MemoryStickCredentials)
    (credentialsSmall : (sendCredentialsList credentials).stream.length < 2 ^ 31)
    (pcb : KernelMemory.Pcb) (contextSmall : (contextSendFromPcb pcb).stream.length < 2 ^ 31) :
    (Delivers (sendAll (messages.map fun message => packageOf message.1 message.2))
        ((messages.map fun message => message.2.map Field.kind).mapM packageReceive)
        (messages.map fun message => readBack message.1 message.2) ↔
      ∀ message ∈ messages, Fits (packageOf message.1 message.2)) ∧
    ((∃ size, Delivers (packageSend (uint32ListSend opCode list))
        (do let codOp ← operationReceive; let list ← uint32ListDecode; pure (codOp, list))
        (opCode.code, ⟨list, size, size⟩)) ↔
      Fits (uint32ListSend opCode list)) ∧
    ((∃ size, Delivers (packageSend (sendCredentialsList credentials)) receiveCredentialsList
        (some ⟨credentials, size, size⟩)) ↔
      Fits (sendCredentialsList credentials)) ∧
    ((∃ size, Delivers (packageSend (contextSendFromPcb pcb))
        (do let codOp ← operationReceive; let args ← contextReceive; pure (codOp, args))
        (OpCode.contextTransfer.code,
          some ⟨(pcb.context, pcb.segmentTable.map KernelMemory.HeapSegment.toSegment),
            size, size⟩)) ↔
      Fits (contextSendFromPcb pcb)) := by
  refine ⟨delivers_iff messages small, ?_, ?_, ?_⟩
  · constructor
    · rintro ⟨size, delivered⟩
      apply fits_of_delivers listSmall _ delivered
      intro stream waits
      rw [operationReceive_bind]
      simp only [bind, StateT.bind, uint32ListDecode, listDecode_waits _ waits, Option.bind_none]
    · intro fits
      exact ⟨_, _, packageSend_of_fits fits, uint32ListDecode_spec fits⟩
  · constructor
    · rintro ⟨size, delivered⟩
      apply fits_of_delivers credentialsSmall _ delivered
      intro stream waits
      have code : (sendCredentialsList credentials).opCode = .package := packageOf_opCode
      rw [code, receiveCredentialsList, operationReceive_bind, if_pos rfl]
      simp only [bind, StateT.bind, listDecode_waits _ waits, Option.bind_none]
    · intro fits
      exact ⟨_, _, packageSend_of_fits fits, receiveCredentialsList_spec fits⟩
  · constructor
    · rintro ⟨size, delivered⟩
      apply fits_of_delivers contextSmall _ delivered
      intro stream waits
      rw [operationReceive_bind]
      simp only [bind, StateT.bind, contextReceive_waits waits, Option.bind_none]
    · intro fits
      exact ⟨_, _, packageSend_of_fits fits, contextReceive_spec fits⟩

/-- A package without fields, one with an empty field, two lists and a context. -/
theorem wire_round_trip_iff_of_small :
    Delivers (sendAll [packageOf .compactionReady [], packageOf .stdout [.string [], .uint32 7]])
        ([[], [Kind.string, Kind.uint32]].mapM packageReceive)
        [readBack .compactionReady [], readBack .stdout [.string [], .uint32 7]] ∧
      (∃ size, Delivers (packageSend (uint32ListSend .swapIn []))
        (do let codOp ← operationReceive; let list ← uint32ListDecode; pure (codOp, list))
        (OpCode.swapIn.code, ⟨[], size, size⟩)) ∧
      ∃ size, Delivers (packageSend (sendCredentialsList [])) receiveCredentialsList
        (some ⟨[], size, size⟩) := by
  obtain ⟨packages, list, credentials, -⟩ := wire_round_trip_iff
    [(.compactionReady, []), (.stdout, [.string [], .uint32 7])] (by decide)
    .swapIn [] (by decide) [] (by decide) ⟨1, .zero, [], []⟩ (by decide)
  exact ⟨packages.mpr (by decide), list.mpr (by decide), credentials.mpr (by decide)⟩

end RoundTrip

/-- **Too long by less than the eight bytes**: a package with one field whose
buffer is below two gibibytes, of which nothing is sent. -/
theorem oversize_lost : ∃ opCode fields,
    (packageOf opCode fields).stream.length < 2 ^ 31 ∧
      sendAll [packageOf opCode fields] = none := by
  have exists_field : ∀ n : Nat, ∃ bytes : List UInt8, bytes.length = n :=
    fun n => ⟨List.replicate n 0, List.length_replicate⟩
  obtain ⟨bytes, long⟩ := exists_field (2 ^ 31 - 12)
  have length : (packageOf .ioMemoryWrite [.string bytes]).stream.length = 2 ^ 31 - 8 := by
    rw [packageOf_stream]
    simp only [List.flatMap_cons, List.flatMap_nil, Field.encode, Field.bytes,
      List.length_append, length_intBytes, List.length_nil]
    omega
  have lost : packageSend (packageOf .ioMemoryWrite [.string bytes]) = none := by
    rw [packageSend_eq (by omega), if_neg (by omega)]
  refine ⟨.ioMemoryWrite, [.string bytes], by omega, ?_⟩
  rw [sendAll, List.mapM_cons, lost]
  rfl

end OsModel.Net
