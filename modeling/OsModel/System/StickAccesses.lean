import OsModel.KernelMemory.ChunkRequests
import OsModel.System.StickSessions

/-!
`memory_read` and `memory_write` with the packages between the modules: Kernel Memory
(`kernel_memory/src/memory_manage.c`) and the CPU (`cpu/src/manage_instructions.c`) have a copy
each, which ask the sticks for chunks (`memory_stick/src/main.c`).

A chunk gets through when one `send` takes its request and its answer, and its bytes are a text
for the logs on both sides. A longer one kills its sender, or leaves it waiting.

* `memoryRead_eq`, `memoryWrite_eq`: when all chunks get through, the accesses are those of
  `KernelMemory.memoryRead` and `KernelMemory.memoryWrite`; otherwise they do not return.
* `refines_flat_array_iff`: then, and only then, the sticks are one flat array.
-/

namespace OsModel.StickAccesses

open Lib Net Wires StickRequests StickSessions
open KernelMemory hiding memoryRead memoryWrite readAll writeAll readOutcome writeOutcome

/-! ### One chunk -/

/-- A request to a stick and what `memory_stick_handler` takes of the answer. `none` is a
program that dies of it, or an answer that does not come. -/
def ask (ms : MemoryStick) (request : Package) : Option (Answer × MemoryStick) := do
  let sent ← packageSend request
  let (served, _) ← turn ms sent
  let (responses, ms) ← served
  match responses with
  | [response] => do
      let (answer, _) ← switch memoryStickHandler response
      pure (answer, ms)
  | _ => none

/-- A turn of the loop of `memory_read`, from the package on: `chunk_data` and its text. -/
def msRead (sticks : List MemoryStick) (i : Nat) (localOffset chunk : UInt32) :
    Option (List UInt8 × List MemoryStick) := do
  let ms ← sticks[i]?
  let (answer, ms) ← ask ms (packageOf .msRead [.uint32 localOffset, .uint32 chunk])
  let chunkData ← (StickBox.init.post answer).lastReadBuffer
  let (data, _) ← (copy chunk.toNat).from chunkData 0
  let _ ← bytesToSafeString data
  pure (data, sticks.set i ms)

/-- A turn of the loop of `memory_write`, from the package on: `chunk_ok`. -/
def msWrite (sticks : List MemoryStick) (i : Nat) (localOffset chunk bytesDone : UInt32)
    (data : List UInt8) : Option (Bool × List MemoryStick) := do
  let ms ← sticks[i]?
  let field ← sizedField (data.drop bytesDone.toNat) chunk.toNat
  let (answer, ms) ← ask ms (packageOf .msWrite [.uint32 localOffset, .uint32 chunk, field])
  pure ((StickBox.init.post answer).lastOpOk, sticks.set i ms)

/-! ### The loops -/

section Loops

variable (getMemoryStickByAddress : List MemoryStick → UInt32 → Option (Nat × UInt32))
  (chunkOf : MemoryStick → UInt32 → UInt32 → UInt32 → UInt32)

/-- The loop of `memory_read`, with the search for a stick and the chunk of the copy. `none` is
a program that dies of it, or a loop that does not end. -/
def readLoop (physicalAddress size : UInt32) :
    Nat → List MemoryStick → UInt32 → List UInt8 →
      Option (Option (List UInt8) × List MemoryStick)
  | 0, _, _, _ => none
  | fuel + 1, sticks, bytesDone, result =>
      if bytesDone < size then
        match getMemoryStickByAddress sticks (physicalAddress + bytesDone) with
        | none => some (none, sticks)
        | some (i, localOffset) => do
            let ms ← sticks[i]?
            let chunk := chunkOf ms localOffset size bytesDone
            let (data, sticks) ← msRead sticks i localOffset chunk
            readLoop physicalAddress size fuel sticks (bytesDone + chunk) (result ++ data)
      else some (some result, sticks)

/-- The loop of `memory_write`. -/
def writeLoop (physicalAddress : UInt32) (data : List UInt8) (size : UInt32) :
    Nat → List MemoryStick → UInt32 → Option (Bool × List MemoryStick)
  | 0, _, _ => none
  | fuel + 1, sticks, bytesDone =>
      if bytesDone < size then
        match getMemoryStickByAddress sticks (physicalAddress + bytesDone) with
        | none => some (false, sticks)
        | some (i, localOffset) => do
            let ms ← sticks[i]?
            let chunk := chunkOf ms localOffset size bytesDone
            match ← msWrite sticks i localOffset chunk bytesDone data with
            | (false, sticks) => some (false, sticks)
            | (true, sticks) =>
                writeLoop physicalAddress data size fuel sticks (bytesDone + chunk)
      else some (true, sticks)

end Loops

/-! ### Kernel Memory -/

/-- `memory_read` of Kernel Memory. -/
def memoryRead (sticks : List MemoryStick) (physicalAddress size : UInt32) :
    Option (Option (List UInt8) × List MemoryStick) :=
  readLoop getMemoryStickByAddress chunkSize physicalAddress size (size.toNat + 1) sticks 0 []

/-- `memory_write` of Kernel Memory. -/
def memoryWrite (sticks : List MemoryStick) (physicalAddress : UInt32) (data : List UInt8)
    (size : UInt32) : Option (Bool × List MemoryStick) :=
  writeLoop getMemoryStickByAddress chunkSize physicalAddress data size (size.toNat + 1) sticks 0

/-! ### The CPU -/

namespace Cpu

/-- The loop of the CPU's `get_memory_stick_by_address`. -/
def findMemoryStick (physicalAddress : UInt32) (cursor : UInt32) (i : Nat) :
    List MemoryStick → Option (Nat × UInt32)
  | [] => none
  | ms :: rest =>
      if physicalAddress < cursor + ms.size then some (i, physicalAddress - cursor)
      else findMemoryStick physicalAddress (cursor + ms.size) (i + 1) rest

/-- `get_memory_stick_by_address` of the CPU. -/
def getMemoryStickByAddress (listMemoryStick : List MemoryStick) (physicalAddress : UInt32) :
    Option (Nat × UInt32) :=
  findMemoryStick physicalAddress 0 0 listMemoryStick

/-- The chunk of a turn of either loop. -/
def chunkOf (ms : MemoryStick) (localOffset size bytesDone : UInt32) : UInt32 :=
  let availableInStick := ms.size - localOffset
  let remaining := size - bytesDone
  if remaining < availableInStick then remaining else availableInStick

/-- The first four bytes of a buffer as a little-endian number: the `value` that is logged. -/
def loggedValue (bytes : List UInt8) : UInt32 :=
  (bytes.take 4).foldr (fun byte value => byte.toUInt32 + 256 * value) 0

/-- A line of the log of memory accesses. -/
inductive Accion where
  | leer (pid physicalAddress value : UInt32)
  | escribir (pid physicalAddress value : UInt32)
  deriving DecidableEq, Repr

/-- `memory_read` of the CPU: the bytes, the sticks and the line logged. -/
def memoryRead (sticks : List MemoryStick) (physicalAddress size pid : UInt32) :
    Option (Option (List UInt8) × List MemoryStick × List Accion) := do
  match ← readLoop getMemoryStickByAddress chunkOf physicalAddress size (size.toNat + 1) sticks
    0 [] with
  | (none, sticks) => pure (none, sticks, [])
  | (some result, sticks) =>
      pure (some result, sticks, [.leer pid physicalAddress (loggedValue result)])

/-- `memory_write` of the CPU. -/
def memoryWrite (sticks : List MemoryStick) (physicalAddress : UInt32) (data : List UInt8)
    (size pid : UInt32) : Option (Bool × List MemoryStick × List Accion) := do
  match ← writeLoop getMemoryStickByAddress chunkOf physicalAddress data size (size.toNat + 1)
    sticks 0 with
  | (false, sticks) => pure (false, sticks, [])
  | (true, sticks) =>
      pure (true, sticks,
        [.escribir pid physicalAddress (loggedValue (data.take size.toNat))])

end Cpu

/-! ### The two copies -/

/-- One copy of the code that accesses the sticks. -/
structure Copy where
  getMemoryStickByAddress : List MemoryStick → UInt32 → Option (Nat × UInt32)
  memoryRead : List MemoryStick → UInt32 → UInt32 →
    Option (Option (List UInt8) × List MemoryStick)
  memoryWrite : List MemoryStick → UInt32 → List UInt8 → UInt32 →
    Option (Bool × List MemoryStick)

def kernelMemory : Copy where
  getMemoryStickByAddress := getMemoryStickByAddress
  memoryRead := memoryRead
  memoryWrite := memoryWrite

/-- The code of a CPU that works for the process `pid`. -/
def cpu (pid : UInt32) : Copy where
  getMemoryStickByAddress := Cpu.getMemoryStickByAddress
  memoryRead sticks physicalAddress size :=
    (Cpu.memoryRead sticks physicalAddress size pid).map fun outcome => (outcome.1, outcome.2.1)
  memoryWrite sticks physicalAddress data size :=
    (Cpu.memoryWrite sticks physicalAddress data size pid).map fun outcome =>
      (outcome.1, outcome.2.1)

theorem findMemoryStick_eq (physicalAddress cursor : UInt32) (i : Nat)
    (sticks : List MemoryStick) :
    Cpu.findMemoryStick physicalAddress cursor i sticks =
      getMemoryStickFrom physicalAddress cursor i sticks := by
  induction sticks generalizing cursor i with
  | nil => rfl
  | cons ms rest ih =>
      unfold Cpu.findMemoryStick getMemoryStickFrom
      rw [ih]

theorem cpu_getMemoryStickByAddress : Cpu.getMemoryStickByAddress = getMemoryStickByAddress := by
  funext sticks physicalAddress
  exact findMemoryStick_eq physicalAddress 0 0 sticks

theorem cpu_chunkOf : Cpu.chunkOf = chunkSize := rfl

/-- **The two copies agree.** -/
theorem cpu_eq_kernelMemory (pid : UInt32) : cpu pid = kernelMemory := by
  have read : (cpu pid).memoryRead = kernelMemory.memoryRead := by
    funext sticks physicalAddress size
    simp only [cpu, kernelMemory, Cpu.memoryRead, memoryRead, cpu_getMemoryStickByAddress,
      cpu_chunkOf, bind]
    cases readLoop getMemoryStickByAddress chunkSize physicalAddress size (size.toNat + 1) sticks
      0 [] with
    | none => rfl
    | some outcome =>
        obtain ⟨result, sticks'⟩ := outcome
        cases result <;> rfl
  have write : (cpu pid).memoryWrite = kernelMemory.memoryWrite := by
    funext sticks physicalAddress data size
    simp only [cpu, kernelMemory, Cpu.memoryWrite, memoryWrite, cpu_getMemoryStickByAddress,
      cpu_chunkOf, bind]
    cases writeLoop getMemoryStickByAddress chunkSize physicalAddress data size (size.toNat + 1)
      sticks 0 with
    | none => rfl
    | some outcome =>
        obtain ⟨ok, sticks'⟩ := outcome
        cases ok <;> rfl
  have translation :
      (cpu pid).getMemoryStickByAddress = kernelMemory.getMemoryStickByAddress :=
    cpu_getMemoryStickByAddress
  cases same : cpu pid
  simp_all [kernelMemory]

/-! ### Which chunks get through -/

/-- The bytes of the sticks that a request is for. -/
def stored (sticks : List MemoryStick) (request : ChunkRequest) : List UInt8 :=
  slice (flat sticks) (request.span sticks).base request.chunk.toNat

/-- The bytes of the data that a request is for. -/
def part (data : List UInt8) (request : ChunkRequest) : List UInt8 :=
  slice data request.bytesDone.toNat request.chunk.toNat

/-- A read gets through: one `send` takes the answer, and the bytes have a text for the logs. -/
def Readable (sticks : List MemoryStick) (request : ChunkRequest) : Prop :=
  request.chunk.toNat + 12 ≤ maxTransfer ∧ Loggable (stored sticks request)

/-- A write gets through: one `send` takes the request, and the bytes have a text for the log. -/
def Writable (data : List UInt8) (request : ChunkRequest) : Prop :=
  request.chunk.toNat + 28 ≤ maxTransfer ∧ Loggable (part data request)

instance (sticks : List MemoryStick) (request : ChunkRequest) :
    Decidable (Readable sticks request) := by
  unfold Readable
  infer_instance

instance (data : List UInt8) (request : ChunkRequest) : Decidable (Writable data request) := by
  unfold Writable
  infer_instance

section Chunk

variable {ms : MemoryStick} {localOffset chunk : UInt32} {data : List UInt8}

/-- A stick that is asked for a package that fits. -/
theorem ask_of_fits {request : Request} (fits : Fits (packageOf request.opCode request.fields)) :
    ask ms (packageOf request.opCode request.fields) =
      (handle ms request).bind fun (responses, ms) =>
        match responses with
        | [response] =>
            (switch memoryStickHandler response).map fun (answer, _) => (answer, ms)
        | _ => none := by
  have turned := turn_request ms fits []
  rw [List.append_nil] at turned
  unfold ask
  simp only [bind, packageSend_of_fits fits, turned, Option.bind_some]
  cases handle ms request with
  | none => rfl
  | some served =>
      obtain ⟨responses, ms'⟩ := served
      cases responses with
      | nil => rfl
      | cons response rest =>
          cases rest with
          | nil =>
              simp only [Option.bind_some]
              cases switch memoryStickHandler response <;> rfl
          | cons _ _ => rfl

theorem memoryStickHandler_answer {answer : Answer} (fits : Fits (answerPackage answer)) :
    switch memoryStickHandler (packageSerialize (answerPackage answer)) = some (answer, []) := by
  obtain ⟨bytes, sent, taken⟩ := answer_received fits
  rw [packageSend_of_fits fits] at sent
  cases sent
  have read := taken []
  rwa [List.append_nil] at read

/-- What a stick answers to a read of its bytes. -/
theorem ask_read (inside : localOffset.toNat + chunk.toNat ≤ ms.size.toNat) :
    ask ms (packageOf .msRead [.uint32 localOffset, .uint32 chunk]) =
      if chunk.toNat + 12 ≤ maxTransfer ∧
          Loggable (slice ms.memory localOffset.toNat chunk.toNat) then
        some (.read (slice ms.memory localOffset.toNat chunk.toNat), ms)
      else none := by
  have request : Fits (packageOf (Request.read localOffset chunk).opCode
      (Request.read localOffset chunk).fields) := by
    rw [Fits, packageOf_stream]
    simp [Request.fields, Field.encode, Field.bytes, maxTransfer]
  have length : (slice ms.memory localOffset.toNat chunk.toNat).length = chunk.toNat :=
    length_slice (ms.length_memory ▸ inside)
  have stream := length_readResponse length
  have transfer := maxTransfer_lt
  refine (ask_of_fits request).trans ?_
  rw [handle_read_inside inside]
  by_cases loggable : Loggable (slice ms.memory localOffset.toNat chunk.toNat)
  · by_cases one : chunk.toNat + 12 ≤ maxTransfer
    · have fits : Fits (answerPackage (.read (slice ms.memory localOffset.toNat chunk.toNat))) := by
        rw [Fits, answerPackage, stream]
        exact one
      rw [if_pos ⟨loggable, by omega⟩, if_pos ⟨one, loggable⟩, List.take_of_length_le]
      · exact congrArg (Option.map _) (memoryStickHandler_answer fits)
      · rw [length_packageSerialize, stream]
        exact one
    · have long : ¬ Fits (packageOf .msReadResponse
          [.string (slice ms.memory localOffset.toNat chunk.toNat)]) := by
        rw [Fits, stream]
        exact one
      split
      · rename_i sent
        have waits : switch memoryStickHandler ((packageSerialize (packageOf .msReadResponse
            [.string (slice ms.memory localOffset.toNat chunk.toNat)])).take maxTransfer) = none :=
          switch_truncated rfl long (by omega)
        rw [if_neg fun both => one both.1]
        exact congrArg (Option.map _) waits
      · rw [if_neg fun both => one both.1]
        rfl
  · rw [if_neg fun both => loggable both.1, if_neg fun both => loggable both.2]
    rfl

/-- What a stick answers to a write of its bytes, and what it has then. -/
theorem ask_write (inside : localOffset.toNat + chunk.toNat ≤ ms.size.toNat)
    (length : data.length = chunk.toNat) (small : chunk.toNat < 2 ^ 31) :
    ∃ written, ms.handleWrite localOffset chunk data = .answered true written ∧
      ask ms (packageOf .msWrite [.uint32 localOffset, .uint32 chunk, .string data]) =
        if chunk.toNat + 28 ≤ maxTransfer ∧ Loggable data then some (.write true, written)
        else none := by
  have whole : data.take chunk.toNat = data := List.take_of_length_le length.le
  obtain ⟨written, answered, -, -, -, handled⟩ := handle_write_inside inside length.ge
  rw [whole] at answered handled
  have stream : (packageOf .msWrite
      [.uint32 localOffset, .uint32 chunk, .string data]).stream.length = chunk.toNat + 20 := by
    rw [packageOf_stream]
    simp only [List.flatMap_cons, List.flatMap_nil, List.length_append, Field.encode, Field.bytes,
      length_intBytes, length, List.length_nil]
    omega
  refine ⟨written, answered, ?_⟩
  by_cases one : chunk.toNat + 28 ≤ maxTransfer
  · have fits : Fits (packageOf (Request.write localOffset chunk data).opCode
        (Request.write localOffset chunk data).fields) := by
      change (packageOf .msWrite [.uint32 localOffset, .uint32 chunk, .string data]).stream.length
        + 2 * 4 ≤ maxTransfer
      omega
    refine (ask_of_fits fits).trans ?_
    rw [handled]
    by_cases loggable : Loggable data
    · have answer := memoryStickHandler_answer (fits_result true)
      rw [answerPackage] at answer
      rw [if_pos loggable, if_pos ⟨one, loggable⟩]
      simp only [Option.bind_some, answer, Option.map_some]
    · rw [if_neg loggable, if_neg fun both => loggable both.2]
      rfl
  · have long : ¬ Fits (packageOf .msWrite
        [.uint32 localOffset, .uint32 chunk, .string data]) := by
      unfold Fits
      omega
    rw [if_neg fun both => one both.1, ask, packageSend_eq (by omega)]
    split
    · simp only [bind, Option.bind_some, turn_truncated ms (.inr rfl) long (by omega),
        Option.bind_none]
    · rfl

end Chunk

/-! ### The requests of an access -/

/-- The sticks among devices that refuse nothing. -/
def answering (sticks : List MemoryStick) : Devices where
  listMemoryStick := sticks
  swapFile _ _ := 0
  refusals := []
  fresh _ := 0

section Requests

variable {sticks : List MemoryStick} {request : ChunkRequest} {data : List UInt8}

/-- The stick of a request, among the others. -/
theorem split_at_stick {i : Nat} {ms : MemoryStick} (here : sticks[i]? = some ms) :
    sticks = sticks.take i ++ ms :: sticks.drop (i + 1) ∧ (sticks.take i).length = i := by
  obtain ⟨bound, rfl⟩ := List.getElem?_eq_some_iff.mp here
  exact ⟨by simp, List.length_take_of_le bound.le⟩

/-- **A chunk is read** when it gets through, and as from devices that refuse nothing. -/
theorem msRead_eq (within : request.Within sticks) :
    (answering sticks).msRead request.stick request.localOffset request.chunk =
        (some (stored sticks request), answering sticks) ∧
      msRead sticks request.stick request.localOffset request.chunk =
        if Readable sticks request then some (stored sticks request, sticks) else none := by
  obtain ⟨-, ms, here, inside⟩ := within
  obtain ⟨split, position⟩ := split_at_stick here
  have idle : (answering sticks).msRead request.stick request.localOffset request.chunk =
      (some (stored sticks request), answering sticks) := by
    have spec := (answering sticks).msRead_spec split inside
    rwa [position] at spec
  have contents : slice ms.memory request.localOffset.toNat request.chunk.toNat =
      stored sticks request := by
    have found : (answering sticks).listMemoryStick[request.stick]? = some ms := here
    rw [Devices.msRead, found] at idle
    simp only [MemoryStick.handleRead_inside inside, Prod.mk.injEq, Option.some.injEq] at idle
    exact idle.1
  have length : (stored sticks request).length = request.chunk.toNat := by
    rw [← contents]
    exact length_slice (ms.length_memory ▸ inside)
  have bound := request.chunk.toNat_lt
  have text : (bytesToSafeString (stored sticks request)).isSome ↔
      Loggable (stored sticks request) := bytesToSafeString_isSome_iff (by omega)
  have taken : (copy request.chunk.toNat).from (stored sticks request) 0 =
      some (stored sticks request, request.chunk.toNat) := by
    have whole := (Reads.copy (stored sticks request)).whole
    rwa [length] at whole
  refine ⟨idle, ?_⟩
  have asked := ask_read inside
  rw [contents] at asked
  unfold msRead
  simp only [bind, here, Option.bind_some]
  by_cases through : Readable sticks request
  · obtain ⟨string, logged⟩ := Option.isSome_iff_exists.mp (text.mpr through.2)
    obtain ⟨valid, rfl⟩ := List.getElem?_eq_some_iff.mp here
    rw [asked.trans (if_pos through), if_pos through]
    simp only [Option.bind_some, StickBox.post, taken, logged, pure, List.set_getElem_self]
  · rw [asked.trans (if_neg through), if_neg through]
    rfl

/-- **A chunk is written** when it gets through, and as to devices that refuse nothing. -/
theorem msWrite_eq (within : request.Within sticks)
    (room : request.bytesDone.toNat + request.chunk.toNat ≤ data.length) :
    ∃ sticks', (answering sticks).msWrite request.stick request.localOffset request.chunk
          (slice data request.bytesDone.toNat request.chunk.toNat) = (true, answering sticks') ∧
        sticks'.map MemoryStick.size = sticks.map MemoryStick.size ∧
      msWrite sticks request.stick request.localOffset request.chunk request.bytesDone data =
        if Writable data request then some (true, sticks') else none := by
  obtain ⟨-, ms, here, inside⟩ := within
  have length : (part data request).length = request.chunk.toNat := length_slice room
  obtain ⟨written, answered, -, same_size, -⟩ := MemoryStick.handleWrite_inside inside length
  have idle : (answering sticks).msWrite request.stick request.localOffset request.chunk
      (part data request) = (true, answering (sticks.set request.stick written)) := by
    have found : (answering sticks).listMemoryStick[request.stick]? = some ms := here
    simp only [Devices.msWrite, found, answered]
    rfl
  have sizes := (answering sticks).msWrite_sizes request.stick request.localOffset request.chunk
    (part data request)
  rw [idle] at sizes
  refine ⟨_, idle, sizes, ?_⟩
  unfold msWrite
  simp only [bind, here, Option.bind_some]
  by_cases small : request.chunk.toNat < 2 ^ 31
  · obtain ⟨written', answered', asked⟩ := ask_write inside length small
    obtain rfl : written' = written := by
      rw [answered] at answered'
      cases answered'
      rfl
    rw [sizedField_of_small small, Option.bind_some]
    by_cases through : Writable data request
    · rw [if_pos through]
      exact congrArg (fun answer => Option.bind answer _) (asked.trans (if_pos through))
    · rw [if_neg through]
      exact congrArg (fun answer => Option.bind answer _) (asked.trans (if_neg through))
  · have transfer := maxTransfer_lt
    have lost : ¬ Writable data request := fun through => by
      have short := through.1
      omega
    rw [sizedField_of_large (by omega) request.chunk.toNat_lt, if_neg lost]
    rfl

end Requests

/-- The requests of a read, one after another. -/
def readAll : List ChunkRequest → List MemoryStick → List UInt8 →
    Option (List UInt8 × List MemoryStick)
  | [], sticks, result => some (result, sticks)
  | request :: rest, sticks, result => do
      let (data, sticks) ← msRead sticks request.stick request.localOffset request.chunk
      readAll rest sticks (result ++ data)

/-- The requests of a write, one after another until one fails. -/
def writeAll (data : List UInt8) : List ChunkRequest → List MemoryStick →
    Option (Bool × List MemoryStick)
  | [], sticks => some (true, sticks)
  | request :: rest, sticks => do
      match ← msWrite sticks request.stick request.localOffset request.chunk request.bytesDone
        data with
      | (false, sticks) => some (false, sticks)
      | (true, sticks) => writeAll data rest sticks

/-- What a read of a list of requests returns: nothing unless they cover the access. -/
def readOutcome (requests : List ChunkRequest × Bool) (sticks : List MemoryStick)
    (result : List UInt8) : Option (Option (List UInt8) × List MemoryStick) :=
  (readAll requests.1 sticks result).map fun (result, sticks) =>
    (if requests.2 then some result else none, sticks)

/-- What a write of a list of requests returns. -/
def writeOutcome (requests : List ChunkRequest × Bool) (data : List UInt8)
    (sticks : List MemoryStick) : Option (Bool × List MemoryStick) :=
  (writeAll data requests.1 sticks).map fun (ok, sticks) => (ok && requests.2, sticks)

section Accesses

variable {sticks : List MemoryStick} {physicalAddress size bytesDone : UInt32}
  {data result : List UInt8}

theorem stickTotal_congr {sticks' : List MemoryStick}
    (same : sticks'.map MemoryStick.size = sticks.map MemoryStick.size) :
    stickTotal sticks' = stickTotal sticks := by
  have sizes := congrArg (fun sizes => (sizes.map UInt32.toNat).sum) same
  simp only [List.map_map] at sizes
  exact sizes

/-- A turn of a loop: the stick that is found, its chunk, and how far the loop is then. -/
theorem turn_spec (fits : stickTotal sticks < 2 ^ 32) (more : bytesDone < size) {i : Nat}
    {localOffset : UInt32}
    (found : getMemoryStickByAddress sticks (physicalAddress + bytesDone) = some (i, localOffset)) :
    ∃ ms, sticks[i]? = some ms ∧
      ChunkRequest.Within sticks
        ⟨i, localOffset, chunkSize ms localOffset size bytesDone, bytesDone⟩ ∧
      bytesDone.toNat < (bytesDone + chunkSize ms localOffset size bytesDone).toNat ∧
      bytesDone + chunkSize ms localOffset size bytesDone ≤ size ∧
      bytesDone.toNat + (chunkSize ms localOffset size bytesDone).toNat ≤ size.toNat := by
  obtain ⟨before, ms, after, rfl, rfl, -, inside⟩ := getMemoryStickByAddress_spec fits found
  have here : (before ++ ms :: after)[before.length]? = some ms := by simp
  obtain ⟨positive, within, progress⟩ := chunkSize_spec inside more
  have bound := size.toNat_lt
  have next : (bytesDone + chunkSize ms localOffset size bytesDone).toNat =
      bytesDone.toNat + (chunkSize ms localOffset size bytesDone).toNat := by
    rw [UInt32.toNat_add]
    omega
  refine ⟨ms, here, ⟨UInt32.le_iff_toNat_le.mpr positive, ms, here, within⟩, ?_, ?_, progress⟩
  · omega
  · rw [UInt32.le_iff_toNat_le]
    omega

/-- The loop of `memory_read` makes its requests, and ends. -/
theorem readLoop_eq (fits : stickTotal sticks < 2 ^ 32) {fuel : Nat}
    (enough : size.toNat < fuel + bytesDone.toNat) (started : bytesDone ≤ size) :
    readLoop getMemoryStickByAddress chunkSize physicalAddress size fuel sticks bytesDone result =
      readOutcome (chunkRequests sticks physicalAddress size fuel bytesDone) sticks result := by
  unfold readOutcome
  induction fuel generalizing bytesDone result with
  | zero =>
      rw [UInt32.le_iff_toNat_le] at started
      omega
  | succ fuel ih =>
      unfold readLoop chunkRequests
      by_cases more : bytesDone < size
      · rw [if_pos more, if_pos more]
        cases found : getMemoryStickByAddress sticks (physicalAddress + bytesDone) with
        | none => rfl
        | some place =>
            obtain ⟨i, localOffset⟩ := place
            obtain ⟨ms, here, within, later, bounded, -⟩ := turn_spec fits more found
            have asked := (msRead_eq within).2
            simp only [here, readAll, bind, Option.bind_some] at asked ⊢
            rw [asked]
            split
            · exact ih (by omega) bounded
            · rfl
      · rw [if_neg more, if_neg more]
        rfl

/-- The loop of `memory_write` makes its requests, and ends. -/
theorem writeLoop_eq (fits : stickTotal sticks < 2 ^ 32) {fuel : Nat}
    (enough : size.toNat < fuel + bytesDone.toNat) (started : bytesDone ≤ size)
    (exact_size : data.length = size.toNat) :
    writeLoop getMemoryStickByAddress chunkSize physicalAddress data size fuel sticks bytesDone =
      writeOutcome (chunkRequests sticks physicalAddress size fuel bytesDone) data sticks := by
  unfold writeOutcome
  induction fuel generalizing sticks bytesDone with
  | zero =>
      rw [UInt32.le_iff_toNat_le] at started
      omega
  | succ fuel ih =>
      unfold writeLoop chunkRequests
      by_cases more : bytesDone < size
      · rw [if_pos more, if_pos more]
        cases found : getMemoryStickByAddress sticks (physicalAddress + bytesDone) with
        | none => rfl
        | some place =>
            obtain ⟨i, localOffset⟩ := place
            obtain ⟨ms, here, within, later, bounded, room⟩ := turn_spec fits more found
            obtain ⟨sticks', -, sizes, asked⟩ := msWrite_eq within (exact_size ▸ room)
            simp only [here, writeAll, bind, Option.bind_some] at asked ⊢
            rw [asked]
            split
            · have rest := ih (stickTotal_congr sizes ▸ fits) (by omega) bounded
              rw [chunkRequests_congr sizes] at rest
              exact rest
            · rfl
      · rw [if_neg more, if_neg more]
        rfl

/-- The requests of a read, when each of them is for bytes of its stick. -/
theorem readAll_eq (requests : List ChunkRequest) (result : List UInt8)
    (within : ∀ request ∈ requests, request.Within sticks) :
    KernelMemory.readAll requests (answering sticks) result =
        (some (result ++ requests.flatMap (stored sticks)), answering sticks) ∧
      readAll requests sticks result =
        if ∀ request ∈ requests, Readable sticks request then
          some (result ++ requests.flatMap (stored sticks), sticks)
        else none := by
  induction requests generalizing result with
  | nil => simp [KernelMemory.readAll, readAll]
  | cons request rest ih =>
      obtain ⟨idle, asked⟩ := msRead_eq (within request List.mem_cons_self)
      obtain ⟨later, through⟩ := ih (result ++ stored sticks request)
        fun other mem => within other (List.mem_cons_of_mem _ mem)
      rw [KernelMemory.readAll, idle, readAll, asked, List.flatMap_cons, ← List.append_assoc]
      refine ⟨later, ?_⟩
      simp only [List.forall_mem_cons]
      by_cases readable : Readable sticks request
      · rw [if_pos readable]
        simp only [readable, true_and]
        exact through
      · rw [if_neg readable, if_neg fun both => readable both.1]
        rfl

/-- The requests of a write, when each of them is for bytes of its stick and of the data. -/
theorem writeAll_eq (requests : List ChunkRequest)
    (within : ∀ request ∈ requests, request.Within sticks)
    (room : ∀ request ∈ requests, request.bytesDone.toNat + request.chunk.toNat ≤ data.length) :
    ∃ sticks', KernelMemory.writeAll data requests (answering sticks) =
        (true, answering sticks') ∧
      sticks'.map MemoryStick.size = sticks.map MemoryStick.size ∧
      writeAll data requests sticks =
        if ∀ request ∈ requests, Writable data request then some (true, sticks') else none := by
  induction requests generalizing sticks with
  | nil => exact ⟨sticks, rfl, rfl, by simp [writeAll]⟩
  | cons request rest ih =>
      obtain ⟨sticks₁, idle, sizes, asked⟩ :=
        msWrite_eq (within request List.mem_cons_self) (room request List.mem_cons_self)
      obtain ⟨sticks', later, same, through⟩ := ih
        (fun other mem => (within other (List.mem_cons_of_mem _ mem)).of_sizes sizes)
        fun other mem => room other (List.mem_cons_of_mem _ mem)
      refine ⟨sticks', ?_, same.trans sizes, ?_⟩
      · rw [KernelMemory.writeAll, idle]
        exact later
      · simp only [List.forall_mem_cons]
        rw [writeAll, asked]
        by_cases writable : Writable data request
        · rw [if_pos writable]
          simp only [writable, true_and]
          exact through
        · rw [if_neg writable, if_neg fun both => writable both.1]
          rfl

/-- The requests are for bytes of the data. -/
theorem chunkRequests_room (fits : stickTotal sticks < 2 ^ 32) (fuel : Nat) (bytesDone : UInt32) :
    ∀ request ∈ (chunkRequests sticks physicalAddress size fuel bytesDone).1,
      request.bytesDone.toNat + request.chunk.toNat ≤ size.toNat := by
  induction fuel generalizing bytesDone with
  | zero => simp [chunkRequests]
  | succ fuel ih =>
      intro request mem
      unfold chunkRequests at mem
      split at mem
      · rename_i more
        split at mem
        · simp at mem
        · rename_i i localOffset found
          obtain ⟨ms, here, -, -, -, room⟩ := turn_spec fits more found
          rw [here] at mem
          rcases List.mem_cons.mp mem with rfl | later
          · exact room
          · exact ih _ request later
      · simp at mem

/-- **A read returns** exactly when all its chunks get through, and then as from devices that
refuse nothing. -/
theorem memoryRead_eq (fits : stickTotal sticks < 2 ^ 32) :
    memoryRead sticks physicalAddress size =
      if ∀ request ∈ accessRequests sticks physicalAddress size, Readable sticks request then
        some ((KernelMemory.memoryRead (answering sticks) physicalAddress size).1, sticks)
      else none := by
  have loop := @readLoop_eq sticks physicalAddress size 0 [] fits (size.toNat + 1) (by simp)
    (by simp)
  obtain ⟨idle, asked⟩ := readAll_eq (accessRequests sticks physicalAddress size) []
    (chunkRequests_within fits _ 0)
  have plain : KernelMemory.memoryRead (answering sticks) physicalAddress size =
      KernelMemory.readOutcome (chunkRequests sticks physicalAddress size (size.toNat + 1) 0)
        (answering sticks) [] := memoryReadLoop_eq ..
  rw [memoryRead, loop, readOutcome, plain, KernelMemory.readOutcome]
  unfold accessRequests at idle asked ⊢
  rw [idle, asked]
  by_cases through : ∀ request ∈
      (chunkRequests sticks physicalAddress size (size.toNat + 1) 0).1, Readable sticks request
  · rw [if_pos through, if_pos through]
    cases (chunkRequests sticks physicalAddress size (size.toNat + 1) 0).2 <;> rfl
  · rw [if_neg through, if_neg through]
    rfl

/-- **A write returns** exactly when all its chunks get through, and then as to devices that
refuse nothing. -/
theorem memoryWrite_eq (fits : stickTotal sticks < 2 ^ 32) (exact_size : data.length = size.toNat) :
    ∃ ok sticks', KernelMemory.memoryWrite (answering sticks) physicalAddress data size =
        (ok, answering sticks') ∧
      sticks'.map MemoryStick.size = sticks.map MemoryStick.size ∧
      memoryWrite sticks physicalAddress data size =
        if ∀ request ∈ accessRequests sticks physicalAddress size, Writable data request then
          some (ok, sticks')
        else none := by
  have loop := @writeLoop_eq sticks physicalAddress size 0 data fits (size.toNat + 1) (by simp)
    (by simp) exact_size
  obtain ⟨sticks', idle, sizes, asked⟩ := writeAll_eq (accessRequests sticks physicalAddress size)
    (chunkRequests_within fits _ 0) (exact_size ▸ chunkRequests_room fits _ 0)
  have plain : KernelMemory.memoryWrite (answering sticks) physicalAddress data size =
      KernelMemory.writeOutcome (chunkRequests sticks physicalAddress size (size.toNat + 1) 0)
        data (answering sticks) := memoryWriteLoop_eq ..
  rw [memoryWrite, loop, writeOutcome, plain, KernelMemory.writeOutcome]
  unfold accessRequests at idle asked ⊢
  rw [idle, asked]
  refine ⟨_, sticks', rfl, sizes, ?_⟩
  by_cases through : ∀ request ∈
      (chunkRequests sticks physicalAddress size (size.toNat + 1) 0).1, Writable data request
  · rw [if_pos through, if_pos through]
    rfl
  · rw [if_neg through, if_neg through]
    rfl

end Accesses

/-! ### The flat array -/

/-- The range of an access is empty or inside the sticks, in unbounded numbers. -/
def InRange (sticks : List MemoryStick) (physicalAddress size : UInt32) : Prop :=
  size = 0 ∨ physicalAddress.toNat + size.toNat ≤ stickTotal sticks

/-- The accesses of a copy to the sticks are accesses to one flat array. -/
structure RefinesFlatArray (copy : Copy) (sticks : List MemoryStick)
    (physicalAddress size : UInt32) (data : List UInt8) : Prop where
  /-- Every write returns: `true` exactly when it is in range. -/
  written_iff : ∃ ok sticks', copy.memoryWrite sticks physicalAddress data size =
    some (ok, sticks') ∧ (ok = true ↔ InRange sticks physicalAddress size)
  /-- What a write in range leaves in the array. -/
  written : InRange sticks physicalAddress size →
    ∃ sticks', copy.memoryWrite sticks physicalAddress data size = some (true, sticks') ∧
      flat sticks' = writeAt (flat sticks) physicalAddress.toNat data
  /-- No write moves a stick. -/
  layout : ∀ ok sticks', copy.memoryWrite sticks physicalAddress data size = some (ok, sticks') →
    sticks'.map MemoryStick.size = sticks.map MemoryStick.size
  /-- A read in range returns its slice. -/
  read : InRange sticks physicalAddress size →
    copy.memoryRead sticks physicalAddress size =
      some (some (slice (flat sticks) physicalAddress.toNat size.toNat), sticks)
  /-- The other reads return `NULL`. -/
  not_read : ¬ InRange sticks physicalAddress size →
    copy.memoryRead sticks physicalAddress size = some (none, sticks)
  /-- Both loops make one list of requests, each of them inside its stick, and end. -/
  requests : ∃ requests : List ChunkRequest × Bool,
    copy.memoryRead sticks physicalAddress size = readOutcome requests sticks [] ∧
      copy.memoryWrite sticks physicalAddress data size = writeOutcome requests data sticks ∧
      (∀ request ∈ requests.1, request.Within sticks) ∧
      ChunkRequests.Ends sticks physicalAddress size 0 requests
  /-- A stick added at the end is behind every address that there was. -/
  appended : ∀ ms, stickTotal (sticks ++ [ms]) < 2 ^ 32 →
    ∀ address : UInt32, address.toNat < stickTotal sticks →
      copy.getMemoryStickByAddress (sticks ++ [ms]) address =
          copy.getMemoryStickByAddress sticks address ∧
        (flat (sticks ++ [ms]))[address.toNat]? = (flat sticks)[address.toNat]?

theorem getMemoryStickFrom_append {sticks : List MemoryStick} (ms : MemoryStick)
    {physicalAddress cursor : UInt32} {i : Nat} {place : Nat × UInt32}
    (found : getMemoryStickFrom physicalAddress cursor i sticks = some place) :
    getMemoryStickFrom physicalAddress cursor i (sticks ++ [ms]) = some place := by
  induction sticks generalizing cursor i with
  | nil => cases found
  | cons first rest ih =>
      rw [List.cons_append]
      unfold getMemoryStickFrom at found ⊢
      split
      · rename_i here
        rwa [if_pos here] at found
      · rename_i later
        rw [if_neg later] at found
        exact ih found

section FlatArray

variable {sticks : List MemoryStick} {physicalAddress size : UInt32} {data : List UInt8}

/-- Devices that refuse nothing write what is in range. -/
theorem answering_written_iff (fits : stickTotal sticks < 2 ^ 32)
    (exact_size : data.length = size.toNat) :
    (KernelMemory.memoryWrite (answering sticks) physicalAddress data size).1 = true ↔
      InRange sticks physicalAddress size := by
  obtain ⟨-, stored, success⟩ := memoryWrite_spec (answering sticks) physicalAddress fits exact_size
  constructor
  · intro ok
    by_cases empty : size = 0
    · exact .inl empty
    · exact .inr ((stored ok).2 (UInt32.pos_iff_ne_zero.mpr empty))
  · intro within
    rcases within with rfl | inside
    · rfl
    · exact success rfl inside

/-- They read what is in range. -/
theorem answering_read (fits : stickTotal sticks < 2 ^ 32)
    (within : InRange sticks physicalAddress size) :
    (KernelMemory.memoryRead (answering sticks) physicalAddress size).1 =
      some (slice (flat sticks) physicalAddress.toNat size.toNat) := by
  rcases within with rfl | inside
  · simp [KernelMemory.memoryRead, memoryReadLoop]
  · exact congrArg Prod.fst (memoryRead_inside (d := answering sticks) fits inside)

theorem answering_not_read (fits : stickTotal sticks < 2 ^ 32)
    (outside : ¬ InRange sticks physicalAddress size) :
    (KernelMemory.memoryRead (answering sticks) physicalAddress size).1 = none := by
  cases answer : (KernelMemory.memoryRead (answering sticks) physicalAddress size).1 with
  | none => rfl
  | some result =>
      have spec := (memoryRead_spec (answering sticks) physicalAddress size fits).1 result answer
      have some_bytes : size ≠ 0 := fun empty => outside (.inl empty)
      exact absurd (.inr (spec.2 (UInt32.pos_iff_ne_zero.mpr some_bytes))) outside

/-- The translation of an address stays when a stick comes. -/
theorem translation_append (fits : stickTotal sticks < 2 ^ 32) (ms : MemoryStick)
    {address : UInt32} (inside : address.toNat < stickTotal sticks) :
    getMemoryStickByAddress (sticks ++ [ms]) address = getMemoryStickByAddress sticks address ∧
      (flat (sticks ++ [ms]))[address.toNat]? = (flat sticks)[address.toNat]? := by
  constructor
  · cases found : getMemoryStickByAddress sticks address with
    | none =>
        have outside := (getMemoryStickByAddress_eq_none fits).mp found
        omega
    | some place => exact getMemoryStickFrom_append ms found
  · rw [flat_append, List.getElem?_append_left (by rw [length_flat]; exact inside)]

/-- **The sticks are one flat array for Kernel Memory** exactly for the accesses whose chunks
get through. -/
theorem kernelMemory_refines_iff (fits : stickTotal sticks < 2 ^ 32)
    (exact_size : data.length = size.toNat) :
    RefinesFlatArray kernelMemory sticks physicalAddress size data ↔
      ∀ request ∈ accessRequests sticks physicalAddress size,
        Readable sticks request ∧ Writable data request := by
  have read := @memoryRead_eq sticks physicalAddress size fits
  obtain ⟨ok, sticks', idle, sizes, write⟩ := @memoryWrite_eq sticks physicalAddress size data fits
    exact_size
  have ok_iff := @answering_written_iff sticks physicalAddress size data fits exact_size
  obtain ⟨-, written, -⟩ := memoryWrite_spec (answering sticks) physicalAddress fits exact_size
  constructor
  · intro refines
    obtain ⟨ok, sticks', returned, -⟩ := refines.written_iff
    have readable : ∀ request ∈ accessRequests sticks physicalAddress size,
        Readable sticks request := by
      by_contra lost
      rw [if_neg lost] at read
      by_cases within : InRange sticks physicalAddress size
      · have answered := refines.read within
        change memoryRead _ _ _ = _ at answered
        rw [read] at answered
        cases answered
      · have answered := refines.not_read within
        change memoryRead _ _ _ = _ at answered
        rw [read] at answered
        cases answered
    have writable : ∀ request ∈ accessRequests sticks physicalAddress size,
        Writable data request := by
      by_contra lost
      rw [if_neg lost] at write
      change memoryWrite _ _ _ _ = _ at returned
      rw [write] at returned
      cases returned
    exact fun request mem => ⟨readable request mem, writable request mem⟩
  · intro through
    rw [if_pos fun request mem => (through request mem).1] at read
    rw [if_pos fun request mem => (through request mem).2] at write
    rw [idle] at ok_iff written
    constructor
    case written_iff => exact ⟨ok, sticks', write, ok_iff⟩
    case written =>
      intro within
      obtain rfl : ok = true := ok_iff.mpr within
      exact ⟨sticks', write, (written rfl).1⟩
    case layout =>
      intro ok₁ sticks₁ returned
      change memoryWrite _ _ _ _ = _ at returned
      rw [write] at returned
      cases returned
      exact sizes
    case read =>
      intro within
      rw [answering_read fits within] at read
      exact read
    case not_read =>
      intro outside
      rw [answering_not_read fits outside] at read
      exact read
    case requests =>
      refine ⟨chunkRequests sticks physicalAddress size (size.toNat + 1) 0, ?_, ?_,
        chunkRequests_within fits _ 0, chunkRequests_ends fits (by simp) (by simp)⟩
      · exact readLoop_eq fits (by simp) (by simp)
      · exact writeLoop_eq fits (by simp) (by simp) exact_size
    case appended => exact fun ms _ address => translation_append fits ms

end FlatArray

/-- **Kernel Memory and the CPUs use the sticks as one flat array** exactly for the accesses
whose chunks get through; and their two copies of the code agree on all of them. -/
theorem refines_flat_array_iff (sticks : List MemoryStick) (physicalAddress size pid : UInt32)
    (data : List UInt8) (fits : stickTotal sticks < 2 ^ 32)
    (exact_size : data.length = size.toNat) :
    (RefinesFlatArray kernelMemory sticks physicalAddress size data ↔
        ∀ request ∈ accessRequests sticks physicalAddress size,
          Readable sticks request ∧ Writable data request) ∧
      (RefinesFlatArray (cpu pid) sticks physicalAddress size data ↔
        ∀ request ∈ accessRequests sticks physicalAddress size,
          Readable sticks request ∧ Writable data request) ∧ cpu pid = kernelMemory := by
  have iff := @kernelMemory_refines_iff sticks physicalAddress size data fits exact_size
  refine ⟨iff, ?_, cpu_eq_kernelMemory pid⟩
  rw [cpu_eq_kernelMemory]
  exact iff

def threeSticks : List MemoryStick := [.fresh 1 2, .fresh 2 1, .fresh 3 4]

/-- A write from the middle of the first to the middle of the last. -/
theorem refines_flat_array_of_threeSticks :
    stickTotal threeSticks = 7 ∧
      RefinesFlatArray kernelMemory threeSticks 1 4 [1, 2, 3, 4] ∧
      RefinesFlatArray (cpu 9) threeSticks 1 4 [1, 2, 3, 4] ∧ cpu 9 = kernelMemory := by
  obtain ⟨kernel, own, same⟩ :=
    refines_flat_array_iff threeSticks 1 4 9 [1, 2, 3, 4] (by decide) rfl
  exact ⟨by decide, kernel.mpr (by decide), own.mpr (by decide), same⟩

/-- An access to all of one stick is one request. -/
theorem accessRequests_whole {size : UInt32} (positive : 0 < size) (id : UInt32) :
    (⟨0, 0, size, 0⟩ : ChunkRequest) ∈ accessRequests [.fresh id size] 0 size := by
  have found : getMemoryStickByAddress [.fresh id size] (0 + 0) = some (0, 0) := by
    simp [getMemoryStickByAddress, getMemoryStickFrom, MemoryStick.fresh, positive]
  have chunk : chunkSize (.fresh id size) 0 size 0 = size := by
    simp [chunkSize, MemoryStick.fresh]
  unfold accessRequests chunkRequests
  simp only [if_pos positive, found, List.getElem?_cons_zero, chunk]
  exact List.mem_cons_self

/-- **A long chunk is lost**: a write of `2 ^ 31 - 28` bytes to a stick of that size kills its
sender. -/
theorem long_chunk_lost : ∃ (size : UInt32) (data : List UInt8),
    size.toNat = 2 ^ 31 - 28 ∧ data.length = size.toNat ∧ InRange [.fresh 0 size] 0 size ∧
      kernelMemory.memoryWrite [.fresh 0 size] 0 data size = none ∧
      ¬ RefinesFlatArray kernelMemory [.fresh 0 size] 0 size data ∧
      ¬ RefinesFlatArray (cpu 0) [.fresh 0 size] 0 size data := by
  have exists_size : ∃ size : UInt32, size.toNat = 2 ^ 31 - 28 := ⟨2147483620, by decide⟩
  have exists_data : ∀ n : Nat, ∃ data : List UInt8, data.length = n :=
    fun n => ⟨List.replicate n 65, List.length_replicate⟩
  obtain ⟨size, size_eq⟩ := exists_size
  obtain ⟨data, length⟩ := exists_data size.toNat
  have total : stickTotal [.fresh 0 size] = size.toNat := Nat.add_zero _
  have positive : 0 < size := by
    rw [UInt32.lt_iff_toNat_lt, size_eq]
    decide
  have fits : stickTotal [.fresh 0 size] < 2 ^ 32 := by omega
  have lost : ¬ Writable data ⟨0, 0, size, 0⟩ := fun through => by
    have short := through.1
    simp only [size_eq] at short
    exact absurd short (by decide)
  have refuted : ¬ RefinesFlatArray kernelMemory [.fresh 0 size] 0 size data := by
    rw [kernelMemory_refines_iff fits length]
    exact fun through => lost (through _ (accessRequests_whole positive 0)).2
  refine ⟨size, data, size_eq, length, ?_, ?_, refuted, ?_⟩
  · right
    rw [total, UInt32.toNat_zero, Nat.zero_add]
  · obtain ⟨ok, sticks', -, -, write⟩ := @memoryWrite_eq [.fresh 0 size] 0 size data fits length
    rw [if_neg fun through => lost (through _ (accessRequests_whole positive 0))] at write
    exact write
  · rwa [cpu_eq_kernelMemory]

end OsModel.StickAccesses
