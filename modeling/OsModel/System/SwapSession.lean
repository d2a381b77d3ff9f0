import OsModel.KernelMemory.SwapChunks
import OsModel.Lib.Exchange
import OsModel.Swap
import OsModel.System.Wires

/-!
Kernel Memory and SWAP: `write_segment_to_swap` and `read_segment_from_swap` ask for blocks,
`main` of SWAP serves them, and `swap_handler` wakes the thread that has asked.

The file of SWAP, the packages and the semaphores are one object for the thread, the store of
blocks of `swapOut` and `swapIn` (`swap_is_store`).
-/

namespace OsModel.SwapSession

open Lib Net Swap Wires
open KernelMemory.SwapChunks (swapOut swapIn)

/-! ### The connection -/

def requestPackage (swapBlockSize : UInt32) : Request → Option Package
  | .swapIn blockNum => packageOf .swapIn [.uint32 blockNum]
  | .swapOut blockNum blockBuffer => do
      let field ← sizedField blockBuffer swapBlockSize.toNat
      pure (packageOf .swapOut [.uint32 blockNum, field])

/-- The cases of `main` in SWAP. The size in front of a block is skipped: a block has the size
of all blocks. -/
def swapMain (blockSize : UInt32) : OpCode → Case Request
  | .swapIn => .fields [.uint32] fun
      | [.uint32 blockNumber] => some (.swapIn blockNumber)
      | _ => none
  | .swapOut => .reader do
      let blockNumber ← uint32Deserialize
      let _ ← copy 4
      let blockData ← copy blockSize.toNat
      pure (.swapOut blockNumber blockData)
  | _ => .default

def answerPackage (blockSize : UInt32) : Answer → Option Package
  | .swapIn buffer => do
      let field ← sizedField buffer blockSize.toNat
      pure (packageOf .swapIn [field])
  | .swapOut => packageOf .swapOut []

/-- The cases of `swap_handler` in Kernel Memory. -/
def swapHandler : OpCode → Case Answer
  | .swapIn => .fields [.string] fun
      | [.string data] => some (.swapIn data)
      | _ => none
  | .swapOut => .fields [] fun
      | [] => some .swapOut
      | _ => none
  | _ => .default

/-- The blocks that go to and fro have the size that SWAP has announced, and the texts about
them fit the log. -/
structure BlockSize where
  size : UInt32
  positive : 0 < size
  small : 4 * size.toNat < 2 ^ 31

section Connection

variable (blockSize : BlockSize)

/-- A block that is sent is whole. -/
def RequestFits : Request → Prop
  | .swapIn _ => True
  | .swapOut _ blockBuffer => blockBuffer.length = blockSize.size.toNat

/-- A block that is answered is whole. -/
def AnswerFits : Answer → Prop
  | .swapIn data => data.length = blockSize.size.toNat
  | .swapOut => True

variable {blockSize}

theorem sizedField_whole {block : List UInt8} (whole : block.length = blockSize.size.toNat) :
    sizedField block blockSize.size.toNat = some (.string block) := by
  have small := blockSize.small
  rw [sizedField_of_small (by omega), List.take_of_length_le whole.le]

theorem short_of_whole {block : List UInt8} (whole : block.length = blockSize.size.toNat) :
    4 * block.length < 2 ^ 31 := by
  rw [whole]
  exact blockSize.small

theorem swapMain_receives {request : Request} (fits : RequestFits blockSize request) :
    ∃ bytes, (requestPackage blockSize.size request).bind packageSend = some bytes ∧
      Consumes (switch (swapMain blockSize.size)) bytes request := by
  have small := blockSize.small
  cases request with
  | swapIn blockNum =>
      have short : Fits (packageOf .swapIn [.uint32 blockNum]) := by
        rw [Fits, packageOf_stream]
        simp [Field.encode, Field.bytes, maxTransfer]
      exact fields_received short rfl rfl rfl
  | swapOut blockNum blockBuffer =>
      have whole : blockBuffer.length = blockSize.size.toNat := fits
      have stream : (packageOf .swapOut [.uint32 blockNum, .string blockBuffer]).stream =
          (Field.uint32 blockNum).encode ++ (intBytes blockBuffer.length ++ blockBuffer) := by
        rw [packageOf_stream]
        simp [Field.encode, Field.bytes]
      have short : Fits (packageOf .swapOut [.uint32 blockNum, .string blockBuffer]) := by
        rw [Fits, stream]
        simp [Field.encode, Field.bytes, whole, maxTransfer]
        omega
      simp only [requestPackage, sizedField_whole whole, bind, Option.bind_some]
      apply reader_received short rfl
      rw [stream]
      have skipped := Reads.copy (intBytes blockBuffer.length)
      rw [length_intBytes] at skipped
      have block := Reads.copy blockBuffer
      rw [whole] at block
      exact (uint32Deserialize_reads blockNum).bind (skipped.bind block.bind_pure)

theorem swapHandler_receives {answer : Answer} (fits : AnswerFits blockSize answer) :
    ∃ bytes, (answerPackage blockSize.size answer).bind packageSend = some bytes ∧
      Consumes (switch swapHandler) bytes answer := by
  have small := blockSize.small
  cases answer with
  | swapIn data =>
      have whole : data.length = blockSize.size.toNat := fits
      have short : Fits (packageOf .swapIn [.string data]) := by
        rw [Fits, packageOf_stream]
        simp [Field.encode, Field.bytes, whole, maxTransfer]
        omega
      simp only [answerPackage, sizedField_whole whole, bind, Option.bind_some]
      exact fields_received short rfl rfl rfl
  | swapOut =>
      have short : Fits (packageOf .swapOut []) := by
        rw [Fits, packageOf_stream]
        simp [maxTransfer]
      exact fields_received short rfl rfl rfl

/-- The connection from Kernel Memory to SWAP. -/
def requestCodec (blockSize : BlockSize) : Codec Request where
  send request := (requestPackage blockSize.size request).bind packageSend
  receive := switch (swapMain blockSize.size)
  fits := RequestFits blockSize
  sent _ := swapMain_receives
  patient := switch_patient _
  waits := rfl

/-- The connection from SWAP to Kernel Memory. -/
def answerCodec (blockSize : BlockSize) : Codec Answer where
  send answer := (answerPackage blockSize.size answer).bind packageSend
  receive := switch swapHandler
  fits := AnswerFits blockSize
  sent _ := swapHandler_receives
  patient := switch_patient _
  waits := rfl

end Connection

/-! ### The code of the parties -/

/-- What `swap_handler` leaves for the thread that asks. -/
structure SwapBox where
  swapReadResponse : Option (List UInt8)
  swapReadResponseSem : Nat
  semSwapWriteDone : Nat

/-- What `main` of Kernel Memory sets up. -/
def SwapBox.init : SwapBox := ⟨none, 0, 0⟩

/-- `swap_handler` after it has taken an answer. -/
def SwapBox.post (box : SwapBox) : Answer → SwapBox
  | .swapIn data =>
      { box with
        swapReadResponse := some data
        swapReadResponseSem := box.swapReadResponseSem + 1 }
  | .swapOut => { box with semSwapWriteDone := box.semSwapWriteDone + 1 }

/-- The thread behind its `sem_wait`, with the block that it takes. -/
def SwapBox.take (box : SwapBox) : Request → Option (List UInt8) → Option SwapBox
  | .swapIn _, block =>
      if 0 < box.swapReadResponseSem ∧ block = box.swapReadResponse then
        some { box with
          swapReadResponse := none
          swapReadResponseSem := box.swapReadResponseSem - 1 }
      else none
  | .swapOut _ _, block =>
      if 0 < box.semSwapWriteDone ∧ block = none then
        some { box with semSwapWriteDone := box.semSwapWriteDone - 1 }
      else none

def blockOf : Answer → Option (List UInt8)
  | .swapIn data => some data
  | .swapOut => none

/-- A request of the store and its answer: a block that has never been written may have anything
in it. -/
def perform (blockSize : BlockSize) (store : Store) : Request → Answer → Option Store
  | .swapIn blockNum, .swapIn data => do
      let block ← swapIn blockNum store
      if data.length = blockSize.size.toNat ∧
          (block.length = blockSize.size.toNat → data = block) then some store
      else none
  | .swapOut blockNum blockBuffer, .swapOut =>
      swapOut blockSize.size blockNum blockBuffer store
  | _, _ => none

section Laws

variable {blockSize : BlockSize} {store store' : Store} {request : Request} {answer : Answer}
  {swapFile fresh : List UInt8}

/-- **SWAP serves a request** as the store does. -/
theorem handle_spec (refines : Refines blockSize.size swapFile store)
    (length : fresh.length = blockSize.size.toNat) (fits : RequestFits blockSize request) :
    ∃ swapFile' answer store', handle blockSize.size fresh swapFile request =
        some (swapFile', answer) ∧ perform blockSize store request answer = some store' ∧
      Refines blockSize.size swapFile' store' ∧ AnswerFits blockSize answer := by
  have small := blockSize.small
  cases request with
  | swapIn blockNum =>
      have buffer := length_fread (offsetOf blockSize.size blockNum) swapFile length
      obtain ⟨text, written⟩ := exists_bytesToSafeString (short_of_whole buffer)
      refine ⟨swapFile, .swapIn _, store, ?_, ?_, refines, buffer⟩
      · simp [handle, written]
      · simp only [perform, KernelMemory.SwapChunks.swapIn_eq, bind, Option.bind_some]
        exact if_pos ⟨buffer, refines.swapIn length⟩
  | swapOut blockNum blockBuffer =>
      obtain ⟨text, written⟩ := exists_bytesToSafeString (short_of_whole fits)
      have stored := refines.swapOut blockNum fits blockSize.positive
      refine ⟨_, .swapOut, _, ?_, ?_, stored, trivial⟩
      · simp [handle, written]
      · have one : blockSize.size.toNat + 20 ≤ maxTransfer := by
          unfold maxTransfer
          omega
        rw [perform, KernelMemory.SwapChunks.swapOut_eq fits, if_pos one]

/-- There is nothing to take. -/
theorem take_init (request : Request) (block : Option (List UInt8)) :
    SwapBox.init.take request block = none := by
  cases request <;> simp [SwapBox.take, SwapBox.init]

/-- The thread takes what has been put there for it. -/
theorem take_post (performed : perform blockSize store request answer = some store')
    (block : Option (List UInt8)) (box : SwapBox) :
    (SwapBox.init.post answer).take request block = some box ↔
      block = blockOf answer ∧ box = SwapBox.init := by
  cases request with
  | swapIn blockNum =>
      cases answer with
      | swapIn data => simp [SwapBox.take, SwapBox.post, SwapBox.init, blockOf, eq_comm]
      | swapOut => cases performed
  | swapOut blockNum blockBuffer =>
      cases answer with
      | swapIn data => cases performed
      | swapOut => simp [SwapBox.take, SwapBox.post, SwapBox.init, blockOf, eq_comm]

end Laws

/-- The exchange of Kernel Memory and SWAP, which depends on the bytes that `malloc` returns. -/
def swapExchange (blockSize : BlockSize) :
    Exchange Request Answer (Option (List UInt8)) (List UInt8) SwapBox (List UInt8) Store where
  requests := requestCodec blockSize
  answers := answerCodec blockSize
  serve swapFile fresh request := handle blockSize.size fresh swapFile request
  empty := .init
  post := SwapBox.post
  take := SwapBox.take
  perform := perform blockSize
  result := blockOf
  Abs := Refines blockSize.size
  usable fresh := fresh.length = blockSize.size.toNat
  chance := List.replicate blockSize.size.toNat 0
  usable_chance := List.length_replicate
  serves _ _ _ _ := handle_spec
  take_empty := take_init
  take_post _ _ _ _ := take_post

/-- **SWAP is a store of blocks for Kernel Memory**, whatever its file has at first: the thread
that suspends and resumes is answered what the store would answer, in whatever pieces the bytes
get across and in whatever order the parties go on; it is always answered; and every use of the
store comes about. -/
theorem swap_is_store (blockSize : BlockSize) (swapFile : List UInt8) :
    Exchange.IsObject Unit (swapExchange blockSize) swapFile (blocksOf blockSize.size swapFile) :=
  Exchange.isObject (refines_blocksOf blockSize.positive swapFile)

def fourBytes : BlockSize := ⟨4, by decide, by decide⟩

/-- A block in the middle of the file is written, and then read. -/
theorem swap_is_store_of_fourBytes : ∃ as s,
    Run (swapExchange fourBytes).step (swapExchange fourBytes).ok
      ((swapExchange fourBytes).start (C := Unit) [1, 2, 3, 4, 5, 6, 7, 8, 9, 10]) as s ∧
      as.filterMap SiteAction.visible =
        [.ask () (.swapOut 1 [20, 21, 22, 23]), .perform () .swapOut, .wake () none,
          .ask () (.swapIn 1), .perform () (.swapIn [20, 21, 22, 23]),
          .wake () (some [20, 21, 22, 23])] := by
  have written (store : Store) :
      perform fourBytes store (.swapOut 1 [20, 21, 22, 23]) .swapOut =
        some (Function.update store 1 [20, 21, 22, 23]) :=
    (KernelMemory.SwapChunks.swapOut_eq rfl).trans (if_pos (by decide))
  have write (store : Store) (answer : Answer) (store' : Store)
      (performed : perform fourBytes store (.swapOut 1 [20, 21, 22, 23]) answer = some store') :
      answer = .swapOut := by
    cases answer with
    | swapOut => rfl
    | swapIn data => cases performed
  have found (store : Store) :
      perform fourBytes (Function.update store 1 [20, 21, 22, 23]) (.swapIn 1)
        (.swapIn [20, 21, 22, 23]) = some (Function.update store 1 [20, 21, 22, 23]) := by
    simp only [perform, KernelMemory.SwapChunks.swapIn_eq, Function.update_self, bind,
      Option.bind_some]
    exact if_pos ⟨rfl, fun _ => trivial⟩
  have read (store : Store) (answer : Answer) (store' : Store)
      (performed : perform fourBytes (Function.update store 1 [20, 21, 22, 23]) (.swapIn 1)
        answer = some store') : answer = .swapIn [20, 21, 22, 23] := by
    cases answer with
    | swapOut => cases performed
    | swapIn data =>
        simp only [perform, KernelMemory.SwapChunks.swapIn_eq, Function.update_self, bind,
          Option.bind_some] at performed
        split at performed
        · rename_i allowed
          rw [allowed.2 rfl]
        · cases performed
  apply (swap_is_store fourBytes _).realised
  exact (Exchange.uses rfl rfl (written _) (write _)).trans
    (Exchange.uses rfl trivial (found _) (read _))

end OsModel.SwapSession
