import OsModel.KernelMemory.Swap
import OsModel.Net.Strings

/-!
The chunks of a segment in swap (`write_segment_to_swap` and `read_segment_from_swap` in
`kernel_memory/src/memory_manage.c`) with the buffers that are copied and the packages that
carry a block.

* `writeBlocks_spec` and `readBlocks_spec`: while the packages go out, every copy stays in its
  buffers, and the loops do what `writeSegmentLoop` and `readSegmentLoop` say.
* `roundTrips_iff`: for which block sizes and numbers of blocks a segment comes back.
* `large_block_lost`: a block that no package can carry.
-/

namespace OsModel.KernelMemory.SwapChunks

open Lib Net

/-! ### The buffers and the packages -/

/-- SWAP: for each block the bytes that were last written to it. -/
abbrev SwapStore := UInt32 → List UInt8

/-- `memcpy(dest + i, src + j, n)`; `none` is a copy that leaves one of the two buffers. -/
def memcpy (dest : List UInt8) (i : Nat) (src : List UInt8) (j n : Nat) : Option (List UInt8) :=
  if i + n ≤ dest.length ∧ j + n ≤ src.length then some (writeAt dest i (slice src j n)) else none

/-- The `SWAP_OUT` of a block, up to the confirmation. SWAP writes a block when it has its
package; `none` is also that it waits for a part of it. -/
def swapOut (swapBlockSize blockNum : UInt32) (blockBuffer : List UInt8) (swap : SwapStore) :
    Option SwapStore := do
  let field ← sizedField blockBuffer swapBlockSize.toNat
  let sent ← packageSend (packageOf .swapOut [.uint32 blockNum, field])
  let _ ← packageReceive [.uint32, .string] sent
  pure (Function.update swap blockNum field.bytes)

/-- The `SWAP_IN` of a block, up to the answer. -/
def swapIn (blockNum : UInt32) (swap : SwapStore) : Option (List UInt8) := do
  let _ ← packageSend (packageOf .swapIn [.uint32 blockNum])
  pure (swap blockNum)

/-- The loop of `write_segment_to_swap` from a block on. -/
def writeBlocks (swapBlockSize size : UInt32) (data : List UInt8) :
    List UInt32 → UInt32 → SwapStore → Option SwapStore
  | [], _, swap => some swap
  | blockNum :: rest, bytesDone, swap => do
      let chunk := blockChunk swapBlockSize size bytesDone
      let blockBuffer ← memcpy (List.replicate swapBlockSize.toNat 0) 0 data bytesDone.toNat
        chunk.toNat
      let swap ← swapOut swapBlockSize blockNum blockBuffer swap
      writeBlocks swapBlockSize size data rest (bytesDone + chunk) swap

/-- The loop of `read_segment_from_swap` from a block on. -/
def readBlocks (swapBlockSize size : UInt32) (swap : SwapStore) :
    List UInt32 → UInt32 → List UInt8 → Option (List UInt8)
  | [], _, data => some data
  | blockNum :: rest, bytesDone, data => do
      let blockBuffer ← swapIn blockNum swap
      let chunk := blockChunk swapBlockSize size bytesDone
      let data ← memcpy data bytesDone.toNat blockBuffer 0 chunk.toNat
      readBlocks swapBlockSize size swap rest (bytesDone + chunk) data

/-- The blocks below `list_size`, which is an `int`. -/
def visited (swapBlocks : List UInt32) : List UInt32 :=
  swapBlocks.take (Int32.ofNat swapBlocks.length).toInt.toNat

/-- `write_segment_to_swap`, with all that it copies and sends. -/
def writeSegment (swapBlockSize : UInt32) (ss : SuspendedSegment) (data : List UInt8)
    (swap : SwapStore) : Option SwapStore :=
  writeBlocks swapBlockSize ss.size data (visited ss.swapBlocks) 0 swap

/-- `read_segment_from_swap`, with the bytes that `malloc` has returned. -/
def readSegment (swapBlockSize : UInt32) (ss : SuspendedSegment) (fresh : List UInt8)
    (swap : SwapStore) : Option (List UInt8) :=
  readBlocks swapBlockSize ss.size swap (visited ss.swapBlocks) 0 fresh

/-- Any data of the size comes back, whatever was in the blocks and in the new buffer; all
copies stay in their buffers, and the other blocks are as they were. -/
def RoundTrips (swapBlockSize : UInt32) (ss : SuspendedSegment) : Prop :=
  ∀ data fresh : List UInt8, data.length = ss.size.toNat → fresh.length = ss.size.toNat →
    ∀ swap, ∃ swap', writeSegment swapBlockSize ss data swap = some swap' ∧
      readSegment swapBlockSize ss fresh swap' = some data ∧
      ∀ b ∉ ss.swapBlocks, swap' b = swap b

/-! ### One block -/

section Block

variable {swapBlockSize size bytesDone blockNum : UInt32} {data blockBuffer : List UInt8}
  {swap : SwapStore}

theorem memcpy_of_inside {dest src : List UInt8} {i j n : Nat} (room : i + n ≤ dest.length)
    (enough : j + n ≤ src.length) : memcpy dest i src j n = some (writeAt dest i (slice src j n)) :=
  if_pos ⟨room, enough⟩

/-- A block is written if one `send` takes its package. -/
theorem swapOut_eq (exact_size : blockBuffer.length = swapBlockSize.toNat) :
    swapOut swapBlockSize blockNum blockBuffer swap =
      if swapBlockSize.toNat + 20 ≤ maxTransfer then
        some (Function.update swap blockNum blockBuffer)
      else none := by
  have word := swapBlockSize.toNat_lt
  have transfer := maxTransfer_lt
  unfold swapOut
  by_cases small : swapBlockSize.toNat < 2 ^ 31
  · have stream : (packageOf .swapOut [.uint32 blockNum, .string blockBuffer]).stream.length =
        swapBlockSize.toNat + 12 := by
      rw [packageOf_stream]
      simp only [List.flatMap_cons, List.flatMap_nil, List.append_nil, Field.encode, Field.bytes,
        List.length_append, length_intBytes, exact_size]
      omega
    have fits : Fits (packageOf .swapOut [.uint32 blockNum, .string blockBuffer]) ↔
        swapBlockSize.toNat + 20 ≤ maxTransfer := by
      unfold Fits
      omega
    rw [sizedField_of_small small, List.take_of_length_le exact_size.le]
    simp only [bind, Option.bind_some]
    by_cases one : swapBlockSize.toNat + 20 ≤ maxTransfer
    · obtain ⟨bytes, sent, read⟩ := packageReceive_packageSend (fits.mpr one)
      rw [List.map_cons, List.map_cons, List.map_nil] at read
      rw [sent, Option.bind_some, if_pos one]
      simp only [Field.kind] at read
      rw [read]
      rfl
    · rw [if_neg one, packageSend_eq (by omega)]
      split
      · rw [Option.bind_some, packageReceive_truncated _ (fits.not.mpr one) (by omega)]
        rfl
      · rfl
  · have long : ¬ swapBlockSize.toNat + 20 ≤ maxTransfer := by omega
    rw [sizedField_of_large (by omega) word, if_neg long]
    rfl

theorem swapIn_eq (blockNum : UInt32) (swap : SwapStore) :
    swapIn blockNum swap = some (swap blockNum) := by
  have fits : Fits (packageOf .swapIn [.uint32 blockNum]) := by
    unfold Fits
    rw [packageOf_stream]
    simp [Field.encode, Field.bytes, maxTransfer]
  rw [swapIn, packageSend_of_fits fits]
  rfl

/-- A chunk is in its block. -/
theorem blockChunk_le {b : UInt32} {rest : List UInt32}
    (fits : size.toNat + swapBlockSize.toNat ≤ 2 ^ 32)
    (covers : Covers swapBlockSize size bytesDone (b :: rest)) :
    (blockChunk swapBlockSize size bytesDone).toNat ≤ swapBlockSize.toNat := by
  obtain ⟨within, -, -⟩ := covers_cons fits covers
  unfold blockChunk at within ⊢
  split
  · rename_i last
    rw [if_pos last] at within
    rw [gt_iff_lt, UInt32.lt_iff_toNat_lt, UInt32.toNat_add] at last
    have mod_le := Nat.mod_le (bytesDone.toNat + swapBlockSize.toNat) (2 ^ 32)
    omega
  · exact le_refl _

/-- The bytes of a block, as the store above sees them. -/
def view (swap : SwapStore) : UInt32 → Nat → UInt8 := fun b i => (swap b).getD i 0

/-- The padding of a block is what the store above reads behind its bytes. -/
theorem getD_padded {n : Nat} (fits : data.length ≤ n) (i : Nat) :
    (writeAt (List.replicate n 0) 0 data).getD i 0 = data.getD i 0 := by
  have room : 0 + data.length ≤ (List.replicate n (0 : UInt8)).length := by
    rw [List.length_replicate, Nat.zero_add]
    exact fits
  rw [List.getD_eq_getElem?_getD, List.getD_eq_getElem?_getD, getElem?_writeAt room]
  by_cases inside : i < data.length
  · rw [if_pos (by omega), Nat.sub_zero]
  · rw [if_neg (by omega), List.getElem?_eq_none (by omega : data.length ≤ i),
      List.getElem?_replicate]
    split <;> rfl

theorem view_update (swap : SwapStore) {n : Nat} (fits : data.length ≤ n) :
    view (Function.update swap blockNum (writeAt (List.replicate n 0) 0 data)) =
      Function.update (view swap) blockNum fun i => data.getD i 0 := by
  funext b i
  by_cases same : b = blockNum
  · subst same
    rw [view, Function.update_self, Function.update_self, getD_padded fits]
  · rw [view, Function.update_of_ne same, Function.update_of_ne same]
    rfl

end Block

/-! ### All blocks -/

section Loops

variable {swapBlockSize size bytesDone : UInt32} {data : List UInt8} {blocks : List UInt32}

/-- **Writing**: every chunk is copied out of the data into one block, and SWAP has what
`writeSegmentLoop` says. -/
theorem writeBlocks_spec (sendable : swapBlockSize.toNat + 20 ≤ maxTransfer)
    (fits : size.toNat + swapBlockSize.toNat ≤ 2 ^ 32) (exact_size : data.length = size.toNat)
    (covers : Covers swapBlockSize size bytesDone blocks) (swap : SwapStore) :
    ∃ swap', writeBlocks swapBlockSize size data blocks bytesDone swap = some swap' ∧
      view swap' = writeSegmentLoop swapBlockSize size data blocks bytesDone (view swap) ∧
      (∀ b, b ∈ blocks ∨ (swap b).length = swapBlockSize.toNat →
        (swap' b).length = swapBlockSize.toNat) ∧
      ∀ b ∉ blocks, swap' b = swap b := by
  induction blocks generalizing bytesDone swap with
  | nil =>
      refine ⟨swap, rfl, rfl, ?_, fun _ _ => rfl⟩
      intro b whole
      exact whole.resolve_left List.not_mem_nil
  | cons blockNum rest ih =>
      obtain ⟨within, next, covers'⟩ := covers_cons fits covers
      have small := blockChunk_le fits covers
      have length : (slice data bytesDone.toNat
          (blockChunk swapBlockSize size bytesDone).toNat).length =
            (blockChunk swapBlockSize size bytesDone).toNat := length_slice (by omega)
      have copied : memcpy (List.replicate swapBlockSize.toNat 0) 0 data bytesDone.toNat
          (blockChunk swapBlockSize size bytesDone).toNat = some _ :=
        memcpy_of_inside (by rw [List.length_replicate]; omega) (by omega)
      have block : (writeAt (List.replicate swapBlockSize.toNat 0) 0 (slice data bytesDone.toNat
          (blockChunk swapBlockSize size bytesDone).toNat)).length = swapBlockSize.toNat := by
        rw [length_writeAt, List.length_replicate]
        rw [List.length_replicate]
        omega
      obtain ⟨swap', written, seen, whole, others⟩ := ih covers' (Function.update swap blockNum _)
      refine ⟨swap', ?_, ?_, ?_, ?_⟩
      · rw [writeBlocks]
        simp only [bind, copied, Option.bind_some]
        rw [swapOut_eq block, if_pos sendable, Option.bind_some]
        exact written
      · rw [seen, writeSegmentLoop, view_update swap (by omega)]
      · intro b mem
        refine whole b ?_
        by_cases same : b = blockNum
        · subst same
          rw [Function.update_self]
          exact .inr block
        · rw [Function.update_of_ne same]
          exact mem.imp_left fun mem => (List.mem_cons.mp mem).resolve_left same
      · intro b other
        rw [List.mem_cons, not_or] at other
        rw [others b other.2, Function.update_of_ne other.1]

/-- Devices that answer, with SWAP as the store above sees it. -/
def devices (swap : SwapStore) : Devices := ⟨[], view swap, [], fun _ => 0⟩

/-- The bytes of a block that are read. -/
theorem map_view {swap : SwapStore} {b : UInt32} {n : Nat} (enough : n ≤ (swap b).length) :
    (List.range n).map (view swap b) = slice (swap b) 0 n := by
  apply List.ext_getElem?
  intro i
  rw [List.getElem?_map, getElem?_slice, Nat.zero_add]
  by_cases inside : i < n
  · rw [List.getElem?_range inside, if_pos inside, Option.map_some, view,
      List.getD_eq_getElem?_getD, List.getElem?_eq_getElem (by omega)]
    rfl
  · rw [if_neg inside, List.getElem?_eq_none (by rw [List.length_range]; omega)]
    rfl

/-- **Reading**: every chunk is copied out of one block into the buffer, which has in the end
what `readSegmentLoop` has collected. -/
theorem readBlocks_spec (fits : size.toNat + swapBlockSize.toNat ≤ 2 ^ 32)
    (covers : Covers swapBlockSize size bytesDone blocks) (reached : bytesDone.toNat ≤ size.toNat)
    {swap : SwapStore} (whole : ∀ b ∈ blocks, (swap b).length = swapBlockSize.toNat)
    (exact_size : data.length = size.toNat) :
    ∃ result, readBlocks swapBlockSize size swap blocks bytesDone data = some result ∧
      readSegmentLoop swapBlockSize size blocks bytesDone (data.take bytesDone.toNat)
        (devices swap) = (some result, devices swap) := by
  induction blocks generalizing bytesDone data with
  | nil =>
      simp only [Covers, List.length_nil, Nat.zero_mul] at covers
      have complete : data.length ≤ bytesDone.toNat := by omega
      refine ⟨data, rfl, ?_⟩
      rw [readSegmentLoop, List.take_of_length_le complete]
  | cons blockNum rest ih =>
      obtain ⟨within, next, covers'⟩ := covers_cons fits covers
      have small := blockChunk_le fits covers
      have block := whole blockNum List.mem_cons_self
      have length : (slice (swap blockNum) 0
          (blockChunk swapBlockSize size bytesDone).toNat).length =
            (blockChunk swapBlockSize size bytesDone).toNat := length_slice (by omega)
      have copied : memcpy data bytesDone.toNat (swap blockNum) 0
          (blockChunk swapBlockSize size bytesDone).toNat = some _ :=
        memcpy_of_inside (by omega) (by omega)
      have room : bytesDone.toNat + (slice (swap blockNum) 0
          (blockChunk swapBlockSize size bytesDone).toNat).length ≤ data.length := by omega
      obtain ⟨result, read, collected⟩ := ih covers' (by omega)
        (fun b mem => whole b (List.mem_cons_of_mem _ mem))
        ((length_writeAt room).trans exact_size)
      refine ⟨result, ?_, ?_⟩
      · rw [readBlocks]
        simp only [bind, swapIn_eq, Option.bind_some, copied]
        exact read
      · have done : (writeAt data bytesDone.toNat (slice (swap blockNum) 0
            (blockChunk swapBlockSize size bytesDone).toNat)).take
              (bytesDone + blockChunk swapBlockSize size bytesDone).toNat =
            data.take bytesDone.toNat ++ slice (swap blockNum) 0
              (blockChunk swapBlockSize size bytesDone).toNat := by
          rw [next, writeAt]
          refine List.take_left' ?_
          rw [List.length_append, List.length_take, length]
          omega
        rw [done] at collected
        rw [readSegmentLoop]
        simp only [devices, Devices.takeRefusal, List.headD_nil, List.tail_nil] at collected ⊢
        rw [map_view (by omega)]
        exact collected

end Loops

/-! ### The round trip -/

section RoundTrip

variable {swapBlockSize : UInt32} {ss : SuspendedSegment}

theorem visited_of_small {blocks : List UInt32} (small : blocks.length < 2 ^ 31) :
    visited blocks = blocks := by
  rw [visited, Int32.toInt_ofNat_of_lt small, Int.toNat_natCast, List.take_length]

theorem visited_of_large {blocks : List UInt32} (large : 2 ^ 31 ≤ blocks.length)
    (word : blocks.length < 2 ^ 32) : visited blocks = [] := by
  have none_left : (Int32.ofNat blocks.length).toInt.toNat = 0 := by
    rw [Int32.toInt_ofNat', Int32.size, Int.bmod_def]
    omega
  rw [visited, none_left, List.take_zero]

/-- The size rounded up to blocks. -/
theorem covers_of_length (positive : 0 < swapBlockSize)
    (count : ss.swapBlocks.length =
      (ss.size.toNat + swapBlockSize.toNat - 1) / swapBlockSize.toNat) :
    Covers swapBlockSize ss.size 0 ss.swapBlocks := by
  rw [UInt32.lt_iff_toNat_lt, UInt32.toNat_zero] at positive
  have low := Nat.lt_div_mul_add (a := ss.size.toNat + swapBlockSize.toNat - 1) positive
  have high := Nat.div_mul_le_self (ss.size.toNat + swapBlockSize.toNat - 1) swapBlockSize.toNat
  rw [← count] at low high
  simp only [Covers, UInt32.toNat_zero]
  omega

/-- While blocks go out in packages and an `int` can count them, all data comes back. -/
theorem roundTrips_of_small (sendable : swapBlockSize.toNat + 20 ≤ maxTransfer)
    (countable : ss.swapBlocks.length < 2 ^ 31)
    (fits : ss.size.toNat + swapBlockSize.toNat ≤ 2 ^ 32) (distinct : ss.swapBlocks.Nodup)
    (covers : Covers swapBlockSize ss.size 0 ss.swapBlocks) : RoundTrips swapBlockSize ss := by
  intro data fresh exact_size allocated swap
  have all := visited_of_small countable
  obtain ⟨swap', written, seen, whole, others⟩ :=
    writeBlocks_spec sendable fits exact_size covers swap
  obtain ⟨result, read, collected⟩ := readBlocks_spec fits covers (Nat.zero_le _)
    (fun b mem => whole b (.inl mem)) allocated
  have stored : ∀ b ∈ ss.swapBlocks, (devices swap').swapFile b =
      writeSegmentLoop swapBlockSize ss.size data ss.swapBlocks 0 (view swap) b :=
    fun b _ => congrFun seen b
  have back := readSegmentLoop_writeSegmentLoop (view swap) fits exact_size distinct covers stored
    collected
  refine ⟨swap', ?_, ?_, others⟩
  · rw [writeSegment, all]
    exact written
  · rw [readSegment, all, read, back, UInt32.toNat_zero, List.take_zero, List.nil_append,
      Nat.sub_zero, ← exact_size, slice, List.drop_zero, List.take_length]

/-- Blocks that an `int` cannot count are not visited: the new buffer stays as it is. -/
theorem countable_of_roundTrips (nonempty : 0 < ss.size)
    (word : ss.swapBlocks.length < 2 ^ 32) (back : RoundTrips swapBlockSize ss) :
    ss.swapBlocks.length < 2 ^ 31 := by
  by_contra large
  have untouched := visited_of_large (not_lt.mp large) word
  obtain ⟨swap', -, read, -⟩ := back (List.replicate ss.size.toNat 0)
    (List.replicate ss.size.toNat 1) List.length_replicate List.length_replicate fun _ => []
  rw [readSegment, untouched, readBlocks, Option.some.injEq] at read
  have same := List.replicate_right_injective (UInt32.lt_iff_toNat_lt.mp nonempty).ne' read
  exact absurd same (by decide)

/-- A block whose package one `send` does not take is not written. -/
theorem sendable_of_roundTrips (countable : ss.swapBlocks.length < 2 ^ 31)
    (some_block : ss.swapBlocks ≠ []) (back : RoundTrips swapBlockSize ss) :
    swapBlockSize.toNat + 20 ≤ maxTransfer := by
  by_contra large
  obtain ⟨swap', written, -⟩ := back (List.replicate ss.size.toNat 0)
    (List.replicate ss.size.toNat 0) List.length_replicate List.length_replicate fun _ => []
  obtain ⟨blockNum, rest, blocks⟩ := List.exists_cons_of_ne_nil some_block
  rw [writeSegment, visited_of_small countable, blocks, writeBlocks] at written
  simp only [bind, Option.bind_eq_some_iff] at written
  obtain ⟨blockBuffer, copied, sent, out, -⟩ := written
  have length : blockBuffer.length = swapBlockSize.toNat := by
    unfold memcpy at copied
    split at copied
    · rename_i inside
      obtain rfl := Option.some.inj copied
      rw [length_writeAt, List.length_replicate]
      rw [length_slice inside.2]
      exact inside.1
    · cases copied
  rw [swapOut_eq length, if_neg large] at out
  cases out

/-- **For which block sizes a segment comes back**: one `send` takes a block with its number and
its sizes, and the blocks are as many as an `int` can count. -/
theorem roundTrips_iff (positive : 0 < swapBlockSize) (nonempty : 0 < ss.size)
    (fits : ss.size.toNat + swapBlockSize.toNat < 2 ^ 32) (distinct : ss.swapBlocks.Nodup)
    (count : ss.swapBlocks.length =
      (ss.size.toNat + swapBlockSize.toNat - 1) / swapBlockSize.toNat) :
    RoundTrips swapBlockSize ss ↔
      swapBlockSize.toNat + 20 ≤ maxTransfer ∧ ss.swapBlocks.length < 2 ^ 31 := by
  have covers := covers_of_length positive count
  constructor
  · intro back
    have count_le := Nat.div_le_self (ss.size.toNat + swapBlockSize.toNat - 1) swapBlockSize.toNat
    have countable := countable_of_roundTrips nonempty (by omega) back
    have some_block : ss.swapBlocks ≠ [] := by
      intro none_left
      rw [UInt32.lt_iff_toNat_lt, UInt32.toNat_zero] at nonempty
      simp only [none_left, Covers, List.length_nil, Nat.zero_mul, UInt32.toNat_zero] at covers
      omega
    exact ⟨sendable_of_roundTrips countable some_block back, countable⟩
  · rintro ⟨sendable, countable⟩
    exact roundTrips_of_small sendable countable fits.le distinct covers

/-- Seven bytes in two blocks of four, the second one padded. -/
theorem roundTrips_of_padded : RoundTrips 4 ⟨0, 7, [5, 2]⟩ :=
  (roundTrips_iff (by decide) (by decide) (by decide) (by decide) (by decide)).mpr
    ⟨by decide, by decide⟩

/-- **A large block is lost**: its package has more bytes than an `int` can say. -/
theorem large_block_lost :
    ((1 : UInt32).toNat + (2147483640 : UInt32).toNat < 2 ^ 32 ∧ [(0 : UInt32)].Nodup ∧
      [(0 : UInt32)].length = ((1 : UInt32).toNat + (2147483640 : UInt32).toNat - 1) /
        (2147483640 : UInt32).toNat) ∧
      ¬ RoundTrips 2147483640 ⟨0, 1, [0]⟩ := by
  refine ⟨by decide, fun back => ?_⟩
  have sendable := sendable_of_roundTrips (by decide) (List.cons_ne_nil _ _) back
  exact absurd sendable (by decide)

end RoundTrip

end OsModel.KernelMemory.SwapChunks
