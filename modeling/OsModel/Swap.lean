import OsModel.Lib.Bytes
import OsModel.Net.SafeStrings

/-!
The SWAP module (`swap/src/main.c`): a file of blocks that answers `SWAP_IN` and `SWAP_OUT`.

The file may be shorter than its blocks: it is taken as it is found, and a block behind its end
makes it longer. So SWAP keeps what has been written to it (`Refines.swapOut`), and of a block
that has never been there it may answer anything.
-/

namespace OsModel.Swap

open Lib Net

/-! ### The file -/

/-- `fread` of one item: as much of it as there is goes into the buffer. -/
def fread (file : List UInt8) (offset size : Nat) (buffer : List UInt8) : List UInt8 :=
  writeAt buffer 0 (slice file offset size)

/-- `fwrite` of one item: the file grows up to its end, with zeros in between. -/
def fwrite (file : List UInt8) (offset : Nat) (item : List UInt8) : List UInt8 :=
  if item = [] then file
  else writeAt (file ++ List.replicate (offset + item.length - file.length) 0) offset item

/-! ### Requests -/

/-- What SWAP is asked. -/
inductive Request where
  | swapIn (blockNumber : UInt32)
  | swapOut (blockNumber : UInt32) (blockData : List UInt8)
  deriving DecidableEq, Repr

inductive Answer where
  | swapIn (data : List UInt8)
  | swapOut
  deriving DecidableEq, Repr

/-- Where a block is: the product is a `long`. -/
def offsetOf (blockSize blockNumber : UInt32) : Nat := blockNumber.toNat * blockSize.toNat

/-- `handle_block_read`, with the bytes that `malloc` has returned, and `handle_block_write`;
`none` is a text for the log that is written behind its buffer. -/
def handle (blockSize : UInt32) (fresh file : List UInt8) :
    Request → Option (List UInt8 × Answer)
  | .swapIn blockNumber => do
      let buffer := fread file (offsetOf blockSize blockNumber) blockSize.toNat fresh
      let _ ← bytesToSafeString buffer
      pure (file, .swapIn buffer)
  | .swapOut blockNumber blockData => do
      let file := fwrite file (offsetOf blockSize blockNumber) blockData
      let _ ← bytesToSafeString blockData
      pure (file, .swapOut)

/-! ### Blocks of the file -/

section Files

variable {file item : List UInt8} {offset i n : Nat}

theorem length_grown : offset + item.length ≤
    (file ++ List.replicate (offset + item.length - file.length) (0 : UInt8)).length := by
  rw [List.length_append, List.length_replicate]
  omega

theorem le_length_fwrite (file : List UInt8) (offset : Nat) (item : List UInt8) :
    file.length ≤ (fwrite file offset item).length := by
  unfold fwrite
  split
  · exact le_refl _
  · rw [length_writeAt length_grown, List.length_append]
    omega

theorem fwrite_inside (file : List UInt8) (offset : Nat) (some_item : item ≠ []) :
    offset + item.length ≤ (fwrite file offset item).length := by
  rw [fwrite, if_neg some_item, length_writeAt length_grown]
  exact length_grown

/-- What was written is there. -/
theorem slice_fwrite (file : List UInt8) (offset : Nat) (item : List UInt8) :
    slice (fwrite file offset item) offset item.length = item := by
  by_cases none_left : item = []
  · rw [none_left, List.length_nil, slice_zero]
  · rw [fwrite, if_neg none_left]
    exact slice_writeAt length_grown

/-- What is elsewhere in the file stays, also when the file grows. -/
theorem slice_fwrite_apart (inside : i + n ≤ file.length)
    (apart : i + n ≤ offset ∨ offset + item.length ≤ i) :
    slice (fwrite file offset item) i n = slice file i n := by
  unfold fwrite
  split
  · rfl
  · rw [(sameOutside_writeAt length_grown).slice_eq apart, slice_append_left inside]

end Files

/-! ### A file of blocks is a store -/

/-- For each block the bytes that were last written to it. -/
abbrev Store := UInt32 → List UInt8

/-- The whole blocks of a file are those of the store. -/
def Refines (blockSize : UInt32) (file : List UInt8) (store : Store) : Prop :=
  ∀ b, (store b).length = blockSize.toNat →
    offsetOf blockSize b + blockSize.toNat ≤ file.length ∧
      slice file (offsetOf blockSize b) blockSize.toNat = store b

/-- What the blocks of a file have, the last one perhaps only a part of it. -/
def blocksOf (blockSize : UInt32) (file : List UInt8) : Store := fun b =>
  slice file (offsetOf blockSize b) blockSize.toNat

section Blocks

variable {blockSize blockNumber : UInt32} {file fresh blockData : List UInt8} {store : Store}

theorem blocks_apart {b b' : UInt32} (ne : b ≠ b') :
    offsetOf blockSize b + blockSize.toNat ≤ offsetOf blockSize b' ∨
      offsetOf blockSize b' + blockSize.toNat ≤ offsetOf blockSize b := by
  have number : b.toNat ≠ b'.toNat := fun same => ne (UInt32.toNat_inj.mp same)
  unfold offsetOf
  rcases Nat.lt_or_gt_of_ne number with before | after
  · left
    rw [← Nat.succ_mul]
    exact Nat.mul_le_mul_right _ before
  · right
    rw [← Nat.succ_mul]
    exact Nat.mul_le_mul_right _ after

/-- The store of a file as it is found. -/
theorem refines_blocksOf (positive : 0 < blockSize) (file : List UInt8) :
    Refines blockSize file (blocksOf blockSize file) := by
  intro b whole
  refine ⟨?_, rfl⟩
  rw [UInt32.lt_iff_toNat_lt, UInt32.toNat_zero] at positive
  rw [blocksOf, slice, List.length_take, List.length_drop] at whole
  omega

theorem length_fread {n : Nat} (offset : Nat) (file : List UInt8) (length : fresh.length = n) :
    (fread file offset n fresh).length = n := by
  rw [fread, length_writeAt, length]
  rw [slice, List.length_take, List.length_drop]
  omega

/-- **A block of the store is read back.** -/
theorem Refines.swapIn (refines : Refines blockSize file store)
    (length : fresh.length = blockSize.toNat)
    (whole : (store blockNumber).length = blockSize.toNat) :
    fread file (offsetOf blockSize blockNumber) blockSize.toNat fresh = store blockNumber := by
  obtain ⟨inside, same⟩ := refines blockNumber whole
  rw [fread, same, writeAt, whole, Nat.zero_add, ← length, List.drop_length, List.append_nil,
    List.take_zero, List.nil_append]

/-- **A block that is written is in the store**, and nothing else in it changes. -/
theorem Refines.swapOut (refines : Refines blockSize file store) (blockNumber : UInt32)
    (length : blockData.length = blockSize.toNat) (positive : 0 < blockSize) :
    Refines blockSize (fwrite file (offsetOf blockSize blockNumber) blockData)
      (Function.update store blockNumber blockData) := by
  have some_data : blockData ≠ [] := by
    rw [UInt32.lt_iff_toNat_lt, UInt32.toNat_zero, ← length] at positive
    exact List.ne_nil_of_length_pos positive
  intro b whole
  by_cases same : b = blockNumber
  · subst same
    rw [Function.update_self, ← length]
    exact ⟨fwrite_inside file _ some_data, slice_fwrite file _ blockData⟩
  · rw [Function.update_of_ne same] at whole ⊢
    obtain ⟨inside, eq⟩ := refines b whole
    refine ⟨inside.trans (le_length_fwrite ..), ?_⟩
    rw [slice_fwrite_apart inside, eq]
    rw [length]
    exact blocks_apart same

end Blocks

end OsModel.Swap
