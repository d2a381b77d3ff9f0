import OsModel.KernelMemory.Segments

/-!
Suspension to swap (`get_free_swap_blocks`, `write_segment_to_swap`,
`read_segment_from_swap`, `process_suspend` and `process_desuspend` in
`kernel_memory/src/memory_manage.c`; `handle_block_read` and
`handle_block_write` in `swap/src/main.c`).

Both operations go over several segments and record their result at the end:
the blocks of a process being suspended are not in use until its entry is
added, and the holes of a process coming back are not taken until its segments
are. `getFreeSwapBlocks_spec` and `desuspendLoop_spec` say what that means for
each segment alone; the modules above say what it means for several.
-/

namespace OsModel.KernelMemory

open Lib Span

/-- The cast `(int)` of a 32-bit unsigned value. -/
def castInt (n : UInt32) : Int := if n.toNat < 2 ^ 31 then n.toNat else n.toNat - 2 ^ 32

/-- `blocks_needed`: the size in blocks, rounded up. -/
def blocksNeeded (s : State) (size : UInt32) : UInt32 :=
  (size + s.swapBlockSize - 1) / s.swapBlockSize

def totalBlocks (s : State) : UInt32 := s.swapTotalSize / s.swapBlockSize

/-- The block numbers that `usedBlocks` marks. -/
def usedBlocks (s : State) : List UInt32 :=
  (allSuspendedSegments s).flatMap SuspendedSegment.swapBlocks

/-- The loop of `get_free_swap_blocks` over the remaining block numbers. -/
def freeBlocksLoop (used : List UInt32) (needed : Int) :
    Nat → UInt32 → List UInt32 → List UInt32
  | 0, _, freeBlocks => freeBlocks
  | remaining + 1, i, freeBlocks =>
      if freeBlocks.length < needed then
        freeBlocksLoop used needed remaining (i + 1)
          (if i ∈ used then freeBlocks else freeBlocks ++ [i])
      else freeBlocks

/-- `get_free_swap_blocks`: `none` is `NULL`. -/
def getFreeSwapBlocks (s : State) (blocksNeeded : UInt32) : Option (List UInt32) :=
  let freeBlocks := freeBlocksLoop (usedBlocks s) (castInt blocksNeeded) (totalBlocks s).toNat 0 []
  if freeBlocks.length < castInt blocksNeeded then none else some freeBlocks

/-- The bytes of one block of a segment. -/
def blockChunk (swapBlockSize size bytesDone : UInt32) : UInt32 :=
  if bytesDone + swapBlockSize > size then size - bytesDone else swapBlockSize

/-- The loop of `write_segment_to_swap`: one zero-padded buffer a block. -/
def writeSegmentLoop (swapBlockSize size : UInt32) (data : List UInt8) :
    List UInt32 → UInt32 → (UInt32 → Nat → UInt8) → UInt32 → Nat → UInt8
  | [], _, swapFile => swapFile
  | blockNum :: rest, bytesDone, swapFile =>
      let chunk := blockChunk swapBlockSize size bytesDone
      let blockBuffer := slice data bytesDone.toNat chunk.toNat
      writeSegmentLoop swapBlockSize size data rest (bytesDone + chunk)
        (Function.update swapFile blockNum fun i => blockBuffer.getD i 0)

/-- `write_segment_to_swap`, which never fails. -/
def writeSegmentToSwap (swapBlockSize : UInt32) (ss : SuspendedSegment) (data : List UInt8)
    (d : Devices) : Devices :=
  { d with swapFile := writeSegmentLoop swapBlockSize ss.size data ss.swapBlocks 0 d.swapFile }

/-- The loop of `read_segment_from_swap`; `data` is what has been copied so far. -/
def readSegmentLoop (swapBlockSize size : UInt32) :
    List UInt32 → UInt32 → List UInt8 → Devices → Option (List UInt8) × Devices
  | [], _, data, d => (some data, d)
  | blockNum :: rest, bytesDone, data, d =>
      let (refused, d') := d.takeRefusal
      if refused then (none, d')
      else
        let chunk := blockChunk swapBlockSize size bytesDone
        readSegmentLoop swapBlockSize size rest (bytesDone + chunk)
          (data ++ (List.range chunk.toNat).map (d.swapFile blockNum)) d'

/-- `read_segment_from_swap`: the bytes of a buffer of `size` bytes, those that
no block filled being whatever `malloc` returned. -/
def readSegmentFromSwap (swapBlockSize : UInt32) (ss : SuspendedSegment) (d : Devices) :
    Option (List UInt8) × Devices :=
  match readSegmentLoop swapBlockSize ss.size ss.swapBlocks 0 [] d with
  | (none, d') => (none, d')
  | (some data, d') =>
      (some ((data ++ (List.range' data.length (ss.size.toNat - data.length)).map d.fresh).take
        ss.size.toNat), d')

/-- One iteration of the loop of `process_suspend`. -/
def suspendSegment (s : State) (seg : Segment) (d : Devices) :
    Option SuspendedSegment × Devices :=
  match getFreeSwapBlocks s (blocksNeeded s seg.size) with
  | none => (none, d)
  | some blocks =>
      match memoryRead d seg.base seg.size with
      | (none, d') => (none, d')
      | (some data, d') =>
          let ss : SuspendedSegment := ⟨seg.segmentId, seg.size, blocks⟩
          (some ss, writeSegmentToSwap s.swapBlockSize ss data d')

def suspendLoop (s : State) : List HeapSegment → Devices → Option (List SuspendedSegment) × Devices
  | [], d => (some [], d)
  | seg :: rest, d =>
      match suspendSegment s seg.toSegment d with
      | (none, d') => (none, d')
      | (some ss, d') =>
          match suspendLoop s rest d' with
          | (none, d'') => (none, d'')
          | (some suspended, d'') => (some (ss :: suspended), d'')

/-- `process_suspend`. `none` is the division by a block size of zero, before
SWAP has announced one. -/
def processSuspend (s : State) (pid : UInt32) : Option (Bool × State) :=
  match findPcb s pid with
  | none => some (false, s)
  | some pcb =>
      if s.swapBlockSize = 0 ∧ pcb.segmentTable ≠ [] then none
      else
        match suspendLoop s pcb.segmentTable s.devices with
        | (none, d) => some (false, { s with devices := d })
        | (some suspended, d) =>
            some (true,
              { updatePcb { s with devices := d } pid fun pcb => { pcb with segmentTable := [] } with
                listSuspendedProcesses := s.listSuspendedProcesses ++ [⟨pid, suspended⟩] })

/-- One iteration of the loop of `process_desuspend`. -/
def desuspendSegment (s : State) (ss : SuspendedSegment) (d : Devices) :
    Option SegmentReady × Devices :=
  match selectHole s.allocationStrategy (getFreeHoles s) ss.size with
  | none => (none, d)
  | some chosen =>
      match readSegmentFromSwap s.swapBlockSize ss d with
      | (none, d') => (none, d')
      | (some data, d') =>
          match memoryWrite d' chosen.base data ss.size with
          | (false, d'') => (none, d'')
          | (true, d'') => (some ⟨ss.segmentId, ss.size, chosen.base⟩, d'')

/-- The first phase of `process_desuspend`. -/
def desuspendLoop (s : State) :
    List SuspendedSegment → Devices → Option (List SegmentReady) × Devices
  | [], d => (some [], d)
  | ss :: rest, d =>
      match desuspendSegment s ss d with
      | (none, d') => (none, d')
      | (some sr, d') =>
          match desuspendLoop s rest d' with
          | (none, d'') => (none, d'')
          | (some ready, d'') => (some (sr :: ready), d'')

def processDesuspend (s : State) (pid : UInt32) : Bool × State :=
  match findSuspended s pid with
  | none => (false, s)
  | some sp =>
      match desuspendLoop s sp.suspendedSegments s.devices with
      | (none, d) => (false, { s with devices := d })
      | (some ready, d) =>
          match findPcb s pid with
          | none => (false, { s with devices := d })
          | some _ =>
              (true,
                { addSegments { s with devices := d } pid ready with
                  listSuspendedProcesses :=
                    s.listSuspendedProcesses.eraseP fun sp => sp.pid == pid })

/-! ### Free blocks -/

/-- The unused block numbers from `i` on, lowest first. -/
def freeFrom (used : List UInt32) : Nat → UInt32 → List UInt32
  | 0, _ => []
  | remaining + 1, i =>
      if i ∈ used then freeFrom used remaining (i + 1) else i :: freeFrom used remaining (i + 1)

/-- All unused block numbers. -/
def freeBlocks (s : State) : List UInt32 := freeFrom (usedBlocks s) (totalBlocks s).toNat 0

section FreeBlocks

variable {s : State} {used : List UInt32} {needed : Int} {n : UInt32}

theorem freeBlocksLoop_eq (remaining : Nat) (i : UInt32) (found : List UInt32) :
    freeBlocksLoop used needed remaining i found =
      found ++ (freeFrom used remaining i).take (needed.toNat - found.length) := by
  induction remaining generalizing i found with
  | zero => simp [freeBlocksLoop, freeFrom]
  | succ remaining ih =>
      rw [freeBlocksLoop, freeFrom]
      split
      · rename_i wanted
        rw [ih]
        split
        · rfl
        · have more : needed.toNat - found.length =
              needed.toNat - (found ++ [i]).length + 1 := by
            simp only [List.length_append, List.length_cons, List.length_nil]
            omega
          rw [more, List.take_succ_cons, List.append_assoc]
          rfl
      · rename_i enough
        rw [show needed.toNat - found.length = 0 by omega, List.take_zero, List.append_nil]

/-- `get_free_swap_blocks` takes the first free blocks. -/
theorem getFreeSwapBlocks_eq (s : State) (n : UInt32) :
    getFreeSwapBlocks s n =
      if (freeBlocks s).length < castInt n then none
      else some ((freeBlocks s).take (castInt n).toNat) := by
  simp only [getFreeSwapBlocks, freeBlocksLoop_eq, List.nil_append, List.length_nil, Nat.sub_zero,
    List.length_take]
  rw [← freeBlocks]
  congr 1
  rw [eq_iff_iff]
  omega

theorem mem_freeFrom {remaining : Nat} {i b : UInt32} (fits : i.toNat + remaining < 2 ^ 32)
    (mem : b ∈ freeFrom used remaining i) :
    b ∉ used ∧ i.toNat ≤ b.toNat ∧ b.toNat < i.toNat + remaining := by
  induction remaining generalizing i with
  | zero => simp [freeFrom] at mem
  | succ remaining ih =>
      have next : (i + 1).toNat = i.toNat + 1 := by
        rw [UInt32.toNat_add, UInt32.toNat_one]
        omega
      rw [freeFrom] at mem
      have later : b ∈ freeFrom used remaining (i + 1) →
          b ∉ used ∧ i.toNat ≤ b.toNat ∧ b.toNat < i.toNat + (remaining + 1) := by
        intro mem
        obtain ⟨unused, low, high⟩ := ih (by omega) mem
        exact ⟨unused, by omega, by omega⟩
      split at mem
      · exact later mem
      · rename_i free
        rcases List.mem_cons.mp mem with rfl | mem
        · exact ⟨free, le_refl _, by omega⟩
        · exact later mem

theorem freeFrom_nodup {remaining : Nat} {i : UInt32} (fits : i.toNat + remaining < 2 ^ 32) :
    (freeFrom used remaining i).Nodup := by
  induction remaining generalizing i with
  | zero => exact List.nodup_nil
  | succ remaining ih =>
      have next : (i + 1).toNat = i.toNat + 1 := by
        rw [UInt32.toNat_add, UInt32.toNat_one]
        omega
      rw [freeFrom]
      split
      · exact ih (by omega)
      · refine List.nodup_cons.mpr ⟨fun mem => ?_, ih (by omega)⟩
        have := (mem_freeFrom (by omega) mem).2.1
        omega

/-- Free blocks are unused block numbers of the swap file. -/
theorem mem_freeBlocks {b : UInt32} (mem : b ∈ freeBlocks s) :
    b ∉ usedBlocks s ∧ b < totalBlocks s := by
  obtain ⟨unused, -, below⟩ := mem_freeFrom
    (by have := (totalBlocks s).toNat_lt; simpa using this) mem
  exact ⟨unused, UInt32.lt_iff_toNat_lt.mpr (by simpa using below)⟩

theorem freeBlocks_nodup (s : State) : (freeBlocks s).Nodup :=
  freeFrom_nodup (by have := (totalBlocks s).toNat_lt; simpa using this)

/-- The blocks a segment is given: different free ones, as many as asked for
(none at all when the count is negative as an `int`). -/
theorem getFreeSwapBlocks_spec {blocks : List UInt32} (got : getFreeSwapBlocks s n = some blocks) :
    blocks.Nodup ∧ blocks.length = (castInt n).toNat ∧
      ∀ b ∈ blocks, b ∉ usedBlocks s ∧ b < totalBlocks s := by
  rw [getFreeSwapBlocks_eq] at got
  split at got
  · simp at got
  · rename_i enough
    obtain rfl := Option.some.inj got
    refine ⟨(freeBlocks_nodup s).sublist (List.take_sublist ..), ?_, fun b mem => ?_⟩
    · rw [List.length_take]
      omega
    · exact mem_freeBlocks (List.mem_of_mem_take mem)

end FreeBlocks

/-! ### The swap file -/

section Blocks

variable {swapBlockSize size bytesDone : UInt32} {data : List UInt8}
  {swapFile : UInt32 → Nat → UInt8} {blocks : List UInt32}

/-- Writing a segment touches only its blocks. -/
theorem writeSegmentLoop_other {b : UInt32} (other : b ∉ blocks) :
    writeSegmentLoop swapBlockSize size data blocks bytesDone swapFile b = swapFile b := by
  induction blocks generalizing bytesDone swapFile with
  | nil => rfl
  | cons blockNum rest ih =>
      rw [List.mem_cons, not_or] at other
      rw [writeSegmentLoop, ih other.2, Function.update_of_ne other.1]

/-- The bytes of a block that was just written. -/
private theorem read_buffer {n : Nat} (exact_size : data.length = n) :
    (List.range n).map (fun i => data.getD i 0) = data := by
  subst exact_size
  apply List.ext_getElem
  · simp
  · intro i h h'
    simp [List.getElem?_eq_getElem h']

/-- How many blocks are still to come: they cover what is left, the last one at
least in part. -/
def Covers (swapBlockSize size bytesDone : UInt32) (blocks : List UInt32) : Prop :=
  size.toNat ≤ bytesDone.toNat + blocks.length * swapBlockSize.toNat ∧
    bytesDone.toNat + blocks.length * swapBlockSize.toNat < size.toNat + swapBlockSize.toNat

/-- One block further. -/
theorem covers_cons {b : UInt32} {rest : List UInt32}
    (fits : size.toNat + swapBlockSize.toNat ≤ 2 ^ 32)
    (covers : Covers swapBlockSize size bytesDone (b :: rest)) :
    bytesDone.toNat + (blockChunk swapBlockSize size bytesDone).toNat ≤ size.toNat ∧
      (bytesDone + blockChunk swapBlockSize size bytesDone).toNat =
        bytesDone.toNat + (blockChunk swapBlockSize size bytesDone).toNat ∧
      Covers swapBlockSize size (bytesDone + blockChunk swapBlockSize size bytesDone) rest := by
  obtain ⟨low, high⟩ := covers
  rw [List.length_cons, Nat.add_mul, Nat.one_mul] at low high
  have sum : (bytesDone + swapBlockSize).toNat = bytesDone.toNat + swapBlockSize.toNat := by
    rw [UInt32.toNat_add]
    omega
  unfold blockChunk Covers
  split
  · rename_i last
    rw [gt_iff_lt, UInt32.lt_iff_toNat_lt, sum] at last
    have rest_size := UInt32.toNat_sub_of_le size bytesDone
      (UInt32.le_iff_toNat_le.mpr (by omega))
    have done : (bytesDone + (size - bytesDone)).toNat = size.toNat := by
      rw [UInt32.toNat_add, rest_size]
      have := size.toNat_lt
      omega
    have none_left : rest.length * swapBlockSize.toNat = 0 := by
      rcases Nat.eq_zero_or_pos rest.length with zero | pos
      · rw [zero, Nat.zero_mul]
      · have := Nat.le_mul_of_pos_left swapBlockSize.toNat pos
        omega
    rw [done]
    omega
  · rename_i whole
    rw [gt_iff_lt, UInt32.not_lt, UInt32.le_iff_toNat_le, sum] at whole
    rw [sum]
    omega

/-- **A segment written to different blocks is read back from them**, whatever
happened to the other blocks in between. -/
theorem readSegmentLoop_writeSegmentLoop (swapFile : UInt32 → Nat → UInt8) {d d' : Devices}
    {soFar result : List UInt8}
    (fits : size.toNat + swapBlockSize.toNat ≤ 2 ^ 32)
    (exact_size : data.length = size.toNat) (distinct : blocks.Nodup)
    (covers : Covers swapBlockSize size bytesDone blocks)
    (kept : ∀ b ∈ blocks, d.swapFile b =
      writeSegmentLoop swapBlockSize size data blocks bytesDone swapFile b)
    (read : readSegmentLoop swapBlockSize size blocks bytesDone soFar d = (some result, d')) :
    result = soFar ++ slice data bytesDone.toNat (size.toNat - bytesDone.toNat) := by
  induction blocks generalizing bytesDone swapFile soFar d with
  | nil =>
      obtain rfl := Option.some.inj (Prod.mk.inj read).1
      simp only [Covers, List.length_nil, Nat.zero_mul] at covers
      rw [show size.toNat - bytesDone.toNat = 0 by omega, slice_zero, List.append_nil]
  | cons b rest ih =>
      rw [List.nodup_cons] at distinct
      obtain ⟨within, next, covers'⟩ := covers_cons fits covers
      have chunk_length : (slice data bytesDone.toNat
          (blockChunk swapBlockSize size bytesDone).toNat).length =
          (blockChunk swapBlockSize size bytesDone).toNat := length_slice (by omega)
      have here := kept b List.mem_cons_self
      rw [writeSegmentLoop, writeSegmentLoop_other distinct.1, Function.update_self] at here
      simp only [readSegmentLoop] at read
      split at read
      · simp at read
      · rw [here, read_buffer chunk_length] at read
        have kept' : ∀ b' ∈ rest, d.takeRefusal.2.swapFile b' =
            writeSegmentLoop swapBlockSize size data rest
              (bytesDone + blockChunk swapBlockSize size bytesDone)
              (Function.update swapFile b fun i => (slice data bytesDone.toNat
                (blockChunk swapBlockSize size bytesDone).toNat).getD i 0) b' :=
          fun b' mem => kept b' (List.mem_cons_of_mem _ mem)
        rw [ih _ distinct.2 covers' kept' read, next, List.append_assoc,
          show size.toNat - bytesDone.toNat =
            (blockChunk swapBlockSize size bytesDone).toNat +
              (size.toNat - (bytesDone.toNat +
                (blockChunk swapBlockSize size bytesDone).toNat)) by omega,
          slice_add]

/-- Reading blocks changes no data. -/
theorem readSegmentLoop_advanced (swapBlockSize size : UInt32) (blocks : List UInt32)
    (bytesDone : UInt32) (soFar : List UInt8) (d : Devices) :
    d.Advanced (readSegmentLoop swapBlockSize size blocks bytesDone soFar d).2 := by
  induction blocks generalizing bytesDone soFar d with
  | nil => exact .refl d
  | cons b rest ih =>
      simp only [readSegmentLoop]
      split
      · exact d.takeRefusal_advanced
      · exact d.takeRefusal_advanced.trans (ih ..)

/-- A segment read from swap has its size, whatever the blocks contain. -/
theorem readSegmentFromSwap_spec (swapBlockSize : UInt32) (ss : SuspendedSegment) (d : Devices) :
    d.Advanced (readSegmentFromSwap swapBlockSize ss d).2 ∧
      ∀ data, (readSegmentFromSwap swapBlockSize ss d).1 = some data →
        data.length = ss.size.toNat := by
  have advanced := readSegmentLoop_advanced swapBlockSize ss.size ss.swapBlocks 0 [] d
  unfold readSegmentFromSwap
  split
  · rename_i d' refused
    rw [refused] at advanced
    exact ⟨advanced, by simp⟩
  · rename_i data d' answered
    rw [answered] at advanced
    refine ⟨advanced, fun data eq => ?_⟩
    obtain rfl := Option.some.inj eq
    simp only [List.length_take, List.length_append, List.length_map, List.length_range']
    omega

end Blocks

section Covers

variable {s : State} {size : UInt32}

theorem castInt_of_lt {n : UInt32} (small : n.toNat < 2 ^ 31) : (castInt n).toNat = n.toNat := by
  rw [castInt, if_pos small, Int.toNat_natCast]

/-- The size rounded up to blocks, when the sum does not wrap. -/
theorem blocksNeeded_toNat (positive : 0 < s.swapBlockSize)
    (fits : size.toNat + s.swapBlockSize.toNat ≤ 2 ^ 32) :
    (blocksNeeded s size).toNat =
      (size.toNat + s.swapBlockSize.toNat - 1) / s.swapBlockSize.toNat := by
  rw [UInt32.lt_iff_toNat_lt, UInt32.toNat_zero] at positive
  have numerator : (size + s.swapBlockSize - 1).toNat =
      size.toNat + s.swapBlockSize.toNat - 1 := by
    rw [UInt32.toNat_sub, UInt32.toNat_add, UInt32.toNat_one]
    omega
  rw [blocksNeeded, UInt32.toNat_div, numerator]

/-- The blocks a segment is given cover it. -/
theorem covers_blocksNeeded {blocks : List UInt32} (positive : 0 < s.swapBlockSize)
    (fits : size.toNat + s.swapBlockSize.toNat ≤ 2 ^ 32)
    (small : (blocksNeeded s size).toNat < 2 ^ 31)
    (got : getFreeSwapBlocks s (blocksNeeded s size) = some blocks) :
    Covers s.swapBlockSize size 0 blocks := by
  have count := (getFreeSwapBlocks_spec got).2.1
  rw [castInt_of_lt small, blocksNeeded_toNat positive fits] at count
  rw [UInt32.lt_iff_toNat_lt, UInt32.toNat_zero] at positive
  have low := Nat.lt_div_mul_add (a := size.toNat + s.swapBlockSize.toNat - 1) positive
  have high := Nat.div_mul_le_self (size.toNat + s.swapBlockSize.toNat - 1) s.swapBlockSize.toNat
  rw [← count] at low high
  simp only [Covers, UInt32.toNat_zero]
  omega

end Covers

/-! ### Suspension -/

section Suspend

variable {s : State} {d : Devices}

/-- What suspending may change in the devices: blocks not in use. -/
structure SwapOnly (s : State) (d d' : Devices) : Prop where
  sticks : d'.listMemoryStick = d.listMemoryStick
  used : ∀ b ∈ usedBlocks s, d'.swapFile b = d.swapFile b
  refusals : d.refusals = [] → d'.refusals = []

theorem SwapOnly.trans {d' d'' : Devices} (h : SwapOnly s d d') (h' : SwapOnly s d' d'') :
    SwapOnly s d d'' :=
  ⟨h'.sticks.trans h.sticks, fun b mem => (h'.used b mem).trans (h.used b mem),
    fun none => h'.refusals (h.refusals none)⟩

theorem SwapOnly.of_advanced {d' : Devices} (h : d.Advanced d') : SwapOnly s d d' :=
  ⟨h.sticks_eq, fun _ _ => by rw [h.swapFile_eq], h.refusals_nil⟩

/-- The entry of a suspended segment: its identity, its size and the blocks
found free. -/
structure Suspends (s : State) (seg : HeapSegment) (ss : SuspendedSegment) : Prop where
  segmentId : ss.segmentId = seg.segmentId
  size : ss.size = seg.size
  blocks : getFreeSwapBlocks s (blocksNeeded s seg.size) = some ss.swapBlocks

theorem suspendSegment_spec (s : State) (seg : HeapSegment) (d : Devices) :
    SwapOnly s d (suspendSegment s seg.toSegment d).2 ∧
      ∀ ss, (suspendSegment s seg.toSegment d).1 = some ss → Suspends s seg ss := by
  have unchanged := memoryRead_snd d seg.base seg.size
  unfold suspendSegment
  split
  · exact ⟨.of_advanced (.refl d), by simp⟩
  · rename_i blocks got
    split
    · rename_i d' missing
      rw [missing] at unchanged
      obtain rfl : d' = d := unchanged
      exact ⟨.of_advanced (.refl d'), by simp⟩
    · rename_i data d' answered
      rw [answered] at unchanged
      obtain rfl : d' = d := unchanged
      refine ⟨⟨rfl, fun b used => ?_, id⟩, fun ss eq => ?_⟩
      · refine writeSegmentLoop_other fun mem => ?_
        exact ((getFreeSwapBlocks_spec got).2.2 b mem).1 used
      · obtain rfl := Option.some.inj eq
        exact ⟨rfl, rfl, got⟩

/-- What a suspended segment leaves in the swap file. -/
theorem suspendSegment_stored {seg : HeapSegment} {ss : SuspendedSegment} {d' : Devices}
    (fits : stickTotal d.listMemoryStick < 2 ^ 32)
    (stored : suspendSegment s seg.toSegment d = (some ss, d')) :
    (seg.size.toNat = 0 ∨ seg.span.stop ≤ stickTotal d.listMemoryStick) ∧ d'.swapFile =
      writeSegmentLoop s.swapBlockSize seg.size
        (slice (flat d.listMemoryStick) seg.base.toNat seg.size.toNat) ss.swapBlocks 0
        d.swapFile := by
  unfold suspendSegment at stored
  split at stored
  · simp at stored
  · split at stored
    · simp at stored
    · rename_i data d'' answered
      obtain ⟨eq, rfl⟩ := Prod.mk.inj stored
      obtain rfl := Option.some.inj eq
      have unchanged := memoryRead_snd d seg.base seg.size
      obtain ⟨data_eq, -⟩ :=
        memoryRead_spec d seg.base seg.size fits
      rw [answered] at unchanged data_eq
      obtain rfl : d'' = d := unchanged
      obtain ⟨rfl, inside⟩ := data_eq data rfl
      refine ⟨?_, rfl⟩
      rcases Nat.eq_zero_or_pos seg.size.toNat with zero | pos
      · exact .inl zero
      · exact .inr (inside (UInt32.lt_iff_toNat_lt.mpr (by simpa using pos)))

theorem suspendLoop_spec (s : State) (segs : List HeapSegment) (d : Devices) :
    SwapOnly s d (suspendLoop s segs d).2 ∧
      ∀ suspended, (suspendLoop s segs d).1 = some suspended →
        List.Forall₂ (Suspends s) segs suspended := by
  induction segs generalizing d with
  | nil =>
      refine ⟨.of_advanced (.refl d), fun suspended eq => ?_⟩
      obtain rfl := Option.some.inj eq
      exact .nil
  | cons seg rest ih =>
      obtain ⟨only, entry⟩ := suspendSegment_spec s seg d
      simp only [suspendLoop]
      split
      · rename_i d' failed
        rw [failed] at only
        exact ⟨only, by simp⟩
      · rename_i ss d' stored
        rw [stored] at only entry
        obtain ⟨only', entries⟩ := ih d'
        split
        · rename_i d'' failed
          rw [failed] at only'
          exact ⟨only.trans only', by simp⟩
        · rename_i suspended d'' stored'
          rw [stored'] at only' entries
          refine ⟨only.trans only', fun all eq => ?_⟩
          obtain rfl := Option.some.inj eq
          exact .cons (entry ss rfl) (entries suspended rfl)

end Suspend

/-! ### Coming back -/

section Desuspend

variable {s : State} {d : Devices}

/-- The interval a suspended segment will need is that of the hole selected for
it. -/
structure Readies (s : State) (ss : SuspendedSegment) (sr : SegmentReady) : Prop where
  segmentId : sr.segmentId = ss.segmentId
  size : sr.size = ss.size
  hole : ∃ chosen, selectHole s.allocationStrategy (getFreeHoles s) ss.size = some chosen ∧
    sr.newBase = chosen.base

/-- What bringing the segments `suspended` back may change in the devices: the
free memory they are put in. -/
structure FreeOnly (s : State) (suspended : List SuspendedSegment) (d d' : Devices) : Prop where
  total : stickTotal d'.listMemoryStick = stickTotal d.listMemoryStick
  swapFile : d'.swapFile = d.swapFile
  refusals : d.refusals = [] → d'.refusals = []
  outside : ∀ i n,
    (∀ ss ∈ suspended, ∀ sp, placeFor s ss.size = some sp → Apart ⟨i, n⟩ sp) →
    slice (flat d'.listMemoryStick) i n = slice (flat d.listMemoryStick) i n

section FreeOnly

variable {suspended suspended' : List SuspendedSegment}

theorem FreeOnly.trans {d' d'' : Devices} (h : FreeOnly s suspended d d')
    (h' : FreeOnly s suspended' d' d'') : FreeOnly s (suspended ++ suspended') d d'' :=
  ⟨h'.total.trans h.total, h'.swapFile.trans h.swapFile, fun none => h'.refusals (h.refusals none),
    fun i n apart =>
      (h'.outside i n fun ss mem => apart ss (List.mem_append_right _ mem)).trans
        (h.outside i n fun ss mem => apart ss (List.mem_append_left _ mem))⟩

theorem FreeOnly.mono {d' : Devices} (h : FreeOnly s suspended d d')
    (more : ∀ ss ∈ suspended, ss ∈ suspended') : FreeOnly s suspended' d d' :=
  ⟨h.total, h.swapFile, h.refusals, fun i n apart =>
    h.outside i n fun ss mem => apart ss (more ss mem)⟩

theorem FreeOnly.of_advanced {d' : Devices} (h : d.Advanced d') : FreeOnly s suspended d d' :=
  ⟨by rw [h.sticks_eq], h.swapFile_eq, h.refusals_nil, fun _ _ _ => by rw [h.sticks_eq]⟩

/-- No byte of a resident segment changes. -/
theorem FreeOnly.resident {d' : Devices} (sound : Sound s) (h : FreeOnly s suspended d d')
    {seg : HeapSegment} (mem : seg ∈ allSegments s) :
    slice (flat d'.listMemoryStick) seg.base.toNat seg.size.toNat =
      slice (flat d.listMemoryStick) seg.base.toNat seg.size.toNat :=
  h.outside _ _ fun _ _ _ place => Apart.symm ((placeFor_free sound place).apart seg mem)

end FreeOnly

/-- The interval of a segment that comes back lies in the hole selected. -/
theorem Readies.in_hole {ss : SuspendedSegment} {sr : SegmentReady} (h : Readies s ss sr) :
    ∃ chosen ∈ getFreeHoles s, sr.newBase = chosen.base ∧
      chosen.span.base ≤ sr.span.base ∧ sr.span.stop ≤ chosen.span.stop := by
  obtain ⟨-, size, chosen, selected, base⟩ := h
  obtain ⟨among, fits⟩ := selectHole_mem selected
  rw [UInt32.le_iff_toNat_le] at fits
  refine ⟨chosen, among, base, ?_, ?_⟩
  · simp [SegmentReady.span, Hole.span, base]
  · simp only [SegmentReady.span, Hole.span, stop, base, size]
    omega

theorem desuspendSegment_spec (sound : Sound s) (ss : SuspendedSegment)
    (total : stickTotal d.listMemoryStick = s.totalMemorySize.toNat) :
    FreeOnly s [ss] d (desuspendSegment s ss d).2 ∧
      ∀ sr, (desuspendSegment s ss d).1 = some sr →
        Readies s ss sr ∧ ∃ data, (readSegmentFromSwap s.swapBlockSize ss d).1 = some data ∧
          slice (flat (desuspendSegment s ss d).2.listMemoryStick) sr.newBase.toNat
            sr.size.toNat = data := by
  have fits : stickTotal d.listMemoryStick < 2 ^ 32 := by
    rw [total]
    exact s.totalMemorySize.toNat_lt
  unfold desuspendSegment
  split
  · exact ⟨.of_advanced (.refl d), by simp⟩
  · rename_i chosen selected
    obtain ⟨among, enough⟩ := selectHole_mem selected
    rw [UInt32.le_iff_toNat_le] at enough
    obtain ⟨-, below, -⟩ := getFreeHoles_free sound among
    obtain ⟨advanced, length_eq⟩ := readSegmentFromSwap_spec s.swapBlockSize ss d
    split
    · rename_i d' refused
      rw [refused] at advanced
      exact ⟨.of_advanced advanced, by simp⟩
    · rename_i data d' answered
      rw [answered] at advanced length_eq
      have data_length := length_eq data rfl
      have sticks := advanced.sticks_eq
      obtain ⟨wrote, stored, -⟩ := memoryWrite_spec d' chosen.base
        (by rw [sticks]; exact fits) data_length
      have only : FreeOnly s [ss] d (memoryWrite d' chosen.base data ss.size).2 := by
        refine ⟨wrote.stickTotal_eq.trans (by rw [sticks]), wrote.swapFile_eq.trans
          advanced.swapFile_eq, fun none => wrote.refusals_nil (advanced.refusals_nil none),
          fun i n apart => ?_⟩
        rw [← sticks]
        refine wrote.bytes.slice_eq ?_
        have := apart ss List.mem_cons_self _ (placeFor_of_selectHole selected)
        simp only [Apart, stop] at this
        omega
      split
      · rename_i d'' failed
        rw [failed] at only
        exact ⟨only, by simp⟩
      · rename_i d'' done
        rw [done] at only stored
        refine ⟨only, fun sr eq => ?_⟩
        obtain rfl := Option.some.inj eq
        refine ⟨⟨rfl, rfl, chosen, selected, rfl⟩, data, by rw [answered], ?_⟩
        simp only [(stored rfl).1]
        simp only [Hole.span, stop] at below
        rw [← data_length]
        exact slice_writeAt (by rw [length_flat, sticks, total]; omega)

theorem desuspendLoop_spec (sound : Sound s) (suspended : List SuspendedSegment)
    (total : stickTotal d.listMemoryStick = s.totalMemorySize.toNat) :
    FreeOnly s suspended d (desuspendLoop s suspended d).2 ∧
      ∀ ready, (desuspendLoop s suspended d).1 = some ready →
        List.Forall₂ (Readies s) suspended ready := by
  induction suspended generalizing d with
  | nil =>
      refine ⟨.of_advanced (.refl d), fun ready eq => ?_⟩
      obtain rfl := Option.some.inj eq
      exact .nil
  | cons ss rest ih =>
      obtain ⟨only, place⟩ := desuspendSegment_spec sound ss total
      simp only [desuspendLoop]
      split
      · rename_i d' failed
        rw [failed] at only
        exact ⟨only.mono (by simp), by simp⟩
      · rename_i sr d' stored
        rw [stored] at only place
        obtain ⟨only', places⟩ := ih (d := d') (only.total.trans total)
        split
        · rename_i d'' failed
          rw [failed] at only'
          exact ⟨only.trans only', by simp⟩
        · rename_i ready d'' stored'
          rw [stored'] at only' places
          refine ⟨only.trans only', fun all eq => ?_⟩
          obtain rfl := Option.some.inj eq
          exact .cons (place sr rfl).1 (places ready rfl)

end Desuspend

end OsModel.KernelMemory
