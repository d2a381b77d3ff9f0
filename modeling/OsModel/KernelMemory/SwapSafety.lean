import OsModel.KernelMemory.ChunkRequests
import OsModel.KernelMemory.LayoutRuns

/-!
Suspensions and resumptions that fail.

* `failed_swap_unchanged`: a `process_suspend` or `process_desuspend` that returns `false` has
  written to free blocks and free memory only.
* `suspension_safe_iff`, `suspensions_safe_of_run`: exactly when a `SWAP_OUT` neither divides by
  zero nor counts too few blocks. The block size may be anything that SWAP has announced, and
  zero before.
-/

namespace OsModel.KernelMemory

open Lib Span

/-! ### Failures change nothing -/

section Unchanged

variable {s s' : State} {pid : UInt32}

/-- Nothing but free memory and free swap blocks is different. -/
structure Unchanged (s s' : State) : Prop where
  onlyDevices : ∃ d, s' = { s with devices := d }
  tables : s'.listProcesses = s.listProcesses
  entries : s'.listSuspendedProcesses = s.listSuspendedProcesses
  resident : ∀ seg ∈ allSegments s, segmentBytes s' seg = segmentBytes s seg
  stored : ∀ b ∈ usedBlocks s, s'.devices.swapFile b = s.devices.swapFile b

theorem SwapOnly.unchanged {d : Devices} (only : SwapOnly s s.devices d) :
    Unchanged s { s with devices := d } := by
  refine ⟨⟨d, rfl⟩, rfl, rfl, ?_, only.used⟩
  intro seg _
  simp only [segmentBytes, only.sticks]

theorem FreeOnly.unchanged {suspended : List SuspendedSegment} {d : Devices} (sound : Sound s)
    (only : FreeOnly s suspended s.devices d) : Unchanged s { s with devices := d } := by
  refine ⟨⟨d, rfl⟩, rfl, rfl, ?_, ?_⟩
  · intro seg mem
    exact only.resident sound mem
  · intro b _
    exact congrFun only.swapFile b

/-- **A suspension or resumption that fails changes nothing visible**, wherever it fails. -/
theorem failed_swap_unchanged (sound : Sound s) (pid : UInt32) :
    (∀ s', processSuspend s pid = some (false, s') → Unchanged s s') ∧
      ∀ s', processDesuspend s pid = (false, s') → Unchanged s s' := by
  constructor
  · intro s' called
    obtain ⟨-, d, only, rfl⟩ | ⟨ok, -⟩ := processSuspend_cases called
    · exact only.unchanged
    · cases ok
  · intro s' called
    obtain ⟨-, d, only, rfl⟩ | ⟨ok, -⟩ := processDesuspend_cases sound called
    · exact only.unchanged sound
    · cases ok

/-- The second block of a resumption is not read, after the first segment has been written to
memory. -/
theorem failed_swap_unchanged_of_read : ∃ s s' : State, Sound s ∧
    processDesuspend s 1 = (false, s') ∧ Unchanged s s' := by
  obtain ⟨s, run, test⟩ := Run.exists_of_exec step (fun s op => op.Placing s)
    [.connectStick 0 8, .processCreate 1 (some []), .segmentCreate 1 0 1, .segmentCreate 1 1 2,
      .ioMemoryWrite 1 0 1 [5], .processSuspend 1]
    (initial .best 4 16 (fun _ _ => 0) [false, false, false, true] fun _ => 0)
    (fun s => (processDesuspend s 1).1 = false ∧ (suspendedOf s 1).length = 2) (by decide)
  obtain ⟨failed, -⟩ := decide_eq_true_eq.mp test
  have sound := sound_of_run (initial_sound ..) run
  have called : processDesuspend s 1 = (false, (processDesuspend s 1).2) :=
    Prod.ext failed rfl
  exact ⟨s, _, sound, called, (failed_swap_unchanged sound 1).2 _ called⟩

end Unchanged

/-! ### Counting blocks -/

/-- How many blocks a segment of this size takes. -/
def blocksFor (s : State) (size : UInt32) : Nat :=
  (size.toNat + s.swapBlockSize.toNat - 1) / s.swapBlockSize.toNat

/-- How many blocks the segments of a table take. -/
def blocksOf (s : State) (table : List HeapSegment) : Nat :=
  (table.map fun seg => blocksFor s seg.size).sum

/-- The count of the blocks neither wraps around nor is negative as an `int`. -/
def Countable (s : State) (size : UInt32) : Prop :=
  size.toNat + s.swapBlockSize.toNat ≤ 2 ^ 32 ∧ blocksFor s size < 2 ^ 31

instance (s : State) (size : UInt32) : Decidable (Countable s size) := by
  unfold Countable
  infer_instance

section Counting

variable {s : State} {size : UInt32}

theorem castInt_blocksNeeded (positive : 0 < s.swapBlockSize) (countable : Countable s size) :
    castInt (blocksNeeded s size) = blocksFor s size := by
  have count := blocksNeeded_toNat positive countable.1
  rw [castInt, if_pos (by rw [count]; exact countable.2), count, blocksFor]

/-- A count that goes wrong asks for no block at all. -/
theorem castInt_blocksNeeded_nonpos (positive : 0 < s.swapBlockSize)
    (wrong : ¬ Countable s size) :
    castInt (blocksNeeded s size) ≤ 0 ∧ 0 < blocksFor s size := by
  rw [UInt32.lt_iff_toNat_lt, UInt32.toNat_zero] at positive
  have small := size.toNat_lt
  have block := s.swapBlockSize.toNat_lt
  by_cases fits : size.toNat + s.swapBlockSize.toNat ≤ 2 ^ 32
  · have count := blocksNeeded_toNat (UInt32.lt_iff_toNat_lt.mpr positive) fits
    have many : 2 ^ 31 ≤ blocksFor s size := by
      by_contra few
      exact wrong ⟨fits, by omega⟩
    have bound := (blocksNeeded s size).toNat_lt
    rw [blocksFor] at many ⊢
    rw [castInt, if_neg (by rw [count]; omega)]
    omega
  · have numerator : (size + s.swapBlockSize - 1).toNat =
        size.toNat + s.swapBlockSize.toNat - 1 - 2 ^ 32 := by
      rw [UInt32.toNat_sub, UInt32.toNat_add, UInt32.toNat_one]
      omega
    have none : (blocksNeeded s size).toNat = 0 := by
      rw [blocksNeeded, UInt32.toNat_div, numerator]
      exact Nat.div_eq_of_lt (by omega)
    constructor
    · rw [castInt, if_pos (by omega), none]
      simp
    · exact Nat.div_pos (by omega) positive

/-- `get_free_swap_blocks` finds the blocks of a segment that is counted right. -/
theorem getFreeSwapBlocks_countable (positive : 0 < s.swapBlockSize)
    (countable : Countable s size) :
    getFreeSwapBlocks s (blocksNeeded s size) =
      if (freeBlocks s).length < blocksFor s size then none
      else some ((freeBlocks s).take (blocksFor s size)) := by
  rw [getFreeSwapBlocks_eq, castInt_blocksNeeded positive countable]
  simp

/-- It finds too few exactly when the count is wrong. -/
theorem getFreeSwapBlocks_enough_iff (positive : 0 < s.swapBlockSize) :
    (∀ blocks, getFreeSwapBlocks s (blocksNeeded s size) = some blocks →
      blocksFor s size ≤ blocks.length) ↔ Countable s size := by
  constructor
  · intro enough
    by_contra wrong
    obtain ⟨nonpos, needed⟩ := castInt_blocksNeeded_nonpos positive wrong
    have got : getFreeSwapBlocks s (blocksNeeded s size) = some [] := by
      rw [getFreeSwapBlocks_eq, if_neg (by omega), Int.toNat_of_nonpos nonpos, List.take_zero]
    have := enough [] got
    simp only [List.length_nil] at this
    omega
  · intro countable blocks got
    rw [getFreeSwapBlocks_countable positive countable] at got
    split at got
    · cases got
    · obtain rfl := Option.some.inj got
      rw [List.length_take]
      omega

end Counting

/-! ### One suspension -/

/-- The segments that the loop of `process_suspend` comes to. -/
def reached (s : State) : List HeapSegment → Devices → List HeapSegment
  | [], _ => []
  | seg :: rest, d =>
      seg :: match suspendSegment s seg.toSegment d with
        | (none, _) => []
        | (some _, d') => reached s rest d'

/-- A `SWAP_OUT` of the process neither divides by zero nor counts too few blocks, and when the
swap file has no room it fails and the process stays. -/
structure SuspendsSafely (s : State) (pid : UInt32) : Prop where
  defined : processSuspend s pid ≠ none
  counted : ∀ pcb, findPcb s pid = some pcb → ∀ seg ∈ reached s pcb.segmentTable s.devices,
    ∀ blocks, getFreeSwapBlocks s (blocksNeeded s seg.size) = some blocks →
      blocksFor s seg.size ≤ blocks.length
  refused : (∀ pcb, findPcb s pid = some pcb →
      (freeBlocks s).length < blocksOf s pcb.segmentTable) →
    ∃ s', processSuspend s pid = some (false, s') ∧ findPcb s' pid = findPcb s pid

/-- The segments, in this order, up to the first that there are too few free blocks for or that
the sticks do not return: each is counted right, and if none stops the loop, the free blocks are
enough for all of them, `needed` more being promised already. -/
def SafeFrom (s : State) : List HeapSegment → Devices → Nat → Prop
  | [], _, needed => needed ≤ (freeBlocks s).length
  | seg :: rest, d, needed =>
      Countable s seg.size ∧
        ((freeBlocks s).length < blocksFor s seg.size ∨
          (memoryRead d seg.base seg.size).1 = none ∨
          SafeFrom s rest (memoryRead d seg.base seg.size).2 (needed + blocksFor s seg.size))

instance (s : State) : (l : List HeapSegment) → (d : Devices) → (needed : Nat) →
    Decidable (SafeFrom s l d needed)
  | [], _, needed => inferInstanceAs (Decidable (needed ≤ (freeBlocks s).length))
  | seg :: rest, d, needed =>
      have : Decidable (SafeFrom s rest (memoryRead d seg.base seg.size).2
        (needed + blocksFor s seg.size)) := instDecidableSafeFrom s rest _ _
      inferInstanceAs (Decidable (Countable s seg.size ∧
        ((freeBlocks s).length < blocksFor s seg.size ∨
          (memoryRead d seg.base seg.size).1 = none ∨
          SafeFrom s rest (memoryRead d seg.base seg.size).2 (needed + blocksFor s seg.size))))

/-- The condition on a `SWAP_OUT`: a process with segments has a block size to divide by, and
its segments are counted right and have room. -/
def Suspendable (s : State) (pid : UInt32) : Prop :=
  ∀ pcb, findPcb s pid = some pcb → pcb.segmentTable ≠ [] →
    0 < s.swapBlockSize ∧ SafeFrom s pcb.segmentTable s.devices 0

instance (s : State) (pid : UInt32) : Decidable (Suspendable s pid) :=
  match h : findPcb s pid with
  | none => isTrue fun pcb found => by simp [h] at found
  | some pcb =>
      decidable_of_iff (pcb.segmentTable ≠ [] →
          0 < s.swapBlockSize ∧ SafeFrom s pcb.segmentTable s.devices 0)
        ⟨fun holds pcb' found => by
          obtain rfl := Option.some.inj (h.symm.trans found)
          exact holds, fun suspendable => suspendable pcb h⟩

section Suspension

variable {s : State} {d : Devices} {pid : UInt32} {l : List HeapSegment} {needed : Nat}

/-- Reading the sticks does not depend on the swap file. -/
theorem Devices.msRead_swapFile (d : Devices) (swapFile : UInt32 → Nat → UInt8) (i : Nat)
    (localOffset chunk : UInt32) :
    { d with swapFile }.msRead i localOffset chunk =
      ((d.msRead i localOffset chunk).1,
        { (d.msRead i localOffset chunk).2 with swapFile }) := by
  unfold msRead
  dsimp only
  cases d.listMemoryStick[i]? with
  | none => rfl
  | some ms =>
      dsimp only
      cases ms.handleRead localOffset chunk <;> rfl

theorem readAll_swapFile (requests : List ChunkRequest) (d : Devices) (result : List UInt8)
    (swapFile : UInt32 → Nat → UInt8) :
    readAll requests { d with swapFile } result =
      ((readAll requests d result).1, { (readAll requests d result).2 with swapFile }) := by
  induction requests generalizing d result with
  | nil => rfl
  | cons request rest ih =>
      unfold readAll
      rw [Devices.msRead_swapFile]
      cases outcome : d.msRead request.stick request.localOffset request.chunk with
      | mk data d' =>
          cases data with
          | none => rfl
          | some data => exact ih d' (result ++ data)

theorem memoryRead_swapFile (d : Devices) (physicalAddress size : UInt32)
    (swapFile : UInt32 → Nat → UInt8) :
    memoryRead { d with swapFile } physicalAddress size =
      ((memoryRead d physicalAddress size).1,
        { (memoryRead d physicalAddress size).2 with swapFile }) := by
  simp only [memoryRead, memoryReadLoop_eq, readOutcome, readAll_swapFile]
  split <;> rfl

theorem safeFrom_swapFile (l : List HeapSegment) (d : Devices) (needed : Nat)
    (swapFile : UInt32 → Nat → UInt8) :
    SafeFrom s l { d with swapFile } needed ↔ SafeFrom s l d needed := by
  induction l generalizing d needed with
  | nil => rfl
  | cons seg rest ih => simp only [SafeFrom, memoryRead_swapFile, ih]

/-- Exactly when the loop counts right and stops for lack of room. -/
theorem suspendLoop_safe_iff (positive : 0 < s.swapBlockSize) (l : List HeapSegment) (d : Devices)
    (needed : Nat) :
    ((∀ seg ∈ reached s l d, Countable s seg.size) ∧
        ((freeBlocks s).length < needed + blocksOf s l → (suspendLoop s l d).1 = none)) ↔
      SafeFrom s l d needed := by
  induction l generalizing d needed with
  | nil => simp [reached, suspendLoop, blocksOf, SafeFrom]
  | cons seg rest ih =>
      have first : seg ∈ reached s (seg :: rest) d := List.mem_cons_self
      have sum : needed + blocksOf s (seg :: rest) =
          needed + blocksFor s seg.size + blocksOf s rest := by
        simp [blocksOf, Nat.add_assoc]
      by_cases countable : Countable s seg.size
      · have got := getFreeSwapBlocks_countable positive countable
        by_cases short : (freeBlocks s).length < blocksFor s seg.size
        · rw [if_pos short] at got
          simp [reached, suspendLoop, suspendSegment, SafeFrom, got, countable, short]
        · rw [if_neg short] at got
          cases read : memoryRead d seg.base seg.size with
          | mk outcome d' =>
              cases outcome with
              | none => simp [reached, suspendLoop, suspendSegment, SafeFrom, got, read, countable]
              | some data =>
                  have rest_iff := ih (writeSegmentToSwap s.swapBlockSize
                    ⟨seg.segmentId, seg.size, (freeBlocks s).take (blocksFor s seg.size)⟩ data d')
                    (needed + blocksFor s seg.size)
                  rw [writeSegmentToSwap, safeFrom_swapFile] at rest_iff
                  rw [sum]
                  simp only [reached, suspendLoop, suspendSegment, SafeFrom, got, read,
                    List.forall_mem_cons, countable, short, true_and, false_or, reduceCtorEq,
                    writeSegmentToSwap]
                  rw [← rest_iff]
                  apply and_congr_right
                  intro _
                  apply imp_congr_right
                  intro _
                  split <;> simp_all
      · constructor
        · intro holds
          exact absurd (holds.1 seg first) countable
        · intro safe
          exact absurd safe.1 countable

/-- What `process_suspend` returns for a process that it can divide for. -/
theorem processSuspend_loop {pcb : Pcb} (found : findPcb s pid = some pcb)
    (divides : ¬ (s.swapBlockSize = 0 ∧ pcb.segmentTable ≠ [])) :
    (processSuspend s pid).map Prod.fst =
        some (suspendLoop s pcb.segmentTable s.devices).1.isSome := by
  rw [processSuspend, found]
  dsimp only
  rw [if_neg divides]
  cases suspendLoop s pcb.segmentTable s.devices with
  | mk outcome d => cases outcome <;> rfl

/-- A suspension that fails leaves the process where it is. -/
theorem processSuspend_stays {pcb : Pcb} (found : findPcb s pid = some pcb)
    (divides : ¬ (s.swapBlockSize = 0 ∧ pcb.segmentTable ≠ [])) :
    (∃ s', processSuspend s pid = some (false, s') ∧ findPcb s' pid = findPcb s pid) ↔
      (suspendLoop s pcb.segmentTable s.devices).1 = none := by
  have returned := processSuspend_loop found divides
  constructor
  · rintro ⟨s', failed, -⟩
    rw [failed] at returned
    simpa using returned
  · intro failed
    rw [failed] at returned
    obtain ⟨⟨ok, s'⟩, called, ok_eq⟩ := Option.map_eq_some_iff.mp returned
    obtain rfl : ok = false := ok_eq
    obtain ⟨-, d, -, rfl⟩ | ⟨ok, -⟩ := processSuspend_cases called
    · exact ⟨_, called, rfl⟩
    · cases ok

/-- **Exactly when a suspension is safe**, whatever the block size and the size of the file. -/
theorem suspension_safe_iff (s : State) (pid : UInt32) :
    SuspendsSafely s pid ↔ Suspendable s pid := by
  cases found : findPcb s pid with
  | none =>
      have missing : processSuspend s pid = some (false, s) := by
        rw [processSuspend, found]
      refine iff_of_true ⟨by simp [missing], by simp [found], fun _ => ⟨s, missing, rfl⟩⟩ ?_
      intro pcb there
      simp [found] at there
  | some pcb =>
      have only : ∀ other, findPcb s pid = some other ↔ other = pcb := by
        simp [found, eq_comm]
      by_cases divides : s.swapBlockSize = 0 ∧ pcb.segmentTable ≠ []
      · have dies : processSuspend s pid = none := by
          rw [processSuspend, found]
          exact if_pos divides
        constructor
        · intro safe
          exact absurd dies safe.defined
        · intro suspendable
          have positive := (suspendable pcb found divides.2).1
          simp [divides.1] at positive
      · have returned := processSuspend_loop found divides
        have stays := processSuspend_stays found divides
        have defined : processSuspend s pid ≠ none := by
          intro none
          simp [none] at returned
        by_cases empty : pcb.segmentTable = []
        · apply iff_of_true
          · refine ⟨defined, ?_, ?_⟩
            · intro other there seg mem
              obtain rfl := (only other).mp there
              simp [empty, reached] at mem
            · intro short
              have none := short pcb found
              simp [empty, blocksOf] at none
          · intro other there some
            obtain rfl := (only other).mp there
            exact absurd empty some
        · have positive : 0 < s.swapBlockSize := by
            rw [UInt32.pos_iff_ne_zero]
            exact fun zero => divides ⟨zero, empty⟩
          have loop := suspendLoop_safe_iff positive pcb.segmentTable s.devices 0
          rw [Nat.zero_add, ← stays] at loop
          constructor
          · intro safe other there _
            obtain rfl := (only other).mp there
            refine ⟨positive, loop.mp ⟨?_, ?_⟩⟩
            · intro seg mem
              exact (getFreeSwapBlocks_enough_iff positive).mp (safe.counted _ found seg mem)
            · intro short
              apply safe.refused
              intro other there
              rwa [(only other).mp there]
          · intro suspendable
            obtain ⟨countable, refused⟩ := loop.mpr (suspendable pcb found empty).2
            refine ⟨defined, ?_, fun short => refused (short pcb found)⟩
            intro other there seg mem
            obtain rfl := (only other).mp there
            exact (getFreeSwapBlocks_enough_iff positive).mpr (countable seg mem)

end Suspension

/-! ### Runs in which SWAP connects at any time -/

/-- What happens to Kernel Memory: an operation of its handlers, or SWAP connects and announces
two sizes. -/
inductive SwapOp where
  | kernel (op : Op)
  | connectSwap (swapBlockSize swapTotalSize : UInt32)
  deriving DecidableEq, Repr

/-- The first lines of `swap_handler`. -/
def connectSwap (s : State) (swapBlockSize swapTotalSize : UInt32) : State :=
  { s with swapBlockSize, swapTotalSize }

def swapStep (s : State) : SwapOp → Option State
  | .kernel op => step s op
  | .connectSwap swapBlockSize swapTotalSize => some (connectSwap s swapBlockSize swapTotalSize)

/-- The sizes of segments and sticks are those that Kernel Memory is promised. -/
def SwapOp.Admissible (s : State) : SwapOp → Prop
  | .kernel op => op.Admissible s
  | .connectSwap .. => True

/-- Every `SWAP_OUT` meets its condition. -/
def SwapOp.Suspendable (s : State) : SwapOp → Prop
  | .kernel (.processSuspend pid) => KernelMemory.Suspendable s pid
  | _ => True

instance (s : State) : (op : SwapOp) → Decidable (op.Admissible s)
  | .kernel op => inferInstanceAs (Decidable (op.Admissible s))
  | .connectSwap .. => .isTrue trivial

instance (s : State) : (op : SwapOp) → Decidable (op.Suspendable s)
  | .kernel (.processSuspend pid) => inferInstanceAs (Decidable (KernelMemory.Suspendable s pid))
  | .kernel (.processCreate ..) | .kernel (.processEnd _) | .kernel (.segmentCreate ..)
  | .kernel (.segmentDelete ..) | .kernel (.processDesuspend _) | .kernel (.connectStick ..)
  | .kernel (.ioMemoryWrite ..) | .connectSwap .. => .isTrue trivial

/-- Kernel Memory before SWAP has connected. -/
def unconnected (strategy : AllocationStrategy) (swapFile : UInt32 → Nat → UInt8)
    (refusals : List Bool) (fresh : Nat → UInt8) : State :=
  initial strategy 0 0 swapFile refusals fresh

section Runs

variable {strategy : AllocationStrategy} {swapFile : UInt32 → Nat → UInt8}
  {refusals : List Bool} {fresh : Nat → UInt8} {s : State} {ops : List SwapOp}

/-- **Suspensions are safe** in every run whose `SWAP_OUT`s meet the condition, whenever SWAP
connects and whatever it announces; in the state that the run ends in, the condition is exact. -/
theorem suspensions_safe_of_run
    (run : Run swapStep (fun s op => op.Admissible s ∧ op.Suspendable s)
      (unconnected strategy swapFile refusals fresh) ops s) :
    (∀ before pid after, ops = before ++ .kernel (.processSuspend pid) :: after →
        ∃ s₁, Run swapStep (fun s op => op.Admissible s ∧ op.Suspendable s)
          (unconnected strategy swapFile refusals fresh) before s₁ ∧ SuspendsSafely s₁ pid) ∧
      ∀ pid, SuspendsSafely s pid ↔ Suspendable s pid := by
  refine ⟨?_, suspension_safe_iff s⟩
  induction run with
  | refl =>
      intro before pid after split
      simp at split
  | snoc earlier guard taken ih =>
      rename_i s₁ _ ops op
      intro before pid after split
      rcases List.eq_nil_or_concat after with rfl | ⟨front, last, rfl⟩
      · obtain ⟨rfl, last_eq⟩ := List.append_inj' split rfl
        obtain rfl := List.singleton_inj.mp last_eq
        exact ⟨s₁, earlier, (suspension_safe_iff s₁ pid).mpr guard.2⟩
      · rw [List.concat_eq_append, ← List.cons_append, ← List.append_assoc] at split
        exact ih before pid front (List.append_inj' split rfl).1

/-- SWAP connects after the process has its segments, and before the suspension. -/
theorem suspensions_safe_of_late_swap : ∃ s : State, Suspendable s 1 ∧ SuspendsSafely s 1 := by
  obtain ⟨s, run, test⟩ := Run.exists_of_exec swapStep
    (fun s op => op.Admissible s ∧ op.Suspendable s)
    [.kernel (.connectStick 0 8), .kernel (.processCreate 1 (some [])),
      .kernel (.segmentCreate 1 0 1), .kernel (.segmentCreate 1 1 2), .connectSwap 4 16,
      .kernel (.processSuspend 1), .kernel (.processDesuspend 1)]
    (unconnected .best (fun _ _ => 0) [] fun _ => 0)
    (fun s => Suspendable s 1) (by decide)
  have suspendable := decide_eq_true_eq.mp test
  exact ⟨s, suspendable, ((suspensions_safe_of_run run).2 1).mpr suspendable⟩

/-- A `SWAP_OUT` before SWAP has connected divides by zero. -/
theorem division_by_zero : ∃ ops s,
    Run swapStep (fun s op => op.Admissible s) (unconnected .best (fun _ _ => 0) [] fun _ => 0)
      ops s ∧ processSuspend s 1 = none := by
  obtain ⟨s, run, test⟩ := Run.exists_of_exec swapStep (fun s op => op.Admissible s)
    [.kernel (.connectStick 0 8), .kernel (.processCreate 1 (some [])),
      .kernel (.segmentCreate 1 0 1)] (unconnected .best (fun _ _ => 0) [] fun _ => 0)
    (fun s => (processSuspend s 1).isNone) (by decide)
  exact ⟨_, s, run, Option.isNone_iff_eq_none.mp test⟩

end Runs

end OsModel.KernelMemory
