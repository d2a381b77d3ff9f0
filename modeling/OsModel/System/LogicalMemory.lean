import OsModel.Cpu.Isolation
import OsModel.System.StdinDelivery

/-!
The logical memory of each process over the one physical memory.

A process names its memory by segment and offset; the segments move when Kernel Memory
compacts and are spread over the sticks.

* `System.written`: what each process has written since the segment was allocated.
* `processView_of_others`: operations and writes of other processes change nothing that a
  process has.
* `memory_stable`: reading a logical address gives what was last written there.
-/

namespace OsModel.LogicalMemory

open Lib Span KernelMemory Cpu

/-! ### What the processes have written -/

/-- The bytes that processes have written, by process, segment id and offset. -/
abbrev Written : Type := UInt32 → UInt32 → ℕ → Option UInt8

/-- A process writes at an offset of a segment. -/
def Written.record (written : Written) (pid segmentId : UInt32) (offset : ℕ)
    (data : List UInt8) : Written := fun pid' segmentId' i =>
  if pid' = pid ∧ segmentId' = segmentId ∧ offset ≤ i ∧ i < offset + data.length then
    data[i - offset]?
  else written pid' segmentId' i

/-- A segment of a process is allocated anew, or freed. -/
def Written.forget (written : Written) (pid segmentId : UInt32) : Written :=
  fun pid' segmentId' i =>
    if pid' = pid ∧ segmentId' = segmentId then none else written pid' segmentId' i

def Written.forgetProcess (written : Written) (pid : UInt32) : Written :=
  fun pid' segmentId' i => if pid' = pid then none else written pid' segmentId' i

/-- The segment that a process names with an id: the first one of its table. -/
def segmentOf (memory : State) (pid segmentId : UInt32) : Option HeapSegment :=
  (segmentTableOf memory pid).bind fun table =>
    table.find? fun seg => seg.segmentId == segmentId

/-- What is forgotten with an operation. A second segment of an id is not named by it while
the first one is there. -/
def Written.after (written : Written) (memory : State) : Op → Written
  | .segmentCreate pid segmentId _ =>
      if segmentOf memory pid segmentId = none then written.forget pid segmentId else written
  | .segmentDelete pid segmentId => written.forget pid segmentId
  | .processEnd pid => written.forgetProcess pid
  | .processCreate .. | .processSuspend _ | .processDesuspend _ | .connectStick ..
  | .ioMemoryWrite .. => written

/-! ### The system -/

/-- Kernel Memory, with what has been written. -/
structure System where
  memory : State
  written : Written

/-- What can happen next. -/
inductive Action where
  /-- An operation of Kernel Memory. -/
  | perform (op : Op)
  /-- A CPU executes `MOV_OUT` for a process. -/
  | movOut (pid : UInt32) (context : CpuContext) (registerName : String)
  /-- A CPU executes `COPY_MEM` for a process. -/
  | copyMem (pid : UInt32) (context : CpuContext) (registerName : String)
  deriving DecidableEq, Repr

def Action.pid : Action → Option UInt32
  | .perform op => op.pid
  | .movOut pid .. | .copyMem pid .. => some pid

section Step

variable (segmentMaxSize : UInt32)

/-- A CPU about to execute an instruction with these registers. -/
def onCpu (memory : State) (context : CpuContext) : Execution :=
  ⟨segmentMaxSize, context, false, false, false, .processExit, memory.devices, [], [], []⟩

/-- What `instruction_mov_out` hands to `memory_write`. -/
def movOutData (segmentTable : List Segment) (context : CpuContext) (registerName : String) :
    Option (List UInt8) :=
  (getRegisterDescriptor registerName).bind fun register =>
    (translate segmentMaxSize segmentTable context.di register.fieldSize).map fun _ =>
      (bytesOfUInt32 (register.read context)).take register.fieldSize.toNat

/-- What `instruction_copy_mem` hands to `memory_write`. -/
def copyMemData (d : Devices) (segmentTable : List Segment) (context : CpuContext)
    (registerName : String) : Option (List UInt8) :=
  if checkIfRegister registerName then
    let size := readRegisterValue context registerName
    (translate segmentMaxSize segmentTable context.si size).bind fun physicalSrc =>
      (translate segmentMaxSize segmentTable context.di size).bind fun _ =>
        (memoryRead d physicalSrc size).1
  else none

/-- The state after an instruction that writes at the logical address in `DI`. -/
def System.executed (s : System) (pid : UInt32) (context : CpuContext)
    (data : Option (List UInt8)) (cpu : Execution) : System where
  memory := { s.memory with devices := cpu.devices }
  written := data.elim s.written fun data =>
    s.written.record pid (context.di / segmentMaxSize) (context.di % segmentMaxSize).toNat data

/-- One operation, or one instruction with the segment table of its process. -/
def step (s : System) : Action → Option System
  | .perform op =>
      (KernelMemory.step s.memory op).map fun memory => ⟨memory, s.written.after s.memory op⟩
  | .movOut pid context registerName =>
      (segmentTableOf s.memory pid).bind fun table =>
        (instructionMovOut ["MOV_OUT", registerName] (onCpu segmentMaxSize s.memory context)
          ⟨pid, table.map HeapSegment.toSegment⟩).map (s.executed segmentMaxSize pid context
            (movOutData segmentMaxSize (table.map HeapSegment.toSegment) context registerName))
  | .copyMem pid context registerName =>
      (segmentTableOf s.memory pid).bind fun table =>
        (instructionCopyMem ["COPY_MEM", registerName] (onCpu segmentMaxSize s.memory context)
          ⟨pid, table.map HeapSegment.toSegment⟩).map (s.executed segmentMaxSize pid context
            (copyMemData segmentMaxSize s.memory.devices (table.map HeapSegment.toSegment)
              context registerName))

/-- A read at a logical address: the translation, then `memory_read`. -/
def read (memory : State) (pid logicalAddress size : UInt32) : Option (List UInt8) :=
  (segmentTableOf memory pid).bind fun table =>
    (translate segmentMaxSize (table.map HeapSegment.toSegment) logicalAddress size).bind
      fun physicalAddress => (memoryRead memory.devices physicalAddress size).1

/-- The translation of a process wraps. -/
def WrapsFor (memory : State) (pid logicalAddress size : UInt32) : Prop :=
  ∃ table ∈ segmentTableOf memory pid,
    Wraps segmentMaxSize (table.map HeapSegment.toSegment) logicalAddress size

/-- The operations that suspend and resume nothing and write nothing. -/
def Resident : Op → Prop
  | .processCreate .. | .processEnd _ | .segmentCreate .. | .segmentDelete ..
  | .connectStick .. => True
  | .processSuspend _ | .processDesuspend _ | .ioMemoryWrite .. => False

/-- Segments and sticks have at least a byte, nothing is suspended, and no translation
wraps. -/
def Action.Plain (s : System) : Action → Prop
  | .perform op => op.Admissible s.memory ∧ Resident op
  | .movOut pid context registerName => ∀ register ∈ getRegisterDescriptor registerName,
      ¬ WrapsFor segmentMaxSize s.memory pid context.di register.fieldSize
  | .copyMem pid context registerName =>
      ¬ WrapsFor segmentMaxSize s.memory pid context.si
          (readRegisterValue context registerName) ∧
        ¬ WrapsFor segmentMaxSize s.memory pid context.di
          (readRegisterValue context registerName)

end Step

/-- The system before any stick or process; the sticks answer every request. -/
def initial (allocationStrategy : AllocationStrategy) (swapBlockSize swapTotalSize : UInt32)
    (swapFile : UInt32 → ℕ → UInt8) (fresh : ℕ → UInt8) : System :=
  ⟨KernelMemory.initial allocationStrategy swapBlockSize swapTotalSize swapFile [] fresh,
    fun _ _ _ => none⟩

/-! ### The operations of Kernel Memory -/

section Operations

variable {s s' : State} {op : Op} {pid other segmentId segmentId' : UInt32}

/-- What a process has in the segment it names with an id. -/
def bytesOf (memory : State) (pid segmentId : UInt32) : Option (List UInt8) :=
  (segmentOf memory pid segmentId).map (segmentBytes memory)

theorem segmentOf_eq_some {seg : HeapSegment} (named : segmentOf s pid segmentId = some seg) :
    ∃ pcb, findPcb s pid = some pcb ∧ seg ∈ pcb.segmentTable ∧
      seg.segmentId = segmentId := by
  obtain ⟨table, found, first⟩ := Option.bind_eq_some_iff.mp named
  obtain ⟨pcb, here, rfl⟩ := Option.map_eq_some_iff.mp found
  exact ⟨pcb, here, List.mem_of_find?_eq_some first, by simpa using List.find?_some first⟩

theorem mem_allSegments {seg : HeapSegment} (named : segmentOf s pid segmentId = some seg) :
    seg ∈ allSegments s := by
  obtain ⟨pcb, here, mem, -⟩ := segmentOf_eq_some named
  exact List.mem_flatMap.mpr ⟨pcb, List.mem_of_find?_eq_some here, mem⟩

theorem bytesOf_eq_view (memory : State) (pid segmentId : UInt32) :
    bytesOf memory pid segmentId = (processView memory pid).bind fun view =>
      (view.find? fun entry => entry.1 == segmentId).map fun entry => entry.2.2 := by
  cases here : findPcb memory pid with
  | none => simp [bytesOf, segmentOf, segmentTableOf, processView, here]
  | some pcb =>
      simp only [bytesOf, segmentOf, segmentTableOf, processView, here, Option.map_some,
        Option.bind_some, Stdin.find?_view, Option.map_map]
      rfl

/-- Operations on others change nothing that a process has. -/
theorem processView_of_others (sound : Sound s) (none : s.devices.refusals = [])
    (resident : Resident op) (ne : op.pid ≠ some pid)
    (taken : KernelMemory.step s op = some s') : processView s' pid = processView s pid := by
  refine step_processView sound ne ?_ (fun _ => none) taken
  intro stores
  cases op with
  | ioMemoryWrite => exact resident
  | processCreate | processEnd | segmentCreate | segmentDelete | processSuspend
  | processDesuspend | connectStick => exact stores

/-- The sticks keep answering. -/
theorem step_refusals (sound : Sound s) (none : s.devices.refusals = []) (resident : Resident op)
    (taken : KernelMemory.step s op = some s') : s'.devices.refusals = [] := by
  cases op with
  | processCreate other instructions =>
      obtain rfl := Option.some.inj taken
      cases instructions <;> exact none
  | processEnd other =>
      obtain rfl := Option.some.inj taken
      exact none
  | segmentCreate other segmentId size =>
      obtain rfl := Option.some.inj taken
      have compaction : (compactMemory s).devices.refusals = [] := by
        obtain ⟨d, moved, -, -, bytes⟩ := compactMemory_spec sound
        rw [moved]
        exact (bytes none).1
      obtain ⟨before, compacts, fixed, result⟩ := segmentCreate_cases s other segmentId size
      have quiet : before.devices.refusals = [] := by
        by_cases h : (Op.segmentCreate other segmentId size).Compacts s
        · rw [compacts h]
          exact compaction
        · rw [fixed h]
          exact none
      rcases result with same | ⟨base, added⟩
      · rw [same]
        exact quiet
      · rw [added]
        exact quiet
  | segmentDelete other segmentId =>
      obtain rfl := Option.some.inj taken
      simp only [segmentDelete]
      split
      · exact none
      · split
        · exact none
        · split <;> exact none
  | connectStick id size =>
      obtain rfl := Option.some.inj taken
      exact none
  | processSuspend | processDesuspend | ioMemoryWrite => exact resident.elim

/-- A process that is created has nothing. -/
theorem processCreate_bytesOf (instructions : Option (List String)) :
    bytesOf (processCreate s other instructions) pid segmentId = bytesOf s pid segmentId := by
  cases instructions with
  | none => rfl
  | some instructions =>
      cases here : s.listProcesses.find? fun pcb => pcb.pid == pid with
      | some pcb =>
          simp [bytesOf, segmentOf, segmentTableOf, findPcb, processCreate, List.find?_append,
            here]
          rfl
      | none =>
          simp [bytesOf, segmentOf, segmentTableOf, findPcb, processCreate, List.find?_append,
            here]

/-- A compaction changes nothing that a process has. -/
theorem compactMemory_bytesOf (sound : Sound s) (none : s.devices.refusals = []) :
    bytesOf (compactMemory s) pid segmentId = bytesOf s pid segmentId := by
  have found := compactMemory_findPcb sound pid
  cases here : findPcb s pid with
  | none =>
      rw [here] at found
      simp [bytesOf, segmentOf, segmentTableOf, here, found]
  | some pcb =>
      rw [here] at found
      have same : (pcb.segmentTable.map (compacted s)).find?
          (fun seg => seg.segmentId == segmentId) =
          (pcb.segmentTable.find? fun seg => seg.segmentId == segmentId).map (compacted s) := by
        rw [List.find?_map]
        congr 2
        funext seg
        simp [compacted, (relocate_keeps 0 (sortedSegments s) seg).2.2]
      simp only [bytesOf, segmentOf, segmentTableOf, here, found, Option.map_some,
        Option.bind_some, mapTable, same]
      cases first : pcb.segmentTable.find? fun seg => seg.segmentId == segmentId with
      | none => rfl
      | some seg =>
          have mem : seg ∈ allSegments s := List.mem_flatMap.mpr
            ⟨pcb, List.mem_of_find?_eq_some here, List.mem_of_find?_eq_some first⟩
          simp [compactMemory_segmentBytes sound none mem]

/-- What a process has is not changed by a segment that it is given. -/
theorem addSegments_bytesOf {ready : List SegmentReady} {bytes : List UInt8}
    (had : bytesOf s pid segmentId = some bytes) :
    bytesOf (addSegments s pid ready) pid segmentId = some bytes := by
  obtain ⟨seg, named, rfl⟩ := Option.map_eq_some_iff.mp had
  obtain ⟨table, found, first⟩ := Option.bind_eq_some_iff.mp named
  obtain ⟨pcb, here, rfl⟩ := Option.map_eq_some_iff.mp found
  have found' := findPcb_updatePcb_self { s with nextPtr := s.nextPtr + ready.length } pid
    (f := fun pcb =>
      { pcb with segmentTable := pcb.segmentTable ++ allocSegments s.nextPtr ready })
    fun _ => rfl
  change findPcb (addSegments s pid ready) pid = (findPcb s pid).map _ at found'
  rw [bytesOf, segmentOf, segmentTableOf, found', here]
  simp only [Option.map_some, Option.bind_some, List.find?_append, first, Option.some_or]
  rfl

/-- What a process has is not changed by its own allocations, compaction included. -/
theorem segmentCreate_bytesOf {size : UInt32} {bytes : List UInt8} (sound : Sound s)
    (none : s.devices.refusals = []) (had : bytesOf s pid segmentId = some bytes) :
    bytesOf (segmentCreate s pid segmentId' size).2 pid segmentId = some bytes := by
  obtain ⟨before, compacts, fixed, result⟩ := segmentCreate_cases s pid segmentId' size
  have kept : bytesOf before pid segmentId = some bytes := by
    by_cases h : (Op.segmentCreate pid segmentId' size).Compacts s
    · rw [compacts h, compactMemory_bytesOf sound none]
      exact had
    · rw [fixed h]
      exact had
  rcases result with same | ⟨base, added⟩
  · rw [same]
    exact kept
  · rw [added]
    exact addSegments_bytesOf kept

/-- An element that does not match can be removed. -/
theorem find?_eraseIdx {α : Type} {p : α → Bool} {l : List α} {i : ℕ}
    (other : ∀ a, l[i]? = some a → p a = false) : (l.eraseIdx i).find? p = l.find? p := by
  induction l generalizing i with
  | nil => simp
  | cons a rest ih =>
      cases i with
      | zero => simp [other a (by simp)]
      | succ i =>
          rw [List.eraseIdx_cons_succ, List.find?_cons, List.find?_cons, ih]
          intro b here
          exact other b (by simpa using here)

/-- Freeing a segment changes nothing in the segments of other ids. -/
theorem segmentDelete_bytesOf (sound : Sound s) (ne : segmentId ≠ segmentId') :
    bytesOf (segmentDelete s pid segmentId').2 pid segmentId = bytesOf s pid segmentId := by
  unfold segmentDelete
  split
  · rfl
  · rename_i pcb here
    split
    · rfl
    · rename_i seg first
      split
      · rfl
      · rename_i index found
        have found' := findPcb_updatePcb_self s pid
          (f := fun pcb => { pcb with segmentTable := pcb.segmentTable.eraseIdx index })
          fun _ => rfl
        have table : pcb.segmentTable.Sublist (allSegments s) := by
          rw [allSegments, List.flatMap_def]
          exact List.sublist_flatten_of_mem
            (List.mem_map_of_mem (List.mem_of_find?_eq_some here))
        have ptrs : (pcb.segmentTable.map HeapSegment.ptr).Nodup :=
          sound.distinct.sublist (table.map _)
        have removed : ∀ a, pcb.segmentTable[index]? = some a →
            (a.segmentId == segmentId) = false := by
          intro a at_index
          obtain ⟨bound, matches_ptr, -⟩ := List.findIdx?_eq_some_iff_getElem.mp found
          obtain ⟨-, rfl⟩ := List.getElem?_eq_some_iff.mp at_index
          have same := List.inj_on_of_nodup_map ptrs (List.getElem_mem bound)
            (List.mem_of_find?_eq_some first) (by simpa using matches_ptr)
          have id : seg.segmentId = segmentId' := by simpa using List.find?_some first
          rw [same, id]
          simpa using ne.symm
        simp only [bytesOf, segmentOf, segmentTableOf, found', here, Option.map_some,
          Option.bind_some, find?_eraseIdx removed]
        rfl

end Operations

/-! ### Reads and writes of a process -/

section Access

variable {segmentMaxSize : UInt32} {s : State} {pid other logicalAddress size : UInt32}
  {seg : HeapSegment}

/-- A range that a process names is in the memory. -/
theorem named_inside (sound : Sound s)
    (names : Stdin.Names segmentMaxSize s pid logicalAddress size seg) :
    (Stdin.physical segmentMaxSize seg logicalAddress).toNat + size.toNat ≤
      stickTotal s.devices.listMemoryStick := by
  have mem : seg ∈ allSegments s := mem_allSegments names.found
  have inside := sound.placed.inside seg mem
  have within := names.inside
  rw [names.physical_toNat sound, ← sound.total]
  simp only [HeapSegment.span, stop] at inside
  omega

/-- A range that a process names is read from what it has there. -/
theorem memoryRead_named (sound : Sound s)
    (names : Stdin.Names segmentMaxSize s pid logicalAddress size seg) :
    memoryRead s.devices (Stdin.physical segmentMaxSize seg logicalAddress) size =
      (some (slice (segmentBytes s seg) (logicalAddress % segmentMaxSize).toNat size.toNat),
        s.devices) := by
  rw [memoryRead_inside sound.fits (named_inside sound names),
    names.physical_toNat sound, segmentBytes, slice_slice names.inside]

/-- The memory after a write of a process. -/
def afterWrite (segmentMaxSize : UInt32) (s : State) (seg : HeapSegment)
    (logicalAddress size : UInt32) (data : List UInt8) : State :=
  { s with
    devices := (memoryWrite s.devices (Stdin.physical segmentMaxSize seg logicalAddress) data
      size).2 }

variable {data : List UInt8}

theorem afterWrite_sound (sound : Sound s) (length_eq : data.length = size.toNat) :
    Sound (afterWrite segmentMaxSize s seg logicalAddress size data) :=
  sound.of_devices (memoryWrite_spec _ _ sound.fits length_eq).1.stickTotal_eq

theorem afterWrite_refusals (sound : Sound s) (none : s.devices.refusals = [])
    (length_eq : data.length = size.toNat) :
    (afterWrite segmentMaxSize s seg logicalAddress size data).devices.refusals = [] :=
  (memoryWrite_spec _ _ sound.fits length_eq).1.refusals_nil none

/-- A write changes no segment apart from the one that is named. -/
theorem afterWrite_apart (sound : Sound s) (length_eq : data.length = size.toNat)
    (names : Stdin.Names segmentMaxSize s pid logicalAddress size seg) {seg' : HeapSegment}
    (apart : seg.span.Apart seg'.span) :
    segmentBytes (afterWrite segmentMaxSize s seg logicalAddress size data) seg' =
      segmentBytes s seg' := by
  have wrote := (memoryWrite_spec s.devices (Stdin.physical segmentMaxSize seg logicalAddress)
    sound.fits length_eq).1
  have address := names.physical_toNat sound
  have within := names.inside
  refine wrote.bytes.slice_eq ?_
  simp only [Apart, HeapSegment.span, stop] at apart
  omega

/-- A write of one process changes nothing that another one has. -/
theorem afterWrite_processView (sound : Sound s) (length_eq : data.length = size.toNat)
    (names : Stdin.Names segmentMaxSize s pid logicalAddress size seg) (ne : pid ≠ other) :
    processView (afterWrite segmentMaxSize s seg logicalAddress size data) other =
      processView s other := by
  obtain ⟨pcb, here, mem, -⟩ := segmentOf_eq_some names.found
  refine Option.map_congr fun pcb' here' => List.map_congr_left fun seg' mem' => ?_
  rw [afterWrite_apart sound length_eq names (sound.apart_of_ne here here' ne mem mem')]

/-- A write of a process changes nothing in its segments of other ids. -/
theorem afterWrite_bytesOf (sound : Sound s) (length_eq : data.length = size.toNat)
    (names : Stdin.Names segmentMaxSize s pid logicalAddress size seg) {segmentId : UInt32}
    (ne : segmentId ≠ logicalAddress / segmentMaxSize) :
    bytesOf (afterWrite segmentMaxSize s seg logicalAddress size data) pid segmentId =
      bytesOf s pid segmentId := by
  obtain ⟨pcb, here, mem, id⟩ := segmentOf_eq_some names.found
  change (segmentOf s pid segmentId).map _ = (segmentOf s pid segmentId).map _
  refine Option.map_congr fun seg' named => ?_
  obtain ⟨pcb', here', mem', id'⟩ := segmentOf_eq_some named
  have different : seg ≠ seg' := by
    rintro rfl
    exact ne (id'.symm.trans id)
  have : Std.Symm fun a b : HeapSegment => a.span.Apart b.span := ⟨fun _ _ => Apart.symm⟩
  exact afterWrite_apart sound length_eq names
    (sound.placed.apart.forall (mem_allSegments names.found) (mem_allSegments named) different)

/-- A segment of a sound state has as many bytes as its size. -/
theorem length_segmentBytes (sound : Sound s) (mem : seg ∈ allSegments s) :
    (segmentBytes s seg).length = seg.size.toNat := by
  have inside := sound.placed.inside seg mem
  rw [sound.total, ← length_flat] at inside
  exact length_slice inside

/-- The data of a write that is named fits the segment. -/
theorem fits_named (sound : Sound s) (length_eq : data.length = size.toNat)
    (names : Stdin.Names segmentMaxSize s pid logicalAddress size seg) :
    (logicalAddress % segmentMaxSize).toNat + data.length ≤ (segmentBytes s seg).length := by
  rw [length_segmentBytes sound (mem_allSegments names.found), length_eq]
  exact names.inside

/-- A write of a process stores the data where it is named. -/
theorem afterWrite_here (sound : Sound s) (none : s.devices.refusals = [])
    (length_eq : data.length = size.toNat)
    (names : Stdin.Names segmentMaxSize s pid logicalAddress size seg) :
    segmentBytes (afterWrite segmentMaxSize s seg logicalAddress size data) seg =
      writeAt (segmentBytes s seg) (logicalAddress % segmentMaxSize).toNat data := by
  obtain ⟨-, stored, succeeds⟩ := memoryWrite_spec s.devices
    (Stdin.physical segmentMaxSize seg logicalAddress) sound.fits length_eq
  have inside := named_inside sound names
  have within := names.inside
  have here := sound.placed.inside seg (mem_allSegments names.found)
  have address := names.physical_toNat sound
  rw [sound.total, ← length_flat] at here
  rw [← length_flat] at inside
  simp only [HeapSegment.span, stop] at here
  have fits : seg.base.toNat + (logicalAddress % segmentMaxSize).toNat + data.length ≤
      (flat s.devices.listMemoryStick).length := by omega
  rw [segmentBytes, afterWrite, (stored (succeeds none (by rwa [length_flat] at inside))).1,
    address]
  apply List.ext_getElem?
  intro i
  rw [getElem?_slice, getElem?_writeAt fits,
    getElem?_writeAt (fits_named sound length_eq names), segmentBytes, getElem?_slice]
  by_cases inside_seg : i < seg.size.toNat
  · rw [if_pos inside_seg, if_pos inside_seg]
    by_cases at_data : (logicalAddress % segmentMaxSize).toNat ≤ i ∧
        i < (logicalAddress % segmentMaxSize).toNat + data.length
    · rw [if_pos at_data, if_pos (by omega)]
      congr 1
      omega
    · rw [if_neg at_data, if_neg (by omega)]
  · rw [if_neg inside_seg, if_neg inside_seg, if_neg (by omega)]

end Access

/-! ### The instructions -/

section Instructions

variable {segmentMaxSize : UInt32} {memory : State} {context : CpuContext}
  {registerName : String} {args : ExecutionArgs} {cpu : Execution}

/-- All that `MOV_OUT` can do to the sticks. -/
theorem movOut_cases (executed : instructionMovOut ["MOV_OUT", registerName]
      (onCpu segmentMaxSize memory context) args = some cpu) :
    (movOutData segmentMaxSize args.segmentTable context registerName = none ∧
      cpu.devices = memory.devices) ∨
    ∃ register ∈ getRegisterDescriptor registerName, ∃ physicalAddress data,
      data.length = register.fieldSize.toNat ∧
        translate segmentMaxSize args.segmentTable context.di register.fieldSize =
          some physicalAddress ∧
        movOutData segmentMaxSize args.segmentTable context registerName = some data ∧
        cpu.devices = (memoryWrite memory.devices physicalAddress data register.fieldSize).2 := by
  obtain ⟨name, here, rfl⟩ := Option.map_eq_some_iff.mp executed
  obtain rfl : registerName = name := by simpa using here
  cases found : getRegisterDescriptor registerName with
  | none => exact .inl ⟨by simp [movOutData, found], rfl⟩
  | some register =>
      cases translated : translate segmentMaxSize args.segmentTable context.di
          register.fieldSize with
      | none =>
          left
          constructor
          · simp [movOutData, found, translated]
          · simp [Execution.mmuTranslate, onCpu, translated]
      | some physicalAddress =>
          right
          refine ⟨register, rfl, physicalAddress, _, ?_, translated,
            by simp [movOutData, found, translated]; rfl, ?_⟩
          · cases register <;> rfl
          · simp [Execution.mmuTranslate, onCpu, translated, Execution.memoryWrite]

/-- All that `COPY_MEM` can do to the sticks. -/
theorem copyMem_cases (fits : stickTotal memory.devices.listMemoryStick < 2 ^ 32)
    (executed : instructionCopyMem ["COPY_MEM", registerName]
      (onCpu segmentMaxSize memory context) args = some cpu) :
    (copyMemData segmentMaxSize memory.devices args.segmentTable context registerName = none ∧
      cpu.devices = memory.devices) ∨
    ∃ physicalAddress data, data.length = (readRegisterValue context registerName).toNat ∧
      translate segmentMaxSize args.segmentTable context.di
        (readRegisterValue context registerName) = some physicalAddress ∧
      copyMemData segmentMaxSize memory.devices args.segmentTable context registerName =
        some data ∧
      cpu.devices = (memoryWrite memory.devices physicalAddress data
        (readRegisterValue context registerName)).2 := by
  obtain ⟨name, here, rfl⟩ := Option.map_eq_some_iff.mp executed
  obtain rfl : registerName = name := by simpa using here
  by_cases register : checkIfRegister registerName
  · cases source : translate segmentMaxSize args.segmentTable context.si
        (readRegisterValue context registerName) with
    | none =>
        left
        constructor
        · simp [copyMemData, register, source]
        · simp [Execution.mmuTranslate, onCpu, register, source]
    | some physicalSrc =>
        cases destination : translate segmentMaxSize args.segmentTable context.di
            (readRegisterValue context registerName) with
        | none =>
            left
            constructor
            · simp [copyMemData, register, source, destination]
            · simp [Execution.mmuTranslate, onCpu, register, source, destination]
        | some physicalDst =>
            have lengths {data : List UInt8} (answered : ((onCpu segmentMaxSize memory
                context).memoryRead physicalSrc (readRegisterValue context registerName)).1 =
                  some data) :
                data.length = (readRegisterValue context registerName).toNat :=
              memoryRead_length fits answered
            have same := memoryRead_snd memory.devices physicalSrc
              (readRegisterValue context registerName)
            cases answer : memoryRead memory.devices physicalSrc
                (readRegisterValue context registerName) with
            | mk result d =>
                rw [answer] at same
                obtain rfl : d = memory.devices := same
                cases result with
                | none =>
                    left
                    constructor
                    · simp [copyMemData, register, source, destination, answer]
                    · simp [Execution.mmuTranslate, onCpu, register, source, destination,
                        Execution.memoryRead, answer]
                | some data =>
                    right
                    refine ⟨physicalDst, data, ?_, rfl, ?_, ?_⟩
                    · exact lengths (by simp [Execution.memoryRead, onCpu, answer])
                    · simp [copyMemData, register, source, destination, answer]
                    · simp [Execution.mmuTranslate, onCpu, register, source, destination,
                        Execution.memoryRead, Execution.memoryWrite, answer]
  · left
    constructor
    · simp [copyMemData, register]
    · simp [onCpu, register]

end Instructions

/-! ### The invariant -/

section Invariant

variable {segmentMaxSize : UInt32} {s s' : System} {pid : UInt32} {memory : State}

/-- Every process has what it has written. -/
structure Inv (s : System) : Prop where
  sound : Sound s.memory
  answering : s.memory.devices.refusals = []
  kept : ∀ pid segmentId i b, s.written pid segmentId i = some b →
    ∃ bytes, bytesOf s.memory pid segmentId = some bytes ∧ bytes[i]? = some b

theorem initial_inv (strategy : AllocationStrategy) (swapBlockSize swapTotalSize : UInt32)
    (swapFile : UInt32 → ℕ → UInt8) (fresh : ℕ → UInt8) :
    Inv (initial strategy swapBlockSize swapTotalSize swapFile fresh) where
  sound := initial_sound strategy swapBlockSize swapTotalSize swapFile [] fresh
  answering := rfl
  kept pid segmentId i b wrote := by simp [initial] at wrote

/-- An operation of a process leaves what it has written and is not forgotten. -/
theorem kept_of_own {s : State} {written : Written} {op : Op} (sound : Sound s)
    (answering : s.devices.refusals = []) (resident : Resident op) (own : op.pid = some pid)
    (taken : KernelMemory.step s op = some memory) {segmentId : UInt32} {i : ℕ} {b : UInt8}
    {bytes : List UInt8} (wrote : written.after s op pid segmentId i = some b)
    (had : bytesOf s pid segmentId = some bytes) : bytesOf memory pid segmentId = some bytes := by
  cases op with
  | processCreate pid' instructions =>
      obtain rfl := Option.some.inj taken
      rw [processCreate_bytesOf]
      exact had
  | processEnd pid' =>
      obtain rfl : pid' = pid := Option.some.inj own
      simp [Written.after, Written.forgetProcess] at wrote
  | segmentCreate pid' segmentId' size =>
      obtain rfl : pid' = pid := Option.some.inj own
      obtain rfl := Option.some.inj taken
      exact segmentCreate_bytesOf sound answering had
  | segmentDelete pid' segmentId' =>
      obtain rfl : pid' = pid := Option.some.inj own
      obtain rfl := Option.some.inj taken
      have ne : segmentId ≠ segmentId' := by
        rintro rfl
        simp [Written.after, Written.forget] at wrote
      rw [segmentDelete_bytesOf sound ne]
      exact had
  | connectStick => cases own
  | processSuspend | processDesuspend | ioMemoryWrite => exact resident.elim

/-- What was written before an operation, if it is not forgotten. -/
theorem before_of_after {op : Op} {written : Written} {s : State} {segmentId : UInt32} {i : ℕ}
    {b : UInt8} (wrote : written.after s op pid segmentId i = some b) :
    written pid segmentId i = some b := by
  cases op with
  | segmentCreate pid' segmentId' size =>
      simp only [Written.after] at wrote
      split at wrote
      · simp only [Written.forget] at wrote
        split at wrote
        · cases wrote
        · exact wrote
      · exact wrote
  | segmentDelete pid' segmentId' =>
      simp only [Written.after, Written.forget] at wrote
      split at wrote
      · cases wrote
      · exact wrote
  | processEnd pid' =>
      simp only [Written.after, Written.forgetProcess] at wrote
      split at wrote
      · cases wrote
      · exact wrote
  | processCreate | processSuspend | processDesuspend | connectStick | ioMemoryWrite => exact wrote

/-- An operation of Kernel Memory keeps what has been written and is not forgotten. -/
theorem Inv.perform (inv : Inv s) {op : Op} {memory : State}
    (admissible : op.Admissible s.memory) (resident : Resident op)
    (taken : KernelMemory.step s.memory op = some memory) :
    Inv ⟨memory, s.written.after s.memory op⟩ := by
  constructor
  · refine step_sound inv.sound admissible ?_ taken
    cases op with
    | processDesuspend => exact resident.elim
    | processCreate | processEnd | segmentCreate | segmentDelete | processSuspend
    | connectStick | ioMemoryWrite => trivial
  · exact step_refusals inv.sound inv.answering resident taken
  · intro pid segmentId i b wrote
    obtain ⟨bytes, had, here⟩ := inv.kept pid segmentId i b (before_of_after wrote)
    refine ⟨bytes, ?_, here⟩
    by_cases own : op.pid = some pid
    · exact kept_of_own inv.sound inv.answering resident own taken wrote had
    · rw [bytesOf_eq_view, processView_of_others inv.sound inv.answering resident own taken,
        ← bytesOf_eq_view]
      exact had

/-- An instruction of a process has written to a segment that the process names. -/
inductive Stores (segmentMaxSize : UInt32) (s : System) (pid : UInt32) : System → Prop where
  | intro {table : List HeapSegment} {logicalAddress size physicalAddress : UInt32}
      {data : List UInt8} (found : segmentTableOf s.memory pid = some table)
      (translated : translate segmentMaxSize (table.map HeapSegment.toSegment) logicalAddress
        size = some physicalAddress)
      (checked : ¬ WrapsFor segmentMaxSize s.memory pid logicalAddress size)
      (length_eq : data.length = size.toNat) :
      Stores segmentMaxSize s pid ⟨{ s.memory with
          devices := (memoryWrite s.memory.devices physicalAddress data size).2 },
        s.written.record pid (logicalAddress / segmentMaxSize)
          (logicalAddress % segmentMaxSize).toNat data⟩

/-- A write of a process is what is read there afterwards. -/
theorem Inv.store (inv : Inv s) (stores : Stores segmentMaxSize s pid s') : Inv s' := by
  obtain ⟨found, translated, checked, length_eq⟩ := stores
  rename_i table logicalAddress size physicalAddress data
  obtain ⟨seg, names, rfl⟩ := Stdin.names_of_translate found translated
    fun wraps => checked ⟨table, found, wraps⟩
  constructor
  · exact afterWrite_sound inv.sound length_eq
  · exact afterWrite_refusals inv.sound inv.answering length_eq
  · intro pid' segmentId i b wrote
    change ∃ bytes, bytesOf (afterWrite segmentMaxSize s.memory seg logicalAddress size data) pid'
      segmentId = some bytes ∧ _
    by_cases other : pid' ≠ pid
    · have before : s.written pid' segmentId i = some b := by
        simpa [Written.record, other] using wrote
      obtain ⟨bytes, had, here⟩ := inv.kept pid' segmentId i b before
      refine ⟨bytes, ?_, here⟩
      rw [bytesOf_eq_view, afterWrite_processView inv.sound length_eq names (Ne.symm other),
        ← bytesOf_eq_view]
      exact had
    · obtain rfl := not_not.mp other
      by_cases ne : segmentId ≠ logicalAddress / segmentMaxSize
      · have before : s.written pid' segmentId i = some b := by
          simpa [Written.record, ne] using wrote
        obtain ⟨bytes, had, here⟩ := inv.kept pid' segmentId i b before
        refine ⟨bytes, ?_, here⟩
        rw [afterWrite_bytesOf inv.sound length_eq names ne]
        exact had
      · obtain rfl := not_not.mp ne
        have had : bytesOf s.memory pid' (logicalAddress / segmentMaxSize) =
            some (segmentBytes s.memory seg) := by
          rw [bytesOf, show segmentOf s.memory pid' _ = some seg from names.found]
          rfl
        have now : bytesOf (afterWrite segmentMaxSize s.memory seg logicalAddress size data) pid'
            (logicalAddress / segmentMaxSize) =
              some (writeAt (segmentBytes s.memory seg)
                (logicalAddress % segmentMaxSize).toNat data) := by
          rw [← afterWrite_here inv.sound inv.answering length_eq names, bytesOf,
            show segmentOf (afterWrite segmentMaxSize s.memory seg logicalAddress size data) pid'
              _ = some seg from names.found]
          rfl
        have fits := fits_named inv.sound length_eq names
        refine ⟨_, now, ?_⟩
        rw [getElem?_writeAt fits]
        simp only [Written.record, true_and] at wrote
        split
        · rename_i within
          rwa [if_pos within] at wrote
        · rename_i outside
          rw [if_neg outside] at wrote
          obtain ⟨bytes, had', here⟩ := inv.kept pid' _ i b wrote
          obtain rfl := Option.some.inj (had.symm.trans had')
          exact here

/-- It changes nothing that another process has. -/
theorem Stores.processView {other : UInt32} (inv : Inv s)
    (stores : Stores segmentMaxSize s pid s') (ne : pid ≠ other) :
    KernelMemory.processView s'.memory other = KernelMemory.processView s.memory other := by
  obtain ⟨found, translated, checked, length_eq⟩ := stores
  rename_i table logicalAddress size physicalAddress data
  obtain ⟨seg, names, rfl⟩ := Stdin.names_of_translate found translated
    fun wraps => checked ⟨table, found, wraps⟩
  exact afterWrite_processView inv.sound length_eq names ne

/-- All that a step can do. -/
theorem step_cases {a : Action} (inv : Inv s) (plain : a.Plain segmentMaxSize s)
    (taken : step segmentMaxSize s a = some s') :
    (∃ op memory, a = .perform op ∧ KernelMemory.step s.memory op = some memory ∧
      s' = ⟨memory, s.written.after s.memory op⟩) ∨
    s' = s ∨ ∃ pid, a.pid = some pid ∧ Stores segmentMaxSize s pid s' := by
  cases a with
  | perform op =>
      obtain ⟨memory, performed, rfl⟩ := Option.map_eq_some_iff.mp taken
      exact .inl ⟨op, memory, rfl, performed, rfl⟩
  | movOut pid context registerName =>
      obtain ⟨table, found, ran⟩ := Option.bind_eq_some_iff.mp taken
      obtain ⟨cpu, executed, rfl⟩ := Option.map_eq_some_iff.mp ran
      obtain ⟨quiet, same⟩ | ⟨register, known, physicalAddress, data, length_eq, translated,
        handed, devices⟩ := movOut_cases executed
      · refine .inr (.inl ?_)
        rw [System.executed, quiet, same]
        rfl
      · refine .inr (.inr ⟨pid, rfl, ?_⟩)
        rw [System.executed, handed, devices]
        exact .intro found translated (plain register known) length_eq
  | copyMem pid context registerName =>
      obtain ⟨table, found, ran⟩ := Option.bind_eq_some_iff.mp taken
      obtain ⟨cpu, executed, rfl⟩ := Option.map_eq_some_iff.mp ran
      obtain ⟨quiet, same⟩ | ⟨physicalAddress, data, length_eq, translated, handed,
        devices⟩ := copyMem_cases inv.sound.fits executed
      · refine .inr (.inl ?_)
        rw [System.executed, quiet, same]
        rfl
      · refine .inr (.inr ⟨pid, rfl, ?_⟩)
        rw [System.executed, handed, devices]
        exact .intro found translated plain.2 length_eq

/-- Every step keeps the invariant. -/
theorem step_inv {a : Action} (inv : Inv s) (plain : a.Plain segmentMaxSize s)
    (taken : step segmentMaxSize s a = some s') : Inv s' := by
  obtain ⟨op, memory, rfl, performed, rfl⟩ | rfl | ⟨pid, -, stores⟩ :=
    step_cases inv plain taken
  · exact inv.perform plain.1 plain.2 performed
  · exact inv
  · exact inv.store stores

/-- A step of others changes nothing that a process has. -/
theorem step_others {a : Action} (inv : Inv s) (plain : a.Plain segmentMaxSize s)
    (others : a.pid ≠ some pid) (taken : step segmentMaxSize s a = some s') :
    processView s'.memory pid = processView s.memory pid := by
  obtain ⟨op, memory, rfl, performed, rfl⟩ | rfl | ⟨pid', about, stores⟩ :=
    step_cases inv plain taken
  · exact processView_of_others inv.sound inv.answering plain.2 others performed
  · rfl
  · refine stores.processView inv ?_
    rintro rfl
    exact others about

end Invariant

/-! ### Results -/

section Results

variable {segmentMaxSize : UInt32} {memory memory' : State} {s s' : System}
  {pid logicalAddress size : UInt32}

/-- The check of one byte does not wrap. -/
theorem not_wrapsFor_one (positive : 0 < segmentMaxSize) (memory : State)
    (pid logicalAddress : UInt32) : ¬ WrapsFor segmentMaxSize memory pid logicalAddress 1 := by
  rintro ⟨table, -, segment, -, -, wraps, -⟩
  have below : (logicalAddress % segmentMaxSize).toNat < segmentMaxSize.toNat := by
    rw [UInt32.toNat_mod]
    exact Nat.mod_lt _ (UInt32.lt_iff_toNat_lt.mp positive)
  have bound := segmentMaxSize.toNat_lt
  have one : (1 : UInt32).toNat = 1 := rfl
  omega

/-- Whether a check wraps depends on the ids and the sizes of the segments. -/
theorem wrapsFor_iff_view : WrapsFor segmentMaxSize memory pid logicalAddress size ↔
    ∃ view ∈ processView memory pid, ∃ entry ∈ view,
      entry.1 = logicalAddress / segmentMaxSize ∧
        2 ^ 32 ≤ (logicalAddress % segmentMaxSize).toNat + size.toNat ∧
        (logicalAddress % segmentMaxSize).toNat + size.toNat - 2 ^ 32 ≤ entry.2.1.toNat := by
  constructor
  · rintro ⟨table, found, segment, mem, id, wraps, within⟩
    obtain ⟨pcb, here, rfl⟩ := Option.map_eq_some_iff.mp found
    obtain ⟨seg, among, rfl⟩ := List.mem_map.mp mem
    exact ⟨_, Option.map_eq_some_iff.mpr ⟨pcb, here, rfl⟩,
      (seg.segmentId, seg.size, segmentBytes memory seg), List.mem_map.mpr ⟨seg, among, rfl⟩,
      id, wraps, within⟩
  · rintro ⟨view, found, entry, mem, id, wraps, within⟩
    obtain ⟨pcb, here, rfl⟩ := Option.map_eq_some_iff.mp found
    obtain ⟨seg, among, rfl⟩ := List.mem_map.mp mem
    exact ⟨pcb.segmentTable, Option.map_eq_some_iff.mpr ⟨pcb, here, rfl⟩, seg.toSegment,
      List.mem_map.mpr ⟨seg, among, rfl⟩, id, wraps, within⟩

/-- A read takes the bytes of the segment that the process names. -/
theorem read_eq_view (sound : Sound memory)
    (checked : ¬ WrapsFor segmentMaxSize memory pid logicalAddress size) :
    read segmentMaxSize memory pid logicalAddress size =
      (processView memory pid).bind fun view =>
        (view.find? fun entry => entry.1 == logicalAddress / segmentMaxSize).bind fun entry =>
          if (logicalAddress % segmentMaxSize).toNat + size.toNat ≤ entry.2.1.toNat then
            some (slice entry.2.2 (logicalAddress % segmentMaxSize).toNat size.toNat)
          else none := by
  cases here : findPcb memory pid with
  | none => simp [read, segmentTableOf, processView, here]
  | some pcb =>
      have table : segmentTableOf memory pid = some pcb.segmentTable := by
        rw [segmentTableOf, here]
        rfl
      simp only [read, table, processView, here, Option.map_some, Option.bind_some,
        Stdin.find?_view]
      cases translated : translate segmentMaxSize (pcb.segmentTable.map HeapSegment.toSegment)
          logicalAddress size with
      | some physicalAddress =>
          obtain ⟨seg, names, rfl⟩ := Stdin.names_of_translate table translated
            fun wraps => checked ⟨_, table, wraps⟩
          have found := names.found
          rw [table, Option.bind_some] at found
          simp only [found, Option.map_some, Option.bind_some,
            memoryRead_named sound names, if_pos names.inside]
      | none =>
          cases found : pcb.segmentTable.find? fun seg =>
              seg.segmentId == logicalAddress / segmentMaxSize with
          | none => simp
          | some seg =>
              have outside : ¬ (logicalAddress % segmentMaxSize).toNat + size.toNat ≤
                  seg.size.toNat := by
                intro inside
                have names : Stdin.Names segmentMaxSize memory pid logicalAddress size seg :=
                  ⟨by rw [table, Option.bind_some]; exact found, inside⟩
                rw [names.translate table] at translated
                cases translated
              simp only [Option.map_some, Option.bind_some, Option.bind_none, if_neg outside]

/-- A read that translates gives what the process has last written. -/
theorem Inv.read (inv : Inv s)
    (checked : ¬ WrapsFor segmentMaxSize s.memory pid logicalAddress size)
    {table : List HeapSegment} {physicalAddress : UInt32}
    (found : segmentTableOf s.memory pid = some table)
    (translated : translate segmentMaxSize (table.map HeapSegment.toSegment) logicalAddress
      size = some physicalAddress) :
    ∃ data, LogicalMemory.read segmentMaxSize s.memory pid logicalAddress size = some data ∧
      data.length = size.toNat ∧
      ∀ i b, i < size.toNat → s.written pid (logicalAddress / segmentMaxSize)
        ((logicalAddress % segmentMaxSize).toNat + i) = some b → data[i]? = some b := by
  obtain ⟨seg, names, rfl⟩ := Stdin.names_of_translate found translated
    fun wraps => checked ⟨table, found, wraps⟩
  have length := length_segmentBytes inv.sound (mem_allSegments names.found)
  have inside := names.inside
  refine ⟨slice (segmentBytes s.memory seg) (logicalAddress % segmentMaxSize).toNat size.toNat,
    ?_, length_slice (by omega), ?_⟩
  · rw [LogicalMemory.read, found, Option.bind_some, translated, Option.bind_some,
      memoryRead_named inv.sound names]
  · intro i b within wrote
    obtain ⟨bytes, had, here⟩ := inv.kept pid _ _ b wrote
    rw [bytesOf, show segmentOf s.memory pid _ = some seg from names.found] at had
    obtain rfl := Option.some.inj had
    rw [getElem?_slice, if_pos within]
    exact here

/-- In every run of process creations and terminations, allocations with or without
compaction, frees, new sticks and writes that do not wrap, a process that reads a logical
address gets what it has last written there since the segment was allocated, and what others
do changes nothing that it has or reads. -/
theorem memory_stable (positive : 0 < segmentMaxSize) {strategy : AllocationStrategy}
    {swapBlockSize swapTotalSize : UInt32} {swapFile : UInt32 → ℕ → UInt8}
    {fresh : ℕ → UInt8} {as : List Action}
    (run : Run (step segmentMaxSize) (fun s a => a.Plain segmentMaxSize s)
      (initial strategy swapBlockSize swapTotalSize swapFile fresh) as s) (pid : UInt32) :
    (∀ logicalAddress size table physicalAddress,
      size = 1 ∨ ¬ WrapsFor segmentMaxSize s.memory pid logicalAddress size →
      segmentTableOf s.memory pid = some table →
      translate segmentMaxSize (table.map HeapSegment.toSegment) logicalAddress size =
        some physicalAddress →
      ∃ data, read segmentMaxSize s.memory pid logicalAddress size = some data ∧
        data.length = size.toNat ∧
        ∀ i b, i < size.toNat → s.written pid (logicalAddress / segmentMaxSize)
          ((logicalAddress % segmentMaxSize).toNat + i) = some b → data[i]? = some b) ∧
    ∀ bs s', Run (step segmentMaxSize)
        (fun s a => a.Plain segmentMaxSize s ∧ a.pid ≠ some pid) s bs s' →
      processView s'.memory pid = processView s.memory pid ∧
        ∀ logicalAddress size,
          size = 1 ∨ ¬ WrapsFor segmentMaxSize s.memory pid logicalAddress size →
          read segmentMaxSize s'.memory pid logicalAddress size =
            read segmentMaxSize s.memory pid logicalAddress size := by
  have inv := run.invariant step_inv (initial_inv ..)
  have checked {logicalAddress size : UInt32}
      (small : size = 1 ∨ ¬ WrapsFor segmentMaxSize s.memory pid logicalAddress size) :
      ¬ WrapsFor segmentMaxSize s.memory pid logicalAddress size := by
    rcases small with rfl | fits
    · exact not_wrapsFor_one positive _ _ _
    · exact fits
  constructor
  · intro logicalAddress size table physicalAddress small found translated
    exact inv.read (checked small) found translated
  · intro bs s' others
    have keeps {t t' : System} {a : Action}
        (kept : Inv t ∧ processView t.memory pid = processView s.memory pid)
        (ok : a.Plain segmentMaxSize t ∧ a.pid ≠ some pid)
        (taken : step segmentMaxSize t a = some t') :
        Inv t' ∧ processView t'.memory pid = processView s.memory pid :=
      ⟨step_inv kept.1 ok.1 taken, (step_others kept.1 ok.1 ok.2 taken).trans kept.2⟩
    obtain ⟨inv', same⟩ := others.invariant keeps ⟨inv, rfl⟩
    refine ⟨same, ?_⟩
    intro logicalAddress size small
    have before := checked small
    have after : ¬ WrapsFor segmentMaxSize s'.memory pid logicalAddress size := by
      rw [wrapsFor_iff_view, same, ← wrapsFor_iff_view]
      exact before
    rw [read_eq_view inv'.sound after, same,
      ← read_eq_view inv.sound before]

end Results

/-! ### A run with a compaction -/

section Run

variable {segmentMaxSize : UInt32}

instance (memory : State) (pid logicalAddress size : UInt32) :
    Decidable (WrapsFor segmentMaxSize memory pid logicalAddress size) :=
  Option.decidableExistsMem _

instance : (op : Op) → Decidable (Resident op)
  | .processCreate .. | .processEnd _ | .segmentCreate .. | .segmentDelete ..
  | .connectStick .. => .isTrue trivial
  | .processSuspend _ | .processDesuspend _ | .ioMemoryWrite .. => .isFalse id

instance (s : System) : (a : Action) → Decidable (a.Plain segmentMaxSize s)
  | .perform op => inferInstanceAs (Decidable (op.Admissible s.memory ∧ Resident op))
  | .movOut .. => Option.decidableForallMem _
  | .copyMem .. => inferInstanceAs (Decidable (_ ∧ _))

end Run

/-- Two processes on two sticks of four bytes. The first writes 7 to its segment 1; the second
frees a segment and allocates a larger one, which moves the segment of the first. -/
def compaction : List Action :=
  [.perform (.connectStick 0 4), .perform (.connectStick 1 4),
    .perform (.processCreate 1 (some [])),
    .perform (.processCreate 2 (some [])), .perform (.segmentCreate 1 0 2),
    .perform (.segmentCreate 2 0 2), .perform (.segmentCreate 1 1 2),
    .movOut 1 { CpuContext.zero with ax := 7, di := 17 } "AX", .perform (.segmentDelete 2 0),
    .perform (.segmentCreate 2 1 4)]

/-- The value survives the compaction. -/
theorem memory_stable_of_compaction :
    ∃ s : System, (segmentOf s.memory 1 1).map (fun seg => seg.base) = some 2 ∧
      ∃ data, read 16 s.memory 1 17 1 = some data ∧ data[0]? = some 7 := by
  obtain ⟨s, run, test⟩ := Run.exists_of_exec (step 16) (fun s a => a.Plain 16 s) compaction
    (initial .best 4 16 (fun _ _ => 0) fun _ => 0)
    (fun s => decide ((segmentOf s.memory 1 1).map (fun seg => seg.base) = some 2 ∧
      (segmentTableOf s.memory 1).isSome ∧
      ((segmentTableOf s.memory 1).bind fun table =>
        translate 16 (table.map HeapSegment.toSegment) 17 1).isSome ∧
      s.written 1 1 1 = some 7)) (by decide +kernel)
  obtain ⟨moved, known, translates, wrote⟩ := of_decide_eq_true test
  obtain ⟨table, found⟩ := Option.isSome_iff_exists.mp known
  rw [found, Option.bind_some] at translates
  obtain ⟨physicalAddress, translated⟩ := Option.isSome_iff_exists.mp translates
  obtain ⟨data, returned, -, last⟩ :=
    (memory_stable (by decide) run 1).1 17 1 table physicalAddress (.inl rfl) found translated
  exact ⟨s, moved, data, returned, last 0 7 (by decide) wrote⟩

end OsModel.LogicalMemory
