import OsModel.Lib.Tracks
import OsModel.System.Stdin

/-!
Where a delayed `STDIN` lands.

`Inv` relates every message in flight to Kernel Memory: the physical address of a
request is the one the logical address has now, and what a request has written
is in the memory of the process, or stored with it in swap, until it runs again.
`writes_land` is what follows for every run whose steps keep to the condition;
`write_lost` is a run where a compaction moves the segment in between.
-/

namespace OsModel.Stdin

open Lib Span KernelMemory

/-! ### Addresses -/

section Addresses

variable {segmentMaxSize : UInt32} {memory : State} {pid logicalAddress size : UInt32}

/-- The physical address of a logical one, in a segment where it is named. -/
def physical (segmentMaxSize : UInt32) (seg : HeapSegment) (logicalAddress : UInt32) : UInt32 :=
  seg.base + logicalAddress % segmentMaxSize

/-- A named range lies in its segment, so its physical address does not wrap. -/
theorem Names.physical_toNat {seg : HeapSegment} (sound : Sound memory)
    (names : Names segmentMaxSize memory pid logicalAddress size seg) :
    (physical segmentMaxSize seg logicalAddress).toNat =
      seg.base.toNat + (logicalAddress % segmentMaxSize).toNat := by
  obtain ⟨table, named, found⟩ := Option.bind_eq_some_iff.mp names.found
  obtain ⟨pcb, here, rfl⟩ := Option.map_eq_some_iff.mp named
  have mem : seg ∈ allSegments memory := List.mem_flatMap.mpr
    ⟨pcb, List.mem_of_find?_eq_some here, List.mem_of_find?_eq_some found⟩
  have inside := sound.placed.inside seg mem
  have total := memory.totalMemorySize.toNat_lt
  have within := names.inside
  simp only [HeapSegment.span, stop] at inside
  rw [physical, UInt32.toNat_add]
  exact Nat.mod_eq_of_lt (by omega)

/-- What the CPU translates is named, unless the check wraps. -/
theorem names_of_translate {table : List HeapSegment} {physicalAddress : UInt32}
    (named : segmentTableOf memory pid = some table)
    (translated : Cpu.translate segmentMaxSize (table.map HeapSegment.toSegment) logicalAddress size
      = some physicalAddress)
    (checked : ¬ Cpu.Wraps segmentMaxSize (table.map HeapSegment.toSegment) logicalAddress size) :
    ∃ seg, Names segmentMaxSize memory pid logicalAddress size seg ∧
      physicalAddress = physical segmentMaxSize seg logicalAddress := by
  obtain ⟨segment, found, within, rfl⟩ := Cpu.translate_eq_some.mp translated
  rw [List.find?_map] at found
  obtain ⟨seg, here, rfl⟩ := Option.map_eq_some_iff.mp found
  have mem := List.mem_of_find?_eq_some here
  have named' : seg.segmentId = logicalAddress / segmentMaxSize := by
    simpa using List.find?_some here
  refine ⟨seg, ⟨?_, ?_⟩, rfl⟩
  · rw [named, Option.bind_some]
    exact here
  · have offset := (logicalAddress % segmentMaxSize).toNat_lt
    have small := size.toNat_lt
    by_contra beyond
    refine checked ⟨seg.toSegment, List.mem_map_of_mem mem, named', ?_, ?_⟩ <;> omega

/-- What is named is translated. -/
theorem Names.translate {seg : HeapSegment} {table : List HeapSegment}
    (names : Names segmentMaxSize memory pid logicalAddress size seg)
    (named : segmentTableOf memory pid = some table) :
    Cpu.translate segmentMaxSize (table.map HeapSegment.toSegment) logicalAddress size =
      some (physical segmentMaxSize seg logicalAddress) := by
  have found := names.found
  rw [named, Option.bind_some] at found
  have within := names.inside
  have small := seg.size.toNat_lt
  refine Cpu.translate_eq_some.mpr ⟨seg.toSegment, ?_, ?_, rfl⟩
  · rw [List.find?_map]
    exact congrArg (Option.map HeapSegment.toSegment) found
  · rw [Nat.mod_eq_of_lt (by omega)]
    exact within

/-- A name depends on the table only. -/
theorem Names.of_table {memory' : State} {seg : HeapSegment}
    (names : Names segmentMaxSize memory pid logicalAddress size seg)
    (same : segmentTableOf memory' pid = segmentTableOf memory pid) :
    Names segmentMaxSize memory' pid logicalAddress size seg :=
  ⟨by rw [same]; exact names.found, names.inside⟩

end Addresses

/-! ### What a process has in memory -/

section Contents

variable {segmentMaxSize : UInt32} {memory memory' : State} {pid logicalAddress size : UInt32}
  {view : List (UInt32 × UInt32 × List UInt8)} {d : Delivery}

/-- The data is in the view, at its logical address. -/
def Shows (segmentMaxSize : UInt32) (view : List (UInt32 × UInt32 × List UInt8)) (d : Delivery) :
    Prop :=
  ∃ entry, view.find? (fun entry => entry.1 == d.logicalAddress / segmentMaxSize) = some entry ∧
    (d.logicalAddress % segmentMaxSize).toNat + d.data.length ≤ entry.2.1.toNat ∧
    slice entry.2.2 (d.logicalAddress % segmentMaxSize).toNat d.data.length = d.data

theorem find?_view (table : List HeapSegment) (segmentId : UInt32) :
    (table.map fun seg => (seg.segmentId, seg.size, segmentBytes memory seg)).find?
        (fun entry => entry.1 == segmentId) =
      (table.find? fun seg => seg.segmentId == segmentId).map fun seg =>
        (seg.segmentId, seg.size, segmentBytes memory seg) := by
  rw [List.find?_map]
  rfl

/-- Data in a named range is shown. -/
theorem Names.shows {seg : HeapSegment} {data : List UInt8}
    (names : Names segmentMaxSize memory pid logicalAddress size seg)
    (present : entriesOf memory pid = []) (length_eq : data.length = size.toNat)
    (stored : slice (segmentBytes memory seg) (logicalAddress % segmentMaxSize).toNat size.toNat =
      data) :
    ∃ view, Contents memory pid view ∧ Shows segmentMaxSize view ⟨logicalAddress, data⟩ := by
  obtain ⟨table, named, found⟩ := Option.bind_eq_some_iff.mp names.found
  obtain ⟨pcb, here, rfl⟩ := Option.map_eq_some_iff.mp named
  refine ⟨pcb.segmentTable.map fun seg => (seg.segmentId, seg.size, segmentBytes memory seg),
    .inl ⟨?_, present⟩, (seg.segmentId, seg.size, segmentBytes memory seg), ?_, ?_, ?_⟩
  · rw [processView, here]
    rfl
  · rw [find?_view, found]
    rfl
  · rw [length_eq]
    exact names.inside
  · rw [length_eq]
    exact stored

/-- What was written to a named range is shown. -/
theorem Names.delivered {seg : HeapSegment} {rawData : List UInt8} (sound : Sound memory)
    (names : Names segmentMaxSize memory pid logicalAddress size seg)
    (present : entriesOf memory pid = [])
    (wrote : ioMemoryWrite memory (physical segmentMaxSize seg logicalAddress) size rawData =
      (true, memory')) :
    ∃ view, Contents memory' pid view ∧
      Shows segmentMaxSize view ⟨logicalAddress, paddedData size rawData⟩ := by
  have length_eq := length_paddedData size rawData
  obtain ⟨within, written, -⟩ := memoryWrite_spec memory.devices
    (physical segmentMaxSize seg logicalAddress) sound.fits length_eq
  simp only [ioMemoryWrite] at wrote
  obtain ⟨ok, rfl⟩ := Prod.mk.inj wrote
  obtain ⟨stored, bounds⟩ := written ok
  refine Names.shows (names.of_table rfl) present length_eq ?_
  rw [segmentBytes, slice_slice names.inside, ← names.physical_toNat sound]
  simp only
  rw [stored]
  rcases Nat.eq_zero_or_pos size.toNat with zero | positive
  · rw [zero, slice_zero, List.length_eq_zero_iff.mp (length_eq.trans zero)]
  · have fits := bounds (UInt32.lt_iff_toNat_lt.mpr positive)
    rw [← length_eq]
    refine slice_writeAt ?_
    rw [length_flat, length_eq]
    exact fits

/-- What is shown is found by a read with the table of the process. -/
theorem Shows.visible {table : List HeapSegment} (sound : Sound memory)
    (shows : Shows segmentMaxSize view d) (had : processView memory pid = some view)
    (named : segmentTableOf memory pid = some table) :
    Visible segmentMaxSize memory (table.map HeapSegment.toSegment) d := by
  obtain ⟨entry, found, within, bytes⟩ := shows
  obtain ⟨pcb, here, rfl⟩ := Option.map_eq_some_iff.mp had
  obtain rfl : pcb.segmentTable = table := by
    rw [segmentTableOf, here] at named
    exact Option.some.inj named
  rw [find?_view] at found
  obtain ⟨seg, first, rfl⟩ := Option.map_eq_some_iff.mp found
  have small := seg.size.toNat_lt
  have length_eq : (UInt32.ofNat d.data.length).toNat = d.data.length :=
    UInt32.toNat_ofNat_of_lt' (by simp only [UInt32.size] at within ⊢; omega)
  have names : Names segmentMaxSize memory pid d.logicalAddress (UInt32.ofNat d.data.length) seg := by
    refine ⟨?_, by rw [length_eq]; exact within⟩
    rw [segmentTableOf, here]
    exact first
  refine ⟨_, names.translate named, ?_⟩
  rw [names.physical_toNat sound, ← slice_slice within]
  exact bytes

end Contents

/-! ### The operations of Kernel Memory -/

section Memory

variable {segmentMaxSize : UInt32} {memory memory' : State} {pid other : UInt32}
  {view : List (UInt32 × UInt32 × List UInt8)}

/-- What ties a process to Kernel Memory, by phase. -/
def Phase.Holds (segmentMaxSize : UInt32) (memory : State) (pid : UInt32) : Phase → Prop
  | .stopped none => True
  | .stopped (some d) => ∃ view, Contents memory pid view ∧ Shows segmentMaxSize view d
  | .running segmentTable =>
      entriesOf memory pid = [] ∧ ∃ table, segmentTableOf memory pid = some table ∧
        segmentTable = table.map HeapSegment.toSegment
  | .requesting request => request.pid = pid
  | .reading r => r.pid = pid ∧ entriesOf memory pid = [] ∧ ∃ seg,
      Names segmentMaxSize memory pid r.logicalAddress r.size seg ∧
        r.physicalAddress = physical segmentMaxSize seg r.logicalAddress

/-- Physical addresses of the process are in use. -/
def Phase.Addresses : Phase → Prop
  | .running _ | .reading _ => True
  | _ => False

/-- A phase holds on when the table and the contents of the process stay. -/
theorem Phase.Holds.of_same {phase : Phase} (holds : phase.Holds segmentMaxSize memory pid)
    (entries : entriesOf memory' pid = entriesOf memory pid)
    (table : phase.Addresses → segmentTableOf memory' pid = segmentTableOf memory pid)
    (contents : ∀ d, phase = .stopped (some d) → ∀ view, Contents memory pid view →
      Contents memory' pid view) : phase.Holds segmentMaxSize memory' pid := by
  cases phase with
  | stopped delivery =>
      cases delivery with
      | none => trivial
      | some d =>
          obtain ⟨view, had, shows⟩ := holds
          exact ⟨view, contents d rfl view had, shows⟩
  | running segmentTable =>
      obtain ⟨present, old, named, eq⟩ := holds
      exact ⟨entries.trans present, old, (table trivial).trans named, eq⟩
  | requesting request => exact holds
  | reading r =>
      obtain ⟨eq, present, seg, names, address⟩ := holds
      exact ⟨eq, entries.trans present, seg, names.of_table (table trivial), address⟩

/-- An operation on others leaves a phase as it is. -/
theorem Phase.Holds.step {phase : Phase} {op : Op} (sound : Sound memory)
    (holds : phase.Holds segmentMaxSize memory pid) (guard : op.OnOthers pid memory)
    (quiet : ¬ op.Stores)
    (compactable : op.Compacts memory → ∀ pcb, findPcb memory pid = some pcb →
      phase.Compactable memory pcb.segmentTable)
    (taken : KernelMemory.step memory op = some memory') :
    phase.Holds segmentMaxSize memory' pid := by
  refine holds.of_same (step_entriesOf sound guard.2 taken) (fun addresses => ?_) ?_
  · cases phase with
    | stopped | requesting => exact addresses.elim
    | running | reading => exact step_segmentTableOf sound guard.2 compactable taken
  · rintro d rfl view had
    obtain ⟨pcb, here⟩ := had.found
    exact had.step sound guard quiet (fun compacts => compactable compacts pcb here) taken

/-- A write inside a segment of one process changes nothing for another. -/
theorem Phase.Holds.write {phase : Phase} {seg : HeapSegment} {logicalAddress size : UInt32}
    {rawData : List UInt8} (sound : Sound memory)
    (holds : phase.Holds segmentMaxSize memory pid) (ne : other ≠ pid)
    (names : Names segmentMaxSize memory other logicalAddress size seg) :
    phase.Holds segmentMaxSize
      (ioMemoryWrite memory (physical segmentMaxSize seg logicalAddress) size rawData).2 pid := by
  have wrote := (memoryWrite_spec memory.devices (physical segmentMaxSize seg logicalAddress)
    sound.fits (length_paddedData size rawData)).1
  have address := names.physical_toNat sound
  have within := names.inside
  obtain ⟨table, named, found⟩ := Option.bind_eq_some_iff.mp names.found
  obtain ⟨writer, here, rfl⟩ := Option.map_eq_some_iff.mp named
  have mem := List.mem_of_find?_eq_some found
  refine holds.of_same rfl (fun _ => rfl) ?_
  rintro d rfl view (⟨resident, none⟩ | ⟨stored, one⟩)
  · refine .inl ⟨Eq.trans ?_ resident, none⟩
    refine Option.map_congr fun pcb here' => List.map_congr_left fun seg' mem' => ?_
    have apart := sound.apart_of_ne here here' ne mem mem'
    have same : segmentBytes (ioMemoryWrite memory (physical segmentMaxSize seg logicalAddress) size
        rawData).2 seg' = segmentBytes memory seg' := by
      refine wrote.bytes.slice_eq ?_
      simp only [Apart, HeapSegment.span, stop] at apart
      omega
    rw [same]
  · have taken : KernelMemory.step memory (.ioMemoryWrite other _ size rawData) =
        some (ioMemoryWrite memory (physical segmentMaxSize seg logicalAddress) size rawData).2 := rfl
    refine .inr ⟨Stored.step stored ?_ taken, one⟩
    exact ⟨⟨trivial, trivial⟩, fun eq => ne (Option.some.inj eq)⟩

end Memory

/-! ### The invariant -/

/-- The `STDIN` requests that are under way. -/
def System.outstanding (s : System) : List PendingStdin :=
  s.syscalls ++ s.pendingIoStdinReading ++ s.writes.map IoMemoryWrite.request

/-- What ties the phases, the messages and Kernel Memory together. -/
structure Inv (segmentMaxSize : UInt32) (s : System) : Prop where
  sound : Sound s.memory
  phases : ∀ pid, (s.phase pid).Holds segmentMaxSize s.memory pid
  outstanding : Tracks s.phase PendingStdin.pid .reading s.outstanding
  requests : Tracks s.phase MemoryRequest.pid .requesting s.requests

/-- The invariant but for one process, for which nothing is in flight. -/
structure Vacant (segmentMaxSize : UInt32) (s : System) (pid : UInt32) : Prop where
  sound : Sound s.memory
  others : ∀ other, pid ≠ other → (s.phase other).Holds segmentMaxSize s.memory other
  outstanding : Tracks s.phase PendingStdin.pid .reading s.outstanding
  noStdin : pid ∉ s.outstanding.map PendingStdin.pid
  requests : Tracks s.phase MemoryRequest.pid .requesting s.requests
  noRequest : pid ∉ s.requests.map MemoryRequest.pid

section Invariant

variable {segmentMaxSize : UInt32} {s : System} {pid : UInt32} {phase : Phase} {memory : State}

theorem initial_inv (sound : Sound memory) : Inv segmentMaxSize (initial memory) :=
  ⟨sound, fun _ => trivial, .nil, .nil⟩

/-- A process on a CPU, or with nothing under way. -/
theorem Inv.vacant (inv : Inv segmentMaxSize s) (noStdin : ∀ r, s.phase pid ≠ .reading r)
    (noRequest : ∀ r, s.phase pid ≠ .requesting r) : Vacant segmentMaxSize s pid where
  sound := inv.sound
  others other _ := inv.phases other
  outstanding := inv.outstanding
  noStdin := inv.outstanding.absent noStdin
  requests := inv.requests
  noRequest := inv.requests.absent noRequest

namespace Vacant

/-- The phases once the process has got one. -/
theorem phases (vacant : Vacant segmentMaxSize s pid)
    (own : phase.Holds segmentMaxSize s.memory pid) (other : UInt32) :
    (Function.update s.phase pid phase other).Holds segmentMaxSize s.memory other := by
  by_cases eq : other = pid
  · subst eq
    rw [Function.update_self]
    exact own
  · rw [Function.update_of_ne eq]
    exact vacant.others other (Ne.symm eq)

/-- The process gets a phase that nothing in flight belongs to. -/
theorem setPhase (vacant : Vacant segmentMaxSize s pid)
    (own : phase.Holds segmentMaxSize s.memory pid) :
    Inv segmentMaxSize (s.setPhase pid phase) where
  sound := vacant.sound
  phases := vacant.phases own
  outstanding := vacant.outstanding.update vacant.noStdin phase
  requests := vacant.requests.update vacant.noRequest phase

/-- A memory operation is requested for the process. -/
theorem request (request : MemoryRequest) (vacant : Vacant segmentMaxSize s request.pid) :
    Inv segmentMaxSize ({ s with requests := s.requests ++ [request] }.setPhase request.pid
      (.requesting request)) where
  sound := vacant.sound
  phases := vacant.phases rfl
  outstanding := vacant.outstanding.update vacant.noStdin _
  requests := vacant.requests.push vacant.noRequest

theorem endProcess (vacant : Vacant segmentMaxSize s pid) :
    Inv segmentMaxSize (endProcess s pid) :=
  request ⟨pid, .processEnd pid, rfl⟩ vacant

/-- The process starts a `STDIN`. -/
theorem read {r : PendingStdin} (vacant : Vacant segmentMaxSize s r.pid)
    (own : (Phase.reading r).Holds segmentMaxSize s.memory r.pid) :
    Inv segmentMaxSize
      ({ s with syscalls := s.syscalls ++ [r] }.setPhase r.pid (.reading r)) where
  sound := vacant.sound
  phases := vacant.phases own
  outstanding := by
    refine (vacant.outstanding.push vacant.noStdin).of_perm ?_
    simp only [System.outstanding, System.setPhase, List.append_assoc]
    refine List.Perm.append_left _ ?_
    rw [← List.append_assoc]
    exact List.perm_append_comm
  requests := vacant.requests.update vacant.noRequest _

end Vacant

/-- One `STDIN` request is taken out, and Kernel Memory may have changed. -/
theorem Inv.vacate (inv : Inv segmentMaxSize s) {s' : System} {r : PendingStdin}
    (out : s.outstanding.Perm (r :: s'.outstanding)) (phase : s'.phase = s.phase)
    (requests : s'.requests = s.requests) (sound : Sound s'.memory)
    (others : ∀ other, r.pid ≠ other → (s.phase other).Holds segmentMaxSize s'.memory other) :
    Vacant segmentMaxSize s' r.pid := by
  obtain ⟨outstanding, noStdin⟩ := inv.outstanding.pop out
  have reading := inv.outstanding.recorded r (out.mem_iff.mpr List.mem_cons_self)
  refine ⟨sound, ?_, ?_, noStdin, ?_, ?_⟩
  · rw [phase]
    exact others
  · rw [phase]
    exact outstanding
  · rw [phase, requests]
    exact inv.requests
  · rw [requests]
    exact inv.requests.absent fun request => by simp [reading]

/-- What an operation of Kernel Memory does to the processes it is not about. -/
theorem Inv.operation (inv : Inv segmentMaxSize s) {op : Op} (placing : op.Placing s.memory)
    (quiet : ¬ op.Stores)
    (compactable : op.Compacts s.memory → ∀ pcb ∈ s.memory.listProcesses,
      (s.phase pcb.pid).Compactable s.memory pcb.segmentTable)
    (taken : KernelMemory.step s.memory op = some memory) :
    Sound memory ∧ ∀ other, op.pid ≠ some other →
      (s.phase other).Holds segmentMaxSize memory other := by
  refine ⟨step_sound inv.sound placing.1 placing.2 taken, fun other ne => ?_⟩
  refine (inv.phases other).step inv.sound ⟨placing, ne⟩ quiet (fun compacts pcb here => ?_) taken
  have found : pcb.pid = other := by simpa using List.find?_some here
  rw [← found]
  exact compactable compacts pcb (List.mem_of_find?_eq_some here)

/-- An operation that is about no process in flight. -/
theorem Inv.withMemory (inv : Inv segmentMaxSize s) (sound : Sound memory)
    (phases : ∀ other, (s.phase other).Holds segmentMaxSize memory other) :
    Inv segmentMaxSize { s with memory := memory } :=
  ⟨sound, phases, inv.outstanding, inv.requests⟩

theorem requestedBy_spec {op : Op} (requested : requestedBy op = some pid) :
    op.pid = some pid ∧ ¬ op.Stores ∧ ∀ memory, op.Separated memory := by
  cases op with
  | segmentCreate | segmentDelete | processEnd => exact ⟨requested, not_false, fun _ => trivial⟩
  | processCreate | processSuspend | processDesuspend | connectStick | ioMemoryWrite =>
      simp [requestedBy] at requested

/-- Kernel Memory performs what it was asked for. -/
theorem Inv.perform (inv : Inv segmentMaxSize s) {i : Nat} {request : MemoryRequest}
    (found : s.requests[i]? = some request) (admissible : request.op.Admissible s.memory)
    (compactable : request.op.Compacts s.memory → ∀ pcb ∈ s.memory.listProcesses,
      (s.phase pcb.pid).Compactable s.memory pcb.segmentTable)
    (taken : KernelMemory.step s.memory request.op = some memory) :
    Inv segmentMaxSize ({ s with memory := memory, requests := s.requests.eraseIdx i }.setPhase
      request.pid (.stopped none)) := by
  obtain ⟨about, quiet, separated⟩ := requestedBy_spec request.requested
  obtain ⟨sound, others⟩ :=
    inv.operation ⟨admissible, separated s.memory⟩ quiet compactable taken
  obtain ⟨bound, rfl⟩ := List.getElem?_eq_some_iff.mp found
  obtain ⟨requests, noRequest⟩ :=
    inv.requests.pop (List.getElem_cons_eraseIdx_perm bound).symm
  have waiting := inv.requests.recorded _ (List.getElem_mem bound)
  have vacant : Vacant segmentMaxSize
      { s with memory := memory, requests := s.requests.eraseIdx i } s.requests[i].pid :=
    { sound := sound
      others := fun other ne => others other fun eq => ne (Option.some.inj (about.symm.trans eq))
      outstanding := inv.outstanding
      noStdin := inv.outstanding.absent fun r => by simp [waiting]
      requests := requests
      noRequest := noRequest }
  exact vacant.setPhase trivial

/-- An instruction writes to memory: to a segment of its process. -/
theorem Inv.store (inv : Inv segmentMaxSize s) {segmentTable : List Segment}
    {logicalAddress size physicalAddress : UInt32} {data : List UInt8}
    (running : s.phase pid = .running segmentTable) (length_eq : data.length = size.toNat)
    (checked : ¬ Cpu.Wraps segmentMaxSize segmentTable logicalAddress size)
    (translated : Cpu.translate segmentMaxSize segmentTable logicalAddress size =
      some physicalAddress) :
    Inv segmentMaxSize { s with
      memory := { s.memory with
        devices := (memoryWrite s.memory.devices physicalAddress data size).2 } } := by
  have padded : paddedData size data = data := by
    rw [paddedData, length_eq, Nat.sub_self, List.replicate_zero, List.append_nil, ← length_eq,
      List.take_length]
  have eq : { s.memory with
        devices := (memoryWrite s.memory.devices physicalAddress data size).2 } =
      (ioMemoryWrite s.memory physicalAddress size data).2 := by
    rw [ioMemoryWrite, padded]
  have holds := inv.phases pid
  rw [running] at holds
  obtain ⟨present, table, named, rfl⟩ := holds
  obtain ⟨seg, names, rfl⟩ := names_of_translate named translated checked
  rw [eq]
  refine inv.withMemory (ioMemoryWrite_sound inv.sound) fun other => ?_
  by_cases self : pid = other
  · subst self
    rw [running]
    exact ⟨present, table, named, rfl⟩
  · exact (inv.phases other).write inv.sound self names

/-- A `STDIN` starts: the address is that of the segment named. -/
theorem Inv.stdin (inv : Inv segmentMaxSize s) {r : PendingStdin} {segmentTable : List Segment}
    (running : s.phase r.pid = .running segmentTable)
    (checked : ¬ Cpu.Wraps segmentMaxSize segmentTable r.logicalAddress r.size)
    (translated : Cpu.translate segmentMaxSize segmentTable r.logicalAddress r.size =
      some r.physicalAddress) :
    Inv segmentMaxSize
      ({ s with syscalls := s.syscalls ++ [r] }.setPhase r.pid (.reading r)) := by
  have vacant : Vacant segmentMaxSize s r.pid :=
    inv.vacant (by simp [running]) (by simp [running])
  have holds := inv.phases r.pid
  rw [running] at holds
  obtain ⟨present, table, named, rfl⟩ := holds
  obtain ⟨seg, names, address⟩ := names_of_translate named translated checked
  exact vacant.read ⟨rfl, present, seg, names, address⟩

/-- The write of a request whose address is right. -/
theorem Inv.write (inv : Inv segmentMaxSize s) {r : PendingStdin} {rawData : List UInt8}
    {rest : List IoMemoryWrite} (next : s.writes = ⟨r, rawData⟩ :: rest) :
    ∃ seg, entriesOf s.memory r.pid = [] ∧
      Names segmentMaxSize s.memory r.pid r.logicalAddress r.size seg ∧
      r.physicalAddress = physical segmentMaxSize seg r.logicalAddress ∧
      Vacant segmentMaxSize
        { s with
          memory := (ioMemoryWrite s.memory r.physicalAddress r.size rawData).2
          writes := rest } r.pid := by
  have mem : r ∈ s.outstanding := by simp [System.outstanding, next]
  have holds := inv.phases r.pid
  rw [inv.outstanding.recorded r mem] at holds
  obtain ⟨-, present, seg, names, address⟩ := holds
  refine ⟨seg, present, names, address, inv.vacate ?_ rfl rfl (ioMemoryWrite_sound inv.sound) ?_⟩
  · simp only [System.outstanding, next, List.map_cons]
    exact List.perm_middle
  · intro other ne
    rw [address]
    exact (inv.phases other).write inv.sound ne names

/-- A process that waits is suspended. -/
theorem Inv.suspend (inv : Inv segmentMaxSize s) {delivery : Option Delivery}
    (stopped : s.phase pid = .stopped delivery)
    (guard : (Phase.stopped delivery).Suspendable s.memory pid)
    (taken : KernelMemory.step s.memory (.processSuspend pid) = some memory) :
    Inv segmentMaxSize { s with memory := memory } := by
  have placing : (Op.processSuspend pid).Placing s.memory := ⟨trivial, trivial⟩
  obtain ⟨sound, others⟩ := inv.operation placing not_false False.elim taken
  refine inv.withMemory sound fun other => ?_
  by_cases eq : pid = other
  · subst eq
    have holds := inv.phases pid
    rw [stopped] at holds ⊢
    cases delivery with
    | none => trivial
    | some d =>
        obtain ⟨view, had, shows⟩ := holds
        obtain ⟨positive, storable⟩ := guard
        obtain ⟨⟨ok, s'⟩, called, rfl⟩ := Option.map_eq_some_iff.mp taken
        exact ⟨view, had.suspend inv.sound positive storable called, shows⟩
  · exact others other fun same => eq (Option.some.inj same)

/-- A process comes back. -/
theorem Inv.resume (inv : Inv segmentMaxSize s) {delivery : Option Delivery}
    (stopped : s.phase pid = .stopped delivery) (separated : Separated s.memory pid)
    (taken : KernelMemory.step s.memory (.processDesuspend pid) = some memory) :
    Inv segmentMaxSize { s with memory := memory } := by
  have placing : (Op.processDesuspend pid).Placing s.memory := ⟨trivial, separated⟩
  obtain ⟨sound, others⟩ := inv.operation placing not_false False.elim taken
  refine inv.withMemory sound fun other => ?_
  by_cases eq : pid = other
  · subst eq
    have holds := inv.phases pid
    rw [stopped] at holds ⊢
    cases delivery with
    | none => trivial
    | some d =>
        obtain ⟨view, had, shows⟩ := holds
        obtain rfl := Option.some.inj taken
        exact ⟨view, had.resume inv.sound, shows⟩
  · exact others other fun same => eq (Option.some.inj same)

/-- **One step keeps the invariant.** -/
theorem step_inv {a : Action} {s' : System} (inv : Inv segmentMaxSize s)
    (guard : a.Keeping segmentMaxSize s) (taken : step segmentMaxSize s a = some s') :
    Inv segmentMaxSize s' := by
  cases a with
  | create pid instructions =>
      simp only [step] at taken
      split at taken
      · rename_i unknown
        obtain rfl := Option.some.inj taken
        have placing : (Op.processCreate pid (some instructions)).Placing s.memory :=
          ⟨trivial, trivial⟩
        have created : KernelMemory.step s.memory (.processCreate pid (some instructions)) =
            some (processCreate s.memory pid (some instructions)) := rfl
        obtain ⟨sound, others⟩ := inv.operation placing not_false False.elim created
        refine inv.withMemory sound fun other => ?_
        by_cases eq : pid = other
        · subst eq
          rw [unknown.2]
          trivial
        · exact others other fun same => eq (Option.some.inj same)
      · simp at taken
  | connectStick id size =>
      obtain rfl := Option.some.inj taken
      have placing : (Op.connectStick id size).Placing s.memory := ⟨guard, trivial⟩
      have connected : KernelMemory.step s.memory (.connectStick id size) =
          some (KernelMemory.connectStick s.memory id size) := rfl
      obtain ⟨sound, others⟩ := inv.operation placing not_false False.elim connected
      exact inv.withMemory sound fun other => others other (by simp [Op.pid])
  | dispatch pid =>
      simp only [step] at taken
      split at taken
      · rename_i stopped sought
        split at taken
        · rename_i present
          obtain rfl := Option.some.inj taken
          refine (inv.vacant (by simp [stopped]) (by simp [stopped])).setPhase ?_
          obtain ⟨pcb, here, eq⟩ := Option.map_eq_some_iff.mp sought
          refine ⟨findSuspended_eq_none.mp present, pcb.segmentTable, ?_, ?_⟩
          · rw [segmentTableOf, here]
            rfl
          · exact (congrArg Prod.snd eq).symm
        · simp at taken
      · simp at taken
  | stop pid =>
      simp only [step] at taken
      split at taken
      · rename_i running
        obtain rfl := Option.some.inj taken
        exact (inv.vacant (by simp [running]) (by simp [running])).setPhase trivial
      · simp at taken
  | request request =>
      simp only [step] at taken
      split at taken
      · rename_i running
        obtain rfl := Option.some.inj taken
        exact (inv.vacant (by simp [running]) (by simp [running])).request
      · simp at taken
  | perform i =>
      simp only [step] at taken
      split at taken
      · simp at taken
      · rename_i request found
        obtain ⟨memory, performed, rfl⟩ := Option.map_eq_some_iff.mp taken
        obtain ⟨admissible, compactable⟩ := guard request found
        exact inv.perform found admissible compactable performed
  | store pid logicalAddress size data =>
      simp only [step] at taken
      split at taken
      · rename_i segmentTable running
        split at taken
        · rename_i length_eq
          split at taken
          · obtain rfl := Option.some.inj taken
            exact (inv.vacant (by simp [running]) (by simp [running])).endProcess
          · rename_i physicalAddress translated
            obtain rfl := Option.some.inj taken
            simp only [Action.Keeping, running] at guard
            exact inv.store running length_eq guard translated
        · simp at taken
      · simp at taken
  | stdin pid logicalAddress size =>
      simp only [step] at taken
      split at taken
      · rename_i segmentTable running
        split at taken
        · obtain rfl := Option.some.inj taken
          exact (inv.vacant (by simp [running]) (by simp [running])).endProcess
        · rename_i physicalAddress translated
          obtain rfl := Option.some.inj taken
          simp only [Action.Keeping, running] at guard
          exact inv.stdin (r := ⟨pid, physicalAddress, size, logicalAddress⟩) running guard
            translated
      · simp at taken
  | hear i =>
      simp only [step] at taken
      split at taken
      · simp at taken
      · rename_i r found
        obtain ⟨bound, rfl⟩ := List.getElem?_eq_some_iff.mp found
        have out := (List.getElem_cons_eraseIdx_perm bound).symm
        split at taken
        · obtain rfl := Option.some.inj taken
          refine Vacant.endProcess (inv.vacate ?_ rfl rfl inv.sound fun other _ => inv.phases other)
          exact (out.append_right _).append_right _
        · obtain rfl := Option.some.inj taken
          refine ⟨inv.sound, inv.phases, inv.outstanding.of_perm ?_, inv.requests⟩
          simp only [System.outstanding]
          refine List.Perm.append_right _ ((out.append_right _).trans ?_)
          rw [← List.append_assoc]
          exact (List.perm_append_singleton _ _).symm
  | answer pid rawData =>
      simp only [step] at taken
      split at taken
      · obtain rfl := Option.some.inj taken
        exact inv
      · rename_i r found
        obtain rfl := Option.some.inj taken
        refine ⟨inv.sound, inv.phases, inv.outstanding.of_perm ?_, inv.requests⟩
        simp only [System.outstanding, List.append_assoc, List.map_append, List.map_cons,
          List.map_nil]
        refine List.Perm.append_left _ (((perm_eraseP found).append_right _).trans ?_)
        rw [← List.append_assoc]
        exact (List.perm_append_singleton _ _).symm
  | write =>
      simp only [step] at taken
      split at taken
      · simp at taken
      · rename_i r rawData rest next
        obtain ⟨seg, present, names, address, vacant⟩ := inv.write next
        split at taken
        · rename_i memory wrote
          obtain rfl := Option.some.inj taken
          rw [wrote] at vacant
          rw [address] at wrote
          exact vacant.setPhase (names.delivered inv.sound present wrote)
        · rename_i memory wrote
          obtain rfl := Option.some.inj taken
          rw [wrote] at vacant
          exact vacant.endProcess
  | suspend pid =>
      simp only [step] at taken
      split at taken
      · rename_i delivery stopped
        split at taken
        · obtain ⟨memory, performed, rfl⟩ := Option.map_eq_some_iff.mp taken
          simp only [Action.Keeping, stopped] at guard
          exact inv.suspend stopped guard performed
        · simp at taken
      · rename_i r reading
        simp only [Action.Keeping, reading, Phase.Suspendable] at guard
      · simp at taken
  | resume pid =>
      simp only [step] at taken
      split at taken
      · rename_i delivery stopped
        obtain ⟨memory, performed, rfl⟩ := Option.map_eq_some_iff.mp taken
        exact inv.resume stopped guard performed
      · simp at taken

/-- A step from a state in which the invariant holds does what is asked of it. -/
theorem step_lands {a : Action} {s' : System} (inv : Inv segmentMaxSize s)
    (taken : step segmentMaxSize s a = some s') : Lands segmentMaxSize s s' a := by
  cases a with
  | write =>
      rintro ⟨r, rawData⟩ first
      obtain ⟨rest, next⟩ := List.head?_eq_some_iff.mp (Option.mem_def.mp first)
      obtain ⟨seg, present, names, address, vacant⟩ := inv.write next
      have wrote := (memoryWrite_spec s.memory.devices r.physicalAddress inv.sound.fits
        (length_paddedData r.size rawData)).1.bytes
      have memory_eq : s'.memory = (ioMemoryWrite s.memory r.physicalAddress r.size rawData).2 := by
        simp only [step, next] at taken
        split at taken
        · rename_i memory eq
          obtain rfl := Option.some.inj taken
          rw [eq]
          rfl
        · rename_i memory eq
          obtain rfl := Option.some.inj taken
          rw [eq]
          rfl
      refine ⟨seg, names, ?_⟩
      rw [← names.physical_toNat inv.sound, ← address, memory_eq]
      exact wrote
  | dispatch pid =>
      intro d segmentTable stopped running
      have holds := inv.phases pid
      rw [stopped] at holds
      obtain ⟨view, had, shows⟩ := holds
      simp only [step, stopped] at taken
      split at taken
      · rename_i sought
        split at taken
        · rename_i present
          obtain rfl := Option.some.inj taken
          obtain ⟨pcb, here, eq⟩ := Option.map_eq_some_iff.mp sought
          obtain rfl : pcb.segmentTable.map HeapSegment.toSegment = segmentTable := by
            simpa [System.setPhase, ← (Prod.mk.inj eq).2] using running
          have named : segmentTableOf s.memory pid = some pcb.segmentTable := by
            rw [segmentTableOf, here]
            rfl
          rcases had with ⟨resident, -⟩ | ⟨-, one⟩
          · exact shows.visible inv.sound resident named
          · rw [findSuspended_eq_none.mp present] at one
            simp at one
        · simp at taken
      · simp at taken
  | _ => trivial

end Invariant

section Reachable

variable {segmentMaxSize : UInt32} {strategy : AllocationStrategy}
  {swapBlockSize swapTotalSize : UInt32} {swapFile : UInt32 → Nat → UInt8} {refusals : List Bool}
  {fresh : Nat → UInt8}

/-- **A delayed `STDIN` lands in the right process**: in every run whose steps keep
to the condition, each write changes only bytes of the segment that was named, at
the offset that was named, and the process finds the data there when it runs next. -/
theorem writes_land {actions : List Action} {a : Action} {s s' : System}
    (run : Run (step segmentMaxSize) (fun s a => a.Keeping segmentMaxSize s)
      (initial (KernelMemory.initial strategy swapBlockSize swapTotalSize swapFile refusals fresh))
      actions s)
    (taken : step segmentMaxSize s a = some s') : Lands segmentMaxSize s s' a :=
  step_lands (run.invariant (fun inv guard taken => step_inv inv guard taken)
    (initial_inv (initial_sound ..))) taken

end Reachable

/-- While process 1 waits for its line, process 2 gets a segment and stores to it;
then process 1 is suspended, and comes back to other addresses. -/
theorem writes_land_of_suspension : ∃ (s : System) (segmentTable : List Segment),
    s.phase 1 = .running segmentTable ∧ Visible 16 s.memory segmentTable ⟨1, [7, 9]⟩ := by
  obtain ⟨s, run, test⟩ := Run.exists_of_exec (step 16) (fun s a => a.Keeping 16 s)
    [.connectStick 0 8, .create 1 [], .create 2 [], .dispatch 1,
      .request ⟨1, .segmentCreate 1 0 3, rfl⟩, .perform 0, .dispatch 1, .stdin 1 1 2, .hear 0,
      .dispatch 2, .request ⟨2, .segmentCreate 2 0 2, rfl⟩, .perform 0, .dispatch 2,
      .store 2 0 2 [1, 2], .answer 1 [7, 9], .write, .suspend 1,
      .request ⟨2, .segmentCreate 2 1 2, rfl⟩, .perform 0, .resume 1]
    (initial (KernelMemory.initial .best 4 16 (fun _ _ => 0) [] fun _ => 0))
    (fun s => s.phase 1 = .stopped (some ⟨1, [7, 9]⟩) ∧
      (step 16 s (.dispatch 1)).any fun s' => s'.phase 1 = .running [⟨0, 5, 3⟩]) (by decide)
  obtain ⟨stopped, dispatched⟩ := decide_eq_true_eq.mp test
  obtain ⟨s', taken, running⟩ := (Option.any_eq_true _ _).mp dispatched
  exact ⟨s', _, decide_eq_true_eq.mp running,
    writes_land run taken _ _ stopped (decide_eq_true_eq.mp running)⟩

/-- While process 1 waits for its line, process 2 frees a segment below and asks for
a bigger one. The compaction moves the segment of process 1, and the line is
written to the new segment of process 2. -/
theorem write_lost : ∃ actions s s',
    Run (step 16) (fun _ _ => True)
      (initial (KernelMemory.initial .best 4 16 (fun _ _ => 0) [] fun _ => 0)) actions s ∧
      step 16 s .write = some s' ∧ ¬ Lands 16 s s' .write := by
  obtain ⟨s, run, test⟩ := Run.exists_of_exec (step 16) (fun _ _ => True)
    [.connectStick 0 16, .create 1 [], .create 2 [], .dispatch 2,
      .request ⟨2, .segmentCreate 2 0 4, rfl⟩, .perform 0, .dispatch 1,
      .request ⟨1, .segmentCreate 1 0 4, rfl⟩, .perform 0, .dispatch 1, .stdin 1 0 2, .hear 0,
      .dispatch 2, .request ⟨2, .segmentDelete 2 0, rfl⟩, .perform 0, .dispatch 2,
      .request ⟨2, .segmentCreate 2 1 12, rfl⟩, .perform 0, .answer 1 [7, 9]]
    (initial (KernelMemory.initial .best 4 16 (fun _ _ => 0) [] fun _ => 0))
    (fun s => s.writes.head? = some ⟨⟨1, 4, 2, 0⟩, [7, 9]⟩ ∧
      (segmentTableOf s.memory 1).bind (fun table => table.find? fun seg => seg.segmentId == 0 / 16)
        = some ⟨⟨0, 0, 4⟩, 1⟩ ∧
      (step 16 s .write).any fun s' => (flat s'.memory.devices.listMemoryStick)[4]? ≠
        (flat s.memory.devices.listMemoryStick)[4]?) (by decide)
  obtain ⟨next, named, written⟩ := decide_eq_true_eq.mp test
  obtain ⟨s', taken, changed⟩ := (Option.any_eq_true _ _).mp written
  refine ⟨_, s, s', run, taken, fun lands => decide_eq_true_eq.mp changed ?_⟩
  obtain ⟨seg, names, same⟩ := lands _ next
  obtain rfl := Option.some.inj (names.found.symm.trans named)
  exact same.agree 4 (by decide)

end OsModel.Stdin
