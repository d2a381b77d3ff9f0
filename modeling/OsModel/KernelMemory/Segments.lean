import OsModel.KernelMemory.Compaction

/-!
Segments and processes (`segment_create`, `segment_delete` in
`kernel_memory/src/memory_manage.c`; `PROCESS_CREATE`, `PROCESS_END` and the
connection of a Memory Stick in the handlers of `kernel_memory/src`).

Each operation keeps a sound state sound. For `segment_create` that is because
the segment goes into a free hole, before or after the compaction it asks for.
-/

namespace OsModel.KernelMemory

open Lib Span

/-- The new `t_segment`s of an operation, allocated from address `ptr` on. -/
def allocSegments : Nat → List SegmentReady → List HeapSegment
  | _, [] => []
  | ptr, sr :: rest =>
      { segmentId := sr.segmentId, base := sr.newBase, size := sr.size, ptr := ptr } ::
        allocSegments (ptr + 1) rest

/-- `malloc` and `list_add` to the segment table, for each segment in turn. -/
def addSegments (s : State) (pid : UInt32) (ready : List SegmentReady) : State :=
  updatePcb { s with nextPtr := s.nextPtr + ready.length } pid fun pcb =>
    { pcb with segmentTable := pcb.segmentTable ++ allocSegments s.nextPtr ready }

/-- `total_free_space` of `segment_create`. -/
def totalFreeSpace (holes : List Hole) : UInt32 :=
  holes.foldl (fun total hole => total + hole.size) 0

/-- The second half of `segment_create`: the segment in the chosen hole. -/
def segmentInHole (s : State) (pid segmentId size : UInt32) (chosen : Hole) :
    SegmentResult × State :=
  match findPcb s pid with
  | none => (.segmentError, s)
  | some _ => (.segmentOk, addSegments s pid [⟨segmentId, size, chosen.base⟩])

/-- `segment_create`, with `request_and_compact` run at once. -/
def segmentCreate (s : State) (pid segmentId size : UInt32) : SegmentResult × State :=
  let holes := getFreeHoles s
  if totalFreeSpace holes < size then (.segmentNoSpace, s)
  else
    match selectHole s.allocationStrategy holes size with
    | some chosen => segmentInHole s pid segmentId size chosen
    | none =>
        let s' := compactMemory s
        match selectHole s'.allocationStrategy (getFreeHoles s') size with
        | none => (.segmentError, s')
        | some chosen => segmentInHole s' pid segmentId size chosen

def segmentDelete (s : State) (pid segmentId : UInt32) : SegmentResult × State :=
  match findPcb s pid with
  | none => (.segmentError, s)
  | some pcb =>
      match pcb.segmentTable.find? fun seg => seg.segmentId == segmentId with
      | none => (.segmentError, s)
      | some segmentToDelete =>
          match pcb.segmentTable.findIdx? fun seg => seg.ptr == segmentToDelete.ptr with
          | none => (.segmentError, s)
          | some index =>
              (.segmentOk, updatePcb s pid fun pcb =>
                { pcb with segmentTable := pcb.segmentTable.eraseIdx index })

/-- `PROCESS_CREATE`; `none` are instructions that could not be loaded. -/
def processCreate (s : State) (pid : UInt32) (instructions : Option (List String)) : State :=
  match instructions with
  | none => s
  | some instructions =>
      { s with
        listProcesses := s.listProcesses ++ [⟨pid, CpuContext.zero, instructions, []⟩] }

def processEnd (s : State) (pid : UInt32) : State :=
  { s with listProcesses := s.listProcesses.eraseP fun pcb => pcb.pid == pid }

/-- `memory_stick_protocol`: a stick of `size` bytes connects. -/
def connectStick (s : State) (id size : UInt32) : State :=
  { s with
    totalMemorySize := s.totalMemorySize + size
    devices :=
      { s.devices with
        listMemoryStick := s.devices.listMemoryStick ++ [MemoryStick.fresh id size] } }

/-! ### New segments -/

section Add

variable {s : State} {pid : UInt32} {pcb : Pcb} {ready : List SegmentReady}

theorem allocSegments_ptrs (ptr : Nat) (ready : List SegmentReady) :
    (allocSegments ptr ready).map HeapSegment.ptr = List.range' ptr ready.length := by
  induction ready generalizing ptr with
  | nil => rfl
  | cons sr rest ih => simp [allocSegments, ih, List.range'_succ]

/-- The interval a segment about to be recorded will occupy. -/
def SegmentReady.span (sr : SegmentReady) : Span := ⟨sr.newBase.toNat, sr.size.toNat⟩

theorem allocSegments_spans (ptr : Nat) (ready : List SegmentReady) :
    (allocSegments ptr ready).map HeapSegment.span = ready.map SegmentReady.span := by
  induction ready generalizing ptr with
  | nil => rfl
  | cons sr rest ih =>
      rw [allocSegments, List.map_cons, List.map_cons, ih]
      rfl

/-- Every new segment has the interval of an entry of the list. -/
theorem mem_allocSegments {ptr : Nat} {seg : HeapSegment} (mem : seg ∈ allocSegments ptr ready) :
    ∃ sr ∈ ready, seg.span = sr.span ∧ seg.ptr < ptr + ready.length := by
  have span := List.mem_map_of_mem (f := HeapSegment.span) mem
  have address := List.mem_map_of_mem (f := HeapSegment.ptr) mem
  rw [allocSegments_spans] at span
  rw [allocSegments_ptrs, List.mem_range'_1] at address
  obtain ⟨sr, mem, eq⟩ := List.mem_map.mp span
  exact ⟨sr, mem, eq.symm, address.2⟩

theorem allSegments_addSegments (ready : List SegmentReady) (found : findPcb s pid = some pcb) :
    (allSegments (addSegments s pid ready)).Perm
      (allSegments s ++ allocSegments s.nextPtr ready) :=
  allSegments_updatePcb_append (s := { s with nextPtr := s.nextPtr + ready.length }) found rfl

/-- New segments that overlap neither the old ones nor each other. -/
theorem addSegments_sound (sound : Sound s) (found : findPcb s pid = some pcb)
    (apart : ready.Pairwise fun a b => a.span.Apart b.span)
    (inside : ∀ sr ∈ ready, sr.span.stop ≤ s.totalMemorySize.toNat)
    (sized : ∀ sr ∈ ready, 0 < sr.span.size)
    (free : ∀ sr ∈ ready, ∀ seg ∈ allSegments s, sr.span.Apart seg.span) :
    Sound (addSegments s pid ready) := by
  have perm := allSegments_addSegments ready found
  have placed : Placed s.totalMemorySize.toNat (allocSegments s.nextPtr ready) := by
    refine ⟨List.pairwise_map.mp ?_, fun seg mem => ?_, fun seg mem => ?_⟩
    · rw [allocSegments_spans]
      exact List.pairwise_map.mpr apart
    · obtain ⟨sr, mem, eq, -⟩ := mem_allocSegments mem
      exact eq ▸ inside sr mem
    · obtain ⟨sr, mem, eq, -⟩ := mem_allocSegments mem
      exact eq ▸ sized sr mem
  refine ⟨?_, sound.total, sound.suspendedSized, fun seg mem => ?_, ?_⟩
  · refine Placed.of_perm (Placed.append_iff.mpr ⟨sound.placed, placed, ?_⟩) perm.symm
    intro a ha b hb
    obtain ⟨sr, mem, eq, -⟩ := mem_allocSegments hb
    rw [eq]
    exact Apart.symm (free sr mem a ha)
  · rcases List.mem_append.mp (perm.mem_iff.mp mem) with old | new
    · exact (sound.allocated seg old).trans_le (Nat.le_add_right ..)
    · obtain ⟨-, -, -, lt⟩ := mem_allocSegments new
      exact lt
  · rw [(perm.map HeapSegment.ptr).nodup_iff, List.map_append, allocSegments_ptrs,
      List.nodup_append]
    refine ⟨sound.distinct, List.nodup_range', ?_⟩
    intro a ha b hb eq
    obtain ⟨seg, mem, rfl⟩ := List.mem_map.mp ha
    have := sound.allocated seg mem
    rw [List.mem_range'_1] at hb
    omega

end Add

/-! ### The operations keep the invariant -/

section Sound

variable {s : State} {pid : UInt32}

/-- One new segment in free memory. -/
theorem addSegment_sound {pcb : Pcb} {sr : SegmentReady} (sound : Sound s)
    (found : findPcb s pid = some pcb) (sized : 0 < sr.span.size) (free : Free s sr.span) :
    Sound (addSegments s pid [sr]) := by
  refine addSegments_sound sound found (List.pairwise_singleton ..) ?_ ?_ ?_
  · rintro sr' mem
    obtain rfl := List.mem_singleton.mp mem
    exact free.inside
  · rintro sr' mem
    obtain rfl := List.mem_singleton.mp mem
    exact sized
  · rintro sr' mem
    obtain rfl := List.mem_singleton.mp mem
    exact free.apart

theorem segmentInHole_sound {segmentId size : UInt32} {chosen : Hole} (sound : Sound s)
    (sized : 0 < size)
    (selected : selectHole s.allocationStrategy (getFreeHoles s) size = some chosen) :
    Sound (segmentInHole s pid segmentId size chosen).2 := by
  unfold segmentInHole
  split
  · exact sound
  · rename_i found
    exact addSegment_sound sound found (UInt32.lt_iff_toNat_lt.mp sized)
      (placeFor_free sound (placeFor_of_selectHole selected))

theorem segmentCreate_sound {segmentId size : UInt32} (sound : Sound s) (sized : 0 < size) :
    Sound (segmentCreate s pid segmentId size).2 := by
  simp only [segmentCreate]
  split
  · exact sound
  · split
    · rename_i chosen selected
      exact segmentInHole_sound sound sized selected
    · have sound' := compactMemory_sound sound
      split
      · exact sound'
      · rename_i chosen selected
        exact segmentInHole_sound sound' sized selected

theorem segmentDelete_sound {segmentId : UInt32} (sound : Sound s) :
    Sound (segmentDelete s pid segmentId).2 := by
  unfold segmentDelete
  split
  · exact sound
  · split
    · exact sound
    · split
      · exact sound
      · refine sound.of_sublist (allSegments_updatePcb_sublist fun pcb => ?_) rfl rfl
          sound.suspendedSized rfl
        exact List.eraseIdx_sublist ..

theorem processCreate_sound {instructions : Option (List String)} (sound : Sound s) :
    Sound (processCreate s pid instructions) := by
  cases instructions with
  | none => exact sound
  | some instructions =>
      refine sound.of_sublist ?_ rfl rfl sound.suspendedSized rfl
      simp [processCreate, allSegments]

theorem processEnd_sound (sound : Sound s) : Sound (processEnd s pid) :=
  sound.of_sublist ((List.eraseP_sublist).flatMap _) rfl rfl sound.suspendedSized rfl

theorem connectStick_sound {id size : UInt32} (sound : Sound s)
    (fits : s.totalMemorySize.toNat + size.toNat < 2 ^ 32) : Sound (connectStick s id size) := by
  have grown : (s.totalMemorySize + size).toNat = s.totalMemorySize.toNat + size.toNat := by
    rw [UInt32.toNat_add]
    exact Nat.mod_eq_of_lt fits
  refine ⟨?_, ?_, sound.suspendedSized, sound.allocated, sound.distinct⟩
  · exact sound.placed.mono (by simp only [connectStick, grown]; omega)
  · simp [connectStick, grown, sound.total, MemoryStick.fresh, stickTotal]

end Sound

end OsModel.KernelMemory
