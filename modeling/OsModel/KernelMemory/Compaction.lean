import OsModel.KernelMemory.Holes

/-!
Compaction (`compact_memory` in `kernel_memory/src/memory_manage.c`).

The segments are listed once, sorted by base, and moved down one by one. On a
sound state the tables end up packed from address zero (`compactMemory_spec`),
and every segment keeps its bytes unless a stick fails a request
(`compactMemory_bytes`): the copies overlap, but each one is made before
anything above it is touched.
-/

namespace OsModel.KernelMemory

open Lib Span

/-- A write of `base` through the pointer `ptr`. -/
def moveTo (ptr : Nat) (base : UInt32) (seg : HeapSegment) : HeapSegment :=
  if seg.ptr = ptr then { seg with base := base } else seg

/-- Apply `f` to every segment of a process. -/
def mapTable (f : HeapSegment → HeapSegment) (pcb : Pcb) : Pcb :=
  { pcb with segmentTable := pcb.segmentTable.map f }

/-- `seg->base = cursor`. -/
def setBase (s : State) (ptr : Nat) (base : UInt32) : State :=
  { s with listProcesses := s.listProcesses.map (mapTable (moveTo ptr base)) }

/-- The copy of one segment; its failure is not looked at. -/
def copySegment (d : Devices) (seg : Segment) (cursor : UInt32) : Devices :=
  match memoryRead d seg.base seg.size with
  | (none, d') => d'
  | (some data, d') => (memoryWrite d' cursor data seg.size).2

/-- One iteration of the loop of `compact_memory`. -/
def moveSegment (s : State) (seg : HeapSegment) (cursor : UInt32) : State :=
  if seg.base ≠ cursor then
    setBase { s with devices := copySegment s.devices seg.toSegment cursor } seg.ptr cursor
  else s

/-- The loop of `compact_memory` over `all_segments`. -/
def compactLoop : List HeapSegment → UInt32 → State → State
  | [], _, s => s
  | seg :: rest, cursor, s => compactLoop rest (cursor + seg.size) (moveSegment s seg cursor)

/-- The list `all_segments` of `compact_memory`. -/
def sortedSegments (s : State) : List HeapSegment :=
  sortByBase (fun seg => seg.base) (allSegments s)

/-- `compact_memory`, run without interruption. -/
def compactMemory (s : State) : State := compactLoop (sortedSegments s) 0 s

/-! ### Segments through their pointers -/

@[simp] theorem moveTo_ptr (ptr : Nat) (base : UInt32) (seg : HeapSegment) :
    (moveTo ptr base seg).ptr = seg.ptr := by
  unfold moveTo
  split <;> rfl

@[simp] theorem moveTo_size (ptr : Nat) (base : UInt32) (seg : HeapSegment) :
    (moveTo ptr base seg).size = seg.size := by
  unfold moveTo
  split <;> rfl

@[simp] theorem moveTo_segmentId (ptr : Nat) (base : UInt32) (seg : HeapSegment) :
    (moveTo ptr base seg).segmentId = seg.segmentId := by
  unfold moveTo
  split <;> rfl

theorem moveTo_of_ne {ptr : Nat} {base : UInt32} {seg : HeapSegment} (ne : seg.ptr ≠ ptr) :
    moveTo ptr base seg = seg := if_neg ne

theorem allSegments_map (s : State) (f : HeapSegment → HeapSegment) (d : Devices) :
    allSegments { s with devices := d, listProcesses := s.listProcesses.map (mapTable f) } =
      (allSegments s).map f := by
  simp only [allSegments, List.flatMap_map, List.map_flatMap]
  rfl

theorem map_mapTable (ps : List Pcb) (f g : HeapSegment → HeapSegment) :
    (ps.map (mapTable f)).map (mapTable g) = ps.map (mapTable (g ∘ f)) := by
  rw [List.map_map]
  congr 1
  funext pcb
  simp [mapTable]

/-- An update that moves no segment of the tables changes nothing. -/
theorem map_mapTable_id {s : State} {f : HeapSegment → HeapSegment}
    (fixed : ∀ seg ∈ allSegments s, f seg = seg) :
    s.listProcesses.map (mapTable f) = s.listProcesses := by
  refine (List.map_congr_left fun pcb mem => ?_).trans (List.map_id _)
  have same : pcb.segmentTable.map f = pcb.segmentTable :=
    (List.map_congr_left fun seg hseg =>
      fixed seg (List.mem_flatMap.mpr ⟨pcb, mem, hseg⟩)).trans (List.map_id _)
  simp [mapTable, same]

/-- What the moves of the list do to one segment. -/
def relocate : UInt32 → List HeapSegment → HeapSegment → HeapSegment
  | _, [], seg => seg
  | cursor, moved :: rest, seg => relocate (cursor + moved.size) rest (moveTo moved.ptr cursor seg)

/-- The segments of the list, back to back from `cursor`. -/
def packSegments : UInt32 → List HeapSegment → List HeapSegment
  | _, [] => []
  | cursor, seg :: rest => { seg with base := cursor } :: packSegments (cursor + seg.size) rest

section Relocate

variable {cursor : UInt32} {l : List HeapSegment}

/-- A relocation changes bases only. -/
theorem relocate_keeps (cursor : UInt32) (l : List HeapSegment) (seg : HeapSegment) :
    (relocate cursor l seg).ptr = seg.ptr ∧ (relocate cursor l seg).size = seg.size ∧
      (relocate cursor l seg).segmentId = seg.segmentId := by
  induction l generalizing cursor seg with
  | nil => exact ⟨rfl, rfl, rfl⟩
  | cons moved rest ih =>
      obtain ⟨ptr, size, segmentId⟩ := ih (cursor + moved.size) (moveTo moved.ptr cursor seg)
      exact ⟨by simp [relocate, ptr], by simp [relocate, size], by simp [relocate, segmentId]⟩

theorem relocate_of_not_mem {seg : HeapSegment} (out : ∀ moved ∈ l, seg.ptr ≠ moved.ptr) :
    relocate cursor l seg = seg := by
  induction l generalizing cursor with
  | nil => rfl
  | cons moved rest ih =>
      rw [relocate, moveTo_of_ne (out moved List.mem_cons_self)]
      exact ih fun moved mem => out moved (List.mem_cons_of_mem _ mem)

/-- The segments of the list are packed by their own moves. -/
theorem map_relocate (distinct : (l.map HeapSegment.ptr).Nodup) :
    l.map (relocate cursor l) = packSegments cursor l := by
  induction l generalizing cursor with
  | nil => rfl
  | cons moved rest ih =>
      rw [List.map_cons, List.nodup_cons] at distinct
      have others : ∀ seg ∈ rest, moved.ptr ≠ seg.ptr := fun seg mem eq =>
        distinct.1 (eq ▸ List.mem_map_of_mem mem)
      rw [List.map_cons, packSegments, relocate, moveTo, if_pos rfl,
        relocate_of_not_mem (by simpa using others), ← ih distinct.2]
      congr 1
      refine List.map_congr_left fun seg mem => ?_
      rw [relocate, moveTo_of_ne (others seg mem).symm]

/-- Packing segments is packing their intervals. -/
theorem packSegments_spans (cursor : UInt32) (l : List HeapSegment)
    (fits : cursor.toNat + totalSize (l.map HeapSegment.span) < 2 ^ 32) :
    (packSegments cursor l).map HeapSegment.span =
      pack cursor.toNat (l.map HeapSegment.span) := by
  induction l generalizing cursor with
  | nil => rfl
  | cons seg rest ih =>
      rw [List.map_cons, totalSize_cons] at fits
      have next : (cursor + seg.size).toNat = cursor.toNat + seg.span.size := by
        rw [UInt32.toNat_add]
        exact Nat.mod_eq_of_lt (by simp only [HeapSegment.span] at *; omega)
      rw [packSegments, List.map_cons, List.map_cons, pack, ih _ (by omega), next]
      rfl

end Relocate

/-! ### One move -/

section Move

variable {s : State} {seg : HeapSegment} {cursor : UInt32} {d : Devices}

/-- The copy of a segment writes nothing outside its destination, and carries
its bytes there when the sticks answer. -/
theorem copySegment_spec (seg : Segment) (cursor : UInt32) (fits : stickTotal d.listMemoryStick < 2 ^ 32)
    (source : seg.base.toNat + seg.size.toNat ≤ stickTotal d.listMemoryStick) :
    d.Wrote cursor.toNat seg.size.toNat (copySegment d seg cursor) ∧
      (d.refusals = [] → cursor.toNat + seg.size.toNat ≤ stickTotal d.listMemoryStick →
        flat (copySegment d seg cursor).listMemoryStick =
          writeAt (flat d.listMemoryStick) cursor.toNat
            (slice (flat d.listMemoryStick) seg.base.toNat seg.size.toNat)) := by
  obtain ⟨wrote, stored, writable⟩ := memoryWrite_spec d cursor fits
    (length_slice (by rw [length_flat]; exact source))
  unfold copySegment
  simp only [memoryRead_inside fits source]
  exact ⟨wrote, fun none room => (stored (writable none room)).1⟩

/-- Writing a slice back where it came from changes nothing. -/
theorem writeAt_slice_self {l : List UInt8} {i n : Nat} (fits : i + n ≤ l.length) :
    writeAt l i (slice l i n) = l := by
  rw [writeAt, length_slice fits, slice, ← List.drop_drop, List.append_assoc,
    List.take_append_drop, List.take_append_drop]

/-- One iteration moves the segment and, when the sticks answer, its bytes. -/
theorem moveSegment_spec (mem : seg ∈ allSegments s)
    (distinct : ((allSegments s).map HeapSegment.ptr).Nodup)
    (fits : stickTotal s.devices.listMemoryStick < 2 ^ 32)
    (source : seg.span.stop ≤ stickTotal s.devices.listMemoryStick)
    (down : cursor.toNat ≤ seg.base.toNat) :
    ∃ d', moveSegment s seg cursor =
        { s with
          devices := d'
          listProcesses := s.listProcesses.map (mapTable (moveTo seg.ptr cursor)) } ∧
      s.devices.Wrote cursor.toNat seg.size.toNat d' ∧
      (s.devices.refusals = [] →
        flat d'.listMemoryStick = writeAt (flat s.devices.listMemoryStick) cursor.toNat
          (slice (flat s.devices.listMemoryStick) seg.base.toNat seg.size.toNat)) := by
  simp only [HeapSegment.span, stop] at source
  unfold moveSegment
  split
  · obtain ⟨wrote, stored⟩ := copySegment_spec seg.toSegment cursor fits source
    exact ⟨_, rfl, wrote, fun none => stored none (by omega)⟩
  · rename_i same
    obtain rfl : seg.base = cursor := not_not.mp same
    have fixed : ∀ other ∈ allSegments s, moveTo seg.ptr seg.base other = other := by
      intro other among
      by_cases eq : other.ptr = seg.ptr
      · obtain rfl := List.inj_on_of_nodup_map distinct among mem eq
        rw [moveTo, if_pos rfl]
      · exact moveTo_of_ne eq
    refine ⟨s.devices, by rw [map_mapTable_id fixed], .refl .., fun _ => ?_⟩
    exact (writeAt_slice_self (by rw [length_flat]; exact source)).symm

end Move

/-! ### The whole compaction -/

/-- What the loop does from a state whose remaining segments lie, in order,
above the cursor. -/
theorem compactLoop_spec (l : List HeapSegment) (cursor : UInt32) (s : State)
    (among : ∀ seg ∈ l, seg ∈ allSegments s)
    (distinct : ((allSegments s).map HeapSegment.ptr).Nodup)
    (once : (l.map HeapSegment.ptr).Nodup)
    (fits : stickTotal s.devices.listMemoryStick < 2 ^ 32)
    (ordered : Ordered cursor.toNat (l.map HeapSegment.span)
      (stickTotal s.devices.listMemoryStick)) :
    ∃ d', compactLoop l cursor s =
        { s with
          devices := d'
          listProcesses := s.listProcesses.map (mapTable (relocate cursor l)) } ∧
      stickTotal d'.listMemoryStick = stickTotal s.devices.listMemoryStick ∧
      d'.swapFile = s.devices.swapFile ∧
      (s.devices.refusals = [] → d'.refusals = [] ∧
        (∀ i n, i + n ≤ cursor.toNat →
          slice (flat d'.listMemoryStick) i n = slice (flat s.devices.listMemoryStick) i n) ∧
        (packSegments cursor l).map (fun seg =>
            slice (flat d'.listMemoryStick) seg.base.toNat seg.size.toNat) =
          l.map (segmentBytes s)) := by
  induction l generalizing cursor s with
  | nil =>
      refine ⟨s.devices, ?_, rfl, rfl, fun none => ⟨none, fun _ _ _ => rfl, rfl⟩⟩
      rw [compactLoop, map_mapTable_id (f := relocate cursor []) fun _ _ => rfl]
  | cons seg rest ih =>
      rw [List.map_cons, List.nodup_cons] at once
      obtain ⟨start, tail⟩ := ordered
      have top := tail.le_top
      have source : seg.span.stop ≤ stickTotal s.devices.listMemoryStick := top
      obtain ⟨d', moved, wrote, stored⟩ :=
        moveSegment_spec (among seg List.mem_cons_self) distinct fits source start
      have total := wrote.stickTotal_eq
      have segments := allSegments_map s (moveTo seg.ptr cursor) d'
      have others : ∀ other ∈ rest, moveTo seg.ptr cursor other = other := fun other mem =>
        moveTo_of_ne fun eq => once.1 (eq ▸ List.mem_map_of_mem mem)
      simp only [HeapSegment.span, stop] at start source tail
      have next : (cursor + seg.size).toNat = cursor.toNat + seg.size.toNat := by
        rw [UInt32.toNat_add]
        omega
      obtain ⟨d'', looped, total', swap', bytes⟩ := ih (cursor + seg.size)
        { s with
          devices := d'
          listProcesses := s.listProcesses.map (mapTable (moveTo seg.ptr cursor)) }
        (fun other mem => by
          rw [segments]
          exact List.mem_map.mpr
            ⟨other, among other (List.mem_cons_of_mem _ mem), others other mem⟩)
        (by
          rw [segments, List.map_map, show HeapSegment.ptr ∘ moveTo seg.ptr cursor =
            HeapSegment.ptr from funext fun other => moveTo_ptr ..]
          exact distinct)
        once.2 (by rw [total]; exact fits)
        (by
          rw [total]
          exact tail.mono_start (by omega))
      refine ⟨d'', ?_, total'.trans total, swap'.trans wrote.swapFile_eq, fun none => ?_⟩
      · rw [compactLoop, moved, looped, map_mapTable]
        rfl
      · obtain ⟨none', below, packed⟩ := bytes (wrote.refusals_nil none)
        have flat_eq := stored none
        have room : cursor.toNat + seg.size.toNat ≤
            (flat s.devices.listMemoryStick).length := by
          rw [length_flat]
          omega
        have length_eq : (slice (flat s.devices.listMemoryStick) seg.base.toNat
            seg.size.toNat).length = seg.size.toNat :=
          length_slice (by rw [length_flat]; exact source)
        refine ⟨none', fun i n bound => ?_, ?_⟩
        · rw [below i n (by omega)]
          exact wrote.bytes.slice_eq (by omega)
        · rw [packSegments, List.map_cons, List.map_cons, packed]
          congr 1
          · rw [below cursor.toNat seg.size.toNat (by omega)]
            simp only [flat_eq]
            have whole := slice_writeAt (l := flat s.devices.listMemoryStick) (i := cursor.toNat)
              (d := slice (flat s.devices.listMemoryStick) seg.base.toNat seg.size.toNat)
              (by rw [length_eq]; exact room)
            rw [length_eq] at whole
            exact whole
          · refine List.map_congr_left fun other mem => ?_
            have above := (tail.mem_bounds (List.mem_map_of_mem mem)).1
            simp only [HeapSegment.span] at above
            exact wrote.bytes.slice_eq (by omega)

section Compact

variable {s : State}

theorem perm_sortedSegments (s : State) : (sortedSegments s).Perm (allSegments s) :=
  perm_sortByBase _ _

/-- The snapshot of the segments is ordered. -/
theorem sortedSegments_ordered (sound : Sound s) :
    Ordered 0 ((sortedSegments s).map HeapSegment.span)
      (stickTotal s.devices.listMemoryStick) := by
  have perm := perm_sortedSegments s
  have placed := sound.placed.of_perm perm.symm
  rw [sound.total] at placed
  refine ordered_of_sorted (fun _ _ => Nat.zero_le _) ?_ ?_ (Nat.zero_le _)
    (List.pairwise_map.mpr placed.apart) ?_
  · intro sp among
    obtain ⟨seg, mem, rfl⟩ := List.mem_map.mp among
    exact placed.inside seg mem
  · intro sp among
    obtain ⟨seg, mem, rfl⟩ := List.mem_map.mp among
    exact placed.sized seg mem
  · exact List.pairwise_map.mpr ((pairwise_sortByBase (fun seg : HeapSegment => seg.base) _).imp
      fun le => UInt32.le_iff_toNat_le.mp le)

/-- What compaction does to a segment of the state. -/
def compacted (s : State) : HeapSegment → HeapSegment := relocate 0 (sortedSegments s)

/-- **Compaction of a sound state**: the tables keep their segments, with new
bases, and the bytes move with them when the sticks answer. -/
theorem compactMemory_spec (sound : Sound s) :
    ∃ d', compactMemory s =
        { s with
          devices := d'
          listProcesses := s.listProcesses.map (mapTable (compacted s)) } ∧
      stickTotal d'.listMemoryStick = stickTotal s.devices.listMemoryStick ∧
      d'.swapFile = s.devices.swapFile ∧
      (s.devices.refusals = [] → d'.refusals = [] ∧
        ∀ seg ∈ allSegments s,
          slice (flat d'.listMemoryStick) (compacted s seg).base.toNat seg.size.toNat =
            segmentBytes s seg) := by
  have perm := perm_sortedSegments s
  have once : ((sortedSegments s).map HeapSegment.ptr).Nodup :=
    (perm.map HeapSegment.ptr).nodup_iff.mpr sound.distinct
  obtain ⟨d', eq, total, swap, bytes⟩ := compactLoop_spec (sortedSegments s) 0 s
    (fun seg mem => perm.mem_iff.mp mem) sound.distinct once sound.fits
    (by simpa using sortedSegments_ordered sound)
  refine ⟨d', eq, total, swap, fun none => ?_⟩
  obtain ⟨none', -, packed⟩ := bytes none
  refine ⟨none', fun seg mem => ?_⟩
  rw [← map_relocate once, List.map_map] at packed
  have here := List.map_inj_left.mp packed seg (perm.mem_iff.mpr mem)
  rwa [Function.comp_apply, (relocate_keeps _ _ seg).2.1] at here

/-- The segments after a compaction, in address order. -/
theorem compacted_perm (sound : Sound s) :
    ((allSegments s).map (compacted s)).Perm (packSegments 0 (sortedSegments s)) := by
  have perm := perm_sortedSegments s
  rw [← map_relocate ((perm.map HeapSegment.ptr).nodup_iff.mpr sound.distinct)]
  exact (perm.symm.map _)

/-- Packed segments do not overlap. -/
theorem compacted_placed (sound : Sound s) :
    Placed s.totalMemorySize.toNat ((allSegments s).map (compacted s)) := by
  have ordered := sortedSegments_ordered sound
  rw [← sound.total] at ordered
  have occupied := totalSize_gaps ordered
  have bound := s.totalMemorySize.toNat_lt
  have spans : (packSegments 0 (sortedSegments s)).map HeapSegment.span =
      pack 0 ((sortedSegments s).map HeapSegment.span) := by
    simpa using packSegments_spans 0 (sortedSegments s) (by simp; omega)
  have packed : Ordered 0 ((packSegments 0 (sortedSegments s)).map HeapSegment.span)
      s.totalMemorySize.toNat := by
    rw [spans]
    exact pack_ordered (by omega)
  refine Placed.of_perm ⟨List.pairwise_map.mp packed.pairwise, ?_, ?_⟩ (compacted_perm sound).symm
  · exact fun seg mem => (packed.mem_bounds (List.mem_map_of_mem mem)).2
  · intro seg mem
    obtain ⟨old, old_mem, rfl⟩ := List.mem_map.mp ((compacted_perm sound).mem_iff.mpr mem)
    have := sound.placed.sized old old_mem
    simp only [HeapSegment.span, compacted, (relocate_keeps _ _ old).2.1] at *
    exact this

/-- Compaction keeps the invariant. -/
theorem compactMemory_sound (sound : Sound s) : Sound (compactMemory s) := by
  obtain ⟨d', eq, total, -, -⟩ := compactMemory_spec sound
  have segments : allSegments (compactMemory s) = (allSegments s).map (compacted s) := by
    rw [eq, allSegments_map]
  refine ⟨?_, ?_, ?_, ?_, ?_⟩
  · rw [segments, eq]
    exact compacted_placed sound
  · rw [eq, total]
    exact sound.total
  · rw [eq]
    exact sound.suspendedSized
  · intro seg mem
    rw [segments] at mem
    obtain ⟨old, old_mem, rfl⟩ := List.mem_map.mp mem
    rw [eq, compacted, (relocate_keeps _ _ old).1]
    exact sound.allocated old old_mem
  · rw [segments, List.map_map, show HeapSegment.ptr ∘ compacted s = HeapSegment.ptr from
      funext fun seg => (relocate_keeps _ _ seg).1]
    exact sound.distinct

end Compact

end OsModel.KernelMemory
