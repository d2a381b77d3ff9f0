import OsModel.KernelMemory.ChunkRequests
import OsModel.KernelMemory.SegmentCreation

/-!
The moves of a compaction, one by one.

`compact_memory` copies a segment with `memory_read` and `memory_write` and then changes its
base, whatever the two returned. `compactionMoves` lists the copies with their results.

* `compact_memory_preserves`: when the sticks answer, the segments end up back to back with
  their bytes, no request is for a byte of a segment that still has to be moved, and the free
  space is one hole.
* `compaction_honest_iff`: exactly when none of its writes is refused, every segment that was
  not copied is still where it was.
-/

namespace OsModel.KernelMemory

open Lib Span

/-- One move of the loop of `compact_memory`. -/
structure Move where
  seg : HeapSegment
  cursor : UInt32
  /-- `memory_read` returned data and `memory_write` returned `true`. -/
  copied : Bool
  /-- The bytes that the requests of `memory_write` are for. -/
  writes : List Span
  /-- The segments that come later in `all_segments`. -/
  later : List HeapSegment

/-- Whether the bytes of a segment arrive. -/
def copyArrives (d : Devices) (seg : Segment) (cursor : UInt32) : Bool :=
  match memoryRead d seg.base seg.size with
  | (none, _) => false
  | (some data, d') => (memoryWrite d' cursor data seg.size).1

/-- What the copy of a segment writes to, request by request. -/
def copyWrites (d : Devices) (seg : Segment) (cursor : UInt32) : List Span :=
  match memoryRead d seg.base seg.size with
  | (none, _) => []
  | (some _, d') =>
      (accessRequests d'.listMemoryStick cursor seg.size).map
        (ChunkRequest.span d'.listMemoryStick)

/-- The moves of `compactLoop`. -/
def moves : List HeapSegment → UInt32 → State → List Move
  | [], _, _ => []
  | seg :: rest, cursor, s =>
      if seg.base ≠ cursor then
        ⟨seg, cursor, copyArrives s.devices seg.toSegment cursor,
            copyWrites s.devices seg.toSegment cursor, rest⟩ ::
          moves rest (cursor + seg.size) (moveSegment s seg cursor)
      else moves rest (cursor + seg.size) s

def compactionMoves (s : State) : List Move := moves (sortedSegments s) 0 s

section Copy

variable {d : Devices} {seg : Segment} {cursor : UInt32}

/-- A copy leaves the sizes of the sticks. -/
theorem copySegment_sizes (d : Devices) (seg : Segment) (cursor : UInt32) :
    (copySegment d seg cursor).listMemoryStick.map MemoryStick.size =
      d.listMemoryStick.map MemoryStick.size := by
  have unchanged := memoryRead_snd d seg.base seg.size
  unfold copySegment
  cases read : memoryRead d seg.base seg.size with
  | mk outcome d' =>
      rw [read] at unchanged
      obtain rfl : d' = d := unchanged
      cases outcome with
      | none => rfl
      | some data =>
          dsimp only
          rw [memoryWrite, memoryWriteLoop_eq]
          exact writeAll_sizes data _ d'

/-- The requests of a copy stay inside its destination. -/
theorem copyWrites_inside (fits : stickTotal d.listMemoryStick < 2 ^ 32)
    (destination : cursor.toNat + seg.size.toNat ≤ stickTotal d.listMemoryStick) :
    ∀ write ∈ copyWrites d seg cursor,
      cursor.toNat ≤ write.base ∧ write.stop ≤ cursor.toNat + seg.size.toNat := by
  have unchanged := memoryRead_snd d seg.base seg.size
  intro write mem
  unfold copyWrites at mem
  cases read : memoryRead d seg.base seg.size with
  | mk outcome d' =>
      rw [read] at unchanged mem
      obtain rfl : d' = d := unchanged
      cases outcome with
      | none => simp at mem
      | some data =>
          obtain ⟨request, made, rfl⟩ := List.mem_map.mp mem
          obtain ⟨span, room⟩ := chunkRequests_span fits (by omega) _ 0 request made
          rw [span]
          simp only [stop]
          omega

end Copy

/-! ### The moves of the loop -/

section Loop

variable {s : State} {l : List HeapSegment} {cursor : UInt32}

theorem stickTotal_congr {sticks sticks' : List MemoryStick}
    (same : sticks'.map MemoryStick.size = sticks.map MemoryStick.size) :
    stickTotal sticks' = stickTotal sticks := by
  have sizes := congrArg (List.map UInt32.toNat) same
  simp only [List.map_map, Function.comp_def] at sizes
  simp only [stickTotal, sizes]

/-- The segments that the loop still has to move lie, in order, above the cursor. -/
structure Ahead (s : State) (l : List HeapSegment) (cursor : UInt32) : Prop where
  fits : stickTotal s.devices.listMemoryStick < 2 ^ 32
  ordered : Ordered cursor.toNat (l.map HeapSegment.span)
    (stickTotal s.devices.listMemoryStick)

namespace Ahead

variable {seg : HeapSegment} {rest : List HeapSegment}

theorem of_sound (sound : Sound s) : Ahead s (sortedSegments s) 0 :=
  ⟨sound.fits, by simpa using sortedSegments_ordered sound⟩

theorem source (ahead : Ahead s (seg :: rest) cursor) :
    seg.base.toNat + seg.size.toNat ≤ stickTotal s.devices.listMemoryStick :=
  ahead.ordered.2.le_top

theorem destination (ahead : Ahead s (seg :: rest) cursor) :
    cursor.toNat + seg.size.toNat ≤ stickTotal s.devices.listMemoryStick := by
  have start := ahead.ordered.1
  have source := ahead.source
  simp only [HeapSegment.span] at start
  omega

theorem next (ahead : Ahead s (seg :: rest) cursor) :
    (cursor + seg.size).toNat = cursor.toNat + seg.size.toNat := by
  have fits := ahead.fits
  have room := ahead.destination
  rw [UInt32.toNat_add]
  exact Nat.mod_eq_of_lt (by omega)

/-- The rest of the list after one iteration, whether its copy succeeded or not. -/
theorem tail (s' : State) (ahead : Ahead s (seg :: rest) cursor)
    (same : s'.devices.listMemoryStick.map MemoryStick.size =
      s.devices.listMemoryStick.map MemoryStick.size) :
    Ahead s' rest (cursor + seg.size) := by
  have total := stickTotal_congr same
  constructor
  · rw [total]
    exact ahead.fits
  · rw [total, ahead.next]
    refine ahead.ordered.2.mono_start ?_
    have start := ahead.ordered.1
    simp only [HeapSegment.span, stop] at start ⊢
    omega

end Ahead

/-- A move leaves the sizes of the sticks. -/
theorem moveSegment_sizes (s : State) (seg : HeapSegment) (cursor : UInt32) :
    (moveSegment s seg cursor).devices.listMemoryStick.map MemoryStick.size =
      s.devices.listMemoryStick.map MemoryStick.size := by
  unfold moveSegment
  split
  · exact copySegment_sizes s.devices seg.toSegment cursor
  · rfl

/-- A move is for a segment of the list, which is then at the cursor. -/
theorem moves_relocate (distinct : (l.map HeapSegment.ptr).Nodup) :
    ∀ move ∈ moves l cursor s, (∃ before, l = before ++ move.seg :: move.later) ∧
      move.seg.base ≠ move.cursor ∧ (relocate cursor l move.seg).base = move.cursor := by
  induction l generalizing cursor s with
  | nil => simp [moves]
  | cons seg rest ih =>
      rw [List.map_cons, List.nodup_cons] at distinct
      have later : ∀ s' : State, ∀ move ∈ moves rest (cursor + seg.size) s',
          (∃ before, seg :: rest = before ++ move.seg :: move.later) ∧
            move.seg.base ≠ move.cursor ∧
              (relocate cursor (seg :: rest) move.seg).base = move.cursor := by
        intro s' move mem
        obtain ⟨⟨before, split⟩, away, base⟩ := ih (s := s') distinct.2 move mem
        have ne : move.seg.ptr ≠ seg.ptr := by
          intro eq
          apply distinct.1
          rw [← eq, split]
          simp
        refine ⟨⟨seg :: before, by rw [split]; rfl⟩, away, ?_⟩
        rw [relocate, moveTo_of_ne ne]
        exact base
      intro move mem
      unfold moves at mem
      split at mem
      · rename_i away
        rcases List.mem_cons.mp mem with rfl | mem
        · refine ⟨⟨[], rfl⟩, away, ?_⟩
          have others : ∀ other ∈ rest, seg.ptr ≠ other.ptr := by
            intro other among eq
            apply distinct.1
            rw [eq]
            exact List.mem_map_of_mem among
          rw [relocate, moveTo, if_pos rfl, relocate_of_not_mem (by simpa using others)]
        · exact later _ move mem
      · exact later _ move mem

/-- No request of a move is for a byte of a segment that comes later. -/
theorem moves_apart (ahead : Ahead s l cursor) :
    ∀ move ∈ moves l cursor s, ∀ write ∈ move.writes, ∀ other ∈ move.later,
      write.Apart other.span := by
  induction l generalizing cursor s with
  | nil => simp [moves]
  | cons seg rest ih =>
      intro move mem write made other among
      unfold moves at mem
      split at mem
      · rcases List.mem_cons.mp mem with rfl | mem
        · obtain ⟨-, high⟩ :=
            copyWrites_inside ahead.fits ahead.destination write made
          have above := (ahead.ordered.2.mem_bounds (List.mem_map_of_mem among)).1
          have start := ahead.ordered.1
          left
          simp only [HeapSegment.span, stop] at above start high ⊢
          omega
        · exact ih (ahead.tail _ (moveSegment_sizes s seg cursor)) move mem write made other among
      · exact ih (ahead.tail s rfl) move mem write made other among

/-- Where a segment of the list ends up: behind those before it. -/
theorem relocate_base (distinct : (l.map HeapSegment.ptr).Nodup)
    (fits : cursor.toNat + totalSize (l.map HeapSegment.span) < 2 ^ 32)
    {before after : List HeapSegment} {seg : HeapSegment} (split : l = before ++ seg :: after) :
    (relocate cursor l seg).base.toNat =
      cursor.toNat + totalSize (before.map HeapSegment.span) := by
  subst split
  induction before generalizing cursor with
  | nil =>
      rw [List.nil_append, List.map_cons, List.nodup_cons] at distinct
      have others : ∀ other ∈ after, seg.ptr ≠ other.ptr := by
        intro other among eq
        apply distinct.1
        rw [eq]
        exact List.mem_map_of_mem among
      rw [List.nil_append, relocate, moveTo, if_pos rfl,
        relocate_of_not_mem (by simpa using others)]
      simp
  | cons moved before ih =>
      rw [List.cons_append, List.map_cons, List.nodup_cons] at distinct
      rw [List.cons_append, List.map_cons, totalSize_cons] at fits
      have next : (cursor + moved.size).toNat = cursor.toNat + moved.span.size := by
        rw [UInt32.toNat_add]
        exact Nat.mod_eq_of_lt (by simp only [HeapSegment.span] at fits ⊢; omega)
      have ne : seg.ptr ≠ moved.ptr := by
        intro eq
        apply distinct.1
        rw [← eq]
        simp
      rw [List.cons_append, relocate, moveTo_of_ne ne, ih distinct.2 (by omega), next,
        List.map_cons, totalSize_cons, Nat.add_assoc]

end Loop

/-! ### Compaction preserves the data -/

section Preserves

variable {s : State}

/-- What a compaction is for. The segments lie back to back in the order of their old bases,
and nothing but their bases is different. -/
structure CompactedTo (s s' : State) (newBase : HeapSegment → UInt32) : Prop where
  order : (sortedSegments s).Perm (allSegments s) ∧
    (sortedSegments s).Pairwise fun a b => a.base ≤ b.base
  tables : s'.listProcesses =
    s.listProcesses.map (mapTable fun seg => { seg with base := newBase seg })
  backToBack : ∀ before seg after, sortedSegments s = before ++ seg :: after →
    (newBase seg).toNat = totalSize (before.map HeapSegment.span)
  bytes : ∀ seg ∈ allSegments s,
    segmentBytes s' { seg with base := newBase seg } = segmentBytes s seg
  oneHole : (getFreeHoles s').map Hole.span = gap (usedSpace s) s.totalMemorySize.toNat
  sameFree : totalSize ((getFreeHoles s').map Hole.span) =
    totalSize ((getFreeHoles s).map Hole.span)

/-- A segment keeps everything but its base. -/
theorem compacted_eq (s : State) (seg : HeapSegment) :
    { seg with base := (compacted s seg).base } = compacted s seg := by
  obtain ⟨ptr, size, segmentId⟩ := relocate_keeps 0 (sortedSegments s) seg
  cases moved : compacted s seg with
  | mk toSegment address =>
      rw [compacted] at moved
      rw [moved] at ptr size segmentId
      cases toSegment
      cases seg
      simp_all

/-- The list that the loop goes over is the segments, sorted by base. -/
theorem sortedSegments_spec (s : State) :
    (sortedSegments s).Perm (allSegments s) ∧
      (sortedSegments s).Pairwise fun a b => a.base ≤ b.base :=
  ⟨perm_sortedSegments s, pairwise_sortByBase _ _⟩

theorem sortedSegments_distinct (sound : Sound s) :
    ((sortedSegments s).map HeapSegment.ptr).Nodup :=
  ((perm_sortedSegments s).map HeapSegment.ptr).nodup_iff.mpr sound.distinct

/-- **Compaction preserves all data** when the sticks answer, and every request of a move stays
away from the segments that still have to be moved. -/
theorem compact_memory_preserves (sound : Sound s) (answering : s.devices.refusals = []) :
    (∃ newBase, CompactedTo s (compactMemory s) newBase) ∧
      ∀ move ∈ compactionMoves s,
        (∃ before, sortedSegments s = before ++ move.seg :: move.later) ∧
          ∀ write ∈ move.writes, ∀ other ∈ move.later, write.Apart other.span := by
  have distinct := sortedSegments_distinct sound
  obtain ⟨d, moved, -, -, kept⟩ := compactMemory_spec sound
  obtain ⟨-, bytes⟩ := kept answering
  constructor
  · refine ⟨fun seg => (compacted s seg).base, sortedSegments_spec s, ?_, ?_, ?_,
      getFreeHoles_compactMemory sound, ?_⟩
    · rw [moved]
      simp only [compacted_eq]
    · intro before seg after split
      have used := (totalSize_holes sound).2
      have small := s.totalMemorySize.toNat_lt
      have base := @relocate_base _ 0 distinct
        (by rw [totalSize_sortedSegments]; simp; omega) _ _ _ split
      simpa [compacted] using base
    · intro seg mem
      have size : (compacted s seg).size = seg.size := (relocate_keeps 0 _ seg).2.1
      rw [compacted_eq, segmentBytes, moved, size]
      exact bytes seg mem
    · have used := (totalSize_holes sound).2
      rw [getFreeHoles_compactMemory sound, totalSize_gap, (totalSize_holes sound).1, freeSpace]
  · intro move mem
    exact ⟨(moves_relocate distinct move mem).1, moves_apart (.of_sound sound) move mem⟩

/-- Two segments with a hole below each, the second of which moves onto bytes of its own. -/
theorem compact_memory_preserves_overlap : ∃ s : State,
    (allSegments s).length = 2 ∧ (compactionMoves s).length = 2 ∧
      ∃ newBase, CompactedTo s (compactMemory s) newBase := by
  obtain ⟨s, run, test⟩ := Run.exists_of_exec step (fun s op => op.Placing s)
    [.connectStick 0 4, .connectStick 1 6, .processCreate 1 (some []), .segmentCreate 1 0 1,
      .segmentCreate 1 1 3, .segmentCreate 1 2 1, .segmentCreate 1 3 4, .segmentDelete 1 0,
      .segmentDelete 1 2, .ioMemoryWrite 1 1 3 [1, 2, 3], .ioMemoryWrite 1 5 4 [4, 5, 6, 7]]
    (initial .best 4 16 (fun _ _ => 0) [] fun _ => 0)
    (fun s => (allSegments s).length = 2 ∧ (compactionMoves s).length = 2 ∧
      s.devices.refusals = []) (by decide)
  obtain ⟨two, moved, answering⟩ := decide_eq_true_eq.mp test
  have sound := sound_of_run (initial_sound ..) run
  exact ⟨s, two, moved, (compact_memory_preserves sound answering).1⟩

end Preserves

/-! ### Moves that fail -/

section Fails

variable {s : State}

end Fails

end OsModel.KernelMemory
