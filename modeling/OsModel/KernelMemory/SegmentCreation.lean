import OsModel.KernelMemory.Relocation
import OsModel.KernelMemory.LayoutRuns

/-!
What `segment_create` does, from its request to the tables.

The holes add up to the free space (`totalFreeSpace_toNat`), so the request is refused exactly
when the free space is too small. After a compaction the free space is one hole behind the last
segment (`getFreeHoles_compactMemory`), so the second search finds it and `SEGMENT_ERROR` is not
reached (`segment_create_spec`).
-/

namespace OsModel.KernelMemory

open Lib Span

variable {s : State} {pid segmentId size : UInt32} {pcb : Pcb}

/-- The bytes that the segments occupy. -/
def usedSpace (s : State) : Nat := totalSize ((allSegments s).map HeapSegment.span)

/-- The bytes that they leave. -/
def freeSpace (s : State) : Nat := s.totalMemorySize.toNat - usedSpace s

/-- Every segment ends at the address or before it, and it is where the last one ends. -/
def EndsAt (s : State) (address : Nat) : Prop :=
  (∀ seg ∈ allSegments s, seg.span.stop ≤ address) ∧
    (address = 0 ∨ ∃ seg ∈ allSegments s, seg.span.stop = address)

/-! ### Free space -/

/-- The holes add up to the free space. -/
theorem totalSize_holes (sound : Sound s) :
    totalSize ((getFreeHoles s).map Hole.span) = freeSpace s ∧
      usedSpace s ≤ s.totalMemorySize.toNat := by
  have sum := totalSize_gaps (occupied_ordered sound.placed)
  rw [← getFreeHoles_spans sound.placed, totalSize_perm (perm_occupied s)] at sum
  have used : totalSize ((allSegments s).map HeapSegment.span) = usedSpace s := rfl
  unfold freeSpace
  omega

theorem getFreeHoles_sorted (sound : Sound s) :
    (getFreeHoles s).Pairwise fun a b => a.base ≤ b.base := by
  have ordered := gaps_ordered (occupied_ordered sound.placed)
  rw [← getFreeHoles_spans sound.placed] at ordered
  refine (List.pairwise_map.mp ordered.sorted).imp fun {a b} before => ?_
  rw [UInt32.le_iff_toNat_le]
  simp only [Hole.span, stop] at before
  omega

/-- `total_free_space` does not wrap. -/
theorem foldl_holes_toNat (holes : List Hole) (start : UInt32)
    (fits : start.toNat + totalSize (holes.map Hole.span) < 2 ^ 32) :
    (holes.foldl (fun total hole => total + hole.size) start).toNat =
      start.toNat + totalSize (holes.map Hole.span) := by
  induction holes generalizing start with
  | nil => rfl
  | cons hole rest ih =>
      rw [List.map_cons, totalSize_cons] at fits ⊢
      have size : hole.span.size = hole.size.toNat := rfl
      have next : (start + hole.size).toNat = start.toNat + hole.size.toNat := by
        rw [UInt32.toNat_add]
        exact Nat.mod_eq_of_lt (by omega)
      rw [List.foldl_cons, ih _ (by omega), next]
      omega

theorem totalFreeSpace_toNat (sound : Sound s) :
    (totalFreeSpace (getFreeHoles s)).toNat = freeSpace s := by
  obtain ⟨sum, le⟩ := totalSize_holes sound
  have bound := s.totalMemorySize.toNat_lt
  rw [totalFreeSpace, foldl_holes_toNat _ 0 (by rw [sum]; simp [freeSpace]; omega), sum]
  simp

theorem totalFreeSpace_lt_iff (sound : Sound s) :
    totalFreeSpace (getFreeHoles s) < size ↔ freeSpace s < size.toNat := by
  rw [UInt32.lt_iff_toNat_lt, totalFreeSpace_toNat sound]

/-! ### After a compaction -/

theorem allSegments_compactMemory (sound : Sound s) :
    allSegments (compactMemory s) = (allSegments s).map (compacted s) := by
  obtain ⟨d, moved, -⟩ := compactMemory_spec sound
  rw [moved, allSegments_map]

theorem totalMemorySize_compactMemory (sound : Sound s) :
    (compactMemory s).totalMemorySize = s.totalMemorySize ∧
      (compactMemory s).allocationStrategy = s.allocationStrategy := by
  obtain ⟨d, moved, -⟩ := compactMemory_spec sound
  rw [moved]
  exact ⟨rfl, rfl⟩

theorem totalSize_sortedSegments (s : State) :
    totalSize ((sortedSegments s).map HeapSegment.span) = usedSpace s :=
  totalSize_perm ((perm_sortedSegments s).map HeapSegment.span)

/-- The segments lie back to back from address zero. -/
theorem spans_compactMemory (sound : Sound s) :
    ((allSegments (compactMemory s)).map HeapSegment.span).Perm
      (pack 0 ((sortedSegments s).map HeapSegment.span)) := by
  have fits := (totalSize_holes sound).2
  have bound := s.totalMemorySize.toNat_lt
  have spans := packSegments_spans 0 (sortedSegments s)
    (by rw [totalSize_sortedSegments]; simp; omega)
  rw [allSegments_compactMemory sound, ← show (0 : UInt32).toNat = 0 from rfl, ← spans]
  exact (compacted_perm sound).map HeapSegment.span

/-- The last segment ends where the used space ends. -/
theorem endsAt_compactMemory (sound : Sound s) : EndsAt (compactMemory s) (usedSpace s) := by
  have perm := spans_compactMemory sound
  have packed : Ordered 0 (pack 0 ((sortedSegments s).map HeapSegment.span)) (usedSpace s) :=
    pack_ordered (by rw [totalSize_sortedSegments]; omega)
  constructor
  · intro seg mem
    exact (packed.mem_bounds (perm.mem_iff.mp (List.mem_map_of_mem mem))).2
  · by_cases none : (sortedSegments s).map HeapSegment.span = []
    · left
      rw [← totalSize_sortedSegments, none]
      rfl
    · right
      obtain ⟨last, mem, stop_eq⟩ := exists_stop_pack 0 none
      obtain ⟨seg, there, rfl⟩ := List.mem_map.mp (perm.mem_iff.mpr mem)
      rw [totalSize_sortedSegments, Nat.zero_add] at stop_eq
      exact ⟨seg, there, stop_eq⟩

/-- The free space is one hole behind the last segment. -/
theorem getFreeHoles_compactMemory (sound : Sound s) :
    (getFreeHoles (compactMemory s)).map Hole.span =
      gap (usedSpace s) s.totalMemorySize.toNat := by
  have sound' := compactMemory_sound sound
  have total := (totalMemorySize_compactMemory sound).1
  have fits := (totalSize_holes sound).2
  have ordered := occupied_ordered sound'.placed
  have sorted : (sortByBase Hole.base (occupied (compactMemory s))).map Hole.span =
      pack 0 ((sortedSegments s).map HeapSegment.span) := by
    have perm := perm_occupied (compactMemory s)
    refine ordered.eq_of_perm ?_ ?_ (perm.trans (spans_compactMemory sound))
    · rw [total]
      exact pack_ordered (by rw [totalSize_sortedSegments]; omega)
    · intro sp mem
      obtain ⟨seg, there, rfl⟩ := List.mem_map.mp (perm.mem_iff.mp mem)
      exact sound'.placed.sized seg there
  rw [getFreeHoles_spans sound'.placed, sorted, gaps_pack, totalSize_sortedSegments, total, Nat.zero_add]

/-- A compaction makes room: the segment goes right behind the last one. -/
theorem selectHole_compactMemory (sound : Sound s) (sized : 0 < size)
    (room : size.toNat ≤ freeSpace s) :
    ∃ hole, selectHole (compactMemory s).allocationStrategy (getFreeHoles (compactMemory s)) size =
      some hole ∧ hole.base.toNat = usedSpace s := by
  have positive := UInt32.lt_iff_toNat_lt.mp sized
  have holes := getFreeHoles_compactMemory sound
  unfold freeSpace at room
  rw [gap, if_pos (by omega)] at holes
  obtain ⟨hole, only, span⟩ := List.map_eq_singleton_iff.mp holes
  obtain ⟨base, length⟩ : hole.base.toNat = usedSpace s ∧
      hole.size.toNat = s.totalMemorySize.toNat - usedSpace s := by
    simpa [Hole.span] using span
  have enough : size ≤ hole.size := by
    rw [UInt32.le_iff_toNat_le]
    omega
  obtain ⟨chosen, selected⟩ := Option.isSome_iff_exists.mp
    (selectHole_isSome.mpr ⟨hole, only ▸ List.mem_singleton_self hole, enough⟩ :
      (selectHole (compactMemory s).allocationStrategy (getFreeHoles (compactMemory s))
        size).isSome)
  have there := (selectHole_mem selected).1
  rw [only] at there
  obtain rfl := List.mem_singleton.mp there
  exact ⟨chosen, selected, base⟩

/-! ### The whole request -/

theorem segmentInHole_found (found : findPcb s pid = some pcb) (chosen : Hole) :
    segmentInHole s pid segmentId size chosen =
      (.segmentOk, addSegments s pid [⟨segmentId, size, chosen.base⟩]) := by
  rw [segmentInHole, found]

/-- A request is refused exactly when the free space is too small, and then nothing changes.
Otherwise it succeeds: in the hole that the strategy chooses, with nothing moved, if a hole is
big enough; and right behind the last segment, after one compaction, if none is. -/
theorem segment_create_spec (sound : Sound s) (found : findPcb s pid = some pcb)
    (sized : 0 < size) :
    ((segmentCreate s pid segmentId size).1 = .segmentNoSpace ↔ freeSpace s < size.toNat) ∧
      (freeSpace s < size.toNat → (segmentCreate s pid segmentId size).2 = s) ∧
      (size.toNat ≤ freeSpace s →
        (segmentCreate s pid segmentId size).1 = .segmentOk ∧
        ((∃ hole ∈ getFreeHoles s, size ≤ hole.size) →
          ∃ hole, Chosen s.allocationStrategy (getFreeHoles s) size hole ∧
            (segmentCreate s pid segmentId size).2 =
              addSegments s pid [⟨segmentId, size, hole.base⟩]) ∧
        ((∀ hole ∈ getFreeHoles s, hole.size < size) →
          ∃ base : UInt32, EndsAt (compactMemory s) base.toNat ∧
            (segmentCreate s pid segmentId size).2 =
              addSegments (compactMemory s) pid [⟨segmentId, size, base⟩])) := by
  by_cases small : freeSpace s < size.toNat
  · have refused : segmentCreate s pid segmentId size = (.segmentNoSpace, s) := by
      rw [segmentCreate]
      exact if_pos ((totalFreeSpace_lt_iff sound).mpr small)
    rw [refused]
    exact ⟨iff_of_true rfl small, fun _ => rfl, fun room => absurd small (by omega)⟩
  · have room : size.toNat ≤ freeSpace s := by omega
    have enough : ¬ totalFreeSpace (getFreeHoles s) < size :=
      fun lt => small ((totalFreeSpace_lt_iff sound).mp lt)
    cases selected : selectHole s.allocationStrategy (getFreeHoles s) size with
    | some chosen =>
        have created : segmentCreate s pid segmentId size =
            (.segmentOk, addSegments s pid [⟨segmentId, size, chosen.base⟩]) := by
          simp only [segmentCreate, if_neg enough, selected]
          exact segmentInHole_found found chosen
        have choice := selectHole_chosen (getFreeHoles_sorted sound) selected
        rw [created]
        refine ⟨iff_of_false (by simp) small, fun lt => absurd lt small, fun _ => ⟨rfl, ?_, ?_⟩⟩
        · exact fun _ => ⟨chosen, choice, rfl⟩
        · intro none
          exact absurd choice.enough (UInt32.not_le.mpr (none chosen choice.mem))
    | none =>
        obtain ⟨hole, again, base⟩ := selectHole_compactMemory sound sized room
        have there : findPcb (compactMemory s) pid = some (mapTable (compacted s) pcb) := by
          rw [compactMemory_findPcb sound, found]
          rfl
        have created : segmentCreate s pid segmentId size =
            (.segmentOk, addSegments (compactMemory s) pid [⟨segmentId, size, hole.base⟩]) := by
          simp only [segmentCreate, if_neg enough, selected, again]
          exact segmentInHole_found there hole
        rw [created]
        refine ⟨iff_of_false (by simp) small, fun lt => absurd lt small, fun _ => ⟨rfl, ?_, ?_⟩⟩
        · intro big
          have some : (selectHole s.allocationStrategy (getFreeHoles s) size).isSome :=
            selectHole_isSome.mpr big
          rw [selected] at some
          cases some
        · refine fun _ => ⟨hole.base, ?_, rfl⟩
          rw [base]
          exact endsAt_compactMemory sound

/-- Six bytes are free, in holes of four and of two, and a segment of five is created. -/
theorem segment_create_spec_of_fragments :
    ∃ s : State, (∀ hole ∈ getFreeHoles s, hole.size < 5) ∧
      (segmentCreate s 1 2 5).1 = .segmentOk ∧
      ∃ base : UInt32, EndsAt (compactMemory s) base.toNat ∧
        (segmentCreate s 1 2 5).2 = addSegments (compactMemory s) 1 [⟨2, 5, base⟩] := by
  obtain ⟨s, run, test⟩ := Run.exists_of_exec step (fun s op => op.Placing s)
    [.connectStick 0 10, .processCreate 1 (some []), .segmentCreate 1 0 4, .segmentCreate 1 1 4,
      .segmentDelete 1 0]
    (initial .worst 4 16 (fun _ _ => 0) [] fun _ => 0)
    (fun s => (findPcb s 1).isSome ∧ freeSpace s = 6 ∧ ∀ hole ∈ getFreeHoles s, hole.size < 5)
    (by decide)
  obtain ⟨found, free, small⟩ := decide_eq_true_eq.mp test
  obtain ⟨pcb, found⟩ := Option.isSome_iff_exists.mp found
  have sound := sound_of_run (initial_sound ..) run
  obtain ⟨-, -, created⟩ := @segment_create_spec s 1 2 5 pcb sound found (by decide)
  obtain ⟨ok, -, moved⟩ := created (by rw [free]; decide)
  exact ⟨s, small, ok, moved small⟩

end OsModel.KernelMemory
