import OsModel.KernelMemory.Threads

/-!
A compaction under way, seen from the tables.

`Moving` is its invariant: the segments still to pass lie in order above the
cursor, and no other segment is in the range they are going to fill. One segment
passed (`Moving.passed`) leaves a smaller range to fill; the locked part of the
loop (`scan_spec`) only passes segments that are in place.
-/

namespace OsModel.KernelMemory

open Lib Span

/-! ### Segments through pointers -/

section Pointers

variable {s : State} {ptr : Nat} {seg : HeapSegment} {todo : List Nat} {cursor : UInt32}

theorem segmentAt_mem (found : segmentAt s ptr = some seg) : seg ∈ allSegments s ∧ seg.ptr = ptr :=
  ⟨List.mem_of_find?_eq_some found, by simpa using List.find?_some found⟩

theorem eq_of_ptr (sound : Sound s) {other : HeapSegment} (mem : seg ∈ allSegments s)
    (among : other ∈ allSegments s) (same : other.ptr = seg.ptr) : other = seg :=
  List.inj_on_of_nodup_map sound.distinct among mem same

theorem segmentAt_eq (sound : Sound s) (mem : seg ∈ allSegments s) :
    segmentAt s seg.ptr = some seg := by
  cases found : segmentAt s seg.ptr with
  | none =>
      have absent := List.find?_eq_none.mp found seg mem
      simp at absent
  | some other =>
      obtain ⟨among, same⟩ := segmentAt_mem found
      rw [eq_of_ptr sound mem among same]

/-- The compaction that has the segments `todo` still to pass. -/
structure Moving (s : State) (todo : List Nat) (cursor : UInt32) : Prop where
  alive : ∀ ptr ∈ todo, (segmentAt s ptr).isSome
  once : todo.Nodup
  ordered : Ordered cursor.toNat ((pointed s todo).map HeapSegment.span) s.totalMemorySize.toNat
  clear : ∀ seg ∈ allSegments s, seg.ptr ∉ todo → (destination s todo cursor).Apart seg.span

/-- The segment at hand. -/
structure AtHand (s : State) (seg : HeapSegment) (rest : List Nat) (cursor : UInt32) : Prop where
  found : segmentAt s seg.ptr = some seg
  mem : seg ∈ allSegments s
  down : cursor.toNat ≤ seg.base.toNat
  top : seg.span.stop ≤ s.totalMemorySize.toNat
  next : (cursor + seg.size).toNat = cursor.toNat + seg.size.toNat
  later : Ordered seg.span.stop ((pointed s rest).map HeapSegment.span) s.totalMemorySize.toNat
  whole : destination s (seg.ptr :: rest) cursor =
    ⟨cursor.toNat, seg.size.toNat + totalSize ((pointed s rest).map HeapSegment.span)⟩

theorem Moving.atHand {rest : List Nat} (moving : Moving s (ptr :: rest) cursor) :
    ∃ seg, seg.ptr = ptr ∧ AtHand s seg rest cursor := by
  obtain ⟨seg, found⟩ := Option.isSome_iff_exists.mp (moving.alive ptr List.mem_cons_self)
  obtain ⟨mem, rfl⟩ := segmentAt_mem found
  have split : pointed s (seg.ptr :: rest) = seg :: pointed s rest := by
    simp [pointed, found]
  have ordered := moving.ordered
  rw [split, List.map_cons] at ordered
  obtain ⟨down, later⟩ := ordered
  have top := later.le_top
  have bound := s.totalMemorySize.toNat_lt
  refine ⟨seg, rfl, found, mem, down, top, ?_, later, ?_⟩
  · simp only [HeapSegment.span, stop] at down top
    rw [UInt32.toNat_add]
    omega
  · rw [destination, split, List.map_cons, totalSize_cons]
    rfl

/-- The segment at hand goes where no other segment is. -/
theorem Moving.apart_of_ne (sound : Sound s) {rest : List Nat}
    (moving : Moving s (seg.ptr :: rest) cursor) (hand : AtHand s seg rest cursor)
    {other : HeapSegment} (mem : other ∈ allSegments s) (ne : other.ptr ≠ seg.ptr) :
    Apart ⟨cursor.toNat, seg.size.toNat⟩ other.span := by
  have down := hand.down
  by_cases later : other.ptr ∈ rest
  · have among : other ∈ pointed s rest :=
      List.mem_filterMap.mpr ⟨other.ptr, later, segmentAt_eq sound mem⟩
    have above := (hand.later.mem_bounds (List.mem_map_of_mem among)).1
    left
    simp only [HeapSegment.span, stop] at *
    omega
  · have clear := moving.clear other mem (by simp [ne, later])
    rw [hand.whole] at clear
    refine clear.of_subset ⟨le_refl _, ?_⟩ ⟨le_refl _, le_refl _⟩
    simp only [stop]
    omega

/-- The destination of what is left once the segment at hand is passed. -/
theorem AtHand.shrinks {rest : List Nat} (hand : AtHand s seg rest cursor) :
    (destination s (seg.ptr :: rest) cursor).base ≤
        (destination s rest (cursor + seg.size)).base ∧
      (destination s rest (cursor + seg.size)).stop ≤
        (destination s (seg.ptr :: rest) cursor).stop := by
  rw [hand.whole]
  simp only [destination, stop, hand.next]
  omega

/-- The segment at hand, once it is moved, is below what is left. -/
theorem AtHand.below {rest : List Nat} (hand : AtHand s seg rest cursor) :
    Apart (destination s rest (cursor + seg.size)) ⟨cursor.toNat, seg.size.toNat⟩ := by
  right
  simp only [destination, stop, hand.next]
  omega

/-- A compaction stays inside the memory. -/
theorem Moving.inside (moving : Moving s todo cursor) :
    (destination s todo cursor).stop ≤ s.totalMemorySize.toNat := by
  have sum := totalSize_gaps moving.ordered
  have le := moving.ordered.le_top
  simp only [destination, stop]
  omega

end Pointers

/-! ### One segment passed -/

section Passed

variable {s : State} {seg : HeapSegment} {rest : List Nat} {cursor : UInt32}

theorem allSegments_setBase (s : State) (ptr : Nat) (base : UInt32) :
    allSegments (setBase s ptr base) = (allSegments s).map (moveTo ptr base) :=
  allSegments_map s (moveTo ptr base) s.devices

/-- Writing a base that is there already changes nothing. -/
theorem setBase_self (sound : Sound s) (mem : seg ∈ allSegments s) :
    setBase s seg.ptr seg.base = s := by
  have fixed : ∀ other ∈ allSegments s, moveTo seg.ptr seg.base other = other := by
    intro other among
    by_cases same : other.ptr = seg.ptr
    · rw [eq_of_ptr sound mem among same, moveTo, if_pos rfl]
    · exact moveTo_of_ne same
  rw [setBase, map_mapTable_id fixed]

theorem segmentAt_setBase (s : State) (ptr ptr' : Nat) (base : UInt32) :
    segmentAt (setBase s ptr base) ptr' = (segmentAt s ptr').map (moveTo ptr base) := by
  rw [segmentAt, allSegments_setBase, List.find?_map]
  simp only [segmentAt, Function.comp_def, moveTo_ptr]

/-- Where the segments are after the one at hand has moved. -/
theorem setBase_segments (sound : Sound s) (mem : seg ∈ allSegments s) (base : UInt32) :
    ∃ others, (allSegments s).Perm (seg :: others) ∧
      (allSegments (setBase s seg.ptr base)).Perm ({ seg with base := base } :: others) ∧
      ∀ other ∈ others, other.ptr ≠ seg.ptr := by
  obtain ⟨before, after, split⟩ := List.append_of_mem mem
  have distinct := sound.distinct
  rw [split, List.map_append, List.map_cons, List.nodup_middle, List.nodup_cons] at distinct
  have apart : ∀ other ∈ before ++ after, other.ptr ≠ seg.ptr := by
    intro other among same
    refine distinct.1 ?_
    rw [← same, ← List.map_append]
    exact List.mem_map_of_mem among
  have fixed : ∀ l : List HeapSegment, (∀ other ∈ l, other ∈ before ++ after) →
      l.map (moveTo seg.ptr base) = l := fun l sub =>
    (List.map_congr_left fun other among => moveTo_of_ne (apart other (sub other among))).trans
      (List.map_id _)
  refine ⟨before ++ after, split ▸ List.perm_middle, ?_, apart⟩
  rw [allSegments_setBase, split, List.map_append, List.map_cons,
    fixed before fun _ => List.mem_append_left _, fixed after fun _ => List.mem_append_right _,
    moveTo, if_pos rfl]
  exact List.perm_middle

/-- Moving the segment at hand keeps the invariant. -/
theorem Moving.setBase_sound (sound : Sound s) (moving : Moving s (seg.ptr :: rest) cursor)
    (hand : AtHand s seg rest cursor) : Sound (setBase s seg.ptr cursor) := by
  obtain ⟨others, before, after, apart⟩ := setBase_segments sound hand.mem cursor
  have placed := (sound.placed.of_perm before).of_sublist (List.sublist_cons_self seg others)
  have source := hand.top
  have down := hand.down
  have here : Placed s.totalMemorySize.toNat [{ seg with base := cursor }] := by
    refine ⟨List.pairwise_singleton .., ?_, ?_⟩
    · rintro moved mem
      obtain rfl := List.mem_singleton.mp mem
      simp only [HeapSegment.span, stop] at *
      omega
    · rintro moved mem
      obtain rfl := List.mem_singleton.mp mem
      exact sound.placed.sized seg hand.mem
  refine ⟨?_, sound.total, sound.suspendedSized, fun moved mem => ?_, ?_⟩
  · refine Placed.of_perm (Placed.append_iff.mpr ⟨here, placed, ?_⟩) after.symm
    rintro moved mem other among
    obtain rfl := List.mem_singleton.mp mem
    exact moving.apart_of_ne sound hand
      (before.mem_iff.mpr (List.mem_cons_of_mem _ among)) (apart other among)
  · rw [allSegments_setBase] at mem
    obtain ⟨old, old_mem, rfl⟩ := List.mem_map.mp mem
    rw [moveTo_ptr]
    exact sound.allocated old old_mem
  · rw [allSegments_setBase, List.map_map, show HeapSegment.ptr ∘ moveTo seg.ptr cursor =
      HeapSegment.ptr from funext fun other => moveTo_ptr ..]
    exact sound.distinct

/-- The compaction after the segment at hand has moved. -/
theorem Moving.passed (sound : Sound s) (moving : Moving s (seg.ptr :: rest) cursor)
    (hand : AtHand s seg rest cursor) :
    Moving (setBase s seg.ptr cursor) rest (cursor + seg.size) ∧
      destination (setBase s seg.ptr cursor) rest (cursor + seg.size) =
        destination s rest (cursor + seg.size) := by
  obtain ⟨out, once⟩ := List.nodup_cons.mp moving.once
  have same : ∀ ptr ∈ rest, segmentAt (setBase s seg.ptr cursor) ptr = segmentAt s ptr := by
    intro ptr mem
    obtain ⟨other, found⟩ := Option.isSome_iff_exists.mp
      (moving.alive ptr (List.mem_cons_of_mem _ mem))
    obtain ⟨-, rfl⟩ := segmentAt_mem found
    rw [segmentAt_setBase, found, Option.map_some,
      moveTo_of_ne fun eq : other.ptr = seg.ptr => out (eq ▸ mem)]
  have pointed_eq : pointed (setBase s seg.ptr cursor) rest = pointed s rest :=
    List.filterMap_congr same
  have destination_eq : destination (setBase s seg.ptr cursor) rest (cursor + seg.size) =
      destination s rest (cursor + seg.size) := by
    rw [destination, destination, pointed_eq]
  obtain ⟨low, high⟩ := hand.shrinks
  refine ⟨⟨fun ptr mem => ?_, once, ?_, fun other mem later => ?_⟩, destination_eq⟩
  · rw [same ptr mem]
    exact moving.alive ptr (List.mem_cons_of_mem _ mem)
  · rw [pointed_eq, hand.next]
    refine hand.later.mono_start ?_
    have := hand.down
    simp only [HeapSegment.span, stop]
    omega
  · rw [destination_eq]
    rw [allSegments_setBase] at mem
    obtain ⟨old, old_mem, rfl⟩ := List.mem_map.mp mem
    by_cases eq : old.ptr = seg.ptr
    · obtain rfl := eq_of_ptr sound hand.mem old_mem eq
      rw [moveTo, if_pos rfl]
      exact hand.below
    · rw [moveTo_of_ne eq] at later ⊢
      exact (moving.clear old old_mem (by simp [eq, later])).of_subset ⟨low, high⟩
        ⟨le_refl _, le_refl _⟩

/-- The locked part of the loop passes the segments in place and stops at the
next one to copy. -/
theorem scan_spec {todo : List Nat} (sound : Sound s) (moving : Moving s todo cursor) :
    scan s todo cursor = some .retrying ∨
      ∃ todo' cursor', scan s todo cursor = some (.reading todo' cursor') ∧ todo' ≠ [] ∧
        Moving s todo' cursor' ∧
        (destination s todo cursor).base ≤ (destination s todo' cursor').base ∧
        (destination s todo' cursor').stop ≤ (destination s todo cursor).stop := by
  induction todo generalizing cursor with
  | nil => exact .inl rfl
  | cons ptr rest ih =>
      obtain ⟨seg, rfl, hand⟩ := moving.atHand
      rw [scan, hand.found]
      by_cases moves : seg.base ≠ cursor
      · simp only [if_pos moves]
        exact .inr ⟨_, _, rfl, by simp, moving, le_refl _, le_refl _⟩
      · simp only [if_neg moves]
        obtain rfl : seg.base = cursor := not_not.mp moves
        obtain ⟨low, high⟩ := hand.shrinks
        obtain ⟨passed, -⟩ := moving.passed sound hand
        rw [setBase_self sound hand.mem] at passed
        rcases ih passed with done | ⟨todo', cursor', eq, nonempty, moving', low', high'⟩
        · exact .inl done
        · exact .inr ⟨todo', cursor', eq, nonempty, moving', low.trans low', high'.trans high⟩

/-- A compaction about to start. -/
theorem moving_sortedSegments (sound : Sound s) :
    pointed s ((sortedSegments s).map HeapSegment.ptr) = sortedSegments s ∧
      Moving s ((sortedSegments s).map HeapSegment.ptr) 0 := by
  have perm := perm_sortedSegments s
  have found : ∀ seg ∈ sortedSegments s, segmentAt s seg.ptr = some seg := fun seg mem =>
    segmentAt_eq sound (perm.mem_iff.mp mem)
  have pointed_eq : pointed s ((sortedSegments s).map HeapSegment.ptr) = sortedSegments s := by
    rw [pointed, List.filterMap_map]
    exact (List.filterMap_congr found).trans (List.filterMap_some ..)
  refine ⟨pointed_eq, fun ptr mem => ?_, ?_, ?_, fun seg mem out => ?_⟩
  · obtain ⟨seg, among, rfl⟩ := List.mem_map.mp mem
    rw [found seg among]
    rfl
  · exact (perm.map HeapSegment.ptr).nodup_iff.mpr sound.distinct
  · rw [pointed_eq, sound.total]
    exact sortedSegments_ordered sound
  · exact absurd (List.mem_map_of_mem (perm.mem_iff.mpr mem)) out

end Passed

end OsModel.KernelMemory
