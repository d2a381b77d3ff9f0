import OsModel.KernelMemory.Transparency

/-!
What an operation does to the segments of the processes it is not about.

Only a `segment_create` that compacts gives them other bases (`step_findPcb`), and
not even that one to a segment with no hole below it (`compacted_eq_self`). Their
bytes stay what they are (`step_view`), compaction included as long as the sticks
answer.
-/

namespace OsModel.KernelMemory

open Lib Span

/-- The operation is a `segment_create` that finds enough memory, but no hole. -/
def Op.Compacts (s : State) : Op → Prop
  | .segmentCreate _ _ size =>
      size ≤ totalFreeSpace (getFreeHoles s) ∧
        selectHole s.allocationStrategy (getFreeHoles s) size = none
  | _ => False

instance (s : State) : (op : Op) → Decidable (op.Compacts s)
  | .segmentCreate _ _ size =>
      inferInstanceAs (Decidable (size ≤ totalFreeSpace (getFreeHoles s) ∧
        selectHole s.allocationStrategy (getFreeHoles s) size = none))
  | .processCreate .. | .processEnd _ | .segmentDelete .. | .processSuspend _
  | .processDesuspend _ | .connectStick .. | .ioMemoryWrite .. => .isFalse id

/-- The operation stores data in segments that exist. -/
def Op.Stores : Op → Prop
  | .ioMemoryWrite .. => True
  | _ => False

def segmentTableOf (s : State) (pid : UInt32) : Option (List HeapSegment) :=
  (findPcb s pid).map Pcb.segmentTable

/-- The entries of a process among the suspended ones. -/
def entriesOf (s : State) (pid : UInt32) : List SuspendedPcb :=
  s.listSuspendedProcesses.filter fun sp => sp.pid == pid

/-- The segments lie as low as they can: no hole is below them. -/
def Grounded (s : State) (segs : List HeapSegment) : Prop :=
  ∀ seg ∈ segs, ∀ hole ∈ getFreeHoles s, seg.base ≤ hole.base

instance (s : State) (segs : List HeapSegment) : Decidable (Grounded s segs) := by
  unfold Grounded
  infer_instance

/-! ### Segments that compaction leaves in place -/

section Compacted

variable {s : State}

/-- The moves leave a segment in place when the loop over the holes finds none
below it. -/
theorem relocate_eq_self {cursor total : UInt32} {l : List HeapSegment} {seg : HeapSegment}
    {top : Nat} (distinct : (l.map HeapSegment.ptr).Nodup)
    (ordered : Ordered cursor.toNat (l.map HeapSegment.span) top) (fits : top < 2 ^ 32)
    (mem : seg ∈ l)
    (grounded : ∀ hole ∈ holesFrom total cursor (l.map fun seg => ⟨seg.base, seg.size⟩),
      seg.base ≤ hole.base) : relocate cursor l seg = seg := by
  induction l generalizing cursor with
  | nil => simp at mem
  | cons moved rest ih =>
      rw [List.map_cons, List.nodup_cons] at distinct
      obtain ⟨start, tail⟩ := ordered
      have next : (moved.base + moved.size).toNat = moved.span.stop := by
        have := tail.le_top
        rw [UInt32.toNat_add]
        exact Nat.mod_eq_of_lt (by simp only [HeapSegment.span, stop] at *; omega)
      have above : moved.base ≤ seg.base := by
        rw [UInt32.le_iff_toNat_le]
        rcases List.mem_cons.mp mem with rfl | later
        · exact le_refl _
        · have bounds := tail.mem_bounds (List.mem_map_of_mem later)
          simp only [HeapSegment.span, stop] at bounds
          omega
      simp only [List.map_cons, holesFrom, List.mem_append] at grounded
      have packed : moved.base = cursor := by
        by_contra ne
        have gap : moved.base > cursor := by
          have : moved.base.toNat ≠ cursor.toNat := fun eq => ne (UInt32.toNat_inj.mp eq)
          rw [gt_iff_lt, UInt32.lt_iff_toNat_lt]
          simp only [HeapSegment.span] at start
          omega
        have low := grounded ⟨cursor, moved.base - cursor⟩ (.inl (by simp [gap]))
        rw [gt_iff_lt, UInt32.lt_iff_toNat_lt] at gap
        rw [UInt32.le_iff_toNat_le] at low above
        simp only at low
        omega
      rcases List.mem_cons.mp mem with rfl | later
      · have others : ∀ other ∈ rest, seg.ptr ≠ other.ptr := fun other hother eq =>
          distinct.1 (eq ▸ List.mem_map_of_mem hother)
        rw [relocate, moveTo, if_pos rfl, ← packed, relocate_of_not_mem (by simpa using others)]
      · have ne : seg.ptr ≠ moved.ptr := fun eq => distinct.1 (eq ▸ List.mem_map_of_mem later)
        rw [relocate, moveTo_of_ne ne, ← packed]
        refine ih distinct.2 (by rw [next]; exact tail) later fun hole hhole => ?_
        exact grounded hole (.inr hhole)

/-- Sorting the ranges is sorting the segments. -/
theorem sortByBase_occupied (s : State) :
    sortByBase Hole.base (occupied s) =
      (sortedSegments s).map fun seg => ⟨seg.base, seg.size⟩ := by
  exact (List.map_insertionSort (fun a b : HeapSegment => a.base ≤ b.base)
    (fun a b : Hole => a.base ≤ b.base) _ _ fun _ _ _ _ => Iff.rfl).symm

/-- **Compaction leaves a segment in place** when no hole lies below it. -/
theorem compacted_eq_self (sound : Sound s) {seg : HeapSegment} (mem : seg ∈ allSegments s)
    (grounded : ∀ hole ∈ getFreeHoles s, seg.base ≤ hole.base) : compacted s seg = seg := by
  have perm := perm_sortedSegments s
  rw [getFreeHoles, sortByBase_occupied] at grounded
  exact relocate_eq_self ((perm.map HeapSegment.ptr).nodup_iff.mpr sound.distinct)
    (sortedSegments_ordered sound) sound.fits (perm.mem_iff.mpr mem) grounded

end Compacted

/-! ### One operation -/

section Step

variable {s s' : State} {op : Op} {pid other : UInt32}

/-- `segment_create` compacts or not, and records at most one segment. -/
theorem segmentCreate_cases (s : State) (other segmentId size : UInt32) :
    ∃ before, ((Op.segmentCreate other segmentId size).Compacts s → before = compactMemory s) ∧
      (¬ (Op.segmentCreate other segmentId size).Compacts s → before = s) ∧
      ((segmentCreate s other segmentId size).2 = before ∨
        ∃ base, (segmentCreate s other segmentId size).2 =
          addSegments before other [⟨segmentId, size, base⟩]) := by
  have in_hole : ∀ (s : State) (chosen : Hole),
      (segmentInHole s other segmentId size chosen).2 = s ∨
        ∃ base, (segmentInHole s other segmentId size chosen).2 =
          addSegments s other [⟨segmentId, size, base⟩] := by
    intro s chosen
    unfold segmentInHole
    split
    · exact .inl rfl
    · exact .inr ⟨chosen.base, rfl⟩
  simp only [segmentCreate, Op.Compacts]
  by_cases enough : totalFreeSpace (getFreeHoles s) < size
  · rw [if_pos enough]
    exact ⟨s, fun compacts => absurd compacts.1 (UInt32.not_le.mpr enough), fun _ => rfl, .inl rfl⟩
  · rw [if_neg enough]
    cases selected : selectHole s.allocationStrategy (getFreeHoles s) size with
    | some chosen => exact ⟨s, by simp, fun _ => rfl, in_hole s chosen⟩
    | none =>
        refine ⟨compactMemory s, fun _ => rfl, ?_, ?_⟩
        · exact fun fixed => absurd ⟨UInt32.not_lt.mp enough, rfl⟩ fixed
        · simp only
          split
          · exact .inl rfl
          · exact in_hole _ _

theorem findPcb_addSegments {ready : List SegmentReady} (ne : other ≠ pid) :
    findPcb (addSegments s other ready) pid = findPcb s pid :=
  findPcb_updatePcb_other (s := { s with nextPtr := s.nextPtr + ready.length }) (fun _ => rfl) ne

/-- An operation that does not compact leaves the other processes alone. -/
theorem step_findPcb (sound : Sound s) (ne : op.pid ≠ some pid) (fixed : ¬ op.Compacts s)
    (taken : step s op = some s') : findPcb s' pid = findPcb s pid := by
  cases op with
  | processCreate other instructions =>
      obtain rfl := Option.some.inj taken
      have ne' : other ≠ pid := fun eq => ne (congrArg some eq)
      cases instructions with
      | none => rfl
      | some instructions => simp [findPcb, processCreate, List.find?_append, ne']
  | processEnd other =>
      obtain rfl := Option.some.inj taken
      refine find?_eraseP_other (fun pcb here => ?_) _
      rw [beq_iff_eq] at here
      rw [beq_eq_false_iff_ne, here]
      exact fun eq => ne (congrArg some eq)
  | segmentCreate other segmentId size =>
      obtain rfl := Option.some.inj taken
      obtain ⟨before, -, eq, same | ⟨base, added⟩⟩ := segmentCreate_cases s other segmentId size
      · rw [same, eq fixed]
      · rw [added, eq fixed, findPcb_addSegments fun eq => ne (congrArg some eq)]
  | segmentDelete other segmentId =>
      obtain rfl := Option.some.inj taken
      have ne' : other ≠ pid := fun eq => ne (congrArg some eq)
      simp only [segmentDelete]
      split
      · rfl
      · split
        · rfl
        · split
          · rfl
          · exact findPcb_updatePcb_other (fun _ => rfl) ne'
  | processSuspend other =>
      obtain ⟨⟨ok, s''⟩, called, rfl⟩ := Option.map_eq_some_iff.mp taken
      obtain ⟨-, d, -, rfl⟩ | ⟨-, pcb, suspended, d, done⟩ := processSuspend_cases called
      · rfl
      · rw [done.result]
        exact findPcb_updatePcb_other (s := { s with devices := d })
          (f := fun pcb => { pcb with segmentTable := [] }) (fun _ => rfl)
          fun eq => ne (congrArg some eq)
  | processDesuspend other =>
      obtain rfl := Option.some.inj taken
      obtain ⟨-, d, -, eq⟩ | ⟨-, sp, pcb, ready, d, done⟩ :=
        processDesuspend_cases sound (Prod.mk.eta (p := processDesuspend s other)).symm
      · rw [eq]
        rfl
      · rw [done.result]
        exact findPcb_addSegments (s := { s with devices := d }) fun eq => ne (congrArg some eq)
  | connectStick id size =>
      obtain rfl := Option.some.inj taken
      rfl
  | ioMemoryWrite other physicalAddress size rawData =>
      obtain rfl := Option.some.inj taken
      rfl

/-- No operation but a compaction or a write changes the bytes of a segment. -/
theorem step_bytes (sound : Sound s) (fixed : ¬ op.Compacts s) (quiet : ¬ op.Stores)
    (taken : step s op = some s') {seg : HeapSegment} (mem : seg ∈ allSegments s) :
    segmentBytes s' seg = segmentBytes s seg := by
  cases op with
  | processCreate other instructions =>
      obtain rfl := Option.some.inj taken
      cases instructions <;> rfl
  | processEnd other =>
      obtain rfl := Option.some.inj taken
      rfl
  | segmentCreate other segmentId size =>
      obtain rfl := Option.some.inj taken
      obtain ⟨before, -, eq, same | ⟨base, added⟩⟩ := segmentCreate_cases s other segmentId size
      · rw [same, eq fixed]
      · rw [added, eq fixed]
        rfl
  | segmentDelete other segmentId =>
      obtain rfl := Option.some.inj taken
      simp only [segmentDelete]
      split
      · rfl
      · split
        · rfl
        · split <;> rfl
  | processSuspend other =>
      obtain ⟨⟨ok, s''⟩, called, rfl⟩ := Option.map_eq_some_iff.mp taken
      obtain ⟨-, d, only, rfl⟩ | ⟨-, pcb, suspended, d, done⟩ := processSuspend_cases called
      · simp only [segmentBytes, only.sticks]
      · simp only [done.result, segmentBytes, updatePcb, done.only.sticks]
  | processDesuspend other =>
      obtain rfl := Option.some.inj taken
      obtain ⟨-, d, only, eq⟩ | ⟨-, sp, pcb, ready, d, done⟩ :=
        processDesuspend_cases sound (Prod.mk.eta (p := processDesuspend s other)).symm
      · rw [eq]
        exact only.resident sound mem
      · rw [done.result]
        exact done.only.resident sound mem
  | connectStick id size =>
      obtain rfl := Option.some.inj taken
      simp only [segmentBytes, connectStick, flat_append]
      refine slice_append_left ?_
      have inside := sound.placed.inside seg mem
      rw [length_flat, ← sound.total]
      exact inside
  | ioMemoryWrite => exact absurd trivial quiet

/-- A compaction gives the segments of a process new bases. -/
theorem compactMemory_findPcb (sound : Sound s) (pid : UInt32) :
    findPcb (compactMemory s) pid = (findPcb s pid).map (mapTable (compacted s)) := by
  obtain ⟨d, moved, -⟩ := compactMemory_spec sound
  rw [moved]
  simp only [findPcb, List.find?_map]
  rfl

/-- The bytes of a segment move with it, when the sticks answer. -/
theorem compactMemory_segmentBytes (sound : Sound s) (none : s.devices.refusals = [])
    {seg : HeapSegment} (mem : seg ∈ allSegments s) :
    segmentBytes (compactMemory s) (compacted s seg) = segmentBytes s seg := by
  obtain ⟨d, moved, -, -, bytes⟩ := compactMemory_spec sound
  rw [← (bytes none).2 seg mem, moved, segmentBytes, compacted, (relocate_keeps _ _ seg).2.1]

/-- What a compaction, and the segment recorded after it, do to another process. -/
theorem step_compacts (sound : Sound s) (ne : op.pid ≠ some pid) (compacts : op.Compacts s)
    (taken : step s op = some s') :
    findPcb s' pid = (findPcb s pid).map (mapTable (compacted s)) ∧
      (s.devices.refusals = [] → ∀ seg ∈ allSegments s,
        segmentBytes s' (compacted s seg) = segmentBytes s seg) := by
  cases op with
  | segmentCreate other segmentId size =>
      obtain rfl := Option.some.inj taken
      have compaction : findPcb (compactMemory s) pid =
            (findPcb s pid).map (mapTable (compacted s)) ∧
          (s.devices.refusals = [] → ∀ seg ∈ allSegments s,
            segmentBytes (compactMemory s) (compacted s seg) = segmentBytes s seg) :=
        ⟨compactMemory_findPcb sound pid, fun none _ mem =>
          compactMemory_segmentBytes sound none mem⟩
      obtain ⟨before, eq, -, same | ⟨base, added⟩⟩ := segmentCreate_cases s other segmentId size
      · rw [same, eq compacts]
        exact compaction
      · rw [added, eq compacts, findPcb_addSegments fun eq => ne (congrArg some eq)]
        exact compaction
  | processCreate | processEnd | segmentDelete | processSuspend | processDesuspend | connectStick
  | ioMemoryWrite => exact compacts.elim

/-- An operation on others leaves the segments of a process where they are, if it
does not compact or the segments are grounded. -/
theorem step_segmentTableOf (sound : Sound s) (ne : op.pid ≠ some pid)
    (grounded : op.Compacts s → ∀ pcb, findPcb s pid = some pcb → Grounded s pcb.segmentTable)
    (taken : step s op = some s') : segmentTableOf s' pid = segmentTableOf s pid := by
  by_cases compacts : op.Compacts s
  · rw [segmentTableOf, (step_compacts sound ne compacts taken).1, segmentTableOf, Option.map_map]
    cases found : findPcb s pid with
    | none => rfl
    | some pcb =>
        have fixed : pcb.segmentTable.map (compacted s) = pcb.segmentTable := by
          refine (List.map_congr_left fun seg mem => ?_).trans (List.map_id _)
          refine compacted_eq_self sound ?_ (grounded compacts pcb found seg mem)
          exact List.mem_flatMap.mpr ⟨pcb, List.mem_of_find?_eq_some found, mem⟩
        simp [mapTable, fixed]
  · rw [segmentTableOf, step_findPcb sound ne compacts taken, segmentTableOf]

/-- **What a process has in memory does not depend on the operations of others**,
as long as their compactions are answered. -/
theorem step_processView (sound : Sound s) (ne : op.pid ≠ some pid) (quiet : ¬ op.Stores)
    (answered : op.Compacts s → s.devices.refusals = []) (taken : step s op = some s') :
    processView s' pid = processView s pid := by
  have resident : ∀ {pcb}, findPcb s pid = some pcb → ∀ seg ∈ pcb.segmentTable,
      seg ∈ allSegments s := fun found seg mem =>
    List.mem_flatMap.mpr ⟨_, List.mem_of_find?_eq_some found, mem⟩
  by_cases compacts : op.Compacts s
  · obtain ⟨found', bytes⟩ := step_compacts sound ne compacts taken
    rw [processView, found', processView, Option.map_map]
    refine Option.map_congr fun pcb found => ?_
    simp only [Function.comp_apply, mapTable, List.map_map]
    refine List.map_congr_left fun seg mem => ?_
    have keeps := relocate_keeps 0 (sortedSegments s) seg
    rw [Function.comp_apply, bytes (answered compacts) seg (resident found seg mem), compacted,
      keeps.2.1, keeps.2.2]
  · rw [processView, step_findPcb sound ne compacts taken, processView]
    refine Option.map_congr fun pcb found => List.map_congr_left fun seg mem => ?_
    rw [step_bytes sound compacts quiet taken (resident found seg mem)]

/-- No operation on others touches the entries of a process. -/
theorem step_entriesOf (sound : Sound s) (ne : op.pid ≠ some pid) (taken : step s op = some s') :
    entriesOf s' pid = entriesOf s pid := by
  cases op with
  | processCreate other instructions =>
      obtain rfl := Option.some.inj taken
      cases instructions <;> rfl
  | processEnd other =>
      obtain rfl := Option.some.inj taken
      rfl
  | segmentCreate other segmentId size =>
      obtain rfl := Option.some.inj taken
      obtain ⟨d, moved, -⟩ := compactMemory_spec sound
      obtain ⟨before, compacted, fixed, eq⟩ := segmentCreate_cases s other segmentId size
      have same : entriesOf before pid = entriesOf s pid := by
        by_cases compacts : (Op.segmentCreate other segmentId size).Compacts s
        · rw [compacted compacts, moved]
          rfl
        · rw [fixed compacts]
      rcases eq with eq | ⟨base, eq⟩
      · rw [eq, same]
      · rw [eq, ← same]
        rfl
  | segmentDelete other segmentId =>
      obtain rfl := Option.some.inj taken
      simp only [segmentDelete]
      split
      · rfl
      · split
        · rfl
        · split <;> rfl
  | processSuspend other =>
      obtain ⟨⟨ok, s''⟩, called, rfl⟩ := Option.map_eq_some_iff.mp taken
      obtain ⟨-, d, -, rfl⟩ | ⟨-, pcb, suspended, d, done⟩ := processSuspend_cases called
      · rfl
      · have ne' : other ≠ pid := fun eq => ne (congrArg some eq)
        simp [entriesOf, done.result, ne']
  | processDesuspend other =>
      obtain rfl := Option.some.inj taken
      obtain ⟨-, d, -, eq⟩ | ⟨-, sp, pcb, ready, d, done⟩ :=
        processDesuspend_cases sound (Prod.mk.eta (p := processDesuspend s other)).symm
      · rw [eq]
        rfl
      · rw [done.result]
        refine filter_eraseP_other (fun sp here => ?_) _
        rw [beq_iff_eq] at here
        rw [beq_eq_false_iff_ne, here]
        exact fun eq => ne (congrArg some eq)
  | connectStick id size =>
      obtain rfl := Option.some.inj taken
      rfl
  | ioMemoryWrite other physicalAddress size rawData =>
      obtain rfl := Option.some.inj taken
      rfl

theorem findSuspended_eq_none : findSuspended s pid = none ↔ entriesOf s pid = [] := by
  simp [findSuspended, entriesOf, List.find?_eq_none, List.filter_eq_nil_iff]

end Step

/-! ### Contents, in memory or in swap -/

section Contents

variable {s s' : State} {pid : UInt32} {view : List (UInt32 × UInt32 × List UInt8)}

/-- The process has `view` in its segments, or it is away with it. -/
def Contents (s : State) (pid : UInt32) (view : List (UInt32 × UInt32 × List UInt8)) : Prop :=
  processView s pid = some view ∧ entriesOf s pid = [] ∨
    Stored pid view s ∧ (entriesOf s pid).length = 1

/-- A process that has something is known. -/
theorem Contents.found (had : Contents s pid view) : ∃ pcb, findPcb s pid = some pcb := by
  rcases had with ⟨resident, -⟩ | ⟨⟨_, _, _, _, _, -, -, -, -, -, away⟩, -⟩
  · obtain ⟨pcb, here, -⟩ := Option.map_eq_some_iff.mp resident
    exact ⟨pcb, here⟩
  · obtain ⟨pcb, here, -⟩ := Option.map_eq_some_iff.mp away.table
    exact ⟨pcb, here⟩

/-- An operation on others keeps what a process has. -/
theorem Contents.step {op : Op} (sound : Sound s) (had : Contents s pid view)
    (guard : op.OnOthers pid s) (quiet : ¬ op.Stores)
    (answered : op.Compacts s → s.devices.refusals = []) (taken : step s op = some s') :
    Contents s' pid view := by
  have entries := step_entriesOf sound guard.2 taken
  rcases had with ⟨resident, none⟩ | ⟨stored, one⟩
  · exact .inl ⟨(step_processView sound guard.2 quiet answered taken).trans resident,
      entries.trans none⟩
  · exact .inr ⟨stored.step guard taken, by rw [entries]; exact one⟩

/-- A suspension, whether it succeeds or not, keeps what the process has. -/
theorem Contents.suspend {ok : Bool} (sound : Sound s) (positive : 0 < s.swapBlockSize)
    (storable : Storable s pid) (had : Contents s pid view)
    (called : processSuspend s pid = some (ok, s')) : Contents s' pid view := by
  have none := findSuspended_eq_none.mp storable.newEntry
  rcases had with ⟨resident, -⟩ | ⟨-, one⟩
  · obtain ⟨rfl, d, only, rfl⟩ | ⟨rfl, pcb, suspended, d, done⟩ := processSuspend_cases called
    · refine .inl ⟨?_, none⟩
      rw [← resident]
      simp only [processView, segmentBytes, only.sticks]
      rfl
    · refine .inr ⟨done.stored sound positive storable resident called, ?_⟩
      simp only [entriesOf] at none
      simp [entriesOf, done.result, List.filter_append, none]
  · rw [none] at one
    simp at one

/-- The same for a resumption. -/
theorem Contents.resume (sound : Sound s) (had : Contents s pid view) :
    Contents (processDesuspend s pid).2 pid view := by
  cases called : processDesuspend s pid with
  | mk ok s' =>
      rcases had with ⟨resident, none⟩ | ⟨stored, one⟩
      · have same : processDesuspend s pid = (false, s) := by
          rw [processDesuspend, findSuspended_eq_none.mpr none]
        rw [same] at called
        obtain ⟨rfl, rfl⟩ := Prod.mk.inj called
        exact .inl ⟨resident, none⟩
      · obtain ⟨rfl, d, only, rfl⟩ | ⟨rfl, sp, pcb, ready, d, done⟩ :=
          processDesuspend_cases sound called
        · obtain ⟨before, pcb, entries, e, after, sound₀, positive, storable, left, viewed, away⟩ :=
            stored
          refine .inr ⟨⟨before, pcb, entries, e, after, sound₀, positive, storable, left, viewed,
            sound.of_devices only.total, away.table, away.entry, fun ss hss b hb => ?_,
            away.blockSize⟩, one⟩
          rw [← away.blocks ss hss b hb]
          exact congrFun only.swapFile b
        · refine .inl ⟨stored.resumed called, ?_⟩
          have rest : entriesOf s' pid = (entriesOf s pid).tail := by
            rw [done.result]
            exact filter_eraseP_self _
          rw [rest, ← List.length_eq_zero_iff, List.length_tail, one]

end Contents

end OsModel.KernelMemory
