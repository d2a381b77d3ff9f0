import OsModel.KernelMemory.SwapSafety
import OsModel.Cpu.Mmu

/-!
Segment ids, from `MEM_ALLOC` to the tables of Kernel Memory and the MMU.

The id of a segment is what the program says. Nothing compares it with the ids the process
has, and nothing compares it or the size with `SEGMENT_MAX_SIZE`.

* `step_held`: what each operation does to the ids that a process holds, resident or suspended.
* `segment_ids_distinct`: as long as every `MEM_ALLOC` asks for a new id, the tables have no id
  twice, and the lookups by id find the segment that the program means.
* `every_byte_addressable_iff`: all bytes of a table have logical addresses exactly when no
  segment is larger than `SEGMENT_MAX_SIZE` or runs over the end of the 32-bit addresses.
-/

namespace OsModel.SegmentIds

open Lib KernelMemory Cpu

/-! ### The ids that a process holds -/

def tableIds (table : List HeapSegment) : List UInt32 := table.map fun seg => seg.segmentId

/-- The ids of a suspended process. -/
def entryIds (sp : SuspendedPcb) : List UInt32 := sp.suspendedSegments.map fun ss => ss.segmentId

/-- The ids that the tables have under a pid. -/
def residentIds (s : State) (pid : UInt32) : List UInt32 :=
  (s.listProcesses.filter fun pcb => pcb.pid == pid).flatMap fun pcb => tableIds pcb.segmentTable

/-- The ids that the suspended processes have under a pid. -/
def suspendedIds (s : State) (pid : UInt32) : List UInt32 :=
  (s.listSuspendedProcesses.filter fun sp => sp.pid == pid).flatMap entryIds

/-- The ids that a process holds. -/
def heldIds (s : State) (pid : UInt32) : Multiset UInt32 :=
  ↑(residentIds s pid ++ suspendedIds s pid)

section Held

variable {s s' : State} {pid other segmentId size : UInt32} {pcb : Pcb} {f : Pcb → Pcb}

/-- Two lists whose elements correspond have the same ids. -/
theorem map_eq_of_forall₂ {α β γ : Type} {R : α → β → Prop} {f : α → γ} {g : β → γ}
    (same : ∀ {a b}, R a b → g b = f a) {l : List α} {l' : List β} (both : List.Forall₂ R l l') :
    l'.map g = l.map f := by
  induction both with
  | nil => rfl
  | cons first _ ih => rw [List.map_cons, List.map_cons, same first, ih]

theorem allocSegments_ids (ptr : Nat) (ready : List SegmentReady) :
    tableIds (allocSegments ptr ready) = ready.map fun sr => sr.segmentId := by
  induction ready generalizing ptr with
  | nil => rfl
  | cons sr rest ih =>
      rw [List.map_cons, ← ih (ptr + 1)]
      rfl

/-- An update of the table of a process exchanges its ids. -/
theorem residentIds_updatePcb (found : findPcb s pid = some pcb)
    (keeps : ∀ pcb, (f pcb).pid = pcb.pid) :
    ∃ before after,
      residentIds s pid = before ++ tableIds pcb.segmentTable ++ after ∧
        residentIds (updatePcb s pid f) pid = before ++ tableIds (f pcb).segmentTable ++ after := by
  obtain ⟨front, back, list_eq, -, named, updated⟩ := updateFirst_split (f := f) found
  have named' : (f pcb).pid == pid := by
    rw [keeps]
    exact named
  refine ⟨(front.filter fun pcb => pcb.pid == pid).flatMap fun pcb => tableIds pcb.segmentTable,
    (back.filter fun pcb => pcb.pid == pid).flatMap fun pcb => tableIds pcb.segmentTable, ?_, ?_⟩
  · simp [residentIds, list_eq, named]
  · simp [residentIds, updatePcb, updated, named']

theorem residentIds_updatePcb_other (ne : other ≠ pid) (keeps : ∀ pcb, (f pcb).pid = pcb.pid) :
    residentIds (updatePcb s other f) pid = residentIds s pid := by
  cases found : findPcb s other with
  | none => rw [updatePcb_not_found found]
  | some pcb =>
      obtain ⟨front, back, list_eq, -, named, updated⟩ := updateFirst_split (f := f) found
      have passed : pcb.pid ≠ pid := by
        rw [beq_iff_eq.mp named]
        exact ne
      have passed' : (f pcb).pid ≠ pid := by
        rw [keeps]
        exact passed
      have updated' : (updatePcb s other f).listProcesses = front ++ f pcb :: back := updated
      rw [residentIds, updated', residentIds, list_eq]
      simp [passed, passed']

/-- New segments add their ids to those of the process. -/
theorem heldIds_addSegments (found : findPcb s pid = some pcb) (ready : List SegmentReady)
    (other : UInt32) :
    heldIds (addSegments s pid ready) other =
      (if pid = other then ↑(ready.map fun sr => sr.segmentId) else 0) + heldIds s other := by
  have entries : suspendedIds (addSegments s pid ready) other = suspendedIds s other := rfl
  unfold heldIds
  rw [entries]
  split
  · rename_i same
    subst same
    obtain ⟨before, after, old, new⟩ :=
      residentIds_updatePcb (s := { s with nextPtr := s.nextPtr + ready.length })
        (f := fun pcb =>
          { pcb with segmentTable := pcb.segmentTable ++ allocSegments s.nextPtr ready })
        found fun _ => rfl
    have old' : residentIds s pid = before ++ tableIds pcb.segmentTable ++ after := old
    have new' : residentIds (addSegments s pid ready) pid =
        before ++ (tableIds pcb.segmentTable ++ ready.map fun sr => sr.segmentId) ++ after := by
      rw [← allocSegments_ids s.nextPtr ready, tableIds, tableIds, ← List.map_append]
      exact new
    rw [old', new']
    simp only [← Multiset.coe_add]
    ac_rfl
  · rename_i ne
    have same : residentIds (addSegments s pid ready) other = residentIds s other :=
      residentIds_updatePcb_other (s := { s with nextPtr := s.nextPtr + ready.length }) ne
        fun _ => rfl
    rw [same, Multiset.zero_add]

/-- A compaction moves segments and renames none. -/
theorem compactLoop_tables (l : List HeapSegment) (cursor : UInt32) (s : State) :
    ∃ f : HeapSegment → HeapSegment, (∀ seg, (f seg).segmentId = seg.segmentId) ∧
      (compactLoop l cursor s).listProcesses = s.listProcesses.map (mapTable f) ∧
        (compactLoop l cursor s).listSuspendedProcesses = s.listSuspendedProcesses := by
  induction l generalizing cursor s with
  | nil =>
      refine ⟨id, fun _ => rfl, ?_, rfl⟩
      exact (map_mapTable_id fun _ _ => rfl).symm
  | cons seg rest ih =>
      obtain ⟨f, keeps, tables, entries⟩ := ih (cursor + seg.size) (moveSegment s seg cursor)
      rw [compactLoop]
      by_cases away : seg.base ≠ cursor
      · have moved : (moveSegment s seg cursor).listProcesses =
            s.listProcesses.map (mapTable (moveTo seg.ptr cursor)) := by
          simp only [moveSegment, if_pos away, setBase]
        have entries' : (moveSegment s seg cursor).listSuspendedProcesses =
            s.listSuspendedProcesses := by
          simp only [moveSegment, if_pos away, setBase]
        refine ⟨f ∘ moveTo seg.ptr cursor, ?_, ?_, entries.trans entries'⟩
        · intro other
          rw [Function.comp_apply, keeps, moveTo_segmentId]
        · rw [tables, moved, map_mapTable]
      · have stays : moveSegment s seg cursor = s := by
          rw [moveSegment, if_neg away]
        rw [stays] at tables entries ⊢
        exact ⟨f, keeps, tables, entries⟩

theorem heldIds_compactMemory (s : State) (pid : UInt32) :
    heldIds (compactMemory s) pid = heldIds s pid := by
  obtain ⟨f, keeps, tables, entries⟩ := compactLoop_tables (sortedSegments s) 0 s
  have same : ∀ pcb : Pcb, tableIds (mapTable f pcb).segmentTable = tableIds pcb.segmentTable := by
    intro pcb
    simp [tableIds, mapTable, Function.comp_def, keeps]
  have resident : residentIds (compactMemory s) pid = residentIds s pid := by
    rw [residentIds, compactMemory, tables, List.filter_map, List.flatMap_map]
    simp only [same]
    rfl
  have suspended : suspendedIds (compactMemory s) pid = suspendedIds s pid := by
    rw [suspendedIds, compactMemory, entries]
    rfl
  rw [heldIds, resident, suspended, heldIds]

/-! ### What an operation does to them -/

/-- The operations that hold fewer ids, or the same. -/
theorem heldIds_mono (resident : List.Subperm (residentIds s' pid) (residentIds s pid))
    (suspended : List.Subperm (suspendedIds s' pid) (suspendedIds s pid)) :
    heldIds s' pid ≤ heldIds s pid := by
  simp only [heldIds, ← Multiset.coe_add]
  exact add_le_add (Multiset.coe_le.mpr resident) (Multiset.coe_le.mpr suspended)

theorem processCreate_held (s : State) (other : UInt32) (instructions : Option (List String)) :
    heldIds (processCreate s other instructions) pid = heldIds s pid := by
  cases instructions with
  | none => rfl
  | some instructions =>
      have resident : residentIds (processCreate s other (some instructions)) pid =
          residentIds s pid := by
        by_cases same : other = pid <;>
          simp [residentIds, processCreate, List.filter_append, tableIds, same]
      rw [heldIds, resident]
      rfl

theorem processEnd_held (s : State) (other : UInt32) :
    heldIds (processEnd s other) pid ≤ heldIds s pid :=
  heldIds_mono (((List.eraseP_sublist).filter _).flatMap _).subperm (List.Subperm.refl _)

theorem segmentInHole_held (pid : UInt32) (s : State) (other segmentId size : UInt32)
    (chosen : Hole) :
    heldIds (segmentInHole s other segmentId size chosen).2 pid ≤ heldIds s pid ∨
      other = pid ∧
        heldIds (segmentInHole s other segmentId size chosen).2 pid =
          segmentId ::ₘ heldIds s pid := by
  unfold segmentInHole
  cases found : findPcb s other with
  | none => exact .inl (le_refl _)
  | some pcb =>
      have held := heldIds_addSegments found [⟨segmentId, size, chosen.base⟩] pid
      by_cases same : other = pid
      · right
        rw [if_pos same] at held
        exact ⟨same, held⟩
      · left
        rw [if_neg same, zero_add] at held
        exact held.le

/-- A `segment_create` that goes past the check of the free space may add its id. -/
theorem segmentCreate_held (pid : UInt32) (s : State) (other segmentId size : UInt32) :
    heldIds (segmentCreate s other segmentId size).2 pid ≤ heldIds s pid ∨
      other = pid ∧ ¬ totalFreeSpace (getFreeHoles s) < size ∧
        heldIds (segmentCreate s other segmentId size).2 pid = segmentId ::ₘ heldIds s pid := by
  unfold segmentCreate
  by_cases small : totalFreeSpace (getFreeHoles s) < size
  · simp only [if_pos small]
    exact .inl (le_refl _)
  · simp only [if_neg small]
    cases selectHole s.allocationStrategy (getFreeHoles s) size with
    | some chosen =>
        rcases segmentInHole_held pid s other segmentId size chosen with le | ⟨same, held⟩
        · exact .inl le
        · exact .inr ⟨same, small, held⟩
    | none =>
        dsimp only
        rw [← heldIds_compactMemory s pid]
        cases selectHole (compactMemory s).allocationStrategy (getFreeHoles (compactMemory s))
            size with
        | none => exact .inl (le_refl _)
        | some chosen =>
            rcases segmentInHole_held pid (compactMemory s) other segmentId size chosen
              with le | ⟨same, held⟩
            · exact .inl le
            · exact .inr ⟨same, small, held⟩

theorem segmentDelete_held (s : State) (other segmentId : UInt32) :
    heldIds (segmentDelete s other segmentId).2 pid ≤ heldIds s pid := by
  unfold segmentDelete
  cases found : findPcb s other with
  | none => exact le_refl _
  | some pcb =>
      dsimp only
      cases pcb.segmentTable.find? fun seg => seg.segmentId == segmentId with
      | none => exact le_refl _
      | some segmentToDelete =>
          dsimp only
          cases pcb.segmentTable.findIdx? fun seg => seg.ptr == segmentToDelete.ptr with
          | none => exact le_refl _
          | some index =>
              refine heldIds_mono ?_ (List.Subperm.refl _)
              by_cases same : other = pid
              · subst same
                obtain ⟨before, after, old, new⟩ := residentIds_updatePcb
                  (f := fun pcb => { pcb with segmentTable := pcb.segmentTable.eraseIdx index })
                  found fun _ => rfl
                rw [old, new]
                apply List.Sublist.subperm
                apply List.Sublist.append _ (.refl after)
                exact List.Sublist.append (.refl before) ((List.eraseIdx_sublist ..).map _)
              · rw [residentIds_updatePcb_other
                  (f := fun pcb => { pcb with segmentTable := pcb.segmentTable.eraseIdx index })
                  same fun _ => rfl]

/-- A suspension moves the ids of the table to the entry. -/
theorem processSuspend_held {ok : Bool} (called : processSuspend s other = some (ok, s')) :
    heldIds s' pid = heldIds s pid := by
  obtain ⟨-, d, -, rfl⟩ | ⟨-, pcb, suspended, d, done⟩ := processSuspend_cases called
  · rfl
  · obtain ⟨found, -, entries, -, rfl⟩ := done
    have ids : suspended.map (fun ss => ss.segmentId) = tableIds pcb.segmentTable :=
      map_eq_of_forall₂ (fun entry => entry.segmentId) entries
    have empty : ∀ table : Pcb, ({ table with segmentTable := [] } : Pcb).pid = table.pid :=
      fun _ => rfl
    by_cases same : other = pid
    · subst same
      obtain ⟨before, after, old, new⟩ := residentIds_updatePcb
        (s := { s with devices := d })
        (f := fun pcb => { pcb with segmentTable := [] }) found empty
      have old' : residentIds s other = before ++ tableIds pcb.segmentTable ++ after := old
      have new' : residentIds { updatePcb { s with devices := d } other fun pcb =>
          { pcb with segmentTable := [] } with
          listSuspendedProcesses := s.listSuspendedProcesses ++ [⟨other, suspended⟩] } other =
          before ++ after := by
        have none : tableIds ((fun pcb => { pcb with segmentTable := [] } : Pcb → Pcb)
            pcb).segmentTable = [] := rfl
        rw [none, List.append_nil] at new
        exact new
      have entry : suspendedIds { updatePcb { s with devices := d } other fun pcb =>
          { pcb with segmentTable := [] } with
          listSuspendedProcesses := s.listSuspendedProcesses ++ [⟨other, suspended⟩] } other =
          suspendedIds s other ++ tableIds pcb.segmentTable := by
        rw [← ids]
        simp [suspendedIds, entryIds]
      rw [heldIds, new', entry, heldIds, old']
      simp only [← Multiset.coe_add]
      ac_rfl
    · have resident : residentIds { updatePcb { s with devices := d } other fun pcb =>
          { pcb with segmentTable := [] } with
          listSuspendedProcesses := s.listSuspendedProcesses ++ [⟨other, suspended⟩] } pid =
          residentIds s pid :=
        residentIds_updatePcb_other (s := { s with devices := d }) same empty
      have entry : suspendedIds { updatePcb { s with devices := d } other fun pcb =>
          { pcb with segmentTable := [] } with
          listSuspendedProcesses := s.listSuspendedProcesses ++ [⟨other, suspended⟩] } pid =
          suspendedIds s pid := by
        simp [suspendedIds, same]
      rw [heldIds, resident, entry, heldIds]

theorem desuspendSegment_id {ss : SuspendedSegment} {d d' : Devices} {sr : SegmentReady}
    (ready : desuspendSegment s ss d = (some sr, d')) : sr.segmentId = ss.segmentId := by
  unfold desuspendSegment at ready
  split at ready
  · simp at ready
  · split at ready
    · simp at ready
    · split at ready
      · simp at ready
      · obtain ⟨eq, -⟩ := Prod.mk.inj ready
        obtain rfl := Option.some.inj eq
        rfl

theorem desuspendLoop_ids (s : State) (suspended : List SuspendedSegment) (d : Devices) :
    ∀ ready, (desuspendLoop s suspended d).1 = some ready →
      ready.map (fun sr => sr.segmentId) = suspended.map fun ss => ss.segmentId := by
  induction suspended generalizing d with
  | nil =>
      intro ready looped
      obtain rfl := Option.some.inj looped
      rfl
  | cons ss rest ih =>
      intro ready looped
      unfold desuspendLoop at looped
      cases first : desuspendSegment s ss d with
      | mk outcome d' =>
          rw [first] at looped
          cases outcome with
          | none => simp at looped
          | some sr =>
              cases later : desuspendLoop s rest d' with
              | mk rest_outcome d'' =>
                  simp only [later] at looped
                  cases rest_outcome with
                  | none => simp at looped
                  | some rest_ready =>
                      obtain rfl := Option.some.inj looped
                      rw [List.map_cons, List.map_cons, desuspendSegment_id first,
                        ih d' rest_ready (by rw [later])]

/-- The entry that a resumption takes out is the first one of the process. -/
theorem suspendedIds_erase {sp : SuspendedPcb} (entry : findSuspended s other = some sp)
    (t : State)
    (erased : t.listSuspendedProcesses =
      s.listSuspendedProcesses.eraseP fun sp => sp.pid == other) (pid : UInt32) :
    suspendedIds s pid = (if other = pid then entryIds sp else []) ++ suspendedIds t pid := by
  unfold suspendedIds
  rw [erased]
  by_cases same : other = pid
  · subst same
    rw [if_pos rfl, filter_eraseP_self]
    have first : (s.listSuspendedProcesses.filter fun sp => sp.pid == other).head? = some sp := by
      rw [List.head?_filter]
      exact entry
    obtain ⟨rest, split⟩ := List.head?_eq_some_iff.mp first
    rw [split]
    rfl
  · rw [if_neg same, List.nil_append, filter_eraseP_other]
    intro sp named
    rw [beq_iff_eq] at named
    simp [named, same]

/-- A resumption moves them back. -/
theorem processDesuspend_held (s : State) (other : UInt32) :
    heldIds (processDesuspend s other).2 pid ≤ heldIds s pid := by
  unfold processDesuspend
  cases entry : findSuspended s other with
  | none => exact le_refl _
  | some sp =>
      dsimp only
      cases looped : desuspendLoop s sp.suspendedSegments s.devices with
      | mk outcome d =>
          cases outcome with
          | none => exact le_refl _
          | some ready =>
              dsimp only
              cases found : findPcb s other with
              | none => exact le_refl _
              | some pcb =>
                  have ids : ready.map (fun sr => sr.segmentId) = entryIds sp :=
                    desuspendLoop_ids s sp.suspendedSegments s.devices ready (by rw [looped])
                  have grown := heldIds_addSegments (s := { s with devices := d }) found ready pid
                  have removed := suspendedIds_erase entry
                    { addSegments { s with devices := d } other ready with
                      listSuspendedProcesses :=
                        s.listSuspendedProcesses.eraseP fun sp => sp.pid == other } rfl pid
                  have before : heldIds { s with devices := d } pid =
                      ↑(residentIds s pid) + ↑(suspendedIds s pid) := rfl
                  have after : heldIds (addSegments { s with devices := d } other ready) pid =
                      ↑(residentIds (addSegments { s with devices := d } other ready) pid) +
                        ↑(suspendedIds s pid) := rfl
                  rw [ids, before, after, ← add_assoc] at grown
                  have resident := add_right_cancel grown
                  apply le_of_eq
                  change ↑(residentIds (addSegments { s with devices := d } other ready) pid) +
                    (↑(suspendedIds _ pid) : Multiset UInt32) =
                      ↑(residentIds s pid) + ↑(suspendedIds s pid)
                  rw [resident, removed, ← Multiset.coe_add]
                  by_cases same : other = pid
                  · rw [if_pos same, if_pos same]
                    ac_rfl
                  · rw [if_neg same, if_neg same]
                    simp

/-- **What a step does to the ids of a process**: a `segment_create` for it adds one, and no other
step adds any. -/
theorem step_held {op : SwapOp} (taken : swapStep s op = some s') (pid : UInt32) :
    heldIds s' pid ≤ heldIds s pid ∨
      ∃ segmentId size, op = .kernel (.segmentCreate pid segmentId size) ∧
        ¬ totalFreeSpace (getFreeHoles s) < size ∧
          heldIds s' pid = segmentId ::ₘ heldIds s pid := by
  cases op with
  | connectSwap swapBlockSize swapTotalSize =>
      obtain rfl := Option.some.inj taken
      exact .inl (le_refl _)
  | kernel op =>
      cases op with
      | processCreate other instructions =>
          obtain rfl := Option.some.inj taken
          exact .inl (processCreate_held s other instructions).le
      | processEnd other =>
          obtain rfl := Option.some.inj taken
          exact .inl (processEnd_held s other)
      | segmentCreate other segmentId size =>
          obtain rfl := Option.some.inj taken
          rcases segmentCreate_held pid s other segmentId size with le | ⟨rfl, room, held⟩
          · exact .inl le
          · exact .inr ⟨segmentId, size, rfl, room, held⟩
      | segmentDelete other segmentId =>
          obtain rfl := Option.some.inj taken
          exact .inl (segmentDelete_held s other segmentId)
      | processSuspend other =>
          obtain ⟨⟨ok, s''⟩, called, rfl⟩ := Option.map_eq_some_iff.mp taken
          exact .inl (processSuspend_held called).le
      | processDesuspend other =>
          obtain rfl := Option.some.inj taken
          exact .inl (processDesuspend_held s other)
      | connectStick id size =>
          obtain rfl := Option.some.inj taken
          exact .inl (le_refl _)
      | ioMemoryWrite other physicalAddress size rawData =>
          obtain rfl := Option.some.inj taken
          exact .inl (le_refl _)

end Held

/-! ### Runs in which every id is new -/

/-- A `MEM_ALLOC` that there is space for asks for an id that the process does not hold. -/
def NewId (s : State) : SwapOp → Prop
  | .kernel (.segmentCreate pid segmentId size) =>
      totalFreeSpace (getFreeHoles s) < size ∨ segmentId ∉ heldIds s pid
  | _ => True

instance (s : State) : (op : SwapOp) → Decidable (NewId s op)
  | .kernel (.segmentCreate pid segmentId size) =>
      inferInstanceAs (Decidable (totalFreeSpace (getFreeHoles s) < size ∨
        segmentId ∉ heldIds s pid))
  | .kernel (.processCreate ..) | .kernel (.processEnd _) | .kernel (.segmentDelete ..)
  | .kernel (.processSuspend _) | .kernel (.processDesuspend _) | .kernel (.connectStick ..)
  | .kernel (.ioMemoryWrite ..) | .connectSwap .. => .isTrue trivial

/-- No process holds an id twice. -/
def IdsDistinct (s : State) : Prop := ∀ pid, (heldIds s pid).Nodup

section Distinct

variable {s s' : State} {op : SwapOp} {pcb : Pcb}

theorem step_idsDistinct (distinct : IdsDistinct s) (new : NewId s op)
    (taken : swapStep s op = some s') : IdsDistinct s' := by
  intro pid
  rcases step_held taken pid with le | ⟨segmentId, size, rfl, room, held⟩
  · exact Multiset.nodup_of_le le (distinct pid)
  · have absent : segmentId ∉ heldIds s pid := new.resolve_left room
    rw [held]
    exact Multiset.nodup_cons.mpr ⟨absent, distinct pid⟩

theorem IdsDistinct.table (distinct : IdsDistinct s) (mem : pcb ∈ s.listProcesses) :
    (tableIds pcb.segmentTable).Nodup := by
  have held := Multiset.coe_nodup.mp (distinct pcb.pid)
  have resident := (List.nodup_append.mp held).1
  apply (List.nodup_flatMap.mp resident).1 pcb
  simp [mem]

/-- The segment table that a CPU receives with the context. -/
def cpuTable (pcb : Pcb) : List Segment := pcb.segmentTable.map HeapSegment.toSegment

theorem cpuTable_ids (pcb : Pcb) :
    (cpuTable pcb).map Segment.segmentId = tableIds pcb.segmentTable := by
  simp [cpuTable, tableIds, Function.comp_def]

/-- The MMU translates the addresses of a segment with that segment. -/
theorem translate_segment (distinct : (tableIds pcb.segmentTable).Nodup) {seg : HeapSegment}
    (mem : seg ∈ pcb.segmentTable) {segmentMaxSize logicalAddress : UInt32}
    (named : logicalAddress / segmentMaxSize = seg.segmentId) (size : UInt32) :
    translate segmentMaxSize (cpuTable pcb) logicalAddress size =
      if logicalAddress % segmentMaxSize + size > seg.size then none
      else some (seg.base + logicalAddress % segmentMaxSize) := by
  rw [← cpuTable_ids] at distinct
  have found := find?_of_nodup distinct (List.mem_map_of_mem (f := HeapSegment.toSegment) mem)
  rw [← named] at found
  rw [Cpu.translate, found]

/-- The lookups by id find what the program means: `list_find` in `segment_delete`, and the loop
of `mmu_translate`. -/
structure Meant (pcb : Pcb) (seg : HeapSegment) : Prop where
  deleted : (pcb.segmentTable.find? fun other => other.segmentId == seg.segmentId) = some seg
  translated : ∀ segmentMaxSize logicalAddress size : UInt32,
    logicalAddress / segmentMaxSize = seg.segmentId →
      translate segmentMaxSize (cpuTable pcb) logicalAddress size =
        if logicalAddress % segmentMaxSize + size > seg.size then none
        else some (seg.base + logicalAddress % segmentMaxSize)

variable {strategy : AllocationStrategy} {swapFile : UInt32 → Nat → UInt8}
  {refusals : List Bool} {fresh : Nat → UInt8} {ops : List SwapOp}

theorem unconnected_idsDistinct : IdsDistinct (unconnected strategy swapFile refusals fresh) :=
  fun _ => Multiset.nodup_zero

/-- **Segment ids are unique** in every state that is reached while each `MEM_ALLOC` asks for a
new id, through compactions, suspensions and resumptions, and every segment is found by its
id. -/
theorem segment_ids_distinct
    (run : Run swapStep NewId (unconnected strategy swapFile refusals fresh) ops s) :
    ∀ pcb ∈ s.listProcesses, (tableIds pcb.segmentTable).Nodup ∧
      ∀ seg ∈ pcb.segmentTable, Meant pcb seg := by
  have distinct : IdsDistinct s := run.invariant step_idsDistinct unconnected_idsDistinct
  intro pcb mem
  have table := distinct.table mem
  refine ⟨table, ?_⟩
  intro seg among
  constructor
  · exact find?_of_nodup table among
  · intro segmentMaxSize logicalAddress size named
    exact translate_segment table among named size

/-- A process keeps two ids through a compaction, a suspension and a resumption. -/
theorem segment_ids_distinct_of_resumption : ∃ s : State, ∃ pcb ∈ s.listProcesses,
    tableIds pcb.segmentTable = [2, 0] ∧ (tableIds pcb.segmentTable).Nodup := by
  obtain ⟨s, run, test⟩ := Run.exists_of_exec swapStep NewId
    [.kernel (.connectStick 0 6), .kernel (.processCreate 1 (some [])), .connectSwap 4 16,
      .kernel (.segmentCreate 1 0 2), .kernel (.segmentCreate 1 1 1),
      .kernel (.segmentCreate 1 2 1), .kernel (.segmentDelete 1 0),
      .kernel (.segmentDelete 1 1), .kernel (.segmentCreate 1 0 5), .kernel (.processSuspend 1),
      .kernel (.processDesuspend 1)] (unconnected .best (fun _ _ => 0) [] fun _ => 0)
    (fun s => ∃ pcb ∈ s.listProcesses, tableIds pcb.segmentTable = [2, 0]) (by decide)
  obtain ⟨pcb, mem, ids⟩ := decide_eq_true_eq.mp test
  exact ⟨s, pcb, mem, ids, (segment_ids_distinct run pcb mem).1⟩

/-- The program allocates the id 0 twice, and both segments are created. -/
theorem segment_id_twice : ∃ ops s, Run swapStep (fun s op => op.Admissible s)
    (unconnected .best (fun _ _ => 0) [] fun _ => 0) ops s ∧
      ∃ pcb ∈ s.listProcesses, tableIds pcb.segmentTable = [0, 0] := by
  obtain ⟨s, run, test⟩ := Run.exists_of_exec swapStep (fun s op => op.Admissible s)
    [.kernel (.connectStick 0 8), .kernel (.processCreate 1 (some [])),
      .kernel (.segmentCreate 1 0 2), .kernel (.segmentCreate 1 0 3)]
    (unconnected .best (fun _ _ => 0) [] fun _ => 0)
    (fun s => ∃ pcb ∈ s.listProcesses, tableIds pcb.segmentTable = [0, 0]) (by decide)
  exact ⟨_, s, run, decide_eq_true_eq.mp test⟩

end Distinct

/-! ### Logical addresses -/

/-- A logical address of a byte of a segment. -/
def Reaches (segmentMaxSize : UInt32) (pcb : Pcb) (seg : HeapSegment) (offset address : UInt32) :
    Prop :=
  address / segmentMaxSize = seg.segmentId ∧
    translate segmentMaxSize (cpuTable pcb) address 1 = some (seg.base + offset)

/-- Every byte of every segment has a logical address, and no two bytes share one. -/
structure EveryByteAddressable (segmentMaxSize : UInt32) (pcb : Pcb) : Prop where
  addressed : ∀ seg ∈ pcb.segmentTable, ∀ offset < seg.size,
    ∃ address, Reaches segmentMaxSize pcb seg offset address
  apart : ∀ seg ∈ pcb.segmentTable, ∀ seg' ∈ pcb.segmentTable, ∀ offset offset' address,
    Reaches segmentMaxSize pcb seg offset address →
      Reaches segmentMaxSize pcb seg' offset' address → seg = seg' ∧ offset = offset'

/-- The segment is no larger than `SEGMENT_MAX_SIZE`, and its last byte is among the 32-bit
addresses. -/
def Fits (segmentMaxSize : UInt32) (seg : HeapSegment) : Prop :=
  seg.size ≤ segmentMaxSize ∧
    (seg.size = 0 ∨ seg.segmentId.toNat * segmentMaxSize.toNat + seg.size.toNat ≤ 2 ^ 32)

instance (segmentMaxSize : UInt32) (seg : HeapSegment) : Decidable (Fits segmentMaxSize seg) := by
  unfold Fits
  infer_instance

section Addresses

variable {pcb : Pcb} {seg : HeapSegment} {segmentMaxSize offset address : UInt32}

/-- An address reaches a byte exactly when it is the id times `SEGMENT_MAX_SIZE` plus the
offset. -/
theorem reaches_iff (distinct : (tableIds pcb.segmentTable).Nodup)
    (positive : 0 < segmentMaxSize) (mem : seg ∈ pcb.segmentTable) :
    Reaches segmentMaxSize pcb seg offset address ↔
      address / segmentMaxSize = seg.segmentId ∧ address % segmentMaxSize = offset ∧
        offset < seg.size := by
  unfold Reaches
  apply and_congr_right
  intro named
  rw [translate_segment distinct mem named]
  rw [UInt32.lt_iff_toNat_lt, UInt32.toNat_zero] at positive
  have below : (address % segmentMaxSize).toNat < segmentMaxSize.toNat := by
    rw [UInt32.toNat_mod]
    exact Nat.mod_lt _ positive
  have small := segmentMaxSize.toNat_lt
  have next : (address % segmentMaxSize + 1).toNat = (address % segmentMaxSize).toNat + 1 := by
    rw [UInt32.toNat_add, UInt32.toNat_one]
    omega
  by_cases beyond : address % segmentMaxSize + 1 > seg.size
  · rw [if_pos beyond]
    rw [gt_iff_lt, UInt32.lt_iff_toNat_lt, next] at beyond
    constructor
    · intro none
      cases none
    · rintro ⟨rfl, inside⟩
      rw [UInt32.lt_iff_toNat_lt] at inside
      omega
  · rw [if_neg beyond, Option.some.injEq]
    rw [gt_iff_lt, UInt32.not_lt, UInt32.le_iff_toNat_le, next] at beyond
    constructor
    · intro same
      have offset_eq : address % segmentMaxSize = offset := by
        have cancelled := congrArg (fun physical => physical - seg.base) same
        simpa [UInt32.add_comm seg.base, UInt32.add_sub_cancel] using cancelled
      refine ⟨offset_eq, ?_⟩
      rw [← offset_eq, UInt32.lt_iff_toNat_lt]
      omega
    · rintro ⟨rfl, -⟩
      rfl

/-- A byte of a segment that fits has its address. -/
theorem Fits.reaches (distinct : (tableIds pcb.segmentTable).Nodup)
    (positive : 0 < segmentMaxSize) (mem : seg ∈ pcb.segmentTable)
    (fits : Fits segmentMaxSize seg) (inside : offset < seg.size) :
    Reaches segmentMaxSize pcb seg offset (seg.segmentId * segmentMaxSize + offset) := by
  obtain ⟨size, empty | last⟩ := fits
  · rw [empty, UInt32.lt_iff_toNat_lt, UInt32.toNat_zero] at inside
    omega
  · rw [UInt32.le_iff_toNat_le] at size
    have inside' := UInt32.lt_iff_toNat_lt.mp inside
    have sum : (seg.segmentId * segmentMaxSize + offset).toNat =
        seg.segmentId.toNat * segmentMaxSize.toNat + offset.toNat := by
      rw [UInt32.toNat_add, UInt32.toNat_mul, Nat.mod_add_mod]
      exact Nat.mod_eq_of_lt (by omega)
    have positive' := UInt32.lt_iff_toNat_lt.mp positive
    rw [UInt32.toNat_zero] at positive'
    rw [reaches_iff distinct positive mem]
    refine ⟨?_, ?_, inside⟩
    · rw [← UInt32.toNat_inj, UInt32.toNat_div, sum, Nat.mul_comm, Nat.mul_add_div positive',
        Nat.div_eq_of_lt (by omega), Nat.add_zero]
    · rw [← UInt32.toNat_inj, UInt32.toNat_mod, sum, Nat.mul_comm, Nat.mul_add_mod]
      exact Nat.mod_eq_of_lt (by omega)

theorem last_toNat {size : UInt32} (some : 0 < size) : (size - 1).toNat = size.toNat - 1 := by
  rw [UInt32.lt_iff_toNat_lt, UInt32.toNat_zero] at some
  have one : 1 ≤ size := by
    rw [UInt32.le_iff_toNat_le, UInt32.toNat_one]
    exact some
  rw [UInt32.toNat_sub_of_le _ _ one, UInt32.toNat_one]

/-- A segment whose last byte has an address fits. -/
theorem fits_of_last (distinct : (tableIds pcb.segmentTable).Nodup)
    (positive : 0 < segmentMaxSize) (mem : seg ∈ pcb.segmentTable) (some : 0 < seg.size)
    (reached : Reaches segmentMaxSize pcb seg (seg.size - 1) address) :
    Fits segmentMaxSize seg := by
  obtain ⟨named, last, -⟩ := (reaches_iff distinct positive mem).mp reached
  have size := last_toNat some
  rw [UInt32.lt_iff_toNat_lt, UInt32.toNat_zero] at positive some
  have quotient := congrArg UInt32.toNat named
  have remainder := congrArg UInt32.toNat last
  rw [UInt32.toNat_div] at quotient
  rw [UInt32.toNat_mod, size] at remainder
  have whole := Nat.div_add_mod address.toNat segmentMaxSize.toNat
  have below := Nat.mod_lt address.toNat positive
  have bound := address.toNat_lt
  rw [quotient, remainder, Nat.mul_comm] at whole
  constructor
  · rw [UInt32.le_iff_toNat_le]
    omega
  · right
    omega

theorem everyByteAddressable_iff (distinct : (tableIds pcb.segmentTable).Nodup)
    (positive : 0 < segmentMaxSize) :
    EveryByteAddressable segmentMaxSize pcb ↔
      ∀ seg ∈ pcb.segmentTable, Fits segmentMaxSize seg := by
  constructor
  · intro addressable seg mem
    by_cases empty : seg.size = 0
    · rw [Fits, empty]
      exact ⟨UInt32.zero_le, .inl rfl⟩
    · have some : 0 < seg.size := UInt32.pos_iff_ne_zero.mpr empty
      have last : seg.size - 1 < seg.size := by
        rw [UInt32.lt_iff_toNat_lt, last_toNat some]
        rw [UInt32.lt_iff_toNat_lt, UInt32.toNat_zero] at some
        omega
      obtain ⟨address, reached⟩ := addressable.addressed seg mem (seg.size - 1) last
      exact fits_of_last distinct positive mem some reached
  · intro fits
    constructor
    · intro seg mem offset inside
      exact ⟨_, (fits seg mem).reaches distinct positive mem inside⟩
    · intro seg mem seg' mem' offset offset' address first second
      obtain ⟨named, rest, -⟩ := (reaches_iff distinct positive mem).mp first
      obtain ⟨named', rest', -⟩ := (reaches_iff distinct positive mem').mp second
      refine ⟨?_, rest.symm.trans rest'⟩
      exact List.inj_on_of_nodup_map distinct mem mem' (named.symm.trans named')

variable {strategy : AllocationStrategy} {swapFile : UInt32 → Nat → UInt8}
  {refusals : List Bool} {fresh : Nat → UInt8} {ops : List SwapOp} {s : State}

/-- **Every allocated byte is addressable** exactly when every segment of the process fits: the
allocator checks neither of the two bounds that the MMU relies on. -/
theorem every_byte_addressable_iff
    (run : Run swapStep NewId (unconnected strategy swapFile refusals fresh) ops s)
    (mem : pcb ∈ s.listProcesses) (positive : 0 < segmentMaxSize) :
    EveryByteAddressable segmentMaxSize pcb ↔
      ∀ seg ∈ pcb.segmentTable, Fits segmentMaxSize seg := by
  have distinct : IdsDistinct s := run.invariant step_idsDistinct unconnected_idsDistinct
  exact everyByteAddressable_iff (distinct.table mem) positive

/-- Two segments, the second at the last block of addresses. -/
theorem every_byte_addressable_of_last : ∃ s : State, ∃ pcb ∈ s.listProcesses,
    tableIds pcb.segmentTable = [0, 1073741823] ∧ EveryByteAddressable 4 pcb := by
  obtain ⟨s, run, test⟩ := Run.exists_of_exec swapStep NewId
    [.kernel (.connectStick 0 8), .kernel (.processCreate 1 (some [])),
      .kernel (.segmentCreate 1 0 3), .kernel (.segmentCreate 1 1073741823 4)]
    (unconnected .best (fun _ _ => 0) [] fun _ => 0)
    (fun s => ∃ pcb ∈ s.listProcesses, tableIds pcb.segmentTable = [0, 1073741823] ∧
      ∀ seg ∈ pcb.segmentTable, Fits 4 seg) (by decide)
  obtain ⟨pcb, mem, ids, fits⟩ := decide_eq_true_eq.mp test
  exact ⟨s, pcb, mem, ids, (every_byte_addressable_iff run mem (by decide)).mpr fits⟩

/-- With `SEGMENT_MAX_SIZE` 4, a segment of 8 bytes is created and its last byte has no
address. -/
theorem byte_unreachable : ∃ ops s, Run swapStep (fun s op => op.Admissible s ∧ NewId s op)
    (unconnected .best (fun _ _ => 0) [] fun _ => 0) ops s ∧
      ∃ pcb ∈ s.listProcesses, ¬ EveryByteAddressable 4 pcb := by
  obtain ⟨s, run, test⟩ := Run.exists_of_exec swapStep
    (fun s op => op.Admissible s ∧ NewId s op)
    [.kernel (.connectStick 0 8), .kernel (.processCreate 1 (some [])),
      .kernel (.segmentCreate 1 0 8)] (unconnected .best (fun _ _ => 0) [] fun _ => 0)
    (fun s => ∃ pcb ∈ s.listProcesses, (tableIds pcb.segmentTable).Nodup ∧
      ¬ ∀ seg ∈ pcb.segmentTable, Fits 4 seg) (by decide)
  obtain ⟨pcb, mem, distinct, large⟩ := decide_eq_true_eq.mp test
  refine ⟨_, s, run, pcb, mem, ?_⟩
  rw [everyByteAddressable_iff distinct (by decide)]
  exact large

end Addresses

end OsModel.SegmentIds
