import OsModel.KernelMemory.SwapBlocks

/-!
What a terminated process leaves behind.

`PROCESS_END` takes the process out of `list_processes` and looks at nothing
else, so the segments it has in swap stay there.

* `termination_releases_iff`: the end of a process releases everything exactly
  when none of its segments is swapped out; in a run in which every process ends
  that way, all the swap blocks and all the bytes in use belong to processes of
  the list.
* `leaked`: a process that ends while it is suspended keeps its block for ever.
-/

namespace OsModel.KernelMemory

open Lib Span

/-- The segments of a process that are in swap, over all its entries. -/
def storedSegments (s : State) (pid : UInt32) : List SuspendedSegment :=
  (s.listSuspendedProcesses.filter fun sp => sp.pid == pid).flatMap
    SuspendedPcb.suspendedSegments

/-- No segment, resident or in swap, is assigned to the process. -/
structure Released (s : State) (pid : UInt32) : Prop where
  resident : ∀ pcb ∈ s.listProcesses, pcb.pid = pid → pcb.segmentTable = []
  stored : storedSegments s pid = []

/-- Every swap block and every byte of the memory is free, or a process of
`list_processes` has it. -/
structure Accounted (s : State) : Prop where
  used : ∀ b ∈ usedBlocks s,
    ∃ pcb ∈ s.listProcesses, ∃ ss ∈ storedSegments s pcb.pid, b ∈ ss.swapBlocks
  block : ∀ b < totalBlocks s, b ∈ freeBlocks s ∨ b ∈ usedBlocks s
  byte : ∀ a < s.totalMemorySize.toNat,
    (∃ hole ∈ getFreeHoles s, hole.span.base ≤ a ∧ a < hole.span.stop) ∨
      ∃ pcb ∈ s.listProcesses, ∃ seg ∈ pcb.segmentTable,
        seg.span.base ≤ a ∧ a < seg.span.stop

/-- The Kernel Scheduler numbers its processes: a new one has a pid of its own. -/
def Op.Numbered (s : State) : Op → Prop
  | .processCreate pid _ => pid ∉ s.listProcesses.map Pcb.pid
  | _ => True

instance (s : State) : (op : Op) → Decidable (op.Numbered s)
  | .processCreate pid _ => inferInstanceAs (Decidable (pid ∉ s.listProcesses.map Pcb.pid))
  | .processEnd _ | .segmentCreate .. | .segmentDelete .. | .processSuspend _
  | .processDesuspend _ | .connectStick .. | .ioMemoryWrite .. => .isTrue trivial

/-- No process ends while a segment of it is in swap. -/
def Op.EndsResident (s : State) : Op → Prop
  | .processEnd pid => storedSegments s pid = []
  | _ => True

instance (s : State) : (op : Op) → Decidable (op.EndsResident s)
  | .processEnd pid => inferInstanceAs (Decidable (storedSegments s pid = []))
  | .processCreate .. | .segmentCreate .. | .segmentDelete .. | .processSuspend _
  | .processDesuspend _ | .connectStick .. | .ioMemoryWrite .. => .isTrue trivial

/-! ### Free or in use -/

section Free

variable {s : State}

theorem freeFrom_covers {used : List UInt32} {remaining : Nat} {i b : UInt32}
    (fits : i.toNat + remaining < 2 ^ 32) (low : i.toNat ≤ b.toNat)
    (high : b.toNat < i.toNat + remaining) : b ∈ freeFrom used remaining i ∨ b ∈ used := by
  induction remaining generalizing i with
  | zero => omega
  | succ remaining ih =>
      have next : (i + 1).toNat = i.toNat + 1 := by
        rw [UInt32.toNat_add, UInt32.toNat_one]
        omega
      rw [freeFrom]
      by_cases here : b = i
      · subst here
        by_cases taken : b ∈ used
        · exact .inr taken
        · rw [if_neg taken]
          exact .inl List.mem_cons_self
      · have past : i.toNat ≠ b.toNat := fun eq => here (UInt32.toNat_inj.mp eq).symm
        rcases ih (i := i + 1) (by omega) (by omega) (by omega) with free | taken
        · left
          split
          · exact free
          · exact List.mem_cons_of_mem _ free
        · exact .inr taken

/-- A block of the swap file is free or in use. -/
theorem free_or_used {b : UInt32} (below : b < totalBlocks s) :
    b ∈ freeBlocks s ∨ b ∈ usedBlocks s := by
  rw [UInt32.lt_iff_toNat_lt] at below
  apply freeFrom_covers
  · have := (totalBlocks s).toNat_lt
    simpa using this
  · simp
  · simpa using below

/-- The loop of `get_free_holes` passes over no byte, whatever the ranges are:
a range that ends before the cursor only sets it back. -/
theorem holesFrom_covers {totalMemorySize cursor : UInt32} (occ : List Hole) {a : Nat}
    (low : cursor.toNat ≤ a) (high : a < totalMemorySize.toNat) :
    (∃ hole ∈ holesFrom totalMemorySize cursor occ, hole.span.base ≤ a ∧ a < hole.span.stop) ∨
      ∃ o ∈ occ, o.span.base ≤ a ∧ a < o.span.stop := by
  induction occ generalizing cursor with
  | nil =>
      left
      have room : cursor < totalMemorySize := by
        rw [UInt32.lt_iff_toNat_lt]
        omega
      rw [holesFrom, if_pos room]
      refine ⟨_, List.mem_singleton_self _, low, ?_⟩
      simp only [Hole.span, stop, UInt32.toNat_sub_of_le _ _ (UInt32.le_of_lt room)]
      omega
  | cons o rest ih =>
      by_cases before : a < o.base.toNat
      · left
        have room : o.base > cursor := by
          rw [gt_iff_lt, UInt32.lt_iff_toNat_lt]
          omega
        rw [holesFrom, if_pos room]
        refine ⟨_, List.mem_append_left _ (List.mem_singleton_self _), low, ?_⟩
        simp only [Hole.span, stop, UInt32.toNat_sub_of_le _ _ (UInt32.le_of_lt room)]
        omega
      · by_cases within : a < o.span.stop
        · exact .inr ⟨o, List.mem_cons_self, Nat.not_lt.mp before, within⟩
        · have wraps : (o.base + o.size).toNat ≤ a := by
            rw [UInt32.toNat_add]
            refine (Nat.mod_le _ _).trans ?_
            simpa [Hole.span, stop] using within
          rcases ih wraps with ⟨hole, mem, inside⟩ | ⟨o', mem, inside⟩
          · exact .inl ⟨hole, by rw [holesFrom]; exact List.mem_append_right _ mem, inside⟩
          · exact .inr ⟨o', List.mem_cons_of_mem _ mem, inside⟩

/-- A byte of the memory is in a hole or in a segment. -/
theorem in_hole_or_segment {a : Nat} (high : a < s.totalMemorySize.toNat) :
    (∃ hole ∈ getFreeHoles s, hole.span.base ≤ a ∧ a < hole.span.stop) ∨
      ∃ seg ∈ allSegments s, seg.span.base ≤ a ∧ a < seg.span.stop := by
  have low : (0 : UInt32).toNat ≤ a := Nat.zero_le a
  rcases holesFrom_covers (sortByBase Hole.base (occupied s)) low high with
    free | ⟨o, mem, inside⟩
  · exact .inl free
  · right
    obtain ⟨seg, among, eq⟩ :=
      List.mem_map.mp ((perm_occupied s).mem_iff.mp (List.mem_map_of_mem mem))
    exact ⟨seg, among, by rw [eq]; exact inside⟩

end Free

/-! ### The processes there are -/

section Pids

variable {s s' : State} {pid : UInt32} {β : Type} {g : Pcb → β}

/-- What is read of a process does not depend on its segments. -/
def IgnoresSegments (g : Pcb → β) : Prop :=
  ∀ pcb table, g { pcb with segmentTable := table } = g pcb

theorem map_updatePcb {f : Pcb → Pcb} (keeps : ∀ pcb, g (f pcb) = g pcb) :
    (updatePcb s pid f).listProcesses.map g = s.listProcesses.map g :=
  map_updateFirst keeps _

section Segments

variable (apart : IgnoresSegments g)

include apart

theorem map_addSegments (s : State) (pid : UInt32) (ready : List SegmentReady) :
    (addSegments s pid ready).listProcesses.map g = s.listProcesses.map g :=
  map_updatePcb fun pcb => apart pcb _

theorem map_segmentInHole (segmentId size : UInt32) (chosen : Hole) :
    (segmentInHole s pid segmentId size chosen).2.listProcesses.map g =
      s.listProcesses.map g := by
  unfold segmentInHole
  split
  · rfl
  · exact map_addSegments apart ..

theorem map_compactLoop (l : List HeapSegment) (cursor : UInt32) (s : State) :
    (compactLoop l cursor s).listProcesses.map g = s.listProcesses.map g := by
  induction l generalizing cursor s with
  | nil => rfl
  | cons seg rest ih =>
      rw [compactLoop, ih]
      unfold moveSegment
      split
      · rw [setBase, List.map_map]
        exact List.map_congr_left fun pcb _ => apart pcb _
      · rfl

theorem map_segmentCreate (segmentId size : UInt32) :
    (segmentCreate s pid segmentId size).2.listProcesses.map g = s.listProcesses.map g := by
  simp only [segmentCreate]
  split
  · rfl
  · split
    · exact map_segmentInHole apart ..
    · split
      · exact map_compactLoop apart ..
      · rw [map_segmentInHole apart]
        exact map_compactLoop apart ..

theorem map_segmentDelete (segmentId : UInt32) :
    (segmentDelete s pid segmentId).2.listProcesses.map g = s.listProcesses.map g := by
  unfold segmentDelete
  split
  · rfl
  · split
    · rfl
    · split
      · rfl
      · exact map_updatePcb fun pcb => apart pcb _

theorem map_processDesuspend :
    (processDesuspend s pid).2.listProcesses.map g = s.listProcesses.map g := by
  unfold processDesuspend
  split
  · rfl
  · split
    · rfl
    · split
      · rfl
      · exact map_addSegments apart { s with devices := _ } pid _

/-- Only `PROCESS_CREATE` and `PROCESS_END` change which processes there are, and what is not
their segments. -/
theorem step_map {op : Op} (other : ∀ pid instructions, op ≠ .processCreate pid instructions)
    (lives : ∀ pid, op ≠ .processEnd pid) (taken : step s op = some s') :
    s'.listProcesses.map g = s.listProcesses.map g := by
  cases op with
  | processCreate pid instructions => exact absurd rfl (other pid instructions)
  | processEnd pid => exact absurd rfl (lives pid)
  | segmentCreate pid segmentId size =>
      obtain rfl := Option.some.inj taken
      exact map_segmentCreate apart ..
  | segmentDelete pid segmentId =>
      obtain rfl := Option.some.inj taken
      exact map_segmentDelete apart ..
  | processSuspend pid =>
      obtain ⟨⟨ok, s''⟩, called, rfl⟩ := Option.map_eq_some_iff.mp taken
      obtain ⟨-, d, -, rfl⟩ | ⟨-, pcb, suspended, d, done⟩ := processSuspend_cases called
      · rfl
      · rw [done.result]
        exact map_updatePcb fun pcb => apart pcb _
  | processDesuspend pid =>
      obtain rfl := Option.some.inj taken
      exact map_processDesuspend apart
  | connectStick id size =>
      obtain rfl := Option.some.inj taken
      rfl
  | ioMemoryWrite pid physicalAddress size rawData =>
      obtain rfl := Option.some.inj taken
      rfl

end Segments

theorem pids_processEnd (s : State) (pid : UInt32) :
    (processEnd s pid).listProcesses.map Pcb.pid = (s.listProcesses.map Pcb.pid).erase pid := by
  rw [List.erase_eq_eraseP', List.eraseP_map]
  rfl

/-- Only `PROCESS_CREATE` and `PROCESS_END` change which processes there are. -/
theorem step_pids {op : Op} (other : ∀ pid instructions, op ≠ .processCreate pid instructions)
    (lives : ∀ pid, op ≠ .processEnd pid) (taken : step s op = some s') :
    s'.listProcesses.map Pcb.pid = s.listProcesses.map Pcb.pid :=
  step_map (fun _ _ => rfl) other lives taken

end Pids

/-! ### What a step keeps -/

section Steps

variable {s s' : State} {op : Op}

/-- No two processes have the same pid. -/
def Distinct (s : State) : Prop := (s.listProcesses.map Pcb.pid).Nodup

/-- Whoever has segments in swap is in `list_processes`. -/
def StoredOwned (s : State) : Prop :=
  ∀ sp ∈ s.listSuspendedProcesses, sp.suspendedSegments ≠ [] →
    sp.pid ∈ s.listProcesses.map Pcb.pid

theorem step_distinct (distinct : Distinct s) (numbered : op.Numbered s)
    (taken : step s op = some s') : Distinct s' := by
  by_cases creates : ∃ pid instructions, op = .processCreate pid instructions
  · obtain ⟨pid, instructions, rfl⟩ := creates
    obtain rfl := Option.some.inj taken
    cases instructions with
    | none => exact distinct
    | some instructions =>
        simp only [Distinct, processCreate, List.map_append, List.map_cons, List.map_nil]
        rw [List.nodup_append]
        refine ⟨distinct, List.nodup_singleton _, ?_⟩
        intro p old p' new eq
        obtain rfl := List.mem_singleton.mp new
        exact numbered (eq ▸ old)
  · by_cases ends : ∃ pid, op = .processEnd pid
    · obtain ⟨pid, rfl⟩ := ends
      obtain rfl := Option.some.inj taken
      rw [Distinct, pids_processEnd]
      exact distinct.erase pid
    · rw [Distinct, step_pids (fun pid i eq => creates ⟨pid, i, eq⟩)
        (fun pid eq => ends ⟨pid, eq⟩) taken]
      exact distinct

/-- An entry of a pid with no segments in swap has none. -/
theorem no_segments {pid : UInt32} (none_stored : storedSegments s pid = [])
    {sp : SuspendedPcb} (mem : sp ∈ s.listSuspendedProcesses) (eq : sp.pid = pid) :
    sp.suspendedSegments = [] := by
  rw [storedSegments, List.flatMap_eq_nil_iff] at none_stored
  apply none_stored
  rw [List.mem_filter, beq_iff_eq]
  exact ⟨mem, eq⟩

/-- The segments in swap keep their owners unless one of these ends. -/
theorem step_storedOwned (owned : StoredOwned s) (resident : op.EndsResident s)
    (taken : step s op = some s') : StoredOwned s' := by
  by_cases suspends : ∃ pid, op = .processSuspend pid
  · obtain ⟨pid, rfl⟩ := suspends
    have pids := step_pids (by simp) (by simp) taken
    obtain ⟨⟨ok, s''⟩, called, rfl⟩ := Option.map_eq_some_iff.mp taken
    intro sp mem some_segment
    rw [pids]
    obtain ⟨-, d, -, rfl⟩ | ⟨-, pcb, suspended, d, done⟩ := processSuspend_cases called
    · exact owned sp mem some_segment
    · rw [done.result] at mem
      rcases List.mem_append.mp mem with old | new
      · exact owned sp old some_segment
      · obtain rfl := List.mem_singleton.mp new
        have found := done.found
        exact List.mem_map.mpr
          ⟨pcb, List.mem_of_find?_eq_some found, by simpa using List.find?_some found⟩
  · have entries := (step_shrinks (fun pid eq => suspends ⟨pid, eq⟩) taken).entries
    intro sp mem some_segment
    have before := owned sp (entries.subset mem) some_segment
    by_cases creates : ∃ pid instructions, op = .processCreate pid instructions
    · obtain ⟨pid, instructions, rfl⟩ := creates
      obtain rfl := Option.some.inj taken
      cases instructions with
      | none => exact before
      | some instructions =>
          simp only [processCreate, List.map_append]
          exact List.mem_append_left _ before
    · by_cases ends : ∃ pid, op = .processEnd pid
      · obtain ⟨pid, rfl⟩ := ends
        obtain rfl := Option.some.inj taken
        rw [pids_processEnd]
        refine (List.mem_erase_of_ne ?_).mpr before
        intro eq
        exact some_segment (no_segments resident mem eq)
      · rw [step_pids (fun pid i eq => creates ⟨pid, i, eq⟩) (fun pid eq => ends ⟨pid, eq⟩) taken]
        exact before

/-- Whose segments are in swap is in the list, so all that is in use is somebody's. -/
theorem StoredOwned.accounted (owned : StoredOwned s) : Accounted s := by
  constructor
  · intro b used
    obtain ⟨ss, among, mem⟩ := List.mem_flatMap.mp used
    obtain ⟨sp, entry, here⟩ := List.mem_flatMap.mp among
    obtain ⟨pcb, listed, eq⟩ := List.mem_map.mp (owned sp entry (List.ne_nil_of_mem here))
    refine ⟨pcb, listed, ss, List.mem_flatMap.mpr ⟨sp, ?_, here⟩, mem⟩
    rw [List.mem_filter, beq_iff_eq]
    exact ⟨entry, eq.symm⟩
  · intro b below
    exact free_or_used below
  · intro a high
    rcases in_hole_or_segment high with free | ⟨seg, among, inside⟩
    · exact .inl free
    · obtain ⟨pcb, listed, here⟩ := List.mem_flatMap.mp among
      exact .inr ⟨pcb, listed, seg, here, inside⟩

/-- The end of a process touches nothing in swap. -/
theorem released_iff (distinct : Distinct s) (pid : UInt32) :
    Released (processEnd s pid) pid ↔ storedSegments s pid = [] := by
  constructor
  · intro released
    exact released.stored
  · intro none_stored
    constructor
    · intro pcb mem eq
      have gone : pid ∉ (processEnd s pid).listProcesses.map Pcb.pid := by
        rw [pids_processEnd]
        exact distinct.not_mem_erase
      exact absurd (List.mem_map.mpr ⟨pcb, mem, eq⟩) gone
    · exact none_stored

end Steps

/-! ### Runs -/

section Reachable

variable {strategy : AllocationStrategy} {swapBlockSize swapTotalSize : UInt32}
  {swapFile : UInt32 → Nat → UInt8} {refusals : List Bool} {fresh : Nat → UInt8}

/-- **Termination releases everything, exactly when nothing is in swap**: in
every reachable state, the end of a process leaves it without segments and
blocks if and only if none of its segments is swapped out; and where all the
processes of the run that ended did so in that condition, every block and every
byte is free or belongs to a process of the list. -/
theorem termination_releases_iff {ops : List Op} {s : State}
    (run : Run step (fun s op => op.Numbered s)
      (initial strategy swapBlockSize swapTotalSize swapFile refusals fresh) ops s) :
    (∀ pid, Released (processEnd s pid) pid ↔ storedSegments s pid = []) ∧
      (Run step (fun s op => op.Numbered s ∧ op.EndsResident s)
          (initial strategy swapBlockSize swapTotalSize swapFile refusals fresh) ops s →
        Accounted s ∧ ∀ pid, storedSegments s pid = [] → Accounted (processEnd s pid)) := by
  constructor
  · intro pid
    apply released_iff
    exact run.invariant
      (fun (distinct : Distinct _) numbered taken => step_distinct distinct numbered taken)
      (by simp [Distinct, initial])
  · intro resident
    have owned : StoredOwned s := resident.invariant
      (fun (owned : StoredOwned _) guard taken => step_storedOwned owned guard.2 taken)
      (by simp [StoredOwned, initial])
    constructor
    · exact owned.accounted
    · intro pid none_stored
      have ended : step s (.processEnd pid) = some (processEnd s pid) := rfl
      have none_ends : (Op.processEnd pid).EndsResident s := none_stored
      exact (step_storedOwned owned none_ends ended).accounted

end Reachable

/-- A process ends in memory while the segment of another one is in swap. -/
theorem termination_releases_of_two : ∃ s,
    usedBlocks s = [0] ∧ s.listProcesses.map Pcb.pid = [2] ∧ Accounted s ∧
      ¬ Released (processEnd s 2) 2 := by
  obtain ⟨s, run, test⟩ := Run.exists_of_exec step
    (fun s op => op.Numbered s ∧ op.EndsResident s)
    [.connectStick 0 4, .processCreate 1 (some []), .processCreate 2 (some []),
      .segmentCreate 1 0 1, .segmentCreate 2 0 1, .processSuspend 2, .processEnd 1]
    (initial .worst 4 16 (fun _ _ => 0) [] fun _ => 0)
    (fun s => usedBlocks s == [0] && s.listProcesses.map Pcb.pid == [2] &&
      storedSegments s 2 != []) (by decide)
  simp only [Bool.and_eq_true, beq_iff_eq, bne_iff_ne] at test
  obtain ⟨⟨used, pids⟩, stored⟩ := test
  obtain ⟨released, accounted⟩ := termination_releases_iff (run.mono fun _ _ guard => guard.1)
  refine ⟨s, used, pids, (accounted run).1, ?_⟩
  rw [released 2]
  exact stored

/-- The only process ends while it is suspended: its segment stays in swap, and
nobody has the block. -/
theorem leaked : ∃ ops s pid,
    Run step (fun s op => op.Admissible s ∧ op.Numbered s)
      (initial .worst 4 16 (fun _ _ => 0) [] fun _ => 0) ops s ∧
      ¬ Released (processEnd s pid) pid ∧ ¬ Accounted (processEnd s pid) := by
  obtain ⟨s, run, test⟩ := Run.exists_of_exec step
    (fun s op => op.Admissible s ∧ op.Numbered s)
    [.connectStick 0 4, .processCreate 1 (some []), .segmentCreate 1 0 1, .processSuspend 1]
    (initial .worst 4 16 (fun _ _ => 0) [] fun _ => 0)
    (fun s => usedBlocks (processEnd s 1) == [0] && (processEnd s 1).listProcesses.isEmpty &&
      storedSegments (processEnd s 1) 1 != []) (by decide)
  simp only [Bool.and_eq_true, beq_iff_eq, bne_iff_ne, List.isEmpty_iff] at test
  obtain ⟨⟨used, empty⟩, stored⟩ := test
  refine ⟨_, s, 1, run, ?_, ?_⟩
  · intro released
    exact stored released.stored
  · intro accounted
    obtain ⟨pcb, listed, -⟩ := accounted.used 0 (by rw [used]; exact List.mem_cons_self)
    rw [empty] at listed
    exact absurd listed List.not_mem_nil

end OsModel.KernelMemory
