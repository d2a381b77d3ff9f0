import OsModel.KernelMemory.Swap
import OsModel.Lib.Run

/-!
Kernel Memory as a state machine: the operations its handlers run, each of them
atomic.

`processSuspend_cases` and `processDesuspend_cases` say all that the two swap
operations can do. A resumption keeps the state sound exactly when the segments
it brings back are given different holes (`desuspended_sound`,
`desuspended_layout_iff`).
-/

namespace OsModel.KernelMemory

open Lib Span

inductive Op where
  | processCreate (pid : UInt32) (instructions : Option (List String))
  | processEnd (pid : UInt32)
  | segmentCreate (pid segmentId size : UInt32)
  | segmentDelete (pid segmentId : UInt32)
  | processSuspend (pid : UInt32)
  | processDesuspend (pid : UInt32)
  | connectStick (id size : UInt32)
  | ioMemoryWrite (pid physicalAddress size : UInt32) (rawData : List UInt8)
  deriving DecidableEq, Repr

/-- `padded_data` of the handler of `IO_MEMORY_WRITE`. -/
def paddedData (size : UInt32) (rawData : List UInt8) : List UInt8 :=
  rawData.take size.toNat ++ List.replicate (size.toNat - rawData.length) 0

/-- The handler of `IO_MEMORY_WRITE`: whether the data could be written. -/
def ioMemoryWrite (s : State) (physicalAddress size : UInt32) (rawData : List UInt8) :
    Bool × State :=
  match memoryWrite s.devices physicalAddress (paddedData size rawData) size with
  | (couldWrite, d) => (couldWrite, { s with devices := d })

/-- One operation; `none` when Kernel Memory dies of it. -/
def step (s : State) : Op → Option State
  | .processCreate pid instructions => some (processCreate s pid instructions)
  | .processEnd pid => some (processEnd s pid)
  | .segmentCreate pid segmentId size => some (segmentCreate s pid segmentId size).2
  | .segmentDelete pid segmentId => some (segmentDelete s pid segmentId).2
  | .processSuspend pid => (processSuspend s pid).map Prod.snd
  | .processDesuspend pid => some (processDesuspend s pid).2
  | .connectStick id size => some (connectStick s id size)
  | .ioMemoryWrite _ physicalAddress size rawData =>
      some (ioMemoryWrite s physicalAddress size rawData).2

/-- Kernel Memory before any stick or process, once SWAP has announced itself. -/
def initial (allocationStrategy : AllocationStrategy) (swapBlockSize swapTotalSize : UInt32)
    (swapFile : UInt32 → Nat → UInt8) (refusals : List Bool) (fresh : Nat → UInt8) : State where
  devices := ⟨[], swapFile, refusals, fresh⟩
  totalMemorySize := 0
  allocationStrategy := allocationStrategy
  swapBlockSize := swapBlockSize
  swapTotalSize := swapTotalSize
  listProcesses := []
  listSuspendedProcesses := []
  nextPtr := 0

/-- The sizes Kernel Memory is promised: segments and sticks have at least a
byte, and the sticks fit 32-bit addresses. -/
def Op.Admissible (s : State) : Op → Prop
  | .segmentCreate _ _ size => 0 < size
  | .connectStick _ size => 0 < size ∧ s.totalMemorySize.toNat + size.toNat < 2 ^ 32
  | _ => True

instance (s : State) (op : Op) : Decidable (op.Admissible s) := by
  cases op <;> unfold Op.Admissible <;> infer_instance

/-! ### The two swap operations -/

section Cases

variable {s s' : State} {pid : UInt32} {ok : Bool}

/-- A process whose suspension succeeded. -/
structure Suspended (s : State) (pid : UInt32) (pcb : Pcb) (suspended : List SuspendedSegment)
    (d : Devices) (s' : State) : Prop where
  found : findPcb s pid = some pcb
  loop : suspendLoop s pcb.segmentTable s.devices = (some suspended, d)
  entries : List.Forall₂ (Suspends s) pcb.segmentTable suspended
  only : SwapOnly s s.devices d
  result : s' =
    { updatePcb { s with devices := d } pid fun pcb => { pcb with segmentTable := [] } with
      listSuspendedProcesses := s.listSuspendedProcesses ++ [⟨pid, suspended⟩] }

/-- All that `process_suspend` can do. -/
theorem processSuspend_cases (called : processSuspend s pid = some (ok, s')) :
    (ok = false ∧ ∃ d, SwapOnly s s.devices d ∧ s' = { s with devices := d }) ∨
      (ok = true ∧ ∃ pcb suspended d, Suspended s pid pcb suspended d s') := by
  unfold processSuspend at called
  split at called
  · obtain ⟨rfl, rfl⟩ := Prod.mk.inj (Option.some.inj called)
    exact .inl ⟨rfl, s.devices, .of_advanced (.refl _), rfl⟩
  · rename_i pcb found
    obtain ⟨only, entries⟩ := suspendLoop_spec s pcb.segmentTable s.devices
    split at called
    · simp at called
    · split at called
      · rename_i d failed
        rw [failed] at only
        obtain ⟨rfl, rfl⟩ := Prod.mk.inj (Option.some.inj called)
        exact .inl ⟨rfl, d, only, rfl⟩
      · rename_i suspended d stored
        obtain ⟨rfl, rfl⟩ := Prod.mk.inj (Option.some.inj called)
        rw [stored] at only entries
        exact .inr ⟨rfl, pcb, suspended, d, found, stored, entries suspended rfl, only, rfl⟩

/-- The suspended segments of a process. -/
def suspendedOf (s : State) (pid : UInt32) : List SuspendedSegment :=
  match findSuspended s pid with
  | none => []
  | some sp => sp.suspendedSegments

theorem suspendedOf_eq {sp : SuspendedPcb} (found : findSuspended s pid = some sp) :
    suspendedOf s pid = sp.suspendedSegments := by
  rw [suspendedOf, found]

/-- A process whose resumption succeeded. -/
structure Desuspended (s : State) (pid : UInt32) (sp : SuspendedPcb) (pcb : Pcb)
    (ready : List SegmentReady) (d : Devices) (s' : State) : Prop where
  suspended : findSuspended s pid = some sp
  found : findPcb s pid = some pcb
  loop : desuspendLoop s sp.suspendedSegments s.devices = (some ready, d)
  places : List.Forall₂ (Readies s) sp.suspendedSegments ready
  only : FreeOnly s sp.suspendedSegments s.devices d
  result : s' =
    { addSegments { s with devices := d } pid ready with
      listSuspendedProcesses := s.listSuspendedProcesses.eraseP fun sp => sp.pid == pid }

/-- All that `process_desuspend` can do. -/
theorem processDesuspend_cases (sound : Sound s) (called : processDesuspend s pid = (ok, s')) :
    (ok = false ∧ ∃ d, FreeOnly s (suspendedOf s pid) s.devices d ∧
        s' = { s with devices := d }) ∨
      (ok = true ∧ ∃ sp pcb ready d, Desuspended s pid sp pcb ready d s') := by
  unfold processDesuspend at called
  split at called
  · obtain ⟨rfl, rfl⟩ := Prod.mk.inj called
    exact .inl ⟨rfl, s.devices, .of_advanced (.refl _), rfl⟩
  · rename_i sp suspended
    obtain ⟨only, places⟩ := desuspendLoop_spec sound sp.suspendedSegments sound.total.symm
    split at called
    · rename_i d failed
      rw [failed, ← suspendedOf_eq suspended] at only
      obtain ⟨rfl, rfl⟩ := Prod.mk.inj called
      exact .inl ⟨rfl, d, only, rfl⟩
    · rename_i ready d loop
      rw [loop] at only places
      split at called
      · obtain ⟨rfl, rfl⟩ := Prod.mk.inj called
        exact .inl ⟨rfl, d, suspendedOf_eq suspended ▸ only, rfl⟩
      · rename_i pcb found
        obtain ⟨rfl, rfl⟩ := Prod.mk.inj called
        exact .inr ⟨rfl, sp, pcb, ready, d, suspended, found, loop, places ready rfl, only, rfl⟩

end Cases

/-! ### The invariant -/

section Sound

variable {s s' : State} {pid : UInt32} {ok : Bool}

/-- Only the devices change, and the sticks keep their sizes. -/
theorem Sound.of_devices (sound : Sound s) {d : Devices}
    (total : stickTotal d.listMemoryStick = stickTotal s.devices.listMemoryStick) :
    Sound { s with devices := d } :=
  sound.of_sublist (.refl _) rfl total sound.suspendedSized rfl

theorem processSuspend_sound (sound : Sound s) (called : processSuspend s pid = some (ok, s')) :
    Sound s' := by
  obtain ⟨-, d, only, rfl⟩ | ⟨-, pcb, suspended, d, done⟩ :=
    processSuspend_cases called
  · exact sound.of_devices (by rw [only.sticks])
  · obtain ⟨found, -, entries, only, rfl⟩ := done
    refine sound.of_sublist ?_ rfl (by simp only [updatePcb, only.sticks]) ?_ rfl
    · exact allSegments_updatePcb_sublist (s := { s with devices := d }) fun pcb =>
        List.nil_sublist _
    · intro ss mem
      simp only [allSuspendedSegments, List.flatMap_append, List.mem_append] at mem
      rcases mem with old | new
      · exact sound.suspendedSized ss old
      · simp only [List.flatMap_cons, List.flatMap_nil, List.append_nil] at new
        obtain ⟨seg, hseg, entry⟩ := exists_of_mem_forall₂ entries new
        rw [entry.size]
        exact sound.placed.sized seg
          (List.mem_flatMap.mpr ⟨pcb, List.mem_of_find?_eq_some found, hseg⟩)

section Resume

variable {sp : SuspendedPcb} {pcb : Pcb} {ready : List SegmentReady} {d : Devices}

/-- Two segments that come back overlap unless the strategy separates their
sizes. -/
theorem Readies.apart_iff {a b : SuspendedSegment} {sr sr' : SegmentReady} (sound : Sound s)
    (ra : Readies s a sr) (rb : Readies s b sr') (pa : 0 < a.size.toNat) (pb : 0 < b.size.toNat) :
    sr.span.Apart sr'.span ↔
      Separates s.allocationStrategy (getFreeHoles s) a.size b.size := by
  obtain ⟨-, size, hole, selected, base⟩ := ra
  obtain ⟨-, size', hole', selected', base'⟩ := rb
  obtain ⟨among, enough⟩ := selectHole_mem selected
  obtain ⟨among', enough'⟩ := selectHole_mem selected'
  rw [UInt32.le_iff_toNat_le] at enough enough'
  rw [← selectHole_ne_iff selected selected']
  constructor
  · rintro apart rfl
    simp only [Apart, SegmentReady.span, stop, base, base', size, size'] at apart
    omega
  · intro ne
    refine (getFreeHoles_apart sound among among' ne).of_subset ?_ ?_ <;>
      simp only [SegmentReady.span, Hole.span, stop, base, base', size, size'] <;> omega

/-- The segments of the entry come back apart exactly when every two of their
sizes are separated. -/
theorem Desuspended.pairwise_iff (sound : Sound s)
    (done : Desuspended s pid sp pcb ready d s') :
    (ready.Pairwise fun a b => a.span.Apart b.span) ↔
      sp.suspendedSegments.Pairwise fun a b =>
        Separates s.allocationStrategy (getFreeHoles s) a.size b.size := by
  have sized : ∀ ss ∈ sp.suspendedSegments, 0 < ss.size.toNat := fun ss mem =>
    sound.suspendedSized ss
      (List.mem_flatMap.mpr ⟨sp, List.mem_of_find?_eq_some done.suspended, mem⟩)
  have places : List.Forall₂ (fun ss sr => 0 < ss.size.toNat ∧ Readies s ss sr)
      sp.suspendedSegments ready :=
    (List.forall₂_and_left (p := fun ss => 0 < ss.size.toNat) _ _).mpr ⟨sized, done.places⟩
  refine (pairwise_iff_of_forall₂ ?_ places).symm
  rintro a sr b sr' ⟨pa, ra⟩ ⟨pb, rb⟩
  exact (ra.apart_iff sound rb pa pb).symm

/-- The state before the new segments are recorded. -/
private theorem Desuspended.before (sound : Sound s)
    (done : Desuspended s pid sp pcb ready d s') :
    Sound { s with
      devices := d
      listSuspendedProcesses := s.listSuspendedProcesses.eraseP fun sp => sp.pid == pid } := by
  refine sound.of_sublist (.refl _) rfl done.only.total ?_ rfl
  intro ss mem
  obtain ⟨entry, among, hss⟩ := List.mem_flatMap.mp mem
  exact sound.suspendedSized ss
    (List.mem_flatMap.mpr ⟨entry, List.mem_of_mem_eraseP among, hss⟩)

/-- Every segment that comes back lies in free memory. -/
theorem Desuspended.free (sound : Sound s) (done : Desuspended s pid sp pcb ready d s')
    {sr : SegmentReady} (mem : sr ∈ ready) :
    sr.span.stop ≤ s.totalMemorySize.toNat ∧ 0 < sr.span.size ∧
      ∀ seg ∈ allSegments s, sr.span.Apart seg.span := by
  obtain ⟨ss, hss, place⟩ := exists_of_mem_forall₂ done.places mem
  obtain ⟨hole, among, -, low, high⟩ := place.in_hole
  obtain ⟨-, below, free⟩ := getFreeHoles_free sound among
  refine ⟨high.trans below, ?_, fun seg hseg => ?_⟩
  · simp only [SegmentReady.span, place.size]
    exact sound.suspendedSized ss
      (List.mem_flatMap.mpr ⟨sp, List.mem_of_find?_eq_some done.suspended, hss⟩)
  · exact (free seg hseg).of_subset ⟨low, high⟩ ⟨le_refl _, le_refl _⟩

/-- A resumption whose segments are separated keeps the invariant. -/
theorem Desuspended.sound (sound : Sound s) (done : Desuspended s pid sp pcb ready d s')
    (separated : sp.suspendedSegments.Pairwise fun a b =>
      Separates s.allocationStrategy (getFreeHoles s) a.size b.size) : Sound s' := by
  rw [done.result]
  exact addSegments_sound (done.before sound) done.found
    ((done.pairwise_iff sound).mpr separated) (fun sr mem => (done.free sound mem).1)
    (fun sr mem => (done.free sound mem).2.1) (fun sr mem => (done.free sound mem).2.2)

/-- **Exactly when a resumption keeps the layout**: all two segments of the
entry are given different holes. -/
theorem Desuspended.layout_iff (sound : Sound s) (done : Desuspended s pid sp pcb ready d s') :
    Layout s' ↔ sp.suspendedSegments.Pairwise fun a b =>
      Separates s.allocationStrategy (getFreeHoles s) a.size b.size := by
  refine ⟨fun layout => ?_, fun separated => (done.sound sound separated).layout⟩
  have perm := allSegments_addSegments (s := { s with devices := d }) ready done.found
  have apart := layout.apart
  rw [done.result] at apart
  replace apart := (perm.pairwise_iff fun apart => Apart.symm apart).mp apart
  have added := List.pairwise_map.mpr (List.pairwise_append.mp apart).2.1
  rw [allocSegments_spans] at added
  exact (done.pairwise_iff sound).mp (List.pairwise_map.mp added)

end Resume

/-- The condition on resumptions that keeps the layout: if the process and its
entry are there and every segment of the entry fits some hole, then every two of
the segments are given different holes. -/
def Separated (s : State) (pid : UInt32) : Prop :=
  ∀ sp, findSuspended s pid = some sp → (findPcb s pid).isSome →
    (∀ ss ∈ sp.suspendedSegments, ∃ hole ∈ getFreeHoles s, ss.size ≤ hole.size) →
    sp.suspendedSegments.Pairwise fun a b =>
      Separates s.allocationStrategy (getFreeHoles s) a.size b.size

theorem Desuspended.pairwise_of_separated {sp : SuspendedPcb} {pcb : Pcb}
    {ready : List SegmentReady} {d : Devices} (done : Desuspended s pid sp pcb ready d s')
    (separated : Separated s pid) :
    sp.suspendedSegments.Pairwise fun a b =>
      Separates s.allocationStrategy (getFreeHoles s) a.size b.size := by
  refine separated sp done.suspended (by rw [done.found]; rfl) fun ss mem => ?_
  obtain ⟨sr, -, place⟩ := exists_of_mem_forall₂ done.places.flip mem
  obtain ⟨hole, selected, -⟩ := place.hole
  exact selectHole_isSome.mp (by rw [selected]; rfl)

theorem processDesuspend_sound (sound : Sound s) (separated : Separated s pid) :
    Sound (processDesuspend s pid).2 := by
  obtain ⟨-, d, only, eq⟩ | ⟨-, sp, pcb, ready, d, done⟩ :=
    processDesuspend_cases sound (Prod.mk.eta (p := processDesuspend s pid)).symm
  · rw [eq]
    exact sound.of_devices only.total
  · exact done.sound sound (done.pairwise_of_separated separated)

/-- The padded data has the size of the request. -/
theorem length_paddedData (size : UInt32) (rawData : List UInt8) :
    (paddedData size rawData).length = size.toNat := by
  simp only [paddedData, List.length_append, List.length_take, List.length_replicate]
  omega

theorem ioMemoryWrite_sound {physicalAddress size : UInt32} {rawData : List UInt8}
    (sound : Sound s) : Sound (ioMemoryWrite s physicalAddress size rawData).2 :=
  sound.of_devices (memoryWrite_spec _ _ sound.fits (length_paddedData size rawData)).1.stickTotal_eq

/-- What an operation has to satisfy, beyond its sizes, for the layout. -/
def Op.Separated (s : State) : Op → Prop
  | .processDesuspend pid => KernelMemory.Separated s pid
  | _ => True

/-- **One operation keeps the invariant.** -/
theorem step_sound {op : Op} (sound : Sound s) (admissible : op.Admissible s)
    (separated : op.Separated s) (taken : step s op = some s') : Sound s' := by
  cases op with
  | processCreate pid instructions =>
      obtain rfl := Option.some.inj taken
      exact processCreate_sound sound
  | processEnd pid =>
      obtain rfl := Option.some.inj taken
      exact processEnd_sound sound
  | segmentCreate pid segmentId size =>
      obtain rfl := Option.some.inj taken
      exact segmentCreate_sound sound admissible
  | segmentDelete pid segmentId =>
      obtain rfl := Option.some.inj taken
      exact segmentDelete_sound sound
  | processSuspend pid =>
      obtain ⟨⟨ok, s''⟩, called, rfl⟩ := Option.map_eq_some_iff.mp taken
      exact processSuspend_sound sound called
  | processDesuspend pid =>
      obtain rfl := Option.some.inj taken
      exact processDesuspend_sound sound separated
  | connectStick id size =>
      obtain rfl := Option.some.inj taken
      exact connectStick_sound sound admissible.2
  | ioMemoryWrite pid physicalAddress size rawData =>
      obtain rfl := Option.some.inj taken
      exact ioMemoryWrite_sound sound

theorem initial_sound (strategy : AllocationStrategy) (swapBlockSize swapTotalSize : UInt32)
    (swapFile : UInt32 → Nat → UInt8) (refusals : List Bool) (fresh : Nat → UInt8) :
    Sound (initial strategy swapBlockSize swapTotalSize swapFile refusals fresh) :=
  ⟨.nil, rfl, by simp [allSuspendedSegments, initial], by simp [allSegments, initial],
    by simp [allSegments, initial]⟩

end Sound

end OsModel.KernelMemory
