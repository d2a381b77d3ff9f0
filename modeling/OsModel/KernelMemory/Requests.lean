import OsModel.KernelMemory.Threads

/-!
What one step may do to the segments: the ones it frees, the ranges it takes,
and the bytes it leaves alone.
-/

namespace OsModel.KernelMemory

open Lib Span

/-- The segments a request frees, if it succeeds. -/
def freedBy (s : State) : Op → List HeapSegment
  | .processEnd pid | .processSuspend pid => ((findPcb s pid).map Pcb.segmentTable).getD []
  | .segmentDelete pid segmentId =>
      ((findPcb s pid).bind fun pcb =>
        pcb.segmentTable.find? fun seg => seg.segmentId == segmentId).toList
  | _ => []

/-- The ranges a request takes, if it succeeds. -/
def takenBy (s : State) : Op → List Span
  | .processDesuspend pid => (suspendedOf s pid).filterMap fun ss => placeFor s ss.size
  | _ => []

/-- A step that frees no segment but `freed` and takes no range but `taken`. -/
structure Effect (s s' : State) (freed : List HeapSegment) (taken : List Span) : Prop where
  survives : ∀ seg ∈ allSegments s, seg ∉ freed → seg ∈ allSegments s'
  old : ∀ seg ∈ allSegments s', seg ∈ allSegments s ∨ s.nextPtr ≤ seg.ptr ∧ seg.span ∈ taken
  bytes : ∀ i n, (∀ sp ∈ taken, Apart ⟨i, n⟩ sp) →
    slice (flat s'.devices.listMemoryStick) i n = slice (flat s.devices.listMemoryStick) i n
  total : s'.totalMemorySize = s.totalMemorySize
  ptrs : s.nextPtr ≤ s'.nextPtr
  refusals : s.devices.refusals = [] → s'.devices.refusals = []

section Effects

variable {s s' : State} {pid : UInt32}

theorem Effect.refl (s : State) (freed : List HeapSegment) (taken : List Span) :
    Effect s s freed taken :=
  ⟨fun _ mem _ => mem, fun _ mem => .inl mem, fun _ _ _ => rfl, rfl, le_refl _, id⟩

/-- New segments, recorded in the table of a process. -/
theorem addSegments_effect {pcb : Pcb} {ready : List SegmentReady}
    (found : findPcb s pid = some pcb) :
    Effect s (addSegments s pid ready) [] (ready.map SegmentReady.span) := by
  have perm := allSegments_addSegments ready found
  refine ⟨fun seg mem _ => perm.mem_iff.mpr (List.mem_append_left _ mem), fun seg mem => ?_,
    fun _ _ _ => rfl, rfl, Nat.le_add_right .., id⟩
  rcases List.mem_append.mp (perm.mem_iff.mp mem) with old | new
  · exact .inl old
  · right
    have address := List.mem_map_of_mem (f := HeapSegment.ptr) new
    have span := List.mem_map_of_mem (f := HeapSegment.span) new
    rw [allocSegments_ptrs, List.mem_range'_1] at address
    rw [allocSegments_spans] at span
    exact ⟨address.1, span⟩

theorem processCreate_effect {instructions : Option (List String)} :
    Effect s (processCreate s pid instructions) [] [] := by
  cases instructions with
  | none => exact .refl ..
  | some instructions =>
      have same : allSegments (processCreate s pid (some instructions)) = allSegments s := by
        simp [allSegments, processCreate]
      exact ⟨fun seg mem _ => same ▸ mem, fun seg mem => .inl (same ▸ mem), fun _ _ _ => rfl, rfl,
        le_refl _, id⟩

theorem processEnd_effect :
    Effect s (processEnd s pid) (freedBy s (.processEnd pid)) [] := by
  cases found : findPcb s pid with
  | none =>
      have same : processEnd s pid = s := by
        rw [processEnd, List.eraseP_of_forall_not (List.find?_eq_none.mp found)]
      rw [same]
      exact .refl ..
  | some pcb =>
      obtain ⟨before, after, split, erased⟩ := eraseP_split found
      have old : allSegments s = before.flatMap Pcb.segmentTable ++
          (pcb.segmentTable ++ after.flatMap Pcb.segmentTable) := by
        rw [allSegments, split, List.flatMap_append, List.flatMap_cons]
      have new : allSegments (processEnd s pid) = before.flatMap Pcb.segmentTable ++
          after.flatMap Pcb.segmentTable := by
        rw [allSegments, processEnd, erased, List.flatMap_append]
      refine ⟨fun seg mem kept => ?_, fun seg mem => .inl ?_, fun _ _ _ => rfl, rfl, le_refl _, id⟩
      · rw [old, List.mem_append, List.mem_append] at mem
        simp only [freedBy, found, Option.map_some, Option.getD_some] at kept
        rw [new, List.mem_append]
        rcases mem with mem | mem | mem
        · exact .inl mem
        · exact absurd mem kept
        · exact .inr mem
      · rw [new, List.mem_append] at mem
        rw [old, List.mem_append, List.mem_append]
        exact mem.imp_right .inr

/-- A process whose table shrinks to some of its segments. -/
theorem updatePcb_effect {pcb : Pcb} {f : Pcb → Pcb} {freed : List HeapSegment} {d : Devices}
    (found : findPcb s pid = some pcb)
    (fewer : ∀ seg ∈ (f pcb).segmentTable, seg ∈ pcb.segmentTable)
    (kept : ∀ seg ∈ pcb.segmentTable, seg ∉ freed → seg ∈ (f pcb).segmentTable)
    (sticks : d.listMemoryStick = s.devices.listMemoryStick)
    (refusals : s.devices.refusals = [] → d.refusals = []) :
    Effect s (updatePcb { s with devices := d } pid f) freed [] := by
  obtain ⟨before, after, old, new⟩ :=
    allSegments_updatePcb (s := { s with devices := d }) (f := f) found
  have old' : allSegments s = before ++ pcb.segmentTable ++ after := old
  refine ⟨fun seg mem out => ?_, fun seg mem => .inl ?_, fun i n _ => ?_, rfl, le_refl _, refusals⟩
  · rw [old', List.mem_append, List.mem_append] at mem
    rw [new, List.mem_append, List.mem_append]
    exact mem.imp_left fun mem => mem.imp_right fun mem => kept seg mem out
  · rw [new, List.mem_append, List.mem_append] at mem
    rw [old', List.mem_append, List.mem_append]
    exact mem.imp_left fun mem => mem.imp_right (fewer seg)
  · simp only [updatePcb, sticks]

theorem segmentDelete_effect {segmentId : UInt32} (sound : Sound s) :
    Effect s (segmentDelete s pid segmentId).2 (freedBy s (.segmentDelete pid segmentId)) [] := by
  unfold segmentDelete
  split
  · exact .refl ..
  · rename_i pcb found
    split
    · exact .refl ..
    · rename_i segmentToDelete matched
      split
      · exact .refl ..
      · rename_i index at_index
        obtain ⟨bound, same, -⟩ := List.findIdx?_eq_some_iff_getElem.mp at_index
        have resident : ∀ seg ∈ pcb.segmentTable, seg ∈ allSegments s := fun seg mem =>
          List.mem_flatMap.mpr ⟨pcb, List.mem_of_find?_eq_some found, mem⟩
        refine updatePcb_effect found (fun seg mem => List.mem_of_mem_eraseIdx mem)
          (fun seg mem out => ?_) rfl id
        obtain ⟨i, here⟩ := List.mem_iff_getElem?.mp mem
        refine List.mem_eraseIdx_iff_getElem?.mpr ⟨i, ?_, here⟩
        rintro rfl
        rw [List.getElem?_eq_getElem bound] at here
        obtain rfl := Option.some.inj here
        have eq : pcb.segmentTable[i] = segmentToDelete :=
          List.inj_on_of_nodup_map sound.distinct (resident _ (List.getElem_mem bound))
            (resident _ (List.mem_of_find?_eq_some matched)) (beq_iff_eq.mp same)
        simp [freedBy, found, matched, eq] at out

theorem processSuspend_effect {ok : Bool} (called : processSuspend s pid = some (ok, s')) :
    Effect s s' (freedBy s (.processSuspend pid)) [] := by
  obtain ⟨-, d, only, rfl⟩ | ⟨-, pcb, suspended, d, done⟩ := processSuspend_cases called
  · exact ⟨fun _ mem _ => mem, fun _ mem => .inl mem, fun _ _ _ => by simp only [only.sticks], rfl,
      le_refl _, only.refusals⟩
  · obtain ⟨found, -, -, only, rfl⟩ := done
    have effect : Effect s (updatePcb { s with devices := d } pid fun pcb =>
        { pcb with segmentTable := [] }) (freedBy s (.processSuspend pid)) [] :=
      updatePcb_effect found (fun seg mem => by simp at mem)
        (fun seg mem out => by simp [freedBy, found, mem] at out) only.sticks only.refusals
    exact ⟨effect.survives, effect.old, effect.bytes, effect.total, effect.ptrs, effect.refusals⟩

theorem processDesuspend_effect {ok : Bool} (sound : Sound s)
    (called : processDesuspend s pid = (ok, s')) :
    Effect s s' [] (takenBy s (.processDesuspend pid)) := by
  have unwritten : ∀ {d : Devices}, FreeOnly s (suspendedOf s pid) s.devices d → ∀ i n,
      (∀ sp ∈ takenBy s (.processDesuspend pid), Apart ⟨i, n⟩ sp) →
      slice (flat d.listMemoryStick) i n = slice (flat s.devices.listMemoryStick) i n :=
    fun only i n apart => only.outside i n fun ss mem sp place =>
      apart sp (List.mem_filterMap.mpr ⟨ss, mem, place⟩)
  obtain ⟨-, d, only, rfl⟩ | ⟨-, sp, pcb, ready, d, done⟩ := processDesuspend_cases sound called
  · exact ⟨fun _ mem _ => mem, fun _ mem => .inl mem, unwritten only, rfl, le_refl _, only.refusals⟩
  · obtain ⟨suspended, found, -, places, only, rfl⟩ := done
    rw [← suspendedOf_eq suspended] at places only
    have effect : Effect { s with devices := d } (addSegments { s with devices := d } pid ready) []
        (ready.map SegmentReady.span) := addSegments_effect found
    refine ⟨effect.survives, fun seg mem => ?_, unwritten only, rfl, effect.ptrs, only.refusals⟩
    refine (effect.old seg mem).imp_right fun ⟨address, span⟩ => ⟨address, ?_⟩
    obtain ⟨sr, among, eq⟩ := List.mem_map.mp span
    obtain ⟨ss, hss, place⟩ := exists_of_mem_forall₂ places among
    obtain ⟨chosen, selected, base⟩ := place.hole
    refine List.mem_filterMap.mpr ⟨ss, hss, ?_⟩
    rw [placeFor_of_selectHole selected, ← eq, SegmentReady.span, base, place.size]

/-- What a request may do. -/
theorem step_effect {op : Op} (sound : Sound s) (handled : op.Handled = true)
    (taken : step s op = some s') : Effect s s' (freedBy s op) (takenBy s op) := by
  cases op with
  | processCreate pid instructions =>
      obtain rfl := Option.some.inj taken
      exact processCreate_effect
  | processEnd pid =>
      obtain rfl := Option.some.inj taken
      exact processEnd_effect
  | segmentDelete pid segmentId =>
      obtain rfl := Option.some.inj taken
      exact segmentDelete_effect sound
  | processSuspend pid =>
      obtain ⟨⟨ok, s''⟩, called, rfl⟩ := Option.map_eq_some_iff.mp taken
      exact processSuspend_effect called
  | processDesuspend pid =>
      obtain rfl := Option.some.inj taken
      exact processDesuspend_effect sound (Prod.mk.eta (p := processDesuspend s pid)).symm
  | segmentCreate pid segmentId size => simp [Op.Handled] at handled
  | connectStick id size => simp [Op.Handled] at handled
  | ioMemoryWrite pid physicalAddress size rawData => simp [Op.Handled] at handled

end Effects

end OsModel.KernelMemory
